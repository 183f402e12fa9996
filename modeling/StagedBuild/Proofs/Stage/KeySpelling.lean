import Mathlib.Data.List.Forall2
import StagedBuild.Guide
import StagedBuild.Proofs.Text.Trim

/-!
# How a stage key may be written

A stage is found by its key with white space around it, in which any of the underscores may be a dash. The
guide takes capital letters for small ones besides, but only those of ASCII. Nothing else is understood,
and no text is understood as two stages.

## Main definitions

* `Text.Writes`: a text writes a word, given how single characters may be written.
* `StageId.WrittenIn`: a text that the key of a stage may be written as.
* `StageId.WrittenInAnyCase`: as before, with letters in either case.

## Main results

* `Text.map_trim_eq_iff`: what is trimmed and then rewritten character by character to a word.
* `StageId.parse?_eq_some_iff`: the texts that name a stage.
* `StageId.writtenIn_lowerAscii_iff`: writing in either case, before and after letters are lowered.
* `Guide.lookup?_eq_some_iff`: the texts that name an entry of the guide.
-/

namespace StagedBuild

-- ════════════════════════════════════════════════════════════════════════
-- Words written character by character
-- ════════════════════════════════════════════════════════════════════════

namespace Text

/-- The text is white space around characters that may be written for those of the word, one for one. -/
def Writes (mayStandFor : Char → Char → Prop) (word text : String) : Prop :=
  ∃ written, Padded written text ∧ List.Forall₂ mayStandFor written.toList word.toList

variable {f : Char → Char} {word text : String}

theorem solid_of_forall {cs : List Char} (h : ∀ c ∈ cs, isBlank c = false) : Solid cs := by
  constructor
  · cases hhead : cs.head? with
    | none => rfl
    | some c => exact h c (List.mem_of_mem_head? hhead)
  · cases hlast : cs.getLast? with
    | none => rfl
    | some c => exact h c (List.mem_of_getLast? hlast)

/-- Rewriting that neither makes white space nor takes it away can be done before trimming or after. -/
theorem trimChars_map (hf : ∀ c, isBlank (f c) = isBlank c) (cs : List Char) :
    trimChars (cs.map f) = (trimChars cs).map f := by
  have hblank : isBlank ∘ f = isBlank := funext hf
  rw [trimChars, List.dropWhile_map, hblank, ← List.map_reverse, List.dropWhile_map, hblank,
    ← List.map_reverse, trimChars]

/-- The texts that become a word when they are trimmed and then rewritten. White space must not be
rewritten to a character of the word. -/
theorem map_trim_eq_iff (hword : ∀ c, isBlank c = true → f c ∉ word.toList) :
    (trim text).toList.map f = word.toList ↔ Writes (fun c d => f c = d) word text := by
  have hmap : ∀ written : String,
      List.Forall₂ (fun c d => f c = d) written.toList word.toList ↔
        written.toList.map f = word.toList := by
    intro written
    rw [← List.forall₂_map_left_iff (R := Eq), List.forall₂_eq_eq_eq]
  simp only [Writes, hmap]
  constructor
  · exact fun h => ⟨trim text, padded_trim text, h⟩
  · rintro ⟨written, hpadded, hwritten⟩
    have hsolid : Solid written.toList := by
      apply solid_of_forall
      intro c hc
      rw [Bool.eq_false_iff]
      intro hblank
      exact hword c hblank (hwritten ▸ List.mem_map_of_mem hc)
    rwa [(trim_eq_iff_padded hsolid).2 hpadded]

/-- Only the characters of the word matter. -/
theorem writes_congr {mayStandFor other : Char → Char → Prop}
    (h : ∀ d ∈ word.toList, ∀ c, mayStandFor c d ↔ other c d) :
    Writes mayStandFor word text ↔ Writes other word text := by
  have hchars : ∀ cs : List Char, List.Forall₂ mayStandFor cs word.toList ↔
      List.Forall₂ other cs word.toList := by
    revert h
    induction word.toList with
    | nil => simp
    | cons d ds ih =>
      intro h cs
      rw [List.forall_mem_cons] at h
      simp only [List.forall₂_cons_right_iff, h.1, ih h.2]
  simp only [Writes, hchars]

end Text

-- ════════════════════════════════════════════════════════════════════════
-- Characters of keys
-- ════════════════════════════════════════════════════════════════════════

namespace StageId

/-- A character may stand for itself, and a dash for an underscore. -/
def MayStandFor (c d : Char) : Prop :=
  c = d ∨ d = '_' ∧ c = '-'

/-- Besides, a capital letter of ASCII may stand for the small one. -/
def MayStandInAnyCase (c d : Char) : Prop :=
  MayStandFor c d ∨ ('a' ≤ d ∧ d ≤ 'z') ∧ c.toNat + 32 = d.toNat

/-- The text is the key of the stage in white space, with dashes for some of the underscores. -/
def WrittenIn (id : StageId) (text : String) : Prop :=
  Text.Writes MayStandFor id.key text

/-- The text is the key of the stage in white space, with dashes for some of the underscores and
capital letters for some of the small ones. -/
def WrittenInAnyCase (id : StageId) (text : String) : Prop :=
  Text.Writes MayStandInAnyCase id.key text

/-- A small letter or an underscore. -/
def IsKeyChar (d : Char) : Prop :=
  d = '_' ∨ 'a' ≤ d ∧ d ≤ 'z'

instance (d : Char) : Decidable (IsKeyChar d) :=
  inferInstanceAs (Decidable (_ ∨ _))

variable {id other : StageId} {text : String} {c d : Char}

theorem isKeyChar_of_mem (d : Char) (hd : d ∈ id.key.toList) : IsKeyChar d := by
  have hall : (id.key.toList.all fun d => decide (IsKeyChar d)) = true := by cases id <;> decide
  exact of_decide_eq_true (List.all_eq_true.1 hall d hd)

theorem isKeyChar_iff : IsKeyChar d ↔ d.toNat = 95 ∨ 97 ≤ d.toNat ∧ d.toNat ≤ 122 := by
  rw [IsKeyChar, Char.le_def, Char.le_def, ← Char.toNat_inj]
  rfl

theorem mayStandFor_iff : MayStandFor c d ↔
    c.toNat = d.toNat ∨ d.toNat = 95 ∧ c.toNat = 45 := by
  rw [MayStandFor, ← Char.toNat_inj, ← Char.toNat_inj, ← Char.toNat_inj]
  rfl

theorem mayStandInAnyCase_iff : MayStandInAnyCase c d ↔ MayStandFor c d ∨
    (97 ≤ d.toNat ∧ d.toNat ≤ 122) ∧ c.toNat + 32 = d.toNat := .rfl

theorem toNat_toLower (c : Char) : c.toLower.toNat =
    if 65 ≤ c.toNat ∧ c.toNat ≤ 90 then c.toNat + 32 else c.toNat := by
  split
  · next hcapital =>
    have hlower : c.toLower.val = c.val + 32 := congrArg Char.val (dif_pos hcapital)
    have hbound : c.val.toNat ≤ 90 := hcapital.2
    have h32 : (32 : UInt32).toNat = 32 := rfl
    show c.toLower.val.toNat = c.val.toNat + 32
    rw [hlower, UInt32.toNat_add]
    omega
  · next hother =>
    have hsame : c.toLower = c := dif_neg hother
    rw [hsame]

theorem toNat_of_isBlank (h : Text.isBlank c = true) : c.toNat ≤ 32 ∨ 133 ≤ c.toNat := by
  simp only [Text.isBlank, Text.blankRanges, List.any_cons, List.any_nil, Bool.or_false,
    Bool.or_eq_true, Bool.and_eq_true, decide_eq_true_eq] at h
  omega

theorem isBlank_toLower (c : Char) : Text.isBlank c.toLower = Text.isBlank c := by
  have hlower := toNat_toLower c
  split at hlower
  · next hcapital =>
    have hfalse : ∀ c : Char, 65 ≤ c.toNat → c.toNat ≤ 122 → Text.isBlank c = false := by
      intro c hle hge
      rw [Bool.eq_false_iff]
      intro hblank
      have hrange := toNat_of_isBlank hblank
      omega
    rw [hfalse c hcapital.1 (by omega), hfalse c.toLower (by omega) (by omega)]
  · rw [Char.toNat_inj.1 hlower]

theorem isBlank_of_mayStandInAnyCase (hd : IsKeyChar d) (h : MayStandInAnyCase c d) :
    Text.isBlank c = false := by
  rw [isKeyChar_iff] at hd
  rw [mayStandInAnyCase_iff, mayStandFor_iff] at h
  rw [Bool.eq_false_iff]
  intro hblank
  have hrange := toNat_of_isBlank hblank
  omega

theorem underscore_eq_iff (hd : IsKeyChar d) :
    (if c = '-' then '_' else c) = d ↔ MayStandFor c d := by
  have hdash : '-'.toNat = 45 := rfl
  have hunderscore : '_'.toNat = 95 := rfl
  rw [isKeyChar_iff] at hd
  rw [mayStandFor_iff, ← Char.toNat_inj]
  split
  · next h =>
    rw [h]
    omega
  · next h =>
    rw [← Char.toNat_inj] at h
    omega

theorem mayStandFor_toLower_iff (hd : IsKeyChar d) :
    MayStandFor c.toLower d ↔ MayStandInAnyCase c d := by
  rw [isKeyChar_iff] at hd
  rw [mayStandInAnyCase_iff, mayStandFor_iff, mayStandFor_iff, toNat_toLower]
  split <;> omega

-- ════════════════════════════════════════════════════════════════════════
-- Reading a key
-- ════════════════════════════════════════════════════════════════════════

theorem ofKey?_eq_some_iff {key : String} : ofKey? key = some id ↔ key = id.key := by
  constructor
  · intro h
    exact (of_decide_eq_true (List.find?_some h :)).symm
  · rintro rfl
    exact ofKey?_key id

theorem parse?_eq_some_iff_map : parse? text = some id ↔
    (Text.trim text).toList.map (fun c => if c = '-' then '_' else c) = id.key.toList := by
  rw [parse?, ofKey?_eq_some_iff, ← String.toList_inj, underscored, String.toList_ofList]

/-- Rewriting to a key when the characters that are rewritten to those of the key are known. -/
theorem map_trim_eq_key_iff {f : Char → Char} {mayStandFor : Char → Char → Prop}
    (hspelled : ∀ d ∈ id.key.toList, ∀ c, f c = d ↔ mayStandFor c d)
    (hcase : ∀ c d, mayStandFor c d → MayStandInAnyCase c d) :
    (Text.trim text).toList.map f = id.key.toList ↔ Text.Writes mayStandFor id.key text := by
  rw [Text.map_trim_eq_iff, Text.writes_congr hspelled]
  intro c hblank hmem
  have hstands := hcase _ _ ((hspelled _ hmem c).1 rfl)
  rw [isBlank_of_mayStandInAnyCase (isKeyChar_of_mem _ hmem) hstands] at hblank
  cases hblank

/-- A stage is named by the texts that its key may be written as. -/
theorem parse?_eq_some_iff : parse? text = some id ↔ id.WrittenIn text := by
  have hspelled : ∀ d ∈ id.key.toList, ∀ c, (if c = '-' then '_' else c) = d ↔ MayStandFor c d :=
    fun d hd c => underscore_eq_iff (isKeyChar_of_mem d hd)
  rw [parse?_eq_some_iff_map, map_trim_eq_key_iff hspelled fun _ _ => .inl]
  rfl

instance (id : StageId) (text : String) : Decidable (id.WrittenIn text) :=
  decidable_of_iff _ parse?_eq_some_iff

/-- No text is the key of two stages. -/
theorem WrittenIn.unique (h : id.WrittenIn text) (hother : other.WrittenIn text) : id = other :=
  Option.some.inj ((parse?_eq_some_iff.2 h).symm.trans (parse?_eq_some_iff.2 hother))

theorem writtenIn_key (id : StageId) : id.WrittenIn id.key := by
  cases id <;> decide

/-- Lowering the letters of a text first is the same as taking capital letters for small ones. -/
theorem writtenIn_lowerAscii_iff :
    id.WrittenIn (Guide.lowerAscii text) ↔ id.WrittenInAnyCase text := by
  have htrim : (Text.trim (Guide.lowerAscii text)).toList =
      (Text.trim text).toList.map Char.toLower := by
    rw [Text.toList_trim, Guide.lowerAscii, String.toList_ofList,
      Text.trimChars_map isBlank_toLower, Text.toList_trim]
  have hspelled : ∀ d ∈ id.key.toList, ∀ c : Char,
      (if c.toLower = '-' then '_' else c.toLower) = d ↔ MayStandInAnyCase c d := by
    intro d hd c
    have hkey := isKeyChar_of_mem d hd
    rw [underscore_eq_iff hkey, mayStandFor_toLower_iff hkey]
  rw [← parse?_eq_some_iff, parse?_eq_some_iff_map, htrim, List.map_map]
  exact map_trim_eq_key_iff hspelled fun _ _ h => h

end StageId

-- ════════════════════════════════════════════════════════════════════════
-- Looking up in the guide
-- ════════════════════════════════════════════════════════════════════════

namespace Guide

theorem find?_entries (id : StageId) : entries.find? (·.id == id) = some (entryOf id) := by
  cases id <;> rfl

/-- An entry is named by the texts that its stage's key may be written as, in either case. -/
theorem lookup?_eq_some_iff {text : String} {entry : GuideEntry} :
    lookup? text = some entry ↔ ∃ id : StageId, id.WrittenInAnyCase text ∧ entryOf id = entry := by
  simp only [lookup?, find?_entries, Option.bind_eq_some_iff, StageId.parse?_eq_some_iff,
    StageId.writtenIn_lowerAscii_iff, Option.some.injEq]

end Guide
end StagedBuild
