import Mathlib.Data.List.Basic

/-!
# The order of texts

Texts are ordered by their code points, from the first one on. The bytes of their UTF-8 forms give
the same order: of two characters the one with the smaller code point has the smaller byte where
their forms first differ, and neither form is the beginning of the other.

## Main definitions

* `Text.codePoints`, `Text.bytes`: a text as numbers.

## Main results

* `Text.utf8EncodeChar_append_lt`: two different characters decide, whatever stands behind them.
* `Text.lt_iff_codePoints`, `Text.lt_iff_bytes`: the order of texts is that of the numbers.
-/

namespace StagedBuild
namespace Text

def codePoints (s : String) : List Nat :=
  s.toList.map Char.toNat

/-- The bytes of a text in UTF-8. -/
def bytes (s : String) : List UInt8 :=
  s.toByteArray.data.toList

theorem bytes_eq_flatMap (s : String) : bytes s = s.toList.flatMap String.utf8EncodeChar := by
  rw [bytes, ← String.utf8Encode_toList, List.utf8Encode, List.data_toByteArray]

-- ════════════════════════════════════════════════════════════════════════
-- Characters
-- ════════════════════════════════════════════════════════════════════════

theorem ofNat_cons_lt_iff {m n : Nat} (hm : m < 256) (hn : n < 256) (xs ys : List UInt8) :
    UInt8.ofNat m :: xs < UInt8.ofNat n :: ys ↔ m < n ∨ m = n ∧ xs < ys := by
  rw [List.cons_lt_cons_iff, UInt8.lt_iff_toNat_lt, ← UInt8.toNat_inj,
    UInt8.toNat_ofNat_of_lt' hm, UInt8.toNat_ofNat_of_lt' hn]

/-- The form of a character with a smaller code point is smaller, whatever stands behind the two. -/
theorem utf8EncodeChar_append_lt {c d : Char} (h : c < d) (rest more : List UInt8) :
    String.utf8EncodeChar c ++ rest < String.utf8EncodeChar d ++ more := by
  have hlt : c.val.toNat < d.val.toNat := UInt32.lt_iff_toNat_lt.1 (Char.lt_def.1 h)
  have hmax : d.val.toNat < 1114112 := by
    have hvalid := d.valid
    simp only [UInt32.isValidChar, Nat.isValidChar] at hvalid
    omega
  unfold String.utf8EncodeChar
  generalize c.val.toNat = v, d.val.toNat = w at hlt hmax
  -- each byte but the first holds a digit to the base 64, and the first byte of four the rest
  have hv : v / 4096 = v / 64 / 64 ∧ v / 262144 % 8 = v / 64 / 64 / 64 := by omega
  have hw : w / 4096 = w / 64 / 64 ∧ w / 262144 % 8 = w / 64 / 64 / 64 := by omega
  simp only [hv.1, hv.2, hw.1, hw.2]
  -- a form with more bytes has a greater first byte, so only forms of one length go on behind it
  split_ifs <;> simp (disch := omega) only [List.cons_append, List.nil_append, ofNat_cons_lt_iff] <;>
    omega

-- ════════════════════════════════════════════════════════════════════════
-- Texts
-- ════════════════════════════════════════════════════════════════════════

/-- A form of texts that keeps the order gives the order, since different texts are comparable. -/
theorem lt_iff_of_mono {α : Type} [LT α] [Std.Irrefl (· < · : α → α → Prop)]
    [Std.Asymm (· < · : α → α → Prop)] {form : String → List α}
    (hmono : ∀ {a b}, a < b → form a < form b) {a b : String} : a < b ↔ form a < form b := by
  constructor
  · exact hmono
  · intro h
    by_contra hnot
    by_cases hlt : b < a
    · exact List.lt_asymm h (hmono hlt)
    · obtain rfl : a = b := String.le_antisymm (String.not_lt.1 hlt) (String.not_lt.1 hnot)
      exact List.lt_irrefl _ h

theorem lt_iff_codePoints {a b : String} : a < b ↔ codePoints a < codePoints b := by
  apply lt_iff_of_mono
  intro a b h
  apply List.map_lt
  · intro c d hlt
    exact UInt32.lt_iff_toNat_lt.1 (Char.lt_def.1 hlt)
  · exact String.lt_iff.1 h

theorem flatMap_utf8EncodeChar_lt {cs ds : List Char} (h : cs < ds) :
    cs.flatMap String.utf8EncodeChar < ds.flatMap String.utf8EncodeChar := by
  induction cs generalizing ds with
  | nil =>
    cases ds with
    | nil => exact absurd h (List.lt_irrefl [])
    | cons d ds =>
      rw [List.flatMap_nil, List.flatMap_cons]
      obtain ⟨byte, rest, hform⟩ := List.exists_cons_of_ne_nil (String.utf8EncodeChar_ne_nil (c := d))
      rw [hform, List.cons_append]
      exact List.nil_lt_cons _ _
  | cons c cs ih =>
    cases ds with
    | nil => cases h
    | cons d ds =>
      rw [List.flatMap_cons, List.flatMap_cons]
      obtain hlt | ⟨rfl, hrest⟩ := List.cons_lt_cons_iff.1 h
      · exact utf8EncodeChar_append_lt hlt _ _
      · exact List.append_left_lt (ih hrest)

theorem lt_iff_bytes {a b : String} : a < b ↔ bytes a < bytes b := by
  apply lt_iff_of_mono
  intro a b h
  rw [bytes_eq_flatMap, bytes_eq_flatMap]
  exact flatMap_utf8EncodeChar_lt (String.lt_iff.1 h)

end Text
end StagedBuild
