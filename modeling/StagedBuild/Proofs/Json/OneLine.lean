import Mathlib.Data.Nat.Digits.Defs
import StagedBuild.Proofs.Json.Scan
import StagedBuild.Proofs.Text.Lines

/-!
# A value on one line

The compact text of a value holds no control character: it is written without white space, and
inside strings the control characters are escaped. So it stands on one line.

## Main results

* `Json.printable_compact`: no character of the text is below U+0020.
* `Json.Printable.fitsLine`: so the text can stand on a line.
-/

namespace StagedBuild
namespace Json

/-- No character has to be escaped for its code, as those below U+0020 have to be in a string. -/
def Printable (cs : List Char) : Prop :=
  ∀ c ∈ cs, 0x20 ≤ c.toNat

instance (cs : List Char) : Decidable (Printable cs) :=
  List.decidableBAll (fun c : Char => 0x20 ≤ c.toNat) cs

theorem Printable.nil : Printable [] :=
  List.forall_mem_nil _

theorem Printable.append {cs ds : List Char} (hcs : Printable cs) (hds : Printable ds) :
    Printable (cs ++ ds) :=
  List.forall_mem_append.2 ⟨hcs, hds⟩

theorem Printable.cons {c : Char} {cs : List Char} (hc : 0x20 ≤ c.toNat) (hcs : Printable cs) :
    Printable (c :: cs) :=
  List.forall_mem_cons.2 ⟨hc, hcs⟩

-- ════════════════════════════════════════════════════════════════════════
-- Values without parts
-- ════════════════════════════════════════════════════════════════════════

theorem printable_hexDigit : ∀ d < 16, 0x20 ≤ (hexDigit d).toNat := by
  decide

theorem printable_of_shortEscape? {letter c : Char} (h : shortEscape? letter = some c) :
    0x20 ≤ letter.toNat := by
  unfold shortEscape? at h
  split at h
  case h_9 => cases h
  all_goals decide

theorem printable_escapeChar (c : Char) : Printable (escapeChar c) := by
  obtain ⟨letter, hform, -, hshort⟩ | ⟨hform, hcontrol⟩ | ⟨hform, -, -, hplain⟩ :=
    JsonScan.escapeChar_forms c
  · have hletter := printable_of_shortEscape? hshort
    rw [hform]
    exact .cons (by decide) (.cons hletter .nil)
  · have hhigh := printable_hexDigit (c.toNat / 16) (by omega)
    have hlow := printable_hexDigit (c.toNat % 16) (by omega)
    have hmark : Printable ['\\', 'u', '0', '0'] := by decide
    rw [hform]
    exact hmark.append (.cons hhigh (.cons hlow .nil))
  · rw [hform]
    exact .cons hplain .nil

theorem printable_quoted (s : String) : Printable (quoted s) := by
  apply Printable.cons (by decide)
  apply Printable.append
  · intro d hd
    obtain ⟨c, -, hd⟩ := List.mem_flatMap.1 hd
    exact printable_escapeChar c d hd
  · decide

theorem printable_toDigits (n : Nat) : Printable (Nat.toDigits 10 n) := by
  intro c hc
  have hdigit := Nat.isDigit_of_mem_toDigits (by decide) (by decide) hc
  have hlow : '0'.toNat ≤ c.toNat := (Char.isDigit_iff_toNat.1 hdigit).1
  exact Nat.le_trans (by decide) hlow

theorem printable_scalarChars (json : Json) : Printable (scalarChars json) := by
  cases json with
  | bool b => cases b <;> decide
  | natural n => exact printable_toDigits n
  | string s => exact printable_quoted s
  | _ => exact (by decide : Printable "null".toList)

-- ════════════════════════════════════════════════════════════════════════
-- Containers
-- ════════════════════════════════════════════════════════════════════════

mutual

theorem printable_compactChars : ∀ json : Json, Printable (compactChars json)
  | .array items => .cons (by decide) ((printable_compactItems items).append (by decide))
  | .object members => .cons (by decide) ((printable_compactMembers members).append (by decide))
  | .null => printable_scalarChars .null
  | .bool b => printable_scalarChars (.bool b)
  | .natural n => printable_scalarChars (.natural n)
  | .otherNumber => printable_scalarChars .otherNumber
  | .string s => printable_scalarChars (.string s)
  | .unreadable => printable_scalarChars .unreadable

theorem printable_compactItems : ∀ items : List Json, Printable (compactItems items)
  | [] => by decide
  | [item] => printable_compactChars item
  | item :: next :: rest =>
    (printable_compactChars item).append (.cons (by decide) (printable_compactItems (next :: rest)))

theorem printable_compactMembers : ∀ members : List (String × Json),
    Printable (compactMembers members)
  | [] => by decide
  | [(name, value)] =>
    (printable_quoted name).append (.cons (by decide) (printable_compactChars value))
  | (name, value) :: next :: rest =>
    (printable_quoted name).append (.cons (by decide) ((printable_compactChars value).append
      (.cons (by decide) (printable_compactMembers (next :: rest)))))

end

theorem Printable.fitsLine {text : String} (h : Printable text.toList) : Text.FitsLine text where
  unbroken hmem := absurd (h '\n' hmem) (by decide)
  keepsEnd hlast := absurd (h '\r' (List.mem_of_getLast? hlast)) (by decide)

theorem printable_compact (json : Json) : Printable json.compact.toList := by
  rw [compact, String.toList_ofList]
  exact printable_compactChars json

end Json
end StagedBuild
