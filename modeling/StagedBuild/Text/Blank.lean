/-!
# White space

Characters with the Unicode property `White_Space`, and trimming by them.

## Main definitions

* `Text.isBlank`: the character has the property.
* `Text.trim`: the text without the white space at both ends.
* `Text.isBlankText`: the text holds white space only.
-/

namespace StagedBuild
namespace Text

/-- The code points with the property `White_Space`, as closed ranges in increasing order. The
property leaves out the zero width space, the byte order mark and the information separators. -/
def blankRanges : List (Nat × Nat) :=
  [(0x0009, 0x000D), (0x0020, 0x0020), (0x0085, 0x0085), (0x00A0, 0x00A0), (0x1680, 0x1680),
    (0x2000, 0x200A), (0x2028, 0x2029), (0x202F, 0x202F), (0x205F, 0x205F), (0x3000, 0x3000)]

/-- A character is blank when its code point lies in one of the ranges. -/
def isBlank (c : Char) : Bool :=
  blankRanges.any fun range => range.1 ≤ c.toNat && c.toNat ≤ range.2

/-- A list of characters without the blank ones at both ends. -/
def trimChars (cs : List Char) : List Char :=
  ((cs.dropWhile isBlank).reverse.dropWhile isBlank).reverse

/-- A text without the white space at both ends. -/
def trim (s : String) : String :=
  String.ofList (trimChars s.toList)

/-- A text of white space only, the empty text included. -/
def isBlankText (s : String) : Bool :=
  s.toList.all isBlank

@[simp] theorem toList_trim (s : String) : (trim s).toList = trimChars s.toList := by
  simp [trim]

end Text
end StagedBuild
