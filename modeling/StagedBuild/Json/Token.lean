import StagedBuild.Json.Numeral

/-!
# JSON tokens

A JSON text is cut into tokens by a machine that takes one character at a time. Space, tab, line
feed and carriage return separate tokens, and nothing else does.

## Main definitions

* `JsonToken`: brackets, punctuation and literals.
* `JsonScan`: where the machine stands between two characters.
* `JsonScan.step`: what one character does.
* `scanJson`: the tokens of a text, if every character has a place in one.

## Design notes

A string literal is collected as code values, since an escape may spell half of a surrogate pair.
The halves are joined when the literal ends; a literal with a lone half yields a token without text.
-/

namespace StagedBuild

inductive JsonToken where
  | openBrace
  | closeBrace
  | openBracket
  | closeBracket
  | comma
  | colon
  | null
  | bool (b : Bool)
  | number (n : Numeral)
  /-- A string literal; nothing when its escapes leave a surrogate alone. -/
  | string (s : Option String)
deriving DecidableEq

/-- Where a number literal stands. -/
inductive NumeralPart where
  | sign
  | zero
  | whole
  | point
  | fraction
  | mark
  | markSign
  | exponent
deriving DecidableEq

def digitValue? (c : Char) : Option Nat :=
  if '0' ≤ c ∧ c ≤ '9' then some (c.toNat - '0'.toNat) else none

/-- The value of a hexadecimal digit of either case. -/
def hexValue? (c : Char) : Option Nat :=
  if '0' ≤ c ∧ c ≤ '9' then some (c.toNat - '0'.toNat)
  else if 'a' ≤ c ∧ c ≤ 'f' then some (c.toNat - 'a'.toNat + 10)
  else if 'A' ≤ c ∧ c ≤ 'F' then some (c.toNat - 'A'.toNat + 10)
  else none

namespace NumeralPart

/-- A literal may end here. -/
def isComplete : NumeralPart → Bool
  | zero | whole | fraction | exponent => true
  | sign | point | mark | markSign => false

/-- The literal with one more character, if that character continues it. -/
def extend? (part : NumeralPart) (n : Numeral) (c : Char) : Option (NumeralPart × Numeral) :=
  let exponentDigit (d : Nat) : NumeralPart × Numeral :=
    (exponent, { n with exponent := some (n.exponent.getD [] ++ [d]) })
  match part, digitValue? c with
  | sign, some 0 => some (zero, { n with whole := [0] })
  | sign, some d => some (whole, { n with whole := [d] })
  | whole, some d => some (whole, { n with whole := n.whole ++ [d] })
  | point, some d => some (fraction, { n with fraction := [d] })
  | fraction, some d => some (fraction, { n with fraction := n.fraction ++ [d] })
  | mark, some d => some (exponentDigit d)
  | markSign, some d => some (exponentDigit d)
  | exponent, some d => some (exponentDigit d)
  | zero, none | whole, none =>
    if c = '.' then some (point, n)
    else if c = 'e' ∨ c = 'E' then some (mark, n)
    else none
  | fraction, none => if c = 'e' ∨ c = 'E' then some (mark, n) else none
  | mark, none =>
    if c = '+' then some (markSign, n)
    else if c = '-' then some (markSign, { n with exponentNegative := true })
    else none
  | _, _ => none

end NumeralPart

/-- The machine's position between two characters. -/
inductive JsonScan where
  | idle
  /-- Inside a literal word, with the letters still due. -/
  | word (due : List Char) (token : JsonToken)
  | number (part : NumeralPart) (n : Numeral)
  /-- Inside a string, with the code values so far, last first. -/
  | text (units : List Nat)
  | escape (units : List Nat)
  /-- Inside a four digit escape, with the digits still due and the value so far. -/
  | hex (units : List Nat) (due : Nat) (value : Nat)
deriving DecidableEq

/-- The first half of a surrogate pair. -/
def isHighSurrogate (unit : Nat) : Bool := 0xD800 ≤ unit && unit ≤ 0xDBFF

/-- The second half of a surrogate pair. -/
def isLowSurrogate (unit : Nat) : Bool := 0xDC00 ≤ unit && unit ≤ 0xDFFF

/-- The characters that code values spell: a first half and the second half right after it make
one character, and a half that stands alone makes none. -/
def joinUnits? : List Nat → Option (List Char)
  | [] => some []
  | [unit] =>
    if isHighSurrogate unit || isLowSurrogate unit then none else some [Char.ofNat unit]
  | unit :: next :: rest =>
    if isHighSurrogate unit then
      if isLowSurrogate next then
        (Char.ofNat (0x10000 + (unit - 0xD800) * 0x400 + (next - 0xDC00)) :: ·) <$> joinUnits? rest
      else none
    else if isLowSurrogate unit then none
    else (Char.ofNat unit :: ·) <$> joinUnits? (next :: rest)

/-- The character that a one letter escape stands for. -/
def shortEscape? : Char → Option Char
  | '"' => some '"'
  | '\\' => some '\\'
  | '/' => some '/'
  | 'b' => some '\x08'
  | 'f' => some '\x0c'
  | 'n' => some '\n'
  | 'r' => some '\r'
  | 't' => some '\t'
  | _ => none

namespace JsonScan

/-- Characters that may stand between tokens. -/
def isSpace (c : Char) : Bool :=
  c == ' ' || c == '\t' || c == '\n' || c == '\r'

/-- What a character between tokens begins or is. -/
def begin? (c : Char) : Option (List JsonToken × JsonScan) :=
  if isSpace c then some ([], idle)
  else
    match c with
    | '{' => some ([.openBrace], idle)
    | '}' => some ([.closeBrace], idle)
    | '[' => some ([.openBracket], idle)
    | ']' => some ([.closeBracket], idle)
    | ',' => some ([.comma], idle)
    | ':' => some ([.colon], idle)
    | '"' => some ([], text [])
    | 'n' => some ([], word ['u', 'l', 'l'] .null)
    | 't' => some ([], word ['r', 'u', 'e'] (.bool true))
    | 'f' => some ([], word ['a', 'l', 's', 'e'] (.bool false))
    | '-' => some ([], number .sign { negative := true })
    | _ => (NumeralPart.extend? .sign {} c).map fun (part, n) => ([], number part n)

/-- The tokens that a character completes, and the position after it. A number ends at the first
character that does not continue it, and that character is then taken as one between tokens. -/
def step (scan : JsonScan) (c : Char) : Option (List JsonToken × JsonScan) :=
  match scan with
  | idle => begin? c
  | word [] _ => none
  | word [last] token => if c = last then some ([token], idle) else none
  | word (next :: due) token => if c = next then some ([], word due token) else none
  | number part n =>
    match part.extend? n c with
    | some (part, n) => some ([], number part n)
    | none =>
      if part.isComplete then
        (begin? c).map fun (tokens, scan) => (.number n :: tokens, scan)
      else none
  | text units =>
    if c = '"' then
      some ([.string ((joinUnits? units.reverse).map String.ofList)], idle)
    else if c = '\\' then some ([], escape units)
    else if c.toNat < 0x20 then none
    else some ([], text (c.toNat :: units))
  | escape units =>
    if c = 'u' then some ([], hex units 4 0)
    else (shortEscape? c).map fun plain => ([], text (plain.toNat :: units))
  | hex units due value =>
    match hexValue? c with
    | none => none
    | some d =>
      let value := value * 16 + d
      if due ≤ 1 then some ([], text (value :: units)) else some ([], hex units (due - 1) value)

/-- The tokens that the end of the text completes, if it may end here. -/
def finish : JsonScan → Option (List JsonToken)
  | idle => some []
  | number part n => if part.isComplete then some [.number n] else none
  | _ => none

/-- The tokens of the characters from a position on. -/
def run : JsonScan → List Char → Option (List JsonToken)
  | scan, [] => scan.finish
  | scan, c :: rest =>
    match scan.step c with
    | none => none
    | some ([], next) => run next rest
    | some (tokens, next) => (tokens ++ ·) <$> run next rest

end JsonScan

def scanJson (text : String) : Option (List JsonToken) :=
  JsonScan.run .idle text.toList

end StagedBuild
