import StagedBuild.Json.Token
import StagedBuild.Text.Lines

/-!
# Bare values in configuration files

Truth values, numbers and points in time are written without quotation marks. Only truth values are
used; of the others it is enough to know that they are well formed and have a value.

## Main definitions

* `BareValue`: what a bare word can be.
* `BareValue.ofChars?`: what a bare word is.
* `DigitRun.isSeparated`: the underscores of a numeral stand where they may.
* `BareNumber.based?`, `BareNumber.whole?`, `BareNumber.fraction?`: the three kinds of numerals.
* `CalendarDate.isDate`: the word is a calendar date, after which a time of day may follow.

## Design notes

A numeral may be well formed and still have no value, which only counts where somebody looks at it.
Whole numbers lie between `-2 ^ 127` and `2 ^ 128 - 1`, other numbers are finite as binary floating
point numbers of 64 bits. A base may be given without digits. A decimal whole number may hold
anything after an underscore and a hexadecimal digit, so `1_f` is well formed without a value.
Seconds may be left out of a time of day.
-/

namespace StagedBuild

/-- What a bare word can be. -/
inductive BareValue where
  | flag (b : Bool)
  | number
  | unreadable
  | moment
deriving DecidableEq, Repr

/-- A well formed numeral has a value or not. -/
def BareValue.ofNumeral (hasValue : Bool) : BareValue :=
  if hasValue then .number else .unreadable

namespace DigitRun

/-- The digits of a run, in which single underscores may stand between digits. -/
def digits? (value? : Char → Option Nat) : List Char → Option (List Nat)
  | [] => none
  | [c] => (value? c).map fun d => [d]
  | c :: '_' :: rest => do return (← value? c) :: (← digits? value? rest)
  | c :: rest => do return (← value? c) :: (← digits? value? rest)

/-- The number that digits spell in a base. -/
def toNat (base : Nat) (digits : List Nat) : Nat :=
  digits.foldl (fun n d => n * base + d) 0

/-- The value of a digit below a base. -/
def digitBelow? (base : Nat) (c : Char) : Option Nat :=
  (hexValue? c).filter (· < base)

def isRunChar (c : Char) : Bool :=
  c.isDigit || c == '_'

/-- The digits of the run that a word begins with, and what follows the run. There has to be a
digit. -/
def take? (cs : List Char) : Option (List Nat × List Char) :=
  match (cs.takeWhile isRunChar).filterMap digitValue? with
  | [] => none
  | digits => some (digits, cs.dropWhile isRunChar)

/-- Underscores cut a word into parts that are not empty. A digit stands after each underscore, and
before each one, where a first part of a single character is let pass. -/
def isSeparated (isDigit : Char → Bool) (word : List Char) : Bool :=
  let parts := Text.splitAtChars '_' word
  parts.length == 1 ||
    parts.all (!·.isEmpty) &&
    parts.tail.all (·.head?.any isDigit) &&
    parts.dropLast.all fun part => part.length == 1 || part.getLast?.any isDigit

end DigitRun

namespace BareNumber

/-- The sign of a number, true for minus, and what follows it. -/
def splitSign : List Char → Bool × List Char
  | '+' :: rest => (false, rest)
  | '-' :: rest => (true, rest)
  | cs => (false, cs)

/-- A whole number within range. -/
def inIntegerRange (negative : Bool) (n : Nat) : Bool :=
  if negative then n ≤ Nat.pow 2 127 else n < Nat.pow 2 128

/-- The base that the letter after a leading zero stands for. -/
def base? : Char → Option Nat
  | 'x' => some 16
  | 'o' => some 8
  | 'b' => some 2
  | _ => none

/-- A whole number in another base than ten, without a sign. -/
def based? : List Char → Option BareValue
  | '0' :: letter :: cs => do
    let base ← base? letter
    if cs.isEmpty then return .unreadable
    let digits ← DigitRun.digits? (DigitRun.digitBelow? base) cs
    return .ofNumeral (inIntegerRange false (DigitRun.toNat base digits))
  | _ => none

/-- A whole number in decimal: without a point or an exponent, and without a leading zero. Nothing
but an underscore ends the digits at its start. -/
def whole? (word : List Char) : Option BareValue :=
  let (negative, cs) := splitSign word
  let rest := cs.dropWhile Char.isDigit
  if cs.isEmpty || (cs.head? == some '0' && cs.length ≠ 1) ||
      !(rest.isEmpty || rest.head? == some '_') || rest.any ['.', 'e', 'E'].contains ||
      !DigitRun.isSeparated (fun c => (hexValue? c).isSome) word then none
  else
    let digits := (cs.filter (· ≠ '_')).mapM digitValue?
    some (.ofNumeral (digits.any fun digits => inIntegerRange negative (DigitRun.toNat 10 digits)))

/-- The number `significand * 10 ^ power` is finite when it is rounded to 53 bits. -/
def isFinite (significand : Nat) (power : Int) : Bool :=
  let magnitude : Int := (Nat.toDigits 10 significand).length + power
  if significand = 0 ∨ magnitude < 300 then true
  else if magnitude > 320 then false
  else if power < 0 then significand < Numeral.infinityBound * Nat.pow 10 power.natAbs
  else significand * Nat.pow 10 power.toNat < Numeral.infinityBound

/-- The decimals after a point, or none at all, and what follows them. -/
def decimals? : List Char → Option (List Nat × List Char)
  | '.' :: cs => DigitRun.take? cs
  | cs => some ([], cs)

/-- The exponent up to the end of the word; leading zeros are allowed there. -/
def exponent? : List Char → Option Int
  | [] => some 0
  | letter :: cs => do
    let (negative, cs) := splitSign cs
    let (digits, rest) ← DigitRun.take? cs
    if (letter = 'e' ∨ letter = 'E') ∧ rest.isEmpty then
      return if negative then -(DigitRun.toNat 10 digits : Int) else DigitRun.toNat 10 digits
    else none

/-- A number with a point or an exponent, or both. A leading zero stands alone before them. -/
def fraction? (word : List Char) : Option BareValue := do
  let (_, cs) := splitSign word
  let (whole, rest) ← DigitRun.take? cs
  let (decimals, tail) ← decimals? rest
  let power ← exponent? tail
  if rest.isEmpty || (cs.head? == some '0' && whole.length ≠ 1) ||
      !DigitRun.isSeparated Char.isDigit word then none
  else
    return .ofNumeral (isFinite (DigitRun.toNat 10 (whole ++ decimals)) (power - decimals.length))

/-- The words for numbers that have no digits. -/
def isSpecial (cs : List Char) : Bool :=
  let (_, cs) := splitSign cs
  cs == ['i', 'n', 'f'] || cs == ['n', 'a', 'n']

/-- A numeral, or a word for a number. -/
def ofChars? (word : List Char) : Option BareValue :=
  if isSpecial word then some .number
  else based? word <|> whole? word <|> fraction? word

end BareNumber

namespace CalendarDate

/-- A number of two digits, and what follows it. -/
def twoDigits? : List Char → Option (Nat × List Char)
  | a :: b :: rest => do return ((← digitValue? a) * 10 + (← digitValue? b), rest)
  | _ => none

def daysIn (year month : Nat) : Nat :=
  let leap := year % 4 = 0 ∧ (year % 100 ≠ 0 ∨ year % 400 = 0)
  if month = 2 then (if leap then 29 else 28)
  else if month = 4 ∨ month = 6 ∨ month = 9 ∨ month = 11 then 30
  else 31

/-- What follows a calendar date. -/
def afterDate? (cs : List Char) : Option (List Char) := do
  let (century, cs) ← twoDigits? cs
  let (year, cs) ← twoDigits? cs
  let '-' :: cs := cs | none
  let (month, cs) ← twoDigits? cs
  let '-' :: cs := cs | none
  let (day, cs) ← twoDigits? cs
  if 1 ≤ month ∧ month ≤ 12 ∧ 1 ≤ day ∧ day ≤ daysIn (century * 100 + year) month then some cs
  else none

/-- What follows the seconds of a time of day and their decimals. -/
def afterSeconds? : List Char → Option (List Char)
  | ':' :: cs => do
    let (second, cs) ← twoDigits? cs
    if 60 < second then none
    else
      match cs with
      | '.' :: cs =>
        if (cs.takeWhile Char.isDigit).isEmpty then none else some (cs.dropWhile Char.isDigit)
      | cs => some cs
  | cs => some cs

/-- What follows a time of day. -/
def afterTime? (cs : List Char) : Option (List Char) := do
  let (hour, cs) ← twoDigits? cs
  let ':' :: cs := cs | none
  let (minute, cs) ← twoDigits? cs
  if hour ≤ 23 ∧ minute ≤ 59 then afterSeconds? cs else none

/-- A distance from universal time, or none at all. -/
def isOffset : List Char → Bool
  | [] => true
  | [c] => c == 'Z' || c == 'z'
  | sign :: cs =>
    (sign == '+' || sign == '-') &&
      match twoDigits? cs with
      | some (hour, ':' :: cs) =>
        match twoDigits? cs with
        | some (minute, []) => hour ≤ 23 && minute ≤ 59
        | _ => false
      | _ => false

def isDate (cs : List Char) : Bool :=
  afterDate? cs == some []

/-- The word is a point in time: a date, a time of day, or both. -/
def isMoment (cs : List Char) : Bool :=
  afterTime? cs == some [] ||
    match afterDate? cs with
    | none => false
    | some [] => true
    | some (between :: cs) =>
      (between == 'T' || between == 't' || between == ' ') && (afterTime? cs).any isOffset

end CalendarDate

/-- What a bare word is. -/
def BareValue.ofChars? (cs : List Char) : Option BareValue :=
  if cs = ['t', 'r', 'u', 'e'] then some (.flag true)
  else if cs = ['f', 'a', 'l', 's', 'e'] then some (.flag false)
  else if CalendarDate.isMoment cs then some .moment
  else BareNumber.ofChars? cs

end StagedBuild
