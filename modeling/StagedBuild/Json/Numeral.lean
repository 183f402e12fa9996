/-!
# Number literals

A number literal of a JSON text, digit by digit. The documents of this library hold natural numbers
only; every other literal is read to see whether it lies in the range of a binary floating point
number of 64 bits, and its value is then forgotten.

## Main definitions

* `Numeral`: sign, digits and exponent of a literal.
* `Numeral.natural?`: the number of a literal without sign, point or exponent.
* `Numeral.inRange`: the literal has a finite value.

## Design notes

The value of a literal is its significand times a power of ten. Digits join the significand while
it stays below `2 ^ 64`; later digits are dropped. Significand and power are rounded to 53 bits
each, to nearest and ties to even, and the literal is in range when their product rounds to a
finite number.
-/

namespace StagedBuild

/-- A number literal as it is spelled. Digits are listed from the most significant one. -/
structure Numeral where
  negative : Bool := false
  /-- The digits before the point. -/
  whole : List Nat := []
  /-- The digits after the point; a literal without a point has none. -/
  fraction : List Nat := []
  /-- The digits of the exponent, if the literal has one. -/
  exponent : Option (List Nat) := none
  exponentNegative : Bool := false
deriving DecidableEq

namespace Numeral

/-- The number that a list of decimal digits spells. -/
def ofDigits (digits : List Nat) : Nat :=
  digits.foldl (fun n d => n * 10 + d) 0

/-- The natural number of a literal that is nothing but digits. -/
def natural? (n : Numeral) : Option Nat :=
  if n.negative = false ∧ n.fraction = [] ∧ n.exponent = none then some (ofDigits n.whole) else none

def significandLimit : Nat := Nat.pow 2 64 - 1

/-- Digits before the point joined to a significand, and how many of them were dropped: all from
the first one on that would pass the limit. -/
def joinWhole (significand : Nat) : List Nat → Nat × Nat
  | [] => (significand, 0)
  | d :: rest =>
    if significand * 10 + d ≤ significandLimit then
      joinWhole (significand * 10 + d) rest
    else
      (significand, rest.length + 1)

/-- Digits after the point joined to a significand, and how many of them were kept. -/
def joinFraction (significand : Nat) : List Nat → Nat × Nat
  | [] => (significand, 0)
  | d :: rest =>
    if significand * 10 + d ≤ significandLimit then
      let joined := joinFraction (significand * 10 + d) rest
      (joined.1, joined.2 + 1)
    else
      (significand, 0)

/-- A number rounded to 53 significant bits, to nearest and ties to even. -/
def round53 (n : Nat) : Nat :=
  let bits := n.log2 + 1
  if bits ≤ 53 then n
  else
    let unit := Nat.pow 2 (bits - 53)
    let quotient := n / unit
    let remainder := n % unit
    if remainder * 2 > unit ∨ (remainder * 2 = unit ∧ quotient % 2 = 1) then (quotient + 1) * unit
    else quotient * unit

/-- The least product that rounds to infinity. -/
def infinityBound : Nat := (Nat.pow 2 54 - 1) * Nat.pow 2 970

/-- The power of ten that an exponent part stands for. -/
def scale (n : Numeral) : Int :=
  match n.exponent with
  | none => 0
  | some digits =>
    if n.exponentNegative then -(ofDigits digits : Int) else (ofDigits digits : Int)

def inRange (n : Numeral) : Bool :=
  let whole := joinWhole 0 n.whole
  let joined := joinFraction whole.1 n.fraction
  let power : Int := whole.2 - joined.2 + n.scale
  joined.1 == 0 || power < 0 ||
    (power ≤ 308 && round53 joined.1 * round53 (Nat.pow 10 power.toNat) < infinityBound)

end Numeral
end StagedBuild
