import GameCondition.Json.Basic

/-! # Reading numbers in JSON

A number without fraction and exponent that fits in 64 bits, with or without sign, is an integer.
Any other number is read in two roundings: as many of its leading digits as fit in 64 bits are
rounded to a binary64 number, which is then multiplied or divided by a rounded power of ten.
Negative zero is not an integer, and a number that is too large has no value.
-/

namespace GameCondition

namespace Json

/-- The greatest whole number that is kept digit by digit. -/
def digitLimit : Nat := Nat.pow 2 64 - 1

/-- A number cut up: its digits before the point, after it, and its exponent. -/
structure Numeral where
  negative : Bool
  whole : List Char
  fraction : Option (List Char)
  exponent : Option Int
  deriving DecidableEq, Repr

/-- A whole number and the power of ten that goes with it. -/
structure Scaled where
  digits : Nat
  power : Int
  deriving DecidableEq, Repr

/-- Takes up digits before the point; those after the first that does not fit only raise the
power. -/
def takeWhole (s : Scaled) : List Char → Scaled
  | [] => s
  | c :: cs =>
    let more := 10 * s.digits + (c.toNat - 48)
    if more ≤ digitLimit then takeWhole ⟨more, s.power⟩ cs
    else ⟨s.digits, s.power + (cs.length + 1)⟩

/-- Takes up digits after the point, and stops at the first that does not fit. -/
def takeFraction (s : Scaled) : List Char → Scaled
  | [] => s
  | c :: cs =>
    let more := 10 * s.digits + (c.toNat - 48)
    if more ≤ digitLimit then takeFraction ⟨more, s.power - 1⟩ cs else s

/-- The rank of the number nearest to `10 ^ k`. -/
def powerRank (k : Nat) : Nat :=
  nearestRank (Nat.pow 10 k * unitsPerOne) 1

/-- The product of two magnitudes, rounded. -/
def timesRank (a b : Nat) : Nat :=
  nearestRank (rankUnits a * rankUnits b) unitsPerOne

/-- The quotient of two magnitudes, rounded. -/
def overRank (a b : Nat) : Nat :=
  nearestRank (rankUnits a * unitsPerOne) (rankUnits b)

/-- Divides a magnitude by `10 ^ k`, by at most `10 ^ 308` at a time. -/
def dividePower (rank k : Nat) : Nat :=
  if k ≤ 308 then overRank rank (powerRank k)
  else if rank = 0 then 0
  else dividePower (overRank rank (powerRank 308)) (k - 308)
termination_by k

/-- The rank of a scaled number, if it is finite. -/
def Scaled.rank? (s : Scaled) : Option Nat :=
  let start := nearestRank (s.digits * unitsPerOne) 1
  if s.power < 0 then some (dividePower start (-s.power).toNat)
  else if 308 < s.power then (if start = 0 then some 0 else none)
  else
    let rank := timesRank start (powerRank s.power.toNat)
    if rank < infinityRank then some rank else none

/-- The value of a number with a fraction, an exponent or too many digits. -/
def roundedValue (negative : Bool) (s : Scaled) : Json :=
  match s.rank? with
  | some rank => decimal (Number.ofRank negative rank)
  | none => unreadable

/-- The value of a number. -/
def Numeral.value (n : Numeral) : Json :=
  let whole := takeWhole ⟨0, 0⟩ n.whole
  match n.fraction, n.exponent with
  | none, none =>
    if whole.power = 0 ∧ !n.negative then integer whole.digits
    else if whole.power = 0 ∧ 0 < whole.digits ∧ whole.digits ≤ Nat.pow 2 63 then
      integer (-whole.digits)
    else roundedValue n.negative whole
  | fraction, exponent =>
    let s := takeFraction whole (fraction.getD [])
    roundedValue n.negative ⟨s.digits, s.power + exponent.getD 0⟩

end Json

end GameCondition
