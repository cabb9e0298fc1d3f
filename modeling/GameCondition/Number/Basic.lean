/-! # Binary floating-point numbers

The numbers of conditions are IEEE 754 binary64 numbers. A finite magnitude is named by its
*rank* among all finite magnitudes in ascending order: rank 0 is zero, rank 1 the least positive
number, and `infinityRank` the first rank past the greatest. Every finite magnitude is a whole
number of *units* of 2⁻¹⁰⁷⁴, so comparing, rounding, reading and writing are arithmetic on natural
numbers. Structural equality tells the two zeros apart and is reflexive on NaN; `Number.equal` is
the numeric one.

Powers are spelled `Nat.pow`, which is one function under every choice of instances.
-/

namespace GameCondition

/-- The first rank that no finite magnitude has. -/
def infinityRank : Nat := 2047 * Nat.pow 2 52

/-- How many units make one. -/
def unitsPerOne : Nat := Nat.pow 2 1074

/-- The magnitude of a rank in units: up to 2⁵³ the ranks count units, and each further 2⁵² ranks
double the step. -/
def rankUnits (rank : Nat) : Nat :=
  if rank < Nat.pow 2 53 then rank
  else (Nat.pow 2 52 + rank % Nat.pow 2 52) * Nat.pow 2 (rank / Nat.pow 2 52 - 1)

/-- The rank nearest to `num / den` units, a tie going to the even rank. -/
def nearestRank (num den : Nat) : Nat :=
  let doublings := (num / den).log2 - 52
  let step := den * Nat.pow 2 doublings
  let floor := num / step
  let rest := num % step
  let up := decide (step < 2 * rest) || (decide (2 * rest = step) && floor % 2 == 1)
  doublings * Nat.pow 2 52 + (if up then floor + 1 else floor)

/-- A binary64 number. Of a NaN only the sign is kept. -/
inductive Number where
  | nan (negative : Bool)
  | infinite (negative : Bool)
  | finite (negative : Bool) (rank : Fin infinityRank)
  deriving DecidableEq, Repr

namespace Number

/-- The number with the given sign and rank, infinite past the last finite rank. -/
def ofRank (negative : Bool) (rank : Nat) : Number :=
  if h : rank < infinityRank then finite negative ⟨rank, h⟩ else infinite negative

/-- The number nearest to `± num / den`. -/
def ofRatio (negative : Bool) (num den : Nat) : Number :=
  ofRank negative (nearestRank (num * unitsPerOne) den)

/-- The number nearest to an integer. -/
def ofInt (i : Int) : Number :=
  ofRatio (decide (i < 0)) i.natAbs 1

/-- The number nearest to `± coefficient * 10 ^ exponent`. Magnitudes above 10³¹⁰ are infinite and
those below 10⁻³³⁰ are zero, whatever their digits. -/
def ofScientific (negative : Bool) (coefficient : Nat) (exponent : Int) : Number :=
  if coefficient = 0 then ofRank negative 0
  else
    let top : Int := (Nat.toDigits 10 coefficient).length + exponent
    if 310 < top then infinite negative
    else if top < -330 then ofRank negative 0
    else if 0 ≤ exponent then ofRatio negative (coefficient * Nat.pow 10 exponent.toNat) 1
    else ofRatio negative coefficient (Nat.pow 10 (-exponent).toNat)

/-- The place of a number on the extended number line; the two zeros share one, NaN has none. -/
def place? : Number → Option Int
  | nan _ => none
  | infinite negative => some (if negative then -infinityRank else infinityRank)
  | finite negative rank => some (if negative then -rank.val else rank.val)

/-- The numeric order; NaN compares with nothing. -/
def compare? (a b : Number) : Option Ordering := do
  return compare (← a.place?) (← b.place?)

/-- Numeric equality: the zeros are equal, and NaN equals nothing. -/
def equal (a b : Number) : Bool :=
  compare? a b == some .eq

/-- The integer that a number is, if it is one. -/
def toInt? : Number → Option Int
  | finite negative rank =>
    let n := rankUnits rank
    if n % unitsPerOne = 0 then
      some (if negative then -(n / unitsPerOne : Nat) else (n / unitsPerOne : Nat))
    else none
  | _ => none

end Number

end GameCondition
