import GameCondition.Number.Basic

/-! # Writing a number with the fewest digits

A finite number is written with the fewest decimal digits that read back as the same number, and of
those with the ones nearest to it. The search runs over decimal grids from coarse to fine: on each
it tests the two neighbours of the number, and the finest grid holds the number itself. All
quantities are counted in parts of 10⁻¹⁰⁷⁴, on which every finite number is whole.
-/

namespace GameCondition

/-- A decimal, `coefficient * 10 ^ exponent`. -/
structure Decimal where
  coefficient : Nat
  exponent : Int
  deriving DecidableEq, Repr

/-- Which of two equally near decimals is taken. -/
inductive Tie where
  | up
  | even
  deriving DecidableEq, Repr

/-- How many parts of 10⁻¹⁰⁷⁴ a unit has. -/
def partsPerUnit : Nat := Nat.pow 5 1074

/-- Whether `x` parts lie in the interval of values that are read as the given rank. The ends are
shared with the neighbours and belong to the even rank. -/
def readsAs (rank x : Nat) : Bool :=
  let low := (rankUnits (rank - 1) + rankUnits rank) * partsPerUnit
  let high := (rankUnits rank + rankUnits (rank + 1)) * partsPerUnit
  if rank % 2 = 0 then decide (low ≤ 2 * x) && decide (2 * x ≤ high)
  else decide (low < 2 * x) && decide (2 * x < high)

/-- The multiple of `10 ^ k` that is nearest to the number of the given rank, among those that are
read as it. -/
def gridPoint? (tie : Tie) (rank k : Nat) : Option Nat :=
  let value := rankUnits rank * partsPerUnit
  let below := value / Nat.pow 10 k
  let above := below + 1
  let rest := value % Nat.pow 10 k
  match readsAs rank (below * Nat.pow 10 k), readsAs rank (above * Nat.pow 10 k) with
  | false, false => none
  | true, false => some below
  | false, true => some above
  | true, true =>
    if 2 * rest < Nat.pow 10 k then some below
    else if Nat.pow 10 k < 2 * rest then some above
    else match tie with
      | .up => some above
      | .even => some (if below % 2 = 0 then below else above)

/-- The first decimal that is found on the grids `10 ^ k`, `10 ^ (k - 1)`, …. -/
def shortestFrom (tie : Tie) (rank : Nat) : Nat → Decimal
  | 0 => ⟨rankUnits rank * partsPerUnit, -1074⟩
  | k + 1 =>
    match gridPoint? tie rank (k + 1) with
    | some n => ⟨n, k + 1 - 1074⟩
    | none => shortestFrom tie rank k

/-- The decimal with the fewest digits that is read as the given rank. -/
def shortest (tie : Tie) (rank : Nat) : Decimal :=
  if rank = 0 then ⟨0, 0⟩
  else shortestFrom tie rank ((Nat.toDigits 10 (rankUnits rank * partsPerUnit)).length - 1)

namespace Decimal

/-- The digits of a decimal without zeros at their end, and the exponent of the last one. -/
def digits (d : Decimal) : List Char × Int :=
  let all := Nat.toDigits 10 d.coefficient
  let zeros := if d.coefficient = 0 then 0 else (all.reverse.takeWhile (· = '0')).length
  (all.take (all.length - zeros), d.exponent + zeros)

/-- The exponent of the first digit. -/
def leadingExponent (d : Decimal) : Int :=
  d.digits.1.length - 1 + d.digits.2

/-- Written with a point where the fraction begins, and without one for a whole number. -/
def positional (d : Decimal) : List Char :=
  let (ds, e) := d.digits
  if 0 ≤ e then ds ++ List.replicate e.toNat '0'
  else
    let point := ds.length + e
    if 0 < point then ds.take point.toNat ++ '.' :: ds.drop point.toNat
    else '0' :: '.' :: (List.replicate (-point).toNat '0' ++ ds)

/-- Written with one digit before the point and a signed exponent. -/
def scientific (d : Decimal) : List Char :=
  let (ds, _) := d.digits
  let e := d.leadingExponent
  let fraction := if ds.length ≤ 1 then [] else '.' :: ds.drop 1
  ds.take 1 ++ fraction ++ 'e' :: (if e < 0 then '-' else '+') :: Nat.toDigits 10 e.natAbs

end Decimal

/-- How the numbers of an output are written. -/
structure NumberFormat where
  /-- Which of two equally near decimals is taken. -/
  tie : Tie
  /-- The leading exponents from which and below which the positional form is used, if not
  always. -/
  positionalRange : Option (Int × Int)
  /-- Whether a whole number in positional form ends in `.0`. -/
  keepsPoint : Bool
  deriving DecidableEq, Repr

/-- Writes a finite magnitude. -/
def NumberFormat.magnitude (format : NumberFormat) (rank : Nat) : List Char :=
  let d := shortest format.tie rank
  let positional := match format.positionalRange with
    | none => true
    | some (low, high) => decide (low ≤ d.leadingExponent) && decide (d.leadingExponent < high)
  if positional then
    let text := d.positional
    if format.keepsPoint && !text.contains '.' then text ++ ['.', '0'] else text
  else d.scientific

/-- In conditions and values a number is always positional and a whole number has no point; of two
equally near decimals the greater one is taken. -/
def plainFormat : NumberFormat := ⟨.up, none, false⟩

namespace Number

/-- The text of a number in conditions and values. -/
def text : Number → List Char
  | nan _ => ['N', 'a', 'N']
  | infinite negative => if negative then ['-', 'i', 'n', 'f'] else ['i', 'n', 'f']
  | finite negative rank =>
    (if negative then ['-'] else []) ++ plainFormat.magnitude rank

instance : ToString Number := ⟨fun n => String.ofList n.text⟩

end Number

end GameCondition
