import GameCondition.Number.Basic

/-! # Reading a number

A number is written as an optional sign followed by one of the words `inf`, `infinity` and `nan` in
any case, or by a decimal: digits, optionally a point and more digits, optionally an exponent. A
point needs a digit on one side only. What is read is the nearest number.
-/

namespace GameCondition

/-- The natural number that a run of ASCII digits spells. -/
def digitsValue (digits : List Char) : Nat :=
  digits.foldl (fun n c => 10 * n + (c.toNat - 48)) 0

namespace Number

/-- Reads digits with an optional sign. -/
def signedDigits? : List Char → Option Int
  | '-' :: cs => if cs.isEmpty || !cs.all Char.isDigit then none else some (-(digitsValue cs : Nat))
  | '+' :: cs => if cs.isEmpty || !cs.all Char.isDigit then none else some (digitsValue cs)
  | cs => if cs.isEmpty || !cs.all Char.isDigit then none else some (digitsValue cs)

/-- Reads what may follow the digits of a decimal: nothing, or an exponent. -/
def exponent? : List Char → Option Int
  | [] => some 0
  | 'e' :: cs => signedDigits? cs
  | 'E' :: cs => signedDigits? cs
  | _ => none

/-- The digits after a point, and what follows them. -/
def fraction : List Char → List Char × List Char
  | '.' :: cs => (cs.takeWhile Char.isDigit, cs.dropWhile Char.isDigit)
  | cs => ([], cs)

/-- Reads a decimal without its sign. -/
def decimal? (negative : Bool) (cs : List Char) : Option Number :=
  let whole := cs.takeWhile Char.isDigit
  let (part, rest) := fraction (cs.dropWhile Char.isDigit)
  if whole.isEmpty && part.isEmpty then none
  else (exponent? rest).map fun e =>
    ofScientific negative (digitsValue (whole ++ part)) (e - part.length)

/-- Reads a number without its sign. -/
def unsigned? (negative : Bool) (cs : List Char) : Option Number :=
  let word := cs.map Char.toLower
  if word = ['i', 'n', 'f'] ∨ word = ['i', 'n', 'f', 'i', 'n', 'i', 't', 'y'] then
    some (infinite negative)
  else if word = ['n', 'a', 'n'] then some (nan negative)
  else decimal? negative cs

/-- Reads a number that is the whole text. -/
def ofText? : List Char → Option Number
  | '-' :: cs => unsigned? true cs
  | '+' :: cs => unsigned? false cs
  | cs => unsigned? false cs

end Number

end GameCondition
