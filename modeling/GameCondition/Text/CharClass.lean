import GameCondition.Text.Letters
import GameCondition.Text.Numerals
import GameCondition.Text.Recent

/-! # Character classes

White space, letters, numerals and word characters over all of Unicode, with ASCII settled
without a table. `isAlphanumeric` decides where an identifier of the strict language goes on;
`isWordChar` decides where a word of free text begins and ends. They differ on combining marks,
joiners, numerals that are no decimal digits, and the most recent letters.
-/

namespace GameCondition

/-- Membership in a table of inclusive ranges. -/
def inRanges (table : List (Nat × Nat)) (n : Nat) : Bool :=
  table.any fun r => decide (r.1 ≤ n) && decide (n ≤ r.2)

/-- The code points above the ASCII ones that are white space. -/
def whiteRanges : List (Nat × Nat) :=
  [(0x85, 0x85), (0xA0, 0xA0), (0x1680, 0x1680), (0x2000, 0x200A), (0x2028, 0x2029),
   (0x202F, 0x202F), (0x205F, 0x205F), (0x3000, 0x3000)]

/-- White space: tab to carriage return, the blank, and the wider blanks of Unicode. -/
def isWhite (c : Char) : Bool :=
  if c.toNat < 128 then c == ' ' || (decide (9 ≤ c.toNat) && decide (c.toNat ≤ 13))
  else inRanges whiteRanges c.toNat

/-- Letters of any script. -/
def isAlphabetic (c : Char) : Bool :=
  if c.toNat < 128 then c.isAlpha else inRanges letterRanges c.toNat

/-- Numerals of any kind: digits, letter numerals, fractions, superscripts. -/
def isNumeric (c : Char) : Bool :=
  if c.toNat < 128 then c.isDigit else inRanges numeralRanges c.toNat

/-- Letters and numerals. -/
def isAlphanumeric (c : Char) : Bool :=
  isAlphabetic c || isNumeric c

/-- Letters, marks and digits that free text does not know yet. -/
def isRecent (c : Char) : Bool :=
  inRanges recentRanges c.toNat

/-- What makes up a word of free text: letters, marks, decimal digits, connectors, joiners. -/
def isWordChar (c : Char) : Bool :=
  if c.toNat < 128 then c.isAlphanum || c == '_'
  else (inRanges letterRanges c.toNat || inRanges wordMarkRanges c.toNat) && !isRecent c

/-- Text without the white space at its two ends. -/
def trim (cs : List Char) : List Char :=
  ((cs.dropWhile isWhite).reverse.dropWhile isWhite).reverse

/-- Text of nothing but white space. -/
def isBlank (cs : List Char) : Bool :=
  cs.all isWhite

/-- The maximal runs of characters that are not white space, in order. -/
def words : List Char → List (List Char)
  | [] => []
  | c :: cs =>
    if isWhite c then words cs
    else match cs with
      | [] => [[c]]
      | d :: _ =>
        if isWhite d then [c] :: words cs
        else match words cs with
          | [] => [[c]]
          | w :: ws => (c :: w) :: ws

/-- `String.trim` over all of Unicode's white space. -/
def trimmed (s : String) : String :=
  String.ofList (trim s.toList)

end GameCondition
