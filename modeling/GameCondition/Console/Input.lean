import GameCondition.Token.Basic
import GameCondition.Condition.Basic

/-! # Input of a console

A condition may be typed on several lines: it goes on while more parentheses were opened than
closed, not counting those in string literals. They are counted one character after the other, with
two flags and a counter of 32 bits. The counter goes round; a build that looks for overflows stops
instead (`ParenScan.step?`).
-/

namespace GameCondition

/-- What a character outside of literals adds to the number of open parentheses. -/
def parenWeight (c : Char) : Int32 :=
  if c = '(' then 1 else if c = ')' then -1 else 0

/-- How far a text was looked through: the parentheses that are open, whether it goes on inside a
literal, and whether the last character there was a backslash that takes the next one along. -/
structure ParenScan where
  depth : Int32
  inLiteral : Bool
  escaping : Bool
  deriving DecidableEq, Repr

namespace ParenScan

/-- Nothing was seen so far. -/
def start : ParenScan :=
  ⟨0, false, false⟩

/-- Takes a character. The counter goes round. -/
def step (s : ParenScan) (c : Char) : ParenScan :=
  if s.escaping then { s with escaping := false }
  else if c = '\\' ∧ s.inLiteral then { s with escaping := true }
  else if c = '"' then { s with inLiteral := !s.inLiteral }
  else if s.inLiteral then s
  else { s with depth := s.depth + parenWeight c }

/-- Takes a character, unless the counter overflows: no character moves it by more than one, so it
has gone round if it was moved further. -/
def step? (s : ParenScan) (c : Char) : Option ParenScan :=
  if ((s.step c).depth.toInt - s.depth.toInt).natAbs ≤ 1 then some (s.step c) else none

end ParenScan

/-- The number of parentheses that a text opens, less those that it closes, as a counter of 32 bits
has it. -/
def openParens (cs : List Char) : Int :=
  (cs.foldl ParenScan.step .start).depth.toInt

/-- The commands of a console. -/
def consoleCommands : List String :=
  [":clear", ":quit"]

/-- The words that can be typed whatever the game is. -/
def consoleWords : List String :=
  Keyword.spellings.map (·.1) ++ SubjectKind.all.map SubjectKind.word ++ consoleCommands

/-- What an editor gives when it is asked for a line. -/
inductive InputEvent where
  | line (text : String)
  | interrupt
  | endOfInput
  | failure (message : String)
  deriving DecidableEq, Repr

end GameCondition
