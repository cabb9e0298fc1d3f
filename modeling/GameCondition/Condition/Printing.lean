import GameCondition.Condition.Basic
import GameCondition.Token.Scanner

/-! # Printing conditions

A condition is printed as strict text. Parentheses stand only where an operand binds more loosely
than its place demands: chains of `and` and `or` associate to the left, `and` binds tighter than
`or`, and `not` binds tightest.
-/

namespace GameCondition

/-- A string in quotes, with quotes and backslashes escaped. -/
def quoteText (cs : List Char) : List Char :=
  '"' :: (cs.flatMap (fun c => if c = '"' ∨ c = '\\' then ['\\', c] else [c]) ++ ['"'])

/-- The decimal digits of an integer, after a minus sign if it is negative. -/
def integerText (i : Int) : List Char :=
  (if i < 0 then ['-'] else []) ++ Nat.toDigits 10 i.natAbs

namespace Condition

/-- A name as it stands after `visits`: quoted unless it is a plain identifier. -/
def nameText (name : String) : List Char :=
  if isPlainIdentifier name then name.toList else quoteText name.toList

/-- The comparison with a whole number that ends a count or a distance. -/
def tailText (comparison : Comparison) (value : Int) : List Char :=
  ' ' :: (comparison.word.toList ++ ' ' :: integerText value)

/-- The fields that a relation names. -/
def fieldsText (r : Relation) : List Char :=
  (match r.attr with
    | some name => ".attribute ".toList ++ name.toList
    | none => []) ++
  (match r.property with
    | some name => '.' :: name.toList
    | none => [])

/-- The operand of a relation after a blank. The empty text after `is_empty` is left out. -/
def operandText (comparison : Comparison) : Operand → List Char
  | .text s =>
    if s.isEmpty && comparison == .isEmpty then [] else ' ' :: quoteText s.toList
  | operand => ' ' :: operand.value.toList

/-- The text of a relation. After `has` the operand stands as it is. -/
def relationText (r : Relation) : List Char :=
  let subject := r.subject.toString.toList
  if r.comparison = .has then subject ++ " has ".toList ++ r.operand.value.toList
  else subject ++ fieldsText r ++ ' ' :: (r.comparison.word.toList ++
    operandText r.comparison r.operand)

/-- The text of a count. -/
def visitsText (v : VisitCount) : List Char :=
  v.subject.toString.toList ++ " visits ".toList ++ nameText v.scene
    ++ tailText v.comparison v.value

/-- The text of a distance. -/
def distanceText (d : Distance) : List Char :=
  d.origin.toString.toList ++ " distance_from ".toList ++ d.goal.toString.toList
    ++ tailText d.comparison d.value

/-- How tightly an operand has to bind at a place. -/
inductive Binding where
  | any
  | andChain
  | unary
  deriving DecidableEq, Repr

/-- Puts parentheses around a text if they are needed. -/
def parenthesized (needed : Bool) (cs : List Char) : List Char :=
  if needed then '(' :: (cs ++ [')']) else cs

/-- The text of a condition at a place that demands the given binding. -/
def textAt (place : Binding) : Condition → List Char
  | or l r _ => parenthesized (place != .any) (l.textAt .any ++ " or ".toList ++ r.textAt .andChain)
  | and l r _ =>
    parenthesized (place == .unary) (l.textAt .andChain ++ " and ".toList ++ r.textAt .unary)
  | not c _ => "not ".toList ++ c.textAt .unary
  | relation r => relationText r
  | visits v => visitsText v
  | distance d => distanceText d

/-- The text of a condition. -/
def text (c : Condition) : String :=
  String.ofList (c.textAt .any)

instance : ToString Condition := ⟨text⟩

end Condition

end GameCondition
