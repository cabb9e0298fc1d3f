import GameCondition.Number.Reading
import GameCondition.Number.Shortest
import GameCondition.Text.LetterCase

/-! # Values

What the two sides of a relation denote once names are resolved: nothing, a truth value, a number,
a text, a list, or an element of the game. `Value.looselyEquals` is the equality that conditions
ask for: numbers equal numeric text, truth values equal their words, and names ignore case.
Structural equality is exact, down to the sign of zero.
-/

namespace GameCondition

/-- A resolved operand. -/
inductive Value where
  | nil
  | bool (value : Bool)
  | number (value : Number)
  | text (value : String)
  | list (items : List Value)
  | element (id : String)
  deriving Repr, Inhabited

namespace Value

mutual

/-- Exact equality. -/
def equals : Value → Value → Bool
  | nil, nil => true
  | bool a, bool b => a == b
  | number a, number b => decide (a = b)
  | text a, text b => a == b
  | list as, list bs => itemsEqual as bs
  | element a, element b => a == b
  | _, _ => false

/-- Exact equality of lists, item by item. -/
def itemsEqual : List Value → List Value → Bool
  | [], [] => true
  | a :: as, b :: bs => equals a b && itemsEqual as bs
  | _, _ => false

end

/-- Nothing, empty text and empty lists are empty. -/
def isEmpty : Value → Bool
  | nil => true
  | text s => s.isEmpty
  | list items => items.isEmpty
  | _ => false

/-- The truth value that a value is or spells. -/
def asBool? : Value → Option Bool
  | bool b => some b
  | text s =>
    if sameAscii s "true" then some true
    else if sameAscii s "false" then some false
    else none
  | _ => none

/-- The number that a value is or spells, white space around it aside. -/
def asNumber? : Value → Option Number
  | number n => some n
  | text s => Number.ofText? (trim s.toList)
  | _ => none

/-- The text by which a value is known: its own, or an element's id. -/
def asText? : Value → Option String
  | text s => some s
  | element id => some id
  | _ => none

/-- The items of a list. -/
def asList? : Value → Option (List Value)
  | list items => some items
  | _ => none

/-- Numeric equality of what two values are or spell. -/
def sameNumber (a b : Value) : Bool :=
  match a.asNumber?, b.asNumber? with
  | some m, some n => m.equal n
  | _, _ => false

/-- Equality of the truth values that two values are or spell. -/
def sameBool (a b : Value) : Bool :=
  match a.asBool?, b.asBool? with
  | some p, some q => p == q
  | _, _ => false

mutual

/-- Equality as conditions mean it. What a number or a truth value is compared with is read as
one. -/
def looselyEquals : Value → Value → Bool
  | nil, nil => true
  | nil, _ => false
  | _, nil => false
  | number a, b => sameNumber (number a) b
  | a, number b => sameNumber a (number b)
  | bool a, b => sameBool (bool a) b
  | a, bool b => sameBool a (bool b)
  | list as, list bs => itemsLooselyEqual as bs
  | list _, _ => false
  | _, list _ => false
  | text a, text b => sameName a b
  | text a, element b => sameName a b
  | element a, text b => sameName a b
  | element a, element b => sameName a b

/-- Loose equality of lists, item by item. -/
def itemsLooselyEqual : List Value → List Value → Bool
  | [], [] => true
  | a :: as, b :: bs => looselyEquals a b && itemsLooselyEqual as bs
  | _, _ => false

end

/-- The numeric order of what two values are or spell. -/
def compareNumeric? (a b : Value) : Option Ordering := do
  Number.compare? (← a.asNumber?) (← b.asNumber?)

/-- Whether a list holds something loosely equal. -/
def contains (v sought : Value) : Bool :=
  match v.asList? with
  | some items => items.any fun item => item.looselyEquals sought
  | none => false

mutual

/-- The text of a value: a list in brackets, an element marked by `#`. -/
protected def toString : Value → String
  | nil => "nil"
  | bool b => if b then "true" else "false"
  | number n => ToString.toString n
  | text s => s
  | list items => "[" ++ spaced items ++ "]"
  | element id => "#" ++ id

/-- The texts of the items of a list with blanks between them. -/
def spaced : List Value → String
  | [] => ""
  | [v] => v.toString
  | v :: vs => v.toString ++ " " ++ spaced vs

end

instance : ToString Value := ⟨Value.toString⟩

end Value

end GameCondition
