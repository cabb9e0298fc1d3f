import GameCondition.Dict
import GameCondition.Number.Shortest

/-! # JSON

The values of a JSON text, with whole numbers apart from other numbers and the members of an object
in the order in which they are written. A text may hold strings and numbers that are well formed
and yet have no value, such as half of a surrogate pair or `1e999`; they are `unreadable`, which
does no harm where they are passed over.
-/

namespace GameCondition

/-- A JSON value. -/
inductive Json where
  | null
  | bool (value : Bool)
  | integer (value : Int)
  | decimal (value : Number)
  | text (value : String)
  | list (items : List Json)
  | object (members : List (String × Json))
  | unreadable
  deriving Repr, Inhabited

namespace Json

/-- The value of a number. JSON has no infinities and no NaN; they are null. -/
def ofNumber : Number → Json
  | n@(.finite _ _) => decimal n
  | _ => null

/-- The value of a text that may be missing. -/
def ofText? : Option String → Json
  | some s => text s
  | none => null

/-- Adds a member if it is there. -/
def withMember? (key : String) : Option Json → List (String × Json) → List (String × Json)
  | some v, members => (key, v) :: members
  | none, members => members

/-- Reads a member of an object; a missing one is null. -/
def member (key : String) : Json → Json
  | object members => (members.lookup key).getD null
  | _ => null

mutual

/-- The same value with every object sorted by its keys, the last of several members with one key
counting. Something unreadable anywhere makes the whole value unreadable. -/
def sorted? : Json → Option Json
  | null => some null
  | bool b => some (bool b)
  | integer i => some (integer i)
  | decimal x => some (decimal x)
  | text s => some (text s)
  | list items => (sortedItems? items).map list
  | object members => (sortedMembers? members).map fun ms => object (Dict.ofList ms).entries
  | unreadable => none

/-- Sorts the objects in every item. -/
def sortedItems? : List Json → Option (List Json)
  | [] => some []
  | v :: vs => do return (← v.sorted?) :: (← sortedItems? vs)

/-- Sorts the objects in every member. -/
def sortedMembers? : List (String × Json) → Option (List (String × Json))
  | [] => some []
  | (k, v) :: ms => do return (k, ← v.sorted?) :: (← sortedMembers? ms)

end

end Json

end GameCondition
