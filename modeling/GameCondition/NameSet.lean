import GameCondition.Dict
import GameCondition.Text.LetterCase

/-! # Sets of names

A set of names that are known in any case.
-/

namespace GameCondition

/-- A set of names, given by their lower-case forms. -/
structure NameSet where
  members : Dict Unit
  deriving DecidableEq, Repr

namespace NameSet

/-- The set of some names. -/
def ofList (names : List String) : NameSet :=
  ⟨names.foldl (fun d name => d.insert (lowered name) ()) .empty⟩

/-- Whether a name is in the set. -/
def contains (s : NameSet) (name : String) : Bool :=
  (s.members.get? (lowered name)).isSome

/-- The number of names that differ in more than case. -/
def size (s : NameSet) : Nat :=
  s.members.entries.length

/-- Whether no name is in the set. -/
def isEmpty (s : NameSet) : Bool :=
  s.members.entries.isEmpty

end NameSet

end GameCondition
