import GameCondition.Number.Shortest
import GameCondition.Text.LetterCase
import GameCondition.Text.Span

/-! # Conditions

A condition is built by `and`, `or` and `not` from three kinds of leaf: a relation between a subject
and an operand, the number of a subject's visits to a scene, and the distance of two subjects.
Every node knows the stretch of text it was read from; `Condition.unplaced` forgets it, so two
conditions are the same up to places when their unplaced forms are equal.
-/

namespace GameCondition

/-! ## Subjects -/

/-- What a subject refers to: someone or something with a fixed part in the game, or a named
element of some kind. -/
inductive SubjectKind where
  | player
  | target
  | target2
  | currentScene
  | location
  | session
  | log
  | item
  | npc
  | scene
  | exit
  deriving DecidableEq, Repr

namespace SubjectKind

/-- Every kind. -/
def all : List SubjectKind :=
  [player, target, target2, currentScene, location, session, log, item, npc, scene, exit]

/-- The word for a kind. -/
def word : SubjectKind → String
  | player => "player"
  | target => "target"
  | target2 => "target2"
  | currentScene => "currentScene"
  | location => "location"
  | session => "session"
  | log => "log"
  | item => "item"
  | npc => "npc"
  | scene => "scene"
  | exit => "exit"

/-- Every spelling with its kind. The current scene has two. -/
def spellings : List (String × SubjectKind) :=
  all.map (fun k => (k.word, k)) ++ [("current_scene", currentScene)]

/-- The kind that a word spells in any ASCII case. -/
def ofWord? (word : String) : Option SubjectKind :=
  (spellings.find? fun entry => sameAscii entry.1 word).map (·.2)

/-- Whether a subject of this kind names an element. -/
def requiresId : SubjectKind → Bool
  | item | npc | scene | exit => true
  | _ => false

end SubjectKind

/-- A reference to what a relation is about. -/
structure Subject where
  kind : SubjectKind
  id : Option String
  deriving DecidableEq, Repr

namespace Subject

/-- A subject with a fixed part. -/
def simple (kind : SubjectKind) : Subject :=
  ⟨kind, none⟩

/-- A named item. -/
def item (id : String) : Subject :=
  ⟨.item, some id⟩

/-- Whether the id is there exactly when the kind requires one. -/
def isWellFormed (s : Subject) : Bool :=
  s.kind.requiresId == s.id.isSome

/-- The word that names a subject: its id, else the word for its kind. -/
def name (s : Subject) : String :=
  s.id.getD s.kind.word

/-- Written as the word for the kind and the id. -/
protected def toString (s : Subject) : String :=
  match s.id with
  | some id => s.kind.word ++ " " ++ id
  | none => s.kind.word

instance : ToString Subject := ⟨Subject.toString⟩

end Subject

/-! ## Operands and comparisons -/

/-- The right-hand side of a relation: a name, which is looked up among the elements of the game,
or a literal. -/
inductive Operand where
  | element (id : String)
  | bool (value : Bool)
  | number (value : Number)
  | text (value : String)
  deriving DecidableEq, Repr

namespace Operand

/-- Whether an operand is a name or a literal. -/
def kindName : Operand → String
  | element _ => "element"
  | _ => "literal"

/-- The operand as text, without quotes. -/
def value : Operand → String
  | element id => id
  | bool b => if b then "true" else "false"
  | number n => toString n
  | text s => s

/-- The number of a numeric literal. -/
def number? : Operand → Option Number
  | number n => some n
  | _ => none

/-- The truth value of a boolean literal. -/
def bool? : Operand → Option Bool
  | bool b => some b
  | _ => none

end Operand

/-- The comparisons. -/
inductive Comparison where
  | has
  | is
  | isNot
  | lessThan
  | greaterThan
  | equalTo
  | notEqualTo
  | isIn
  | isEmpty
  deriving DecidableEq, Repr

namespace Comparison

/-- Every comparison. -/
def all : List Comparison :=
  [has, is, isNot, lessThan, greaterThan, equalTo, notEqualTo, isIn, isEmpty]

/-- The word for a comparison. -/
def word : Comparison → String
  | has => "has"
  | is => "is"
  | isNot => "is_not"
  | lessThan => "is_less_than"
  | greaterThan => "is_greater_than"
  | equalTo => "is_equal_to"
  | notEqualTo => "is_not_equal_to"
  | isIn => "is_in"
  | isEmpty => "is_empty"

instance : ToString Comparison := ⟨word⟩

/-- Whether both sides have to be numbers. -/
def isNumeric : Comparison → Bool
  | lessThan | greaterThan | equalTo | notEqualTo => true
  | _ => false

/-- Whether counts and distances may be compared so. -/
def appliesToNumbers (c : Comparison) : Bool :=
  c == is || c == isNot || c.isNumeric

end Comparison

/-! ## Leaves and trees -/

/-- A relation between a subject, or a field of it, and an operand. -/
structure Relation where
  subject : Subject
  comparison : Comparison
  operand : Operand
  /-- The name in an `.attribute NAME` segment. -/
  attr : Option String
  /-- The last other segment. -/
  property : Option String
  span : Span
  deriving DecidableEq, Repr

/-- Whether a relation is about its subject itself and not a field of it. -/
def Relation.isBare (r : Relation) : Bool :=
  r.attr.isNone && r.property.isNone

/-- How often a subject has been to a scene. -/
structure VisitCount where
  subject : Subject
  scene : String
  comparison : Comparison
  value : Int
  span : Span
  deriving DecidableEq, Repr

/-- How far one subject is from another. -/
structure Distance where
  origin : Subject
  goal : Subject
  comparison : Comparison
  value : Int
  span : Span
  deriving DecidableEq, Repr

/-- A condition. -/
inductive Condition where
  | and (left right : Condition) (span : Span)
  | or (left right : Condition) (span : Span)
  | not (inner : Condition) (span : Span)
  | relation (r : Relation)
  | visits (v : VisitCount)
  | distance (d : Distance)
  deriving DecidableEq, Repr

namespace Condition

/-- Where a condition was read. -/
def span : Condition → Span
  | and _ _ s => s
  | or _ _ s => s
  | not _ s => s
  | relation r => r.span
  | visits v => v.span
  | distance d => d.span

/-- Both conditions, spanning their texts. -/
def both (left right : Condition) : Condition :=
  and left right (left.span.through right.span)

/-- Either condition, spanning their texts. -/
def either (left right : Condition) : Condition :=
  or left right (left.span.through right.span)

/-- The tag of a condition in JSON. -/
def tag : Condition → String
  | and .. => "AND"
  | or .. => "OR"
  | not .. => "NOT"
  | relation _ => "RELATION"
  | visits _ => "COUNT"
  | distance _ => "DISTANCE"

/-- The height of a condition; a leaf has height one. -/
def depth : Condition → Nat
  | and l r _ => 1 + max l.depth r.depth
  | or l r _ => 1 + max l.depth r.depth
  | not c _ => 1 + c.depth
  | _ => 1

/-- The number of nodes. -/
def size : Condition → Nat
  | and l r _ => 1 + l.size + r.size
  | or l r _ => 1 + l.size + r.size
  | not c _ => 1 + c.size
  | _ => 1

/-- The condition without its places. -/
def unplaced : Condition → Condition
  | and l r _ => and l.unplaced r.unplaced .atStart
  | or l r _ => or l.unplaced r.unplaced .atStart
  | not c _ => not c.unplaced .atStart
  | relation r => relation { r with span := .atStart }
  | visits v => visits { v with span := .atStart }
  | distance d => distance { d with span := .atStart }

end Condition

end GameCondition
