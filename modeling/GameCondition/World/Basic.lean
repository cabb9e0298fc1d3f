import GameCondition.Condition.Basic
import GameCondition.Dict
import GameCondition.Value
import GameCondition.Vocabulary.Content

/-! # Worlds

A `World` is the state of a game that conditions are judged in: its elements, who plays which part,
how often whom has been where, and how far things are apart. Names are looked up ignoring case;
among the names of a dictionary the exact one comes first, then the first in ascending order that
differs in case only.
-/

namespace GameCondition

/-- The value of a name: of the name as it is written, else of the first that is the same ignoring
case. -/
def Dict.lookup {α : Type} (d : Dict α) (name : String) : Option α :=
  match d.get? name with
  | some v => some v
  | none => (d.entries.find? fun e => sameName e.1 name).map (·.2)

/-- An element of a world. -/
structure Element where
  id : String
  /-- The name, for which the id stands in if it is empty. -/
  givenName : String
  kind : ElementKind
  aliases : List String
  container : Option String
  currentState : Option String
  defaultState : Option String
  flags : Dict Bool
  properties : Dict Value
  attributes : Dict Value
  deriving Repr

namespace Element

/-- An element that has nothing but an id. -/
def ofId (id : String) (kind : ElementKind) : Element :=
  ⟨id, "", kind, [], none, none, none, .empty, .empty, .empty⟩

/-- Gives an element a further name. -/
def addAlias (e : Element) (name : String) : Element :=
  { e with aliases := e.aliases ++ [name] }

/-- Sets a flag. -/
def setFlag (e : Element) (name : String) (value : Bool) : Element :=
  { e with flags := e.flags.insert name value }

/-- Sets a property. -/
def setProperty (e : Element) (name : String) (value : Value) : Element :=
  { e with properties := e.properties.insert name value }

/-- Sets an attribute. -/
def setAttribute (e : Element) (name : String) (value : Value) : Element :=
  { e with attributes := e.attributes.insert name value }

/-- The name of an element. -/
def name (e : Element) : String :=
  if e.givenName.isEmpty then e.id else e.givenName

/-- The state an element is in: the one set in play, else the one it starts in. -/
def state (e : Element) : Option String :=
  e.currentState <|> e.defaultState

/-- A flag of an element. -/
def flag? (e : Element) (name : String) : Option Bool :=
  e.flags.lookup name

/-- A property of an element. -/
def property? (e : Element) (name : String) : Option Value :=
  e.properties.lookup name

/-- An attribute of an element. -/
def attribute? (e : Element) (name : String) : Option Value :=
  e.attributes.lookup name

/-- Whether an element is directly inside the one with the given id. -/
def isInside (e : Element) (id : String) : Bool :=
  match e.container with
  | some container => sameName container id
  | none => false

end Element

/-- A measured distance, in both directions. -/
structure Measure where
  origin : String
  goal : String
  value : Int
  deriving DecidableEq, Repr

/-- The state of a game. -/
structure World where
  elements : List Element
  playerId : Option String
  targetId : Option String
  target2Id : Option String
  currentSceneId : Option String
  sessionId : Option String
  logId : Option String
  visits : Dict (Dict Int)
  measures : List Measure
  deriving Repr

namespace World

/-- The world without anything. -/
def empty : World :=
  ⟨[], none, none, none, none, none, none, .empty, []⟩

instance : Inhabited World := ⟨empty⟩

/-- Adds an element behind all others. -/
def addElement (w : World) (e : Element) : World :=
  { w with elements := w.elements ++ [e] }

/-- Notes how often a visitor has been to a scene. -/
def setVisits (w : World) (visitor scene : String) (count : Int) : World :=
  let scenes := ((w.visits.get? visitor).getD .empty).insert scene count
  { w with visits := w.visits.insert visitor scenes }

/-- Adds a measure behind all others. -/
def addMeasure (w : World) (m : Measure) : World :=
  { w with measures := w.measures ++ [m] }

/-- The first element with an id. -/
def find? (w : World) (id : String) : Option Element :=
  w.elements.find? fun e => sameName e.id id

/-- The element that plays a part. -/
def holder? (w : World) (id : Option String) : Option Element :=
  id.bind w.find?

/-- The player. -/
def player? (w : World) : Option Element :=
  w.holder? w.playerId

/-- The scene the player is in. -/
def currentScene? (w : World) : Option Element :=
  w.holder? w.currentSceneId

/-- What the player is directly inside, else the current scene. -/
def location? (w : World) : Option Element :=
  (w.player?.bind fun p => p.container.bind w.find?) <|> w.currentScene?

/-- Whether an element of one kind can be meant by a subject of another. Any element is an item,
and an element of no particular kind is anything. -/
def kindFits : SubjectKind → ElementKind → Bool
  | .item, _ => true
  | .npc, k => k == .npc || k == .other
  | .scene, k => k == .scene || k == .other
  | .exit, k => k == .exit || k == .other
  | _, _ => false

/-- The named element, if it fits the kind. -/
def element? (w : World) (kind : SubjectKind) (id : String) : Option Element :=
  (w.find? id).filter fun e => kindFits kind e.kind

/-- The element that a subject refers to. -/
def resolve? (w : World) (s : Subject) : Option Element :=
  match s.kind with
  | .player => w.player?
  | .target => w.holder? w.targetId
  | .target2 => w.holder? w.target2Id
  | .currentScene => w.currentScene?
  | .location => w.location?
  | .session => w.holder? w.sessionId
  | .log => w.holder? w.logId
  | kind => s.id.bind (w.element? kind)

/-- The ids of the elements that are directly inside one. -/
def contents (w : World) (id : String) : List String :=
  (w.elements.filter fun e => e.isInside id).map (·.id)

/-- How often a subject has been to a scene; never, if nothing is known. -/
def visitCount? (w : World) (s : Subject) (scene : String) : Option Int := do
  let visitor ← w.resolve? s
  return (((w.visits.lookup visitor.id).bind fun scenes => scenes.lookup scene).getD 0)

/-- Whether a measure lies between two ids. -/
def measureJoins (m : Measure) (a b : String) : Bool :=
  (sameName m.origin a && sameName m.goal b) || (sameName m.origin b && sameName m.goal a)

/-- How far two subjects are apart: nothing from themselves, else as first measured. -/
def distance? (w : World) (origin goal : Subject) : Option Int := do
  let a ← w.resolve? origin
  let b ← w.resolve? goal
  if sameName a.id b.id then return 0
  else (w.measures.find? fun m => measureJoins m a.id b.id).map (·.value)

end World

end GameCondition
