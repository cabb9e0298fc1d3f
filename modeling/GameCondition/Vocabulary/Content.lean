import GameCondition.Json.Decoding

/-! # Content elements

What a game tells about an element so that authors can name it: its id, its name and aliases, and
the attributes, flags and states that it may have.
-/

namespace GameCondition

/-- What sort of thing an element is. -/
inductive ElementKind where
  | item
  | npc
  | scene
  | exit
  | player
  | other
  deriving DecidableEq, Repr

namespace ElementKind

/-- The word for a kind. -/
def word : ElementKind → String
  | item => "item"
  | npc => "npc"
  | scene => "scene"
  | exit => "exit"
  | player => "player"
  | other => "other"

/-- Every kind. -/
def all : List ElementKind :=
  [item, npc, scene, exit, player, other]

/-- Decodes a kind. -/
def ofJson? (j : Json) : Option ElementKind :=
  j.asWord? (all.map fun k => (k.word, k))

end ElementKind

/-- What is told about an element. -/
structure ContentElement where
  id : String
  name : String
  kind : ElementKind
  aliases : List String
  attributes : List String
  flags : List String
  states : List String
  deriving DecidableEq, Repr

namespace ContentElement

/-- Decodes an element. Only its id has to be there. -/
def ofJson? (j : Json) : Option ContentElement := do
  let strings := Json.fieldOr [] (Json.asList? Json.asString?)
  match ← j.fields? ["id", "name", "kind", "aliases", "attributes", "flags", "states"] with
  | [id, name, kind, aliases, attributes, flags, states] =>
    return {
      id := ← Json.field Json.asString? id
      name := ← Json.fieldOr "" Json.asString? name
      kind := ← Json.fieldOr .other ElementKind.ofJson? kind
      aliases := ← strings aliases
      attributes := ← strings attributes
      flags := ← strings flags
      states := ← strings states }
  | _ => none

end ContentElement

end GameCondition
