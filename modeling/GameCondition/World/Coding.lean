import GameCondition.World.Basic

/-! # Worlds as JSON

A world is written with all its fields and read with any of them missing. Element references have
no JSON form: they do not occur in the properties and attributes of a world that was read.
-/

namespace GameCondition

namespace Value

mutual

/-- A value as JSON. -/
def toJson : Value → Json
  | nil => .null
  | bool b => .bool b
  | number n => .ofNumber n
  | text s => .text s
  | list items => .list (itemsToJson items)
  | element _ => .unreadable

/-- The items of a list as JSON. -/
def itemsToJson : List Value → List Json
  | [] => []
  | v :: vs => v.toJson :: itemsToJson vs

end

mutual

/-- Decodes a value, which is anything but an object. -/
def ofJson? : Json → Option Value
  | .null => some nil
  | .bool b => some (bool b)
  | .integer i => some (number (.ofInt i))
  | .decimal x => some (number x)
  | .text s => some (text s)
  | .list items => (itemsOfJson? items).map list
  | .object _ => none
  | .unreadable => none

/-- Decodes the items of a list. -/
def itemsOfJson? : List Json → Option (List Value)
  | [] => some []
  | j :: js => do return (← ofJson? j) :: (← itemsOfJson? js)

end

end Value

/-- A dictionary as JSON. -/
def Dict.toJson {α : Type} (encode : α → Json) (d : Dict α) : Json :=
  .object (d.entries.map fun e => (e.1, encode e.2))

namespace Element

/-- An element as JSON. -/
def toJson (e : Element) : Json :=
  .object [
    ("id", .text e.id),
    ("name", .text e.givenName),
    ("kind", .text e.kind.word),
    ("aliases", .list (e.aliases.map .text)),
    ("container", .ofText? e.container),
    ("state", .ofText? e.currentState),
    ("default_state", .ofText? e.defaultState),
    ("flags", e.flags.toJson .bool),
    ("properties", e.properties.toJson Value.toJson),
    ("attributes", e.attributes.toJson Value.toJson)]

/-- Decodes an element. -/
def ofJson? (j : Json) : Option Element := do
  match ← j.fields? ["id", "name", "kind", "aliases", "container", "state", "default_state",
    "flags", "properties", "attributes"] with
  | [id, name, kind, aliases, container, state, defaultState, flags, properties, attributes] =>
    return {
      id := ← Json.fieldOr "" Json.asString? id
      givenName := ← Json.fieldOr "" Json.asString? name
      kind := ← Json.fieldOr .other ElementKind.ofJson? kind
      aliases := ← Json.fieldOr [] (Json.asList? Json.asString?) aliases
      container := ← Json.fieldOr none Json.asStringOrNull? container
      currentState := ← Json.fieldOr none Json.asStringOrNull? state
      defaultState := ← Json.fieldOr none Json.asStringOrNull? defaultState
      flags := ← Json.fieldOr .empty (Json.asDict? Json.asBool?) flags
      properties := ← Json.fieldOr .empty (Json.asDict? Value.ofJson?) properties
      attributes := ← Json.fieldOr .empty (Json.asDict? Value.ofJson?) attributes }
  | _ => none

end Element

namespace Measure

/-- A measure as JSON. -/
def toJson (m : Measure) : Json :=
  .object [("from", .text m.origin), ("to", .text m.goal), ("value", .integer m.value)]

/-- Decodes a measure, none of whose fields may be missing. -/
def ofJson? (j : Json) : Option Measure := do
  match ← j.fields? ["from", "to", "value"] with
  | [origin, goal, value] =>
    return {
      origin := ← Json.field Json.asString? origin
      goal := ← Json.field Json.asString? goal
      value := ← Json.field Json.asInt64? value }
  | _ => none

end Measure

namespace World

/-- A world as JSON. -/
def toJson (w : World) : Json :=
  .object [
    ("elements", .list (w.elements.map Element.toJson)),
    ("player", .ofText? w.playerId),
    ("target", .ofText? w.targetId),
    ("target2", .ofText? w.target2Id),
    ("current_scene", .ofText? w.currentSceneId),
    ("session", .ofText? w.sessionId),
    ("log", .ofText? w.logId),
    ("visits", w.visits.toJson fun scenes => scenes.toJson .integer),
    ("distances", .list (w.measures.map Measure.toJson))]

/-- Decodes a world. -/
def ofJson? (j : Json) : Option World := do
  match ← j.fields? ["elements", "player", "target", "target2", "current_scene", "session", "log",
    "visits", "distances"] with
  | [elements, player, target, target2, currentScene, session, log, visits, distances] =>
    return {
      elements := ← Json.fieldOr [] (Json.asList? Element.ofJson?) elements
      playerId := ← Json.fieldOr none Json.asStringOrNull? player
      targetId := ← Json.fieldOr none Json.asStringOrNull? target
      target2Id := ← Json.fieldOr none Json.asStringOrNull? target2
      currentSceneId := ← Json.fieldOr none Json.asStringOrNull? currentScene
      sessionId := ← Json.fieldOr none Json.asStringOrNull? session
      logId := ← Json.fieldOr none Json.asStringOrNull? log
      visits := ← Json.fieldOr .empty (Json.asDict? (Json.asDict? Json.asInt64?)) visits
      measures := ← Json.fieldOr [] (Json.asList? Measure.ofJson?) distances }
  | _ => none

end World

end GameCondition
