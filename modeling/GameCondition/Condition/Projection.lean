import GameCondition.Condition.Basic
import GameCondition.Json.Basic

/-! # Conditions as JSON

A condition becomes an object with a `type`, for editors that draw it. Members stand in the
ascending order of their keys, and those that have nothing to say are left out. Places are not
shown.
-/

namespace GameCondition

/-- A subject as its kind and its id, which may be null. -/
def Subject.toJson (s : Subject) : Json :=
  .object [("id", .ofText? s.id), ("kind", .text s.kind.word)]

/-- An operand as its kind and its text, with the number or truth value that it is. -/
def Operand.toJson (o : Operand) : Json :=
  .object (Json.withMember? "boolValue" (o.bool?.map .bool)
    (("kind", .text o.kindName) ::
      Json.withMember? "numericValue" (o.number?.map .ofNumber) [("value", .text o.value)]))

/-- A relation as its parts. -/
def Relation.toJson (r : Relation) : Json :=
  .object (Json.withMember? "attributeName" (r.attr.map .text)
    (("object", r.operand.toJson) ::
      Json.withMember? "propertyName" (r.property.map .text)
        [("relation", .text r.comparison.word), ("subject", r.subject.toJson),
          ("type", .text "RELATION")]))

/-- A condition as its parts. -/
def Condition.toJson : Condition → Json
  | and l r _ => .object [("left", l.toJson), ("right", r.toJson), ("type", .text "AND")]
  | or l r _ => .object [("left", l.toJson), ("right", r.toJson), ("type", .text "OR")]
  | not c _ => .object [("inner", c.toJson), ("type", .text "NOT")]
  | relation r => r.toJson
  | visits v =>
    .object [("comparison", .text v.comparison.word), ("sceneName", .text v.scene),
      ("subject", v.subject.toJson), ("type", .text "COUNT"), ("value", .integer v.value)]
  | distance d =>
    .object [("comparison", .text d.comparison.word), ("subjectA", d.origin.toJson),
      ("subjectB", d.goal.toJson), ("type", .text "DISTANCE"), ("value", .integer d.value)]

end GameCondition
