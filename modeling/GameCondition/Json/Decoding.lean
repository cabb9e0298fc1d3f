import GameCondition.Json.Basic

/-! # Decoding JSON

A record is decoded from an object by the names of its fields, or from a list by their order. A
field may stand only once, members with other names are passed over, and a list may be shorter than
the record but not longer. Fields that are not there are up to the record.
-/

namespace GameCondition

namespace Json

/-- The fields of a record with the given field names, in their order. -/
def fields? (names : List String) : Json → Option (List (Option Json))
  | object members =>
    let known := members.filter fun m => names.contains m.1
    if (known.map (·.1)).Nodup then some (names.map fun name => known.lookup name) else none
  | list items =>
    if items.length ≤ names.length then
      some (items.map some ++ List.replicate (names.length - items.length) none)
    else none
  | _ => none

/-- Decodes a field, which has the default value if it is not there. -/
def fieldOr {α : Type} (default : α) (decode : Json → Option α) : Option Json → Option α
  | none => some default
  | some v => decode v

/-- Decodes a field that has to be there. -/
def field {α : Type} (decode : Json → Option α) : Option Json → Option α
  | none => none
  | some v => decode v

/-- A string. -/
def asString? : Json → Option String
  | text s => some s
  | _ => none

/-- A string or null. -/
def asStringOrNull? : Json → Option (Option String)
  | null => some none
  | text s => some (some s)
  | _ => none

/-- A truth value. -/
def asBool? : Json → Option Bool
  | bool b => some b
  | _ => none

/-- A whole number that fits in 64 bits with its sign. -/
def asInt64? : Json → Option Int
  | integer i => if -Int.pow 2 63 ≤ i ∧ i < Int.pow 2 63 then some i else none
  | _ => none

/-- A whole number that is not negative and fits in 64 bits. -/
def asNat64? : Json → Option Nat
  | integer i => if 0 ≤ i ∧ i < Int.pow 2 64 then some i.toNat else none
  | _ => none

/-- A list of items of one kind. -/
def asList? {α : Type} (decode : Json → Option α) : Json → Option (List α)
  | list items => items.mapM decode
  | _ => none

/-- An object as a dictionary; of several members with one key the last counts. -/
def asDict? {α : Type} (decode : Json → Option α) : Json → Option (Dict α)
  | object members => (members.mapM fun m => (decode m.2).map fun v => (m.1, v)).map Dict.ofList
  | _ => none

/-- One of a few words, alone or as the only key of an object whose value is null. -/
def asWord? {α : Type} (words : List (String × α)) : Json → Option α
  | text s => words.lookup s
  | object [(s, null)] => words.lookup s
  | _ => none

end Json

end GameCondition
