import GameCondition.Condition.Reading
import GameCondition.Json.Decoding

/-! # Settings

How an engine reads conditions: how deep they may be nested, whether names are checked, and whether
read conditions are remembered. Limits that no condition could meet, or that are not a limit any
more, are refused.
-/

namespace GameCondition

/-- The settings of an engine. -/
structure Settings where
  maxNestingDepth : Nat
  validates : Bool
  remembers : Bool
  deriving DecidableEq, Repr

namespace Settings

/-- The greatest nesting limit that is accepted. -/
def greatestLimit : Nat := 256

/-- Everything switched on, under the usual limit. -/
def default : Settings :=
  ⟨Condition.defaultLimit, true, true⟩

/-- Everything switched on, under a tight limit. -/
def strict : Settings :=
  { default with maxNestingDepth := 16 }

instance : Inhabited Settings := ⟨default⟩

/-- Refuses a limit that is zero or too great. -/
def check (s : Settings) : Except Error Unit :=
  if s.maxNestingDepth = 0 then
    .error (.ofKind (.usage "max_nesting_depth must be at least 1"))
  else if greatestLimit < s.maxNestingDepth then
    .error (.ofKind (.usage ("max_nesting_depth must be at most " ++ toString greatestLimit)))
  else .ok ()

/-- Decodes settings, any of which may be missing. -/
def ofJson? (j : Json) : Option Settings := do
  match ← j.fields? ["max_nesting_depth", "validate", "cache_enabled"] with
  | [depth, validates, remembers] =>
    return {
      maxNestingDepth := ← Json.fieldOr default.maxNestingDepth Json.asNat64? depth
      validates := ← Json.fieldOr default.validates Json.asBool? validates
      remembers := ← Json.fieldOr default.remembers Json.asBool? remembers }
  | _ => none

end Settings

end GameCondition
