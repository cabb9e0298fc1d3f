import GameCondition.Engine
import GameCondition.Json.Writing

/-! # Reports of a console

What a console shows of a condition: its canonical form, the diagnostics, the condition as JSON if
it could be read, and whether it holds if there is a world.
-/

namespace GameCondition

/-- A line that a console writes: of its output, or about something that is wrong. -/
inductive Line where
  | plain (text : String)
  | alert (text : String)
  deriving DecidableEq, Repr

/-- A text in a terminal style. -/
def styled (style text : String) : String :=
  "\x1b[" ++ style ++ "m" ++ text ++ "\x1b[0m"

/-- The terminal style of a diagnostic: red for errors, yellow for warnings. -/
def Severity.style : Severity → String
  | .error => "31"
  | .warning => "33"

/-- The line about an error. -/
def alertLine (message : String) : Line :=
  .alert (styled "31" ("Error: " ++ message))

/-- What a console shows of a condition. -/
structure Report where
  canonical : String
  outcome : Outcome
  projection : Option Json
  verdict : Option Bool

namespace Report

/-- The lines of a report. -/
def lines (r : Report) : List Line :=
  .plain (styled "2" r.canonical)
    :: (r.outcome.diagnostics.map fun d => Line.alert (styled d.severity.style (toString d)))
    ++ (r.projection.map fun j => Line.plain (String.ofList j.wide)).toList
    ++ (r.verdict.map fun b => Line.plain (styled "1" ("=> " ++ toString b))).toList

end Report

/-- The report on a text, with the engine after it. Only what is read without errors is judged. -/
def Engine.report (e : Engine) (world : Option World) (source : String) : Report × Engine :=
  let outcome := e.check source
  let projection := outcome.condition.map Condition.toJson
  match world with
  | some w =>
    if outcome.success then
      let (verdict, after) := e.evaluate w source
      (⟨e.canonicalize source, outcome, projection, some verdict⟩, after)
    else (⟨e.canonicalize source, outcome, projection, none⟩, e)
  | none => (⟨e.canonicalize source, outcome, projection, none⟩, e)

end GameCondition
