import GameCondition.Condition.Basic
import GameCondition.Error

/-! # Diagnostics

Feedback on the text of a condition. An error says why it could not be read; warnings ride along
with a condition that was read. An `Outcome` is what reading gives: a condition or an error, and
the warnings that are added later.
-/

namespace GameCondition

/-- How serious a diagnostic is. -/
inductive Severity where
  | warning
  | error
  deriving DecidableEq, Repr

/-- The word for a severity. -/
def Severity.word : Severity → String
  | warning => "warning"
  | error => "error"

/-- What a diagnostic is about. -/
inductive DiagnosticCode where
  /-- The text does not fit the grammar. -/
  | grammar
  /-- The text is nested deeper than the limit. -/
  | nestingLimit (limit : Nat)
  | unknownElement
  | unknownScene
  | unknownAttribute
  deriving DecidableEq, Repr

/-- A piece of feedback. -/
structure Diagnostic where
  severity : Severity
  code : DiagnosticCode
  message : String
  span : Span
  deriving DecidableEq, Repr

namespace Diagnostic

/-- The error for text that does not fit the grammar. -/
def misfit (message : String) (span : Span) : Diagnostic :=
  ⟨.error, .grammar, message, span⟩

/-- The error for text that is nested too deeply. -/
def tooDeep (limit : Nat) (span : Span) : Diagnostic :=
  ⟨.error, .nestingLimit limit, depthMessage limit, span⟩

/-- A warning. -/
def warning (code : DiagnosticCode) (message : String) (span : Span) : Diagnostic :=
  ⟨.warning, code, message, span⟩

/-- Whether the condition could not be read. -/
def isError (d : Diagnostic) : Bool :=
  d.severity == .error

/-- Written as severity, place and message. -/
protected def toString (d : Diagnostic) : String :=
  d.severity.word ++ " at " ++ toString d.span ++ ": " ++ d.message

instance : ToString Diagnostic := ⟨Diagnostic.toString⟩

/-- The diagnostic as an error about the text it refers to. -/
def toError (d : Diagnostic) (source : String) : Error :=
  let kind := match d.code with
    | .nestingLimit limit => ErrorKind.tooDeep limit
    | _ => .malformed d.message d.span.line d.span.column
      (String.ofList (lineAt source.toList d.span.start))
  ⟨kind, some ⟨some source, some d.span.start⟩⟩

end Diagnostic

/-- What reading a condition gives. -/
structure Outcome where
  condition : Option Condition
  diagnostics : List Diagnostic
  deriving DecidableEq, Repr

namespace Outcome

/-- The outcome of a reading. -/
def ofExcept : Except Diagnostic Condition → Outcome
  | .ok c => ⟨some c, []⟩
  | .error d => ⟨none, [d]⟩

/-- Whether there is no error. -/
def success (o : Outcome) : Bool :=
  !o.diagnostics.any Diagnostic.isError

/-- The errors. -/
def errors (o : Outcome) : List Diagnostic :=
  o.diagnostics.filter Diagnostic.isError

/-- The warnings. -/
def warnings (o : Outcome) : List Diagnostic :=
  o.diagnostics.filter fun d => !d.isError

/-- Adds diagnostics as warnings. -/
def addWarnings (o : Outcome) (ds : List Diagnostic) : Outcome :=
  { o with diagnostics := o.diagnostics ++ ds.map fun d => { d with severity := .warning } }

end Outcome

end GameCondition
