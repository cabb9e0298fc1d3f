/-! # Errors

What can go wrong between a host and the language: a condition that is not well formed, one that is
nested too deeply, wrong use, failing input and output, data that cannot be decoded. An error may
carry the condition and the byte offset at which it arose.
-/

namespace GameCondition

/-- The condition an error arose in. -/
structure ErrorContext where
  condition : Option String
  offset : Option Nat
  deriving DecidableEq, Repr

/-- Written as the condition in quotes and the offset in it, and as nothing without a condition. -/
protected def ErrorContext.toString (c : ErrorContext) : String :=
  match c.condition, c.offset with
  | none, _ => ""
  | some condition, none => "in \"" ++ condition ++ "\""
  | some condition, some offset =>
    "in \"" ++ condition ++ "\" at offset " ++ toString offset

instance : ToString ErrorContext := ⟨ErrorContext.toString⟩

/-- What an error is about. -/
inductive ErrorKind where
  /-- The condition is not well formed; with the place and the line it is in. -/
  | malformed (message : String) (line column : UInt32) (lineText : String)
  /-- The condition is nested deeper than the limit. -/
  | tooDeep (limit : Nat)
  | usage (message : String)
  | io (message : String)
  | undecodable (message : String)
  | internal (message : String)
  deriving DecidableEq, Repr

/-- The text for a nesting limit that is exceeded. -/
def depthMessage (limit : Nat) : String :=
  "max nesting depth (" ++ toString limit ++ ") exceeded"

/-- The text of an error. -/
def ErrorKind.message : ErrorKind → String
  | malformed message line column _ =>
    "parse error at " ++ toString line ++ ":" ++ toString column ++ ": " ++ message
  | tooDeep limit => "limit exceeded: " ++ depthMessage limit
  | usage message => "usage error: " ++ message
  | io message => "I/O error: " ++ message
  | undecodable message => "serialization error: " ++ message
  | internal message => "internal error: " ++ message

/-- An error. -/
structure Error where
  kind : ErrorKind
  context : Option ErrorContext
  deriving DecidableEq, Repr

namespace Error

/-- An error without context. -/
def ofKind (kind : ErrorKind) : Error :=
  ⟨kind, none⟩

/-- The text of an error, which its context does not enter. -/
def message (e : Error) : String :=
  e.kind.message

/-- Whether the text of a condition is at fault. -/
def isSyntactic (e : Error) : Bool :=
  match e.kind with
  | .malformed .. => true
  | .tooDeep _ => true
  | _ => false

end Error

end GameCondition
