import GameCondition.CommandLine

/-! # The program

Reads the files that are named, answers the standard input line by line, and writes what the
console says. All decisions are those of `Program.ofArgs`, `pipeStep` and `Session.step`.
-/

namespace GameCondition.Program

/-- Writes the lines of a console. -/
def writeLines (lines : List Line) : IO Unit := do
  for line in lines do
    match line with
    | .plain text =>
      (← IO.getStdout).putStrLn text
      (← IO.getStdout).flush
    | .alert text =>
      (← IO.getStderr).putStrLn text
      (← IO.getStderr).flush

/-- The kind of a file error. -/
def fileError : IO.Error → FileError
  | .noFileOrDirectory .. => .missing
  | .inappropriateType _ code _ => if code = 21 then .directory else .notDirectory
  | .permissionDenied .. => .denied
  | .invalidArgument .. => .nameTooLong
  | .userError _ => .noText
  | e => .other (toString e)

/-- Reads a file. -/
def readFile (path : String) : IO (Except FileError String) := do
  try
    return .ok (← IO.FS.readFile path)
  catch e =>
    return .error (fileError e)

/-- Answers an event of the standard input. -/
def answerEvent (c : Console) (s : Session) (event : InputEvent) : IO Session := do
  let (s, t) := s.step c event
  writeLines t.lines
  return s

/-- Answers the standard input until it ends or the session stops, and gives the exit code. -/
partial def serveInput (c : Console) (s : Session) (pending : List Char) : IO UInt32 := do
  if !s.running then return 0
  let line ← (← IO.getStdin).getLine
  if line.isEmpty then
    serveInput c (← answerEvent c s .endOfInput) []
  else match pipeStep pending line.toList with
    | .input text => serveInput c (← answerEvent c s (.line text)) []
    | .more pending => serveInput c s pending
    | .torn =>
      writeLines [tornLine]
      return tornCode.toUInt32

/-- Runs the program, and gives its exit code. -/
def start (args : List String) : IO UInt32 := do
  let paths := match Options.ofArgs args with
    | .ok o => o.paths
    | .error _ => []
  let contents ← paths.mapM fun path => return (path, ← readFile path)
  let files : Files := fun path => (contents.lookup path).getD (.error .missing)
  match ofArgs files args with
  | .error message =>
    writeLines [alertLine message]
    return 1
  | .ok (.show text) =>
    writeLines [.plain text]
    return 0
  | .ok (.serve console engine) =>
    writeLines console.banner
    serveInput console (.start engine) []

end GameCondition.Program

def main (args : List String) : IO UInt32 :=
  GameCondition.Program.start args
