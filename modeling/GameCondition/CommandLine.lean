import GameCondition.Console.Erasing
import GameCondition.Console.Session
import GameCondition.Json.Reading
import GameCondition.World.Coding
import GameCondition.World.Naming

/-! # Command line

The arguments name a file with a world and a file with settings, or ask for help or for the
version. Then a console answers the standard input. On a pipe no prompt is shown, backspaces erase
what is before them, and an input may go on over several lines while its parentheses are open; if
the text ends before that, what was begun is dropped.
-/

namespace GameCondition

/-! ## Arguments -/

/-- What the arguments ask for. -/
structure Options where
  world : Option String
  settings : Option String
  verbose : Bool
  help : Bool
  version : Bool
  deriving DecidableEq, Repr

namespace Options

/-- No arguments. -/
def none : Options :=
  ⟨.none, .none, false, false, false⟩

/-- Reads arguments from left to right. Of a file that is named twice the last name counts. -/
def read (o : Options) : List String → Except String Options
  | [] => .ok o
  | "-h" :: args => read { o with help := true } args
  | "--help" :: args => read { o with help := true } args
  | "-V" :: args => read { o with version := true } args
  | "--version" :: args => read { o with version := true } args
  | "-v" :: args => read { o with verbose := true } args
  | "--verbose" :: args => read { o with verbose := true } args
  | "-w" :: path :: args => read { o with world := some path } args
  | "--world" :: path :: args => read { o with world := some path } args
  | "-c" :: path :: args => read { o with settings := some path } args
  | "--config" :: path :: args => read { o with settings := some path } args
  | ["-w"] => .error "--world requires a file"
  | ["--world"] => .error "--world requires a file"
  | ["-c"] => .error "--config requires a file"
  | ["--config"] => .error "--config requires a file"
  | arg :: _ => .error ("unknown argument: " ++ arg)

/-- The options of a list of arguments. -/
def ofArgs (args : List String) : Except String Options :=
  none.read args

/-- The files that are named. -/
def paths (o : Options) : List String :=
  o.settings.toList ++ o.world.toList

end Options

/-- The text that explains the arguments. -/
def helpText : String :=
  let title := styled "1"
  title "verdict" ++ " - natural-language condition REPL\n\n"
    ++ title "USAGE:" ++ "\n"
    ++ "    verdict [OPTIONS]\n\n"
    ++ title "OPTIONS:" ++ "\n"
    ++ "    -w, --world FILE    Load a JSON world; conditions are evaluated against it\n"
    ++ "    -c, --config FILE   Load service settings from JSON\n"
    ++ "    -v, --verbose       Log cache and evaluation detail to stderr\n"
    ++ "    -h, --help          Print help information\n"
    ++ "    -V, --version       Print version information\n\n"
    ++ title "REPL COMMANDS:" ++ "\n"
    ++ "    :clear              Clear the expression cache\n"
    ++ "    :quit               Exit (also Ctrl+D)\n\n"
    ++ title "EXAMPLES:" ++ "\n"
    ++ "    verdict --world demos/cellar.json\n"
    ++ "    ?> the player's attribute strength is greater than 2 and the lamp is lit"

/-! ## Files -/

/-- Why a file could not be read. -/
inductive FileError where
  | missing
  | directory
  | notDirectory
  | nameTooLong
  | denied
  | noText
  | other (message : String)
  deriving DecidableEq, Repr

/-- The wording of a file error. -/
def FileError.message : FileError → String
  | missing => "No such file or directory (os error 2)"
  | directory => "Is a directory (os error 21)"
  | notDirectory => "Not a directory (os error 20)"
  | nameTooLong => "File name too long (os error 36)"
  | denied => "Permission denied (os error 13)"
  | noText => "stream did not contain valid UTF-8"
  | other message => message

/-- The contents of files by their names. -/
abbrev Files := String → Except FileError String

/-- The settings in a file. -/
def Files.settings (files : Files) (path : String) : Except String Settings := do
  let text ← (files path).mapError FileError.message
  match (Json.read? text.toList).bind Settings.ofJson? with
  | some s => return s
  | none => throw "not a JSON text of settings"

/-- The world in a file. -/
def Files.world (files : Files) (path : String) : Except String World := do
  let text ← (files path).mapError fun e => (ErrorKind.io e.message).message
  match (Json.read? text.toList).bind World.ofJson? with
  | some w => return w
  | none => throw (ErrorKind.undecodable "not a JSON text of a world").message

/-! ## Programs -/

/-- What the program does. -/
inductive Program where
  | show (text : String)
  | serve (console : Console) (engine : Engine)

namespace Program

/-- Sets up a console. -/
def serving (files : Files) (o : Options) : Except String Program := do
  let settings ← match o.settings with
    | some path => files.settings path
    | none => .ok .default
  let world ← match o.world with
    | some path => (files.world path).map some
    | none => .ok none
  let vocabulary := (world.map World.vocabulary).getD .empty
  let engine ← (Engine.create vocabulary settings).mapError Error.message
  return .serve (.ofWorld world) engine

/-- What the program does for the given arguments, or why it does nothing. -/
def ofArgs (files : Files) (args : List String) : Except String Program := do
  let o ← Options.ofArgs args
  if o.help then return .show helpText
  else if o.version then return .show ("verdict " ++ Console.version)
  else serving files o

end Program

/-! ## Input from a pipe -/

/-- A line without the line feed, or carriage return and line feed, that ends it. -/
def withoutEnding (line : List Char) : List Char :=
  match line.reverse with
  | '\n' :: '\r' :: cs => cs.reverse
  | '\n' :: cs => cs.reverse
  | _ => line

/-- What comes of one more line from a pipe. -/
inductive PipeStep where
  /-- A whole input. -/
  | input (text : String)
  /-- The text so far, which waits for another line. -/
  | more (pending : List Char)
  /-- A backspace cut a character in two. -/
  | torn
  deriving DecidableEq, Repr

/-- What comes of a line after the text so far. Backspaces erase in all of it, also in the lines
before. -/
def pipeStep (pending line : List Char) : PipeStep :=
  let body := withoutEnding line
  match erased? (pending ++ body) with
  | none => .torn
  | some text =>
    if openParens text ≤ 0 then .input (String.ofList text)
    else .more (text ++ line.drop body.length)

/-- The lines of a text with their endings. -/
def linesOf : List Char → List (List Char)
  | [] => []
  | '\n' :: cs => ['\n'] :: linesOf cs
  | c :: cs =>
    match linesOf cs with
    | [] => [[c]]
    | line :: lines => (c :: line) :: lines

/-- What a pipe holds. -/
structure PipeContents where
  inputs : List String
  /-- Whether a backspace that cuts a character in two puts an end to the inputs. -/
  torn : Bool
  deriving DecidableEq, Repr

/-- What the lines of a pipe hold after the text so far. -/
def PipeContents.ofLines (pending : List Char) : List (List Char) → PipeContents
  | [] => ⟨[], false⟩
  | line :: lines =>
    match pipeStep pending line with
    | .input text =>
      let contents := ofLines [] lines
      { contents with inputs := text :: contents.inputs }
    | .more pending => ofLines pending lines
    | .torn => ⟨[], true⟩

/-! ## Results -/

/-- How a program ends, and what it has written. -/
structure ProgramResult where
  code : Nat
  output : String
  alerts : String
  deriving DecidableEq, Repr

/-- The lines of the output, or those about what is wrong, as a text. -/
def textOf (lines : List String) : String :=
  String.join (lines.map (· ++ "\n"))

/-- The text of a line of output. -/
def Line.plain? : Line → Option String
  | plain text => some text
  | alert _ => none

/-- The text of a line about something wrong. -/
def Line.alert? : Line → Option String
  | plain _ => none
  | alert text => some text

/-- The result of writing some lines. -/
def ProgramResult.ofLines (code : Nat) (lines : List Line) : ProgramResult :=
  ⟨code, textOf (lines.filterMap Line.plain?), textOf (lines.filterMap Line.alert?)⟩

/-- The exit code of a program that a torn character stops. -/
def tornCode : Nat := 101

/-- What is written then. -/
def tornLine : Line :=
  alertLine "a backspace cuts a character in two"

/-- Answers what a pipe holds. A session that is still running when a character is torn stops
without a word of its own. -/
def PipeContents.result (p : PipeContents) (c : Console) (e : Engine) : ProgramResult :=
  let events := p.inputs.map .line
  if p.torn then
    let (s, t) := Session.serve c e events
    if s.running then .ofLines tornCode (t.lines ++ [tornLine]) else .ofLines 0 t.lines
  else .ofLines 0 (Session.run c e events).2.lines

/-- Runs the program on arguments, files, and a text on a pipe. -/
def runProgram (files : Files) (args : List String) (input : String) : ProgramResult :=
  match Program.ofArgs files args with
  | .error message => .ofLines 1 [alertLine message]
  | .ok (.show text) => .ofLines 0 [.plain text]
  | .ok (.serve console engine) =>
    (PipeContents.ofLines [] (linesOf input.toList)).result console engine

end GameCondition
