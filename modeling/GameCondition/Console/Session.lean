import GameCondition.Console.Input
import GameCondition.Console.Report

/-! # Console sessions

A session answers what an editor gives, event by event. Lines are joined until their parentheses
are closed; an interrupt drops the lines so far, and so do the end of input and a failure of the
editor. A whole input that is not blank is executed, and is noted in the history. `:clear` forgets
all conditions, `:quit` and `:q` end the session, and anything else without a colon in front is
reported on. The end of input between two inputs ends the session.
-/

namespace GameCondition

/-- How a console presents itself, and the world in which it judges. -/
structure Console where
  world : Option World
  showsBanner : Bool
  prompt : String
  continuationPrompt : String

namespace Console

/-- The version that the banner shows. -/
def version : String := "0.1.0"

/-- A console with the usual prompts. -/
def ofWorld (world : Option World) : Console :=
  ⟨world, true, "?> ", ".. "⟩

/-- The words offered for completion: those of every game, and the elements of the world. -/
def words (c : Console) : List String :=
  consoleWords ++ (c.world.map fun w => w.elements.map (·.id)).getD []

/-- What is shown first. -/
def banner (c : Console) : List Line :=
  if c.showsBanner then
    [.plain (styled "1;36" "verdict" ++ " condition REPL v" ++ version),
      .plain (match c.world with
        | some w => "Evaluating against " ++ toString w.elements.length ++ " element(s)."
        | none => "No world loaded; conditions are parsed but not evaluated."),
      .plain "Type a condition. :clear clears the cache, :quit or Ctrl+D exits.\n"]
  else []

end Console

/-- A session between two events. -/
structure Session where
  engine : Engine
  /-- The lines of an input whose parentheses are still open. -/
  pending : Option String
  running : Bool

/-- What is seen of a session: the prompts that were asked, the lines that were written, and the
inputs that were noted. -/
structure Transcript where
  prompts : List String
  lines : List Line
  history : List String
  deriving DecidableEq, Repr

namespace Transcript

/-- A transcript of lines only. -/
def ofLines (lines : List Line) : Transcript :=
  ⟨[], lines, []⟩

/-- One transcript after another. -/
def append (a b : Transcript) : Transcript :=
  ⟨a.prompts ++ b.prompts, a.lines ++ b.lines, a.history ++ b.history⟩

instance : Append Transcript := ⟨append⟩

end Transcript

namespace Session

/-- A session that begins. -/
def start (e : Engine) : Session :=
  ⟨e, none, true⟩

/-- The session ends. -/
def stop (s : Session) : Session × List Line :=
  ({ s with running := false }, [.plain "\nGoodbye!"])

/-- Something goes wrong. -/
def complain (s : Session) (kind : ErrorKind) : Session × List Line :=
  (s, [alertLine kind.message])

/-- Carries out an input. -/
def execute (c : Console) (s : Session) (input : String) : Session × List Line :=
  if input = ":quit" ∨ input = ":q" then s.stop
  else if input = ":clear" then
    ({ s with engine := s.engine.clear },
      [.plain ("cleared " ++ toString s.engine.memo.size ++ " cached condition(s)")])
  else if input.toList.head? = some ':' then s.complain (.usage ("unknown command: " ++ input))
  else
    let (report, engine) := s.engine.report c.world input
    ({ s with engine }, report.lines)

/-- Takes a whole input. A blank one is passed over. -/
def takeInput (c : Console) (s : Session) (input : String) : Session × Transcript :=
  if isBlank input.toList then (s, .ofLines [])
  else
    let (s, lines) := s.execute c (trimmed input)
    (s, ⟨[], lines, [input]⟩)

/-- The input that the lines so far and a further one make up. -/
def joined (pending : Option String) (line : String) : String :=
  match pending with
  | some lines => lines ++ "\n" ++ line
  | none => line

/-- The session without the lines so far. -/
def dropPending (s : Session) : Session :=
  { s with pending := none }

/-- Answers an event. -/
def answer (c : Console) (s : Session) : InputEvent → Session × Transcript
  | .line text =>
    let input := joined s.pending text
    if openParens input.toList ≤ 0 then s.dropPending.takeInput c input
    else ({ s with pending := some input }, .ofLines [])
  | .interrupt =>
    (s.dropPending, .ofLines (if s.pending.isSome then [.plain "\nInput cancelled."] else []))
  | .endOfInput =>
    let (s, lines) := match s.pending with
      | some _ => s.dropPending.complain (.usage "unexpected EOF in multi-line input")
      | none => s.stop
    (s, .ofLines lines)
  | .failure message =>
    let (s, lines) := s.dropPending.complain (.internal message)
    (s, .ofLines lines)

/-- Asks for an event and answers it, as long as the session is running. -/
def step (c : Console) (s : Session) (event : InputEvent) : Session × Transcript :=
  if s.running then
    let prompt := if s.pending.isSome then c.continuationPrompt else c.prompt
    let (s, t) := s.answer c event
    (s, ⟨[prompt], [], []⟩ ++ t)
  else (s, .ofLines [])

/-- Answers a list of events. -/
def follow (c : Console) (s : Session) : List InputEvent → Session × Transcript
  | [] => (s, .ofLines [])
  | event :: events =>
    let (s, first) := s.step c event
    let (s, further) := s.follow c events
    (s, first ++ further)

/-- A session that answers a list of events, from its banner on. -/
def serve (c : Console) (e : Engine) (events : List InputEvent) : Session × Transcript :=
  let (s, t) := (start e).follow c events
  (s, .ofLines c.banner ++ t)

/-- A whole session, at the end of whose events the input ends for ever. Two ends of input are
enough for it to stop: one that drops open lines, and one between two inputs. -/
def run (c : Console) (e : Engine) (events : List InputEvent) : Session × Transcript :=
  serve c e (events ++ [.endOfInput, .endOfInput])

end Session

end GameCondition
