import GameCondition.Console.Session
import GameCondition.Proofs.Text.Segments

/-! # Sessions that follow a script

A session keeps what it waits for from one event to the next. What a whole script comes to can be
told without that: each time an input is asked for, the lines up to the next event that is none
either begin with a whole input or are dropped, together with that event (`turns`). A session
carries out the inputs of these turns in order, each once, until one of them quits, and it stops
at the latest when the input has ended twice (`run_script`).
-/

namespace GameCondition

/-! ## What a script comes to -/

/-- The lines that a script begins with. -/
def leadingLines : List InputEvent → List String
  | .line text :: events => text :: leadingLines events
  | _ => []

/-- Lines as one text. -/
def joinLines : List String → String
  | [] => ""
  | line :: lines => lines.foldl (fun text line => text ++ "\n" ++ line) line

/-- Whether some lines leave no parenthesis open. -/
def IsBalanced (lines : List String) : Prop :=
  openParens (joinLines lines).toList ≤ 0

instance (lines : List String) : Decidable (IsBalanced lines) :=
  inferInstanceAs (Decidable (_ ≤ _))

/-- How many of some lines, at least one, are the fewest that leave no parenthesis open. -/
def inputLength? (lines : List String) : Option Nat :=
  (List.range' 1 lines.length).find? fun n => IsBalanced (lines.take n)

/-- What comes of asking for an input. -/
inductive Turn where
  /-- Lines that make up a whole input. -/
  | input (text : String)
  /-- Lines that never do, because another event comes first. -/
  | cut (lines : List String) (event : InputEvent)

namespace Turn

/-- The input that is executed in a turn. A blank one is not. -/
def input? : Turn → Option String
  | input text => if isBlank text.toList then none else some text
  | cut _ _ => none

/-- Whether a turn ends the session. -/
def quits (turn : Turn) : Bool :=
  turn.input?.any fun text => trimmed text == ":quit" || trimmed text == ":q"

/-- What is written when no input comes of a turn. -/
def notice : Turn → List Line
  | cut lines .interrupt => if lines = [] then [] else [.plain "\nInput cancelled."]
  | cut _ .endOfInput =>
    [alertLine (ErrorKind.usage "unexpected EOF in multi-line input").message]
  | cut _ (.failure message) => [alertLine (ErrorKind.internal message).message]
  | _ => []

/-- The turns up to the first that ends the session, that one included. -/
def upToQuit : List Turn → List Turn
  | [] => []
  | turn :: turns => bif turn.quits then [turn] else turn :: upToQuit turns

end Turn

/-- The first turn of a script. -/
def firstTurn (script : List InputEvent) : Turn :=
  let lines := leadingLines script
  match inputLength? lines with
  | some n => .input (joinLines (lines.take n))
  | none => .cut lines (script[lines.length]?.getD .endOfInput)

/-- What is left of a script after its first turn. -/
def afterTurn (script : List InputEvent) : List InputEvent :=
  let lines := leadingLines script
  match inputLength? lines with
  | some n => script.drop n
  | none => script.drop (lines.length + 1)

/-- An input takes a line at least. -/
theorem inputLength?_pos {lines : List String} {n : Nat} (h : inputLength? lines = some n) :
    0 < n :=
  (List.mem_range'_1.mp (List.mem_of_find?_eq_some h)).1

/-- A turn takes an event at least. -/
theorem length_afterTurn_lt {script : List InputEvent} (h : script ≠ []) :
    (afterTurn script).length < script.length := by
  have hlength := List.length_pos_iff.mpr h
  unfold afterTurn
  dsimp only
  split
  · next n hn =>
    have hpos := inputLength?_pos hn
    rw [List.length_drop]
    omega
  · rw [List.length_drop]
    omega

/-- What a turn leaves is the end of the script. -/
theorem afterTurn_suffix (script : List InputEvent) : afterTurn script <:+ script := by
  unfold afterTurn
  dsimp only
  split <;> exact List.drop_suffix _ _

/-- The turns of a script after which the input ends. -/
def turns : List InputEvent → List Turn
  | [] => []
  | event :: events => firstTurn (event :: events) :: turns (afterTurn (event :: events))
termination_by script => script.length
decreasing_by exact length_afterTurn_lt (List.cons_ne_nil event events)

/-- The inputs of a script that are executed. -/
def executedInputs (script : List InputEvent) : List String :=
  (Turn.upToQuit (turns script)).filterMap Turn.input?

namespace Session

/-- Carries out a turn: executes its input if it has one. -/
def carryOut (c : Console) (s : Session) (turn : Turn) : Session × List Line :=
  match turn.input? with
  | some text => s.execute c (trimmed text)
  | none => (s, turn.notice)

/-- Carries out some turns in order. -/
def carryOutAll (c : Console) (s : Session) : List Turn → Session × List Line
  | [] => (s, [])
  | turn :: turns =>
    let (s, lines) := s.carryOut c turn
    let (s, further) := s.carryOutAll c turns
    (s, lines ++ further)

end Session

/-! ## Lines of an input -/

/-- A further line is joined with a line break. -/
theorem joinLines_append {lines : List String} (h : lines ≠ []) (line : String) :
    joinLines (lines ++ [line]) = joinLines lines ++ "\n" ++ line := by
  cases lines with
  | nil => contradiction
  | cons first rest => simp [joinLines]

/-- Where no lines from the first on are balanced, one more is an input only together with all. -/
theorem inputLength?_append_eq_none_iff {lines : List String} {line : String} :
    inputLength? (lines ++ [line]) = none ↔
      inputLength? lines = none ∧ ¬ IsBalanced (lines ++ [line]) := by
  simp only [inputLength?, List.find?_range'_eq_none, List.length_append, List.length_singleton,
    Bool.not_eq_true', decide_eq_false_iff_not]
  constructor
  · intro h
    constructor
    · intro n hn hlt
      have hopen := h n hn (by omega)
      rwa [List.take_append_of_le_length (by omega)] at hopen
    · have hopen := h (lines.length + 1) (by omega) (by omega)
      rwa [List.take_of_length_le (by simp)] at hopen
  · rintro ⟨h, hlast⟩ n hn hlt
    rcases Nat.lt_or_ge lines.length n with hlt' | hle
    · rwa [List.take_of_length_le (by simp; omega)]
    · rw [List.take_append_of_le_length hle]
      exact h n hn (by omega)

/-- The shortest input is a balanced run of lines, and no run of fewer is. -/
theorem exists_of_inputLength? {lines : List String} {n : Nat} (h : inputLength? lines = some n) :
    n ≤ lines.length ∧ ∃ before line, lines.take n = before ++ [line] ∧
      IsBalanced (before ++ [line]) ∧ inputLength? before = none := by
  simp only [inputLength?, List.find?_range'_eq_some, List.mem_range'_1, decide_eq_true_eq,
    Bool.not_eq_true', decide_eq_false_iff_not] at h
  rcases h with ⟨hbalanced, ⟨hpos, hlt⟩, hleast⟩
  have hsplit : lines.take n = lines.take (n - 1) ++ [lines[n - 1]] := by
    rw [List.take_append_getElem, Nat.sub_add_cancel hpos]
  refine ⟨by omega, lines.take (n - 1), lines[n - 1], hsplit, hsplit ▸ hbalanced, ?_⟩
  simp only [inputLength?, List.find?_range'_eq_none, Bool.not_eq_true', decide_eq_false_iff_not]
  intro k hk hlt'
  have hlt : k < n := by
    have hle := List.length_take_le (n - 1) lines
    omega
  rw [List.take_take, min_eq_left (by omega)]
  exact hleast k hk hlt

/-! ## The beginning of a script -/

/-- The first of the leading lines are the first events. -/
theorem take_leadingLines {events : List InputEvent} {n : Nat}
    (h : n ≤ (leadingLines events).length) :
    ((leadingLines events).take n).map InputEvent.line = events.take n := by
  induction events generalizing n with
  | nil => simp [leadingLines]
  | cons event events ih =>
      cases n with
      | zero => simp
      | succ n =>
          cases event with
          | line text => simpa [leadingLines] using ih (by simpa [leadingLines] using h)
          | _ => simp [leadingLines] at h

/-- The lines that a script begins with are followed by no other. -/
theorem getElem?_leadingLines (events : List InputEvent) (text : String) :
    events[(leadingLines events).length]? ≠ some (.line text) := by
  induction events with
  | nil => simp
  | cons event events ih =>
      cases event with
      | line text => simpa [leadingLines] using ih
      | _ => simp [leadingLines]

/-- The first turn is an input when the leading lines have one. -/
theorem firstTurn_of_some {script : List InputEvent} {n : Nat}
    (h : inputLength? (leadingLines script) = some n) :
    firstTurn script = .input (joinLines ((leadingLines script).take n)) ∧
      afterTurn script = script.drop n := by
  simp only [firstTurn, afterTurn, h, and_self]

/-- It is cut off by the next event when they have none. -/
theorem firstTurn_of_none {script : List InputEvent}
    (h : inputLength? (leadingLines script) = none) :
    firstTurn script =
        .cut (leadingLines script) (script[(leadingLines script).length]?.getD .endOfInput) ∧
      afterTurn script = script.drop ((leadingLines script).length + 1) := by
  simp only [firstTurn, afterTurn, h, and_self]

/-! ## Runs without their prompts -/

namespace Session

variable {c : Console} {s s' s'' : Session} {event : InputEvent} {events : List InputEvent}
  {lines lines' : List Line} {history history' : List String}

/-- A script is followed one event at a time. -/
theorem follow_cons (c : Console) (s : Session) (event : InputEvent) (events : List InputEvent) :
    s.follow c (event :: events) =
      (((s.step c event).1.follow c events).1,
        (s.step c event).2 ++ ((s.step c event).1.follow c events).2) :=
  rfl

/-- A session that has stopped asks for nothing. -/
theorem follow_of_stopped (hs : s.running = false) (events : List InputEvent) :
    s.follow c events = (s, .ofLines []) := by
  induction events with
  | nil => rfl
  | cons event events ih =>
      have hstep : s.step c event = (s, .ofLines []) := by
        rw [step, hs, if_neg Bool.false_ne_true]
      rw [follow_cons, hstep, ih]
      rfl

/-- Events after a session has stopped are of no account. -/
theorem follow_append_of_stops (h : (s.follow c events).1.running = false)
    (further : List InputEvent) : s.follow c (events ++ further) = s.follow c events := by
  induction events generalizing s with
  | nil => exact follow_of_stopped h further
  | cons event events ih =>
      rw [follow_cons] at h
      rw [List.cons_append, follow_cons, follow_cons, ih h]

/-- Whether a session that follows some events comes to another, and writes and notes just what is
given. -/
def Reaches (c : Console) (s : Session) (events : List InputEvent) (s' : Session)
    (lines : List Line) (history : List String) : Prop :=
  ∃ prompts, s.follow c events = (s', ⟨prompts, lines, history⟩)

/-- A session that has stopped stays as it is. -/
theorem reaches_of_stopped (hs : s.running = false) (events : List InputEvent) :
    Reaches c s events s [] [] :=
  ⟨[], follow_of_stopped hs events⟩

/-- One event is answered, and then the others. -/
theorem Reaches.cons (hs : s.running = true)
    (hanswer : s.answer c event = (s', ⟨[], lines, history⟩))
    (h : Reaches c s' events s'' lines' history') :
    Reaches c s (event :: events) s'' (lines ++ lines') (history ++ history') := by
  rcases h with ⟨prompts, h⟩
  refine ⟨[if s.pending.isSome then c.continuationPrompt else c.prompt] ++ [] ++ prompts, ?_⟩
  rw [follow_cons, step, if_pos hs, hanswer, h]
  rfl

/-! ## Lines that are waited for to be closed -/

/-- The session that has had some lines of an input. -/
def waiting (s : Session) (lines : List String) : Session :=
  { s with pending := if lines = [] then none else some (joinLines lines) }

/-- A further line is joined to the lines that a session waits with. -/
theorem joined_waiting (s : Session) (lines : List String) (line : String) :
    joined (s.waiting lines).pending line = joinLines (lines ++ [line]) := by
  by_cases h : lines = []
  · simp [waiting, h, joined, joinLines]
  · simp [waiting, h, joined, joinLines_append]

/-- A session that waits with no line is not waiting. -/
theorem waiting_nil (hs : s.pending = none) : s.waiting [] = s := by
  cases s
  simp_all [waiting]

/-- Dropping its lines ends the waiting of a session. -/
theorem dropPending_waiting (hs : s.pending = none) (collected : List String) :
    (s.waiting collected).dropPending = s := by
  cases s
  simp_all [waiting, dropPending]

/-- A further line is the last of an input, or is waited with. -/
theorem answer_line (hs : s.pending = none) (collected : List String) (line : String) :
    (s.waiting collected).answer c (.line line) =
      if IsBalanced (collected ++ [line]) then s.takeInput c (joinLines (collected ++ [line]))
      else (s.waiting (collected ++ [line]), .ofLines []) := by
  have hwaiting : s.waiting (collected ++ [line]) =
      { s.waiting collected with pending := some (joinLines (collected ++ [line])) } := by
    simp [waiting]
  rw [answer, joined_waiting, dropPending_waiting hs, hwaiting]
  rfl

/-- Any other event cuts the lines that are waited with, except that the input may end where there
are none. -/
theorem answer_cut (hs : s.pending = none) {collected : List String}
    (hline : ∀ text, event ≠ .line text) (hend : event = .endOfInput → collected ≠ []) :
    (s.waiting collected).answer c event = (s, ⟨[], (Turn.cut collected event).notice, []⟩) := by
  cases event with
  | line text => exact absurd rfl (hline text)
  | interrupt =>
      rw [answer, dropPending_waiting hs]
      by_cases h : collected = [] <;> simp [waiting, Turn.notice, Transcript.ofLines, h]
  | endOfInput =>
      have hpending : (s.waiting collected).pending = some (joinLines collected) := by
        simp [waiting, hend rfl]
      rw [answer, hpending, dropPending_waiting hs]
      rfl
  | failure message =>
      rw [answer, dropPending_waiting hs]
      rfl

/-- Lines that are no input are collected. -/
theorem reaches_lines {collected : List String} (hs : s.running = true)
    (hpending : s.pending = none) (hopen : inputLength? collected = none)
    (h : Reaches c (s.waiting collected) events s' lines history) :
    Reaches c s (collected.map .line ++ events) s' lines history := by
  induction collected using List.reverseRecOn generalizing events with
  | nil => rwa [waiting_nil hpending] at h
  | append_singleton collected line ih =>
      rcases inputLength?_append_eq_none_iff.mp hopen with ⟨hbefore, hline⟩
      rw [List.map_append, List.append_assoc]
      apply ih hbefore
      have hanswer : (s.waiting collected).answer c (.line line) =
          (s.waiting (collected ++ [line]), .ofLines []) := by
        rw [answer_line hpending, if_neg hline]
      exact Reaches.cons (s := s.waiting collected) hs hanswer h

/-! ## Turns -/

/-- An input is executed without the white space around it. -/
theorem carryOut_of_some {turn : Turn} {text : String} (h : turn.input? = some text) :
    s.carryOut c turn = s.execute c (trimmed text) := by
  rw [carryOut, h]

/-- A turn without input only gives its notice. -/
theorem carryOut_of_none {turn : Turn} (h : turn.input? = none) :
    s.carryOut c turn = (s, turn.notice) := by
  rw [carryOut, h]

/-- Taking an input is carrying out the turn that gives it. -/
theorem takeInput_eq_carryOut (c : Console) (s : Session) (text : String) :
    s.takeInput c text = ((s.carryOut c (.input text)).1,
      ⟨[], (s.carryOut c (.input text)).2, (Turn.input text).input?.toList⟩) := by
  by_cases hblank : isBlank text.toList = true
  · have hinput : (Turn.input text).input? = none := if_pos hblank
    rw [takeInput, if_pos hblank, carryOut_of_none hinput, hinput]
    rfl
  · have hinput : (Turn.input text).input? = some text := if_neg hblank
    rw [takeInput, if_neg hblank, carryOut_of_some hinput, hinput]
    rfl

/-- Executing an input leaves no lines behind, and stops a session only if it quits. -/
theorem execute_spec (c : Console) (s : Session) (input : String) :
    (s.execute c input).1.pending = s.pending ∧
      (s.execute c input).1.running =
        (s.running && !(input == ":quit" || input == ":q")) := by
  by_cases hquit : input = ":quit" ∨ input = ":q"
  · have hquits : (input == ":quit" || input == ":q") = true := by simpa using hquit
    rw [execute, if_pos hquit, hquits, Bool.not_true, Bool.and_false]
    exact ⟨rfl, rfl⟩
  · have hquits : (input == ":quit" || input == ":q") = false := by simpa using hquit
    rw [execute, if_neg hquit, hquits, Bool.not_false, Bool.and_true]
    split
    · exact ⟨rfl, rfl⟩
    · split <;> exact ⟨rfl, rfl⟩

/-- Carrying out a turn leaves what is pending, and stops a session when the turn quits. -/
theorem carryOut_spec (c : Console) (s : Session) (turn : Turn) :
    (s.carryOut c turn).1.pending = s.pending ∧
      (s.carryOut c turn).1.running = (s.running && !turn.quits) := by
  cases hinput : turn.input? with
  | none =>
      rw [carryOut_of_none hinput, Turn.quits, hinput]
      simp
  | some text =>
      rw [carryOut_of_some hinput, Turn.quits, hinput]
      exact execute_spec c s (trimmed text)

/-- What a session that is still running writes when it stops. -/
def farewell (s : Session) : List Line :=
  if s.running then s.stop.2 else []

/-- Whether a session that follows some events carries out just the turns given, and stops. -/
def Completes (c : Console) (s : Session) (events : List InputEvent) (ts : List Turn) : Prop :=
  Reaches c s events (s.carryOutAll c ts).1.stop.1
    ((s.carryOutAll c ts).2 ++ (s.carryOutAll c ts).1.farewell) (ts.filterMap Turn.input?)

/-- The end of input between two inputs stops the session. -/
theorem completes_nil (hs : s.running = true) (hpending : s.pending = none)
    (events : List InputEvent) : Completes c s (.endOfInput :: events) [] := by
  have hanswer : s.answer c .endOfInput = (s.stop.1, ⟨[], s.farewell, []⟩) := by
    rw [answer, hpending, farewell, if_pos hs]
    rfl
  simpa [Completes, carryOutAll] using
    Reaches.cons hs hanswer (reaches_of_stopped (s := s.stop.1) rfl events)

/-- A session that a turn has stopped is complete. -/
theorem completes_of_stopped (hs : s.running = false) (events : List InputEvent) :
    Completes c s events [] := by
  have hstop : s.stop.1 = s := by
    cases s
    simp_all [stop]
  simpa [Completes, carryOutAll, farewell, hs, hstop] using reaches_of_stopped hs events

/-- A turn is carried out, and then those after it unless it quits. -/
theorem completes_upToQuit {turn : Turn} {ts : List Turn} {events' : List InputEvent}
    (hs : s.running = true) (hpending : s.pending = none)
    (hturn : ∀ {s' lines history}, Reaches c (s.carryOut c turn).1 events' s' lines history →
      Reaches c s events s' ((s.carryOut c turn).2 ++ lines) (turn.input?.toList ++ history))
    (h : ∀ s', s'.running = true → s'.pending = none →
      Completes c s' events' (Turn.upToQuit ts)) :
    Completes c s events (Turn.upToQuit (turn :: ts)) := by
  rcases carryOut_spec c s turn with ⟨hkeeps, hrunning⟩
  rw [hs, Bool.true_and] at hrunning
  -- what a turn executes and writes comes before that of the others
  have hcons : ∀ us, Completes c (s.carryOut c turn).1 events' us →
      Completes c s events (turn :: us) := by
    intro us hus
    have hinputs : (turn :: us).filterMap Turn.input? =
        turn.input?.toList ++ us.filterMap Turn.input? := by
      cases hinput : turn.input? <;> simp [hinput]
    rw [Completes, carryOutAll, hinputs, List.append_assoc]
    exact hturn hus
  rw [Turn.upToQuit]
  cases hquits : turn.quits with
  | true =>
      rw [hquits] at hrunning
      exact hcons [] (completes_of_stopped hrunning events')
  | false =>
      rw [hquits] at hrunning
      exact hcons _ (h _ hrunning (hkeeps.trans hpending))

/-- The lines of an input are collected until it is carried out. -/
theorem reaches_input {script : List InputEvent} {n : Nat} (hs : s.running = true)
    (hpending : s.pending = none) (hn : inputLength? (leadingLines script) = some n)
    (h : Reaches c (s.carryOut c (firstTurn script)).1 (afterTurn script ++ events) s' lines
      history) :
    Reaches c s (script ++ events) s' ((s.carryOut c (firstTurn script)).2 ++ lines)
      ((firstTurn script).input?.toList ++ history) := by
  rcases exists_of_inputLength? hn with ⟨hle, collected, line, htake, hbalanced, hopen⟩
  rcases firstTurn_of_some hn with ⟨hfirst, hafter⟩
  rw [htake] at hfirst
  have hevents : script ++ events =
      collected.map .line ++ .line line :: (afterTurn script ++ events) := by
    conv_lhs => rw [← List.take_append_drop n script, ← take_leadingLines hle, htake, ← hafter]
    simp
  have hanswer := answer_line (c := c) hpending collected line
  rw [if_pos hbalanced, takeInput_eq_carryOut, ← hfirst] at hanswer
  rw [hevents]
  apply reaches_lines hs hpending hopen
  exact Reaches.cons (s := s.waiting collected) hs hanswer h

/-- Lines that are no input are collected until an event cuts them. -/
theorem reaches_cut {collected : List String} (hs : s.running = true)
    (hpending : s.pending = none) (hopen : inputLength? collected = none)
    (hline : ∀ text, event ≠ .line text) (hend : event = .endOfInput → collected ≠ [])
    (h : Reaches c s events s' lines history) :
    Reaches c s (collected.map .line ++ event :: events) s'
      ((Turn.cut collected event).notice ++ lines) history := by
  apply reaches_lines hs hpending hopen
  exact Reaches.cons (s := s.waiting collected) hs (answer_cut hpending hline hend) h

/-- A turn without an input is cut by an event of the script, or else by the end of input. -/
theorem script_of_cut {script : List InputEvent} (h : inputLength? (leadingLines script) = none) :
    (∃ last, (∀ text, last ≠ .line text) ∧ firstTurn script = .cut (leadingLines script) last ∧
      script = (leadingLines script).map .line ++ last :: afterTurn script) ∨
    (firstTurn script = .cut (leadingLines script) .endOfInput ∧
      script = (leadingLines script).map .line ∧ afterTurn script = []) := by
  rcases firstTurn_of_none h with ⟨hfirst, hafter⟩
  have hlines : (leadingLines script).map .line = script.take (leadingLines script).length := by
    rw [← take_leadingLines le_rfl, List.take_length]
  rw [hfirst, hafter, hlines]
  cases hcut : script[(leadingLines script).length]? with
  | some last =>
      rcases List.getElem?_eq_some_iff.mp hcut with ⟨hlt, hlast⟩
      refine .inl ⟨last, ?_, rfl, ?_⟩
      · rintro text rfl
        exact getElem?_leadingLines script text hcut
      · rw [← hlast, ← List.drop_eq_getElem_cons hlt, List.take_append_drop]
  | none =>
      have hle := List.getElem?_eq_none_iff.mp hcut
      refine .inr ⟨rfl, (List.take_of_length_le hle).symm, List.drop_of_length_le (by omega)⟩

/-- The turns of a script are carried out, whatever comes after the input has ended twice. -/
theorem completes_turns {script : List InputEvent} (hscript : .endOfInput ∉ script)
    (hs : s.running = true) (hpending : s.pending = none) (further : List InputEvent) :
    Completes c s (script ++ .endOfInput :: .endOfInput :: further)
      (Turn.upToQuit (turns script)) := by
  induction script using turns.induct generalizing s with
  | case1 =>
      rw [turns]
      exact completes_nil hs hpending _
  | case2 event events ih =>
      rw [turns]
      have hne : event :: events ≠ [] := List.cons_ne_nil event events
      generalize event :: events = script at hscript ih hne ⊢
      have hafter : .endOfInput ∉ afterTurn script :=
        fun hmem => hscript ((afterTurn_suffix script).subset hmem)
      cases hn : inputLength? (leadingLines script) with
      | some n =>
          apply completes_upToQuit hs hpending (fun h => reaches_input hs hpending hn h)
          intro s' hs' hpending'
          exact ih hafter hs' hpending'
      | none =>
          rcases script_of_cut hn with ⟨last, hline, hfirst, hevents⟩ | ⟨hfirst, hevents, hnil⟩
          · have hend : last = .endOfInput → leadingLines script ≠ [] := by
              rintro rfl
              rw [hevents] at hscript
              simp at hscript
            have hsplit : ∀ rest, script ++ rest =
                (leadingLines script).map .line ++ last :: (afterTurn script ++ rest) := by
              intro rest
              conv_lhs => rw [hevents]
              simp
            rw [hfirst]
            apply completes_upToQuit hs hpending
            · intro s' lines history h
              rw [hsplit]
              exact reaches_cut hs hpending hn hline hend h
            · intro s' hs' hpending'
              exact ih hafter hs' hpending'
          · -- the first of the two ends of input cuts the open lines, the second stops the session
            have hend : leadingLines script ≠ [] := by
              intro hlines
              rw [hlines] at hevents
              exact hne hevents
            rw [hfirst, hnil, turns]
            apply completes_upToQuit hs hpending
            · intro s' lines history h
              rw [hevents]
              exact reaches_cut hs hpending hn (by simp) (fun _ => hend) h
            · intro s' hs' hpending'
              exact completes_nil hs' hpending' further

/-- A script of lines, interrupts and failures, and then nothing but the end of input: the session
stops, and whatever comes after the second end of input is of no account. It has carried out the
turns of the script up to the first that quits, and has noted just the inputs it has executed. -/
theorem run_script {script : List InputEvent} (hscript : .endOfInput ∉ script) (c : Console)
    (e : Engine) {n : Nat} (hn : 2 ≤ n) :
    let done := (start e).carryOutAll c (Turn.upToQuit (turns script))
    serve c e (script ++ List.replicate n .endOfInput) = run c e script ∧
      (run c e script).1.running = false ∧
      (run c e script).1.engine = done.1.engine ∧
      (run c e script).2.lines = c.banner ++ (done.2 ++ done.1.farewell) ∧
      (run c e script).2.history = executedInputs script := by
  intro done
  -- the session goes through the turns and stops at the second end of input at the latest
  rcases completes_turns (c := c) (s := start e) hscript rfl rfl [] with ⟨prompts, hrun⟩
  have hserve : run c e script = (done.1.stop.1, .ofLines c.banner ++
      ⟨prompts, done.2 ++ done.1.farewell, executedInputs script⟩) := by
    rw [run, serve, hrun]
    rfl
  -- further ends of input come when it has stopped
  have hmore : script ++ List.replicate n .endOfInput =
      script ++ [.endOfInput, .endOfInput] ++ List.replicate (n - 2) .endOfInput := by
    obtain ⟨k, rfl⟩ := Nat.exists_eq_add_of_le hn
    simp [List.replicate_add, List.replicate_succ]
  have hstops : ((start e).follow c (script ++ [.endOfInput, .endOfInput])).1.running = false := by
    rw [hrun]
    rfl
  refine ⟨?_, ?_⟩
  · rw [hmore, serve, follow_append_of_stops hstops]
    rfl
  · rw [hserve]
    exact ⟨rfl, rfl, rfl, rfl⟩

/-- A script with an input that is cut, one on two lines, a blank one, one that quits, and another
line. -/
def shortScript : List InputEvent :=
  [.line "not (", .interrupt, .line "(", .line ")", .line " ", .line " :q", .line "desk"]

/-- A short script ends the session, with any more ends of input behind it. -/
theorem run_script_shortScript :
    .endOfInput ∉ shortScript ∧ 2 ≤ 3 ∧
      serve (.ofWorld none) ⟨.empty, .default, .empty⟩
          (shortScript ++ List.replicate 3 .endOfInput) =
        run (.ofWorld none) ⟨.empty, .default, .empty⟩ shortScript ∧
      (run (.ofWorld none) ⟨.empty, .default, .empty⟩ shortScript).1.running = false ∧
      (run (.ofWorld none) ⟨.empty, .default, .empty⟩ shortScript).2.history = ["(\n)", " :q"] := by
  have hscript : .endOfInput ∉ shortScript := by
    decide
  have hinputs : executedInputs shortScript = ["(\n)", " :q"] := by
    decide +kernel
  rcases run_script hscript (.ofWorld none) ⟨.empty, .default, .empty⟩ (n := 3) (by decide) with
    ⟨hserve, hstops, -, -, hhistory⟩
  exact ⟨hscript, by decide, hserve, hstops, hhistory.trans hinputs⟩

end Session

end GameCondition
