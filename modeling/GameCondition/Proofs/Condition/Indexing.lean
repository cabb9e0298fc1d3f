import GameCondition.Condition.Reading
import GameCondition.Proofs.Token.ByteCuts

/-! # Reading by index

Here the readers of conditions work on all tokens of a text at once. They keep the index of the
current token and count the levels that they are deep in, where the readers of streams have the
tokens that follow and the levels that are left to them. Behind a failure neither is put back.

A run has no result where an index is that of no token, where more levels are left than were
entered, and where a loop or a recursion does not leave fewer tokens than there were. So it is all
of these at once that is excluded by its having a result. A run remembers, besides, wherever it
stood.
-/

namespace GameCondition

namespace Indexed

/-! ## Runs -/

/-- Where a reader stands: at which token, and how many levels deep. -/
structure Standing where
  index : Nat
  depth : Nat
  deriving DecidableEq, Repr

/-- Where a reader stands, and the standings that it came to until then, the last one first. -/
structure State extends Standing where
  trail : List Standing
  deriving DecidableEq, Repr

/-- At the first token, no level deep. -/
def State.start : State :=
  ⟨⟨0, 0⟩, [⟨0, 0⟩]⟩

/-- A run of a reader by index. It has no result where the index is not that of a token, where the
depth would fall below zero, and where it does not get on. -/
abbrev Run := ExceptT Failure (StateT State Option)

/-- What a run comes to, and where. -/
def outcome {α : Type} (m : Run α) (st : State) : Option (Except Failure α × State) :=
  (ExceptT.run m).run st

/-- What is there to be had. Where nothing is, the run has no result. -/
def require {α : Type} (x : Option α) : Run α :=
  ExceptT.mk fun st => x.map fun a => (.ok a, st)

/-- Goes to another standing. -/
def moveTo (p : Standing) : Run Unit :=
  modify fun st => ⟨p, p :: st.trail⟩

/-- Leaves so many levels. -/
def leave (levels : Nat) : Run Unit := do
  let st ← get
  let depth ← require (if levels ≤ st.depth then some (st.depth - levels) else none)
  moveTo ⟨st.index, depth⟩

example : outcome (leave 1) .start = none := rfl

/-- Enters a level, unless it lies beyond the limit. -/
def enter (limit : Nat) (span : Span) : Run Unit := do
  let st ← get
  moveTo ⟨st.index, st.depth + 1⟩
  if limit < st.depth + 1 then throw (.tooDeep span)

section Tokens

variable (ts : List Token)

/-- The current token. -/
def current : Run Token := do
  require ts[(← get).index]?

example : outcome (current []) .start = none := rfl

/-- What the token after the current one is, or that at the end itself. -/
def nextKind : Run Token.Kind := do
  let t ← require ts[min ((← get).index + 1) (ts.length - 1)]?
  return t.kind

/-- The stretch of the token before the current one. -/
def previous : Run Span := do
  let t ← require ts[(← get).index - 1]?
  return t.span

/-- Goes on to the next token, if there is one. -/
def advance : Run Unit := do
  let st ← get
  if st.index + 1 < ts.length then moveTo ⟨st.index + 1, st.depth⟩

/-- The number of tokens that are left, which has to be smaller than it was. -/
def remaining (left : Nat) : Run {n : Nat // n < left} := do
  let st ← get
  require (if h : ts.length - st.index < left then some ⟨ts.length - st.index, h⟩ else none)

/-- Starts a loop or a recursion with the number of tokens that are left. -/
def withRest {α : Type} (reader : Nat → Run α) : Run α := do
  reader (ts.length - (← get).index)

/-- Enters a level and takes the token that does so, after which fewer are left. -/
def descend (limit left : Nat) (span : Span) : Run {n : Nat // n < left} := do
  enter limit span
  advance ts
  remaining ts left

/-- Fails at the current token. -/
def fail {α : Type} (cause : Token → Misfit) : Run α := do
  let t ← current ts
  throw (.misfit (cause t) t.span)

/-! ## Parts of a relation -/

/-- Reads an identifier. -/
def readIdentifier (cause : Token → Misfit) : Run String := do
  match (← current ts).kind with
  | .identifier name =>
    advance ts
    return name
  | _ => fail ts cause

/-- Reads a subject: a kind of subject, with the id that it requires, or the name of an item. -/
def readSubject : Run Subject := do
  match (← current ts).kind with
  | .identifier word =>
    advance ts
    match SubjectKind.ofWord? word with
    | some kind =>
      if kind.requiresId then
        let id ← readIdentifier ts (.expectedId word)
        return ⟨kind, some id⟩
      else return .simple kind
    | none => return .item word
  | _ => fail ts .expectedSubject

/-- Whether the current token is `is_in` in its second spelling. -/
def atHas : Run Bool := do
  let t ← current ts
  return t.kind == .keyword .isIn && t.isSpelled "has"

/-- Reads a comparison other than `has`. -/
def readComparison : Run Comparison := do
  if ← atHas ts then fail ts fun _ => .misplacedHas
  else match (← current ts).kind with
    | .keyword word =>
      match Condition.comparisonOf? word with
      | some comparison =>
        advance ts
        return comparison
      | none => fail ts .expectedComparison
    | _ => fail ts .expectedComparison

/-- Reads a comparison of numbers. -/
def readNumericComparison : Run Comparison := do
  let t ← current ts
  let comparison ← readComparison ts
  if comparison.appliesToNumbers then return comparison
  else throw (.misfit (.incomparable comparison) t.span)

/-- Reads a whole number, with its place. -/
def readInteger : Run (Int × Span) := do
  let t ← current ts
  match t.kind with
  | .number n =>
    match Condition.smallInteger? n with
    | some i =>
      advance ts
      return (i, t.span)
    | none => throw (.misfit (.notWhole n) t.span)
  | _ => fail ts .expectedNumber

/-- Reads the value that is compared with, with its place. -/
def readOperand : Run (Operand × Span) := do
  let t ← current ts
  match t.kind with
  | .keyword .true =>
    advance ts
    return (.bool true, t.span)
  | .keyword .false =>
    advance ts
    return (.bool false, t.span)
  | .number n =>
    advance ts
    return (.number n, t.span)
  | .string text =>
    advance ts
    return (.text text, t.span)
  | .identifier word =>
    match Condition.namesKind word, ← nextKind ts with
    | true, .identifier id =>
      advance ts
      let last ← current ts
      advance ts
      return (.element id, t.span.through last.span)
    | _, _ =>
      advance ts
      return (.element word, t.span)
  | _ => fail ts .expectedValue

/-- Whether a value comes next. -/
def atOperand : Run Bool := do
  match (← current ts).kind with
  | .keyword .true | .keyword .false | .number _ | .string _ | .identifier _ => return true
  | _ => return false

/-- Takes a token if it is of a kind, and tells whether it was. -/
def skip (kind : Token.Kind) : Run Bool := do
  if (← current ts).kind = kind then
    advance ts
    return true
  else return false

/-- Reads what stands behind a dot. Of two fields of a sort the later one counts. -/
def readField (fields : Condition.Fields) : Run Condition.Fields := do
  match (← current ts).kind with
  | .keyword .attr =>
    advance ts
    let _ ← skip ts .dot
    let name ← readIdentifier ts .expectedAttribute
    return { fields with attr := some name }
  | .keyword .state =>
    advance ts
    return { fields with property := some "state" }
  | .keyword .flag =>
    advance ts
    return { fields with property := some "flag" }
  | .keyword .inventory =>
    advance ts
    return { fields with property := some "inventory" }
  | .identifier name =>
    advance ts
    return { fields with property := some name }
  | _ => fail ts .expectedField

/-- Reads dots and the fields behind them, each round with fewer tokens left. -/
def readFieldsWithin (fields : Condition.Fields) (left : Nat) : Run Condition.Fields := do
  if ← skip ts .dot then
    let fields ← readField ts fields
    let ⟨n, _⟩ ← remaining ts left
    readFieldsWithin fields n
  else return fields

/-- Reads dots and the fields behind them. -/
def readFields (fields : Condition.Fields) : Run Condition.Fields :=
  withRest ts (readFieldsWithin ts fields)

/-! ## Relations -/

/-- Reads the rest of a relation with `has`. -/
def readHas (subject : Subject) (start : Span) : Run Condition := do
  advance ts
  let other ← readSubject ts
  let last ← previous ts
  return .relation ⟨subject, .has, .element other.name, none, none, start.through last⟩

/-- Reads the rest of a distance. -/
def readDistance (origin : Subject) (start : Span) : Run Condition := do
  advance ts
  let goal ← readSubject ts
  let comparison ← readNumericComparison ts
  let (value, last) ← readInteger ts
  return .distance ⟨origin, goal, comparison, value, start.through last⟩

/-- Takes the word before the name of a scene. -/
def skipScene : Run Unit := do
  match (← current ts).kind, ← nextKind ts with
  | .identifier word, .identifier _ => if sameAscii word "scene" then advance ts
  | .identifier word, .string _ => if sameAscii word "scene" then advance ts
  | _, _ => return

/-- Reads the name of a scene. -/
def readScene : Run String := do
  match (← current ts).kind with
  | .identifier name =>
    advance ts
    return name
  | .string name =>
    advance ts
    return name
  | _ => fail ts .expectedScene

/-- Reads the rest of a count of visits. -/
def readVisits (subject : Subject) (start : Span) : Run Condition := do
  advance ts
  skipScene ts
  let scene ← readScene ts
  let comparison ← readNumericComparison ts
  let (value, last) ← readInteger ts
  return .visits ⟨subject, scene, comparison, value, start.through last⟩

/-- Reads the rest of a relation of a field. -/
def readProperty (subject : Subject) (start : Span) : Run Condition := do
  let fields ← readFields ts ⟨none, none⟩
  let comparison ← readComparison ts
  let operand ← atOperand ts
  if comparison = .isEmpty ∧ ¬ operand then
    let last ← previous ts
    return .relation ⟨subject, comparison, .text "", fields.attr, fields.property,
      start.through last⟩
  else
    let (operand, last) ← readOperand ts
    return .relation ⟨subject, comparison, operand, fields.attr, fields.property,
      start.through last⟩

/-- Takes a dot before a distance or a count of visits. -/
def skipDot : Run Unit := do
  match (← current ts).kind, ← nextKind ts with
  | .dot, .keyword .distanceFrom => advance ts
  | .dot, .keyword .visits => advance ts
  | _, _ => return

/-- Reads a relation. -/
def readRelation : Run Condition := do
  let start := (← current ts).span
  let subject ← readSubject ts
  if ← atHas ts then readHas ts subject start
  else
    skipDot ts
    match (← current ts).kind with
    | .keyword .distanceFrom => readDistance ts subject start
    | .keyword .visits => readVisits ts subject start
    | _ => readProperty ts subject start

/-! ## Expressions

What is read within so many tokens goes on within fewer of them. -/

mutual

/-- Reads an expression. -/
def expressionWithin (limit left : Nat) : Run Condition :=
  orWithin limit left
termination_by (left, 3)

/-- Reads operands of `or`. -/
def orWithin (limit left : Nat) : Run Condition := do
  let c ← andWithin limit left
  orRestWithin limit c 0 left
termination_by (left, 2)

/-- Reads further operands of `or`, each of them a level deeper, after `folds` others. -/
def orRestWithin (limit : Nat) (c : Condition) (folds left : Nat) : Run Condition := do
  let t ← current ts
  if t.kind = .keyword .or then
    let ⟨n, _⟩ ← descend ts limit left t.span
    let right ← andWithin limit n
    orRestWithin limit (.either c right) (folds + 1) n
  else
    leave folds
    return c
termination_by (left, 0)

/-- Reads operands of `and`. -/
def andWithin (limit left : Nat) : Run Condition := do
  let c ← unaryWithin limit left
  andRestWithin limit c 0 left
termination_by (left, 1)

/-- Reads further operands of `and`, each of them a level deeper, after `folds` others. -/
def andRestWithin (limit : Nat) (c : Condition) (folds left : Nat) : Run Condition := do
  let t ← current ts
  if t.kind = .keyword .and then
    let ⟨n, _⟩ ← descend ts limit left t.span
    let right ← unaryWithin limit n
    andRestWithin limit (.both c right) (folds + 1) n
  else
    leave folds
    return c
termination_by (left, 0)

/-- Reads a negation, an expression in parentheses, or a relation. -/
def unaryWithin (limit left : Nat) : Run Condition := do
  let t ← current ts
  match t.kind with
  | .keyword .not =>
    let ⟨n, _⟩ ← descend ts limit left t.span
    let inner ← unaryWithin limit n
    leave 1
    return .not inner (t.span.through inner.span)
  | .openParen =>
    let ⟨n, _⟩ ← descend ts limit left t.span
    let inner ← expressionWithin limit n
    if (← current ts).kind = .closeParen then
      advance ts
      leave 1
      return inner
    else fail ts (.unclosed t.span)
  | _ => readRelation ts
termination_by (left, 0)

end

/-- Reads an expression. -/
def readExpression (limit : Nat) : Run Condition :=
  withRest ts (expressionWithin ts limit)

/-- Reads operands of `or`. -/
def readOr (limit : Nat) : Run Condition :=
  withRest ts (orWithin ts limit)

/-- Reads operands of `and`. -/
def readAnd (limit : Nat) : Run Condition :=
  withRest ts (andWithin ts limit)

/-- Reads a negation, an expression in parentheses, or a relation. -/
def readUnary (limit : Nat) : Run Condition :=
  withRest ts (unaryWithin ts limit)

/-- Reads an expression that is the whole text. -/
def readAll (limit : Nat) : Run Condition := do
  let c ← readExpression ts limit
  if (← current ts).kind = .endOfInput then return c
  else fail ts .unexpected

end Tokens

/-- Reads a condition from its text, and tells also where the reader stood, the last place first. -/
def read (limit : Nat) (source : String) :
    Option (Except Diagnostic Condition × List Standing) := do
  let (ts, _) ← (Scan.tokens source.toList).run (.start source.toList)
  let (x, st) ← outcome (readAll ts limit) .start
  return (x.mapError (Failure.diagnostic limit), st.trail)

/-! ## Outcomes of single steps -/

variable {α β : Type} {st st' : State}

/-- The outcome of two runs is that of the second after the first. -/
theorem outcome_bind (m : Run α) (f : α → Run β) (st : State) :
    outcome (m >>= f) st = (outcome m st).bind fun p =>
      match p with
      | (.ok a, st') => outcome (f a) st'
      | (.error e, st') => some (.error e, st') := by
  show Option.bind _ _ = Option.bind _ _
  congr 1
  funext p
  rcases p with ⟨e | a, st'⟩ <;> rfl

/-- A result is given without a move. -/
@[simp] theorem outcome_pure (a : α) (st : State) : outcome (pure a) st = some (.ok a, st) := rfl

/-- A run that succeeds goes on from where it stopped. -/
theorem outcome_bind_of_ok {m : Run α} {f : α → Run β} {a : α}
    (h : outcome m st = some (.ok a, st')) : outcome (m >>= f) st = outcome (f a) st' := by
  rw [outcome_bind, h]
  rfl

/-- A run that fails does not go on. -/
theorem outcome_bind_of_error {m : Run α} {f : α → Run β} {e : Failure}
    (h : outcome m st = some (.error e, st')) : outcome (m >>= f) st = some (.error e, st') := by
  rw [outcome_bind, h]
  rfl

/-- What is required is given, or the run gets stuck. -/
theorem outcome_require (x : Option α) (st : State) :
    outcome (require x) st = x.map fun a => (.ok a, st) := rfl

/-- Looking at the state leaves it. -/
theorem outcome_get_bind (f : State → Run α) (st : State) :
    outcome (get >>= f) st = outcome (f st) st := rfl

/-- A run goes on with what it required, where that is there. -/
theorem outcome_require_bind {x : Option α} {a : α} (hx : x = some a) (f : α → Run β)
    (st : State) : outcome (require x >>= f) st = outcome (f a) st := by
  rw [hx]
  rfl

/-- A move is added to the trail. -/
theorem outcome_moveTo (p : Standing) (st : State) :
    outcome (moveTo p) st = some (.ok (), ⟨p, p :: st.trail⟩) := rfl

/-- Levels that were entered are left. -/
theorem outcome_leave {levels : Nat} (h : levels ≤ st.depth) :
    outcome (leave levels) st = some (.ok (), ⟨⟨st.index, st.depth - levels⟩,
      ⟨st.index, st.depth - levels⟩ :: st.trail⟩) := by
  rw [leave, outcome_get_bind, if_pos h]
  rfl

/-- Where a reader stands after it entered a level. -/
def State.deeper (st : State) : State :=
  ⟨⟨st.index, st.depth + 1⟩, ⟨st.index, st.depth + 1⟩ :: st.trail⟩

/-- A level is entered, and counted against the limit at once. -/
theorem outcome_enter (limit : Nat) (span : Span) (st : State) :
    outcome (enter limit span) st =
      some (if limit < st.depth + 1 then .error (.tooDeep span) else .ok (), st.deeper) := by
  rw [enter, outcome_get_bind, outcome_bind_of_ok (outcome_moveTo _ _)]
  split <;> rfl

/-- The tokens that are left are fewer than before. -/
theorem outcome_remaining {ts : List Token} {left : Nat} (h : ts.length - st.index < left) :
    outcome (remaining ts left) st = some (.ok ⟨ts.length - st.index, h⟩, st) := by
  rw [remaining, outcome_get_bind, dif_pos h]
  rfl

/-- Where a reader stands after it went on. -/
def State.onward (ts : List Token) (st : State) : State :=
  if st.index + 1 < ts.length then
    ⟨⟨st.index + 1, st.depth⟩, ⟨st.index + 1, st.depth⟩ :: st.trail⟩
  else st

/-- Advancing moves to the next token, if there is one. -/
theorem outcome_advance (ts : List Token) (st : State) :
    outcome (advance ts) st = some (.ok (), st.onward ts) := by
  rw [advance, outcome_get_bind, State.onward]
  split
  · rw [outcome_moveTo]
  · rfl

/-- The index moves on, but not beyond the last token. -/
theorem index_onward (ts : List Token) (st : State) :
    (st.onward ts).index = if st.index + 1 < ts.length then st.index + 1 else st.index := by
  rw [State.onward]
  split <;> rfl

/-- Advancing leaves the depth. -/
theorem depth_onward (ts : List Token) (st : State) : (st.onward ts).depth = st.depth := by
  rw [State.onward]
  split <;> rfl

/-- No level is entered beyond the limit. -/
theorem outcome_descend_of_tooDeep {ts : List Token} {limit left : Nat} {span : Span}
    (hlimit : limit ≤ st.depth) :
    outcome (descend ts limit left span) st = some (.error (.tooDeep span), st.deeper) := by
  have henter := outcome_enter limit span st
  rw [if_pos (Nat.lt_succ_of_le hlimit)] at henter
  rw [descend, outcome_bind_of_error henter]

/-- Within the limit a level is entered and the token behind it taken. -/
theorem outcome_descend {ts : List Token} {limit left : Nat} {span : Span}
    (hlimit : st.depth < limit) (hnext : st.index + 1 < ts.length)
    (hleft : ts.length - st.index ≤ left) : ∃ n : {n : Nat // n < left},
      outcome (descend ts limit left span) st = some (.ok n, st.deeper.onward ts) ∧
        ts.length - (st.deeper.onward ts).index = n := by
  have henter := outcome_enter limit span st
  rw [if_neg (by omega)] at henter
  have hindex : (st.deeper.onward ts).index = st.index + 1 := by
    rw [index_onward]
    exact if_pos hnext
  have hfewer : ts.length - (st.deeper.onward ts).index < left := by omega
  refine ⟨⟨_, hfewer⟩, ?_, rfl⟩
  rw [descend, outcome_bind_of_ok henter, outcome_bind_of_ok (outcome_advance ts _),
    outcome_remaining hfewer]

end Indexed

end GameCondition
