import GameCondition.Diagnostic
import GameCondition.Token.Scanner

/-! # Reading conditions

A reader by recursive descent over the tokens of a text, for the grammar

    Or       := And ("or" And)*
    And      := Unary ("and" Unary)*
    Unary    := "not" Unary | "(" Or ")" | Relation
    Relation := Subject "has" Subject
              | Subject ["."] "distance_from" Subject Comparison Integer
              | Subject ["."] "visits" ["scene"] Name Comparison Integer
              | Subject ("." Field)* Comparison Value
              | Subject ("." Field)* "is_empty"

in which `and` and `or` associate to the left. Each `not`, each parenthesis and each further
operand of a chain stands one level deeper than what it belongs to, and a text deeper than the
limit is refused. The levels that are left bound the recursion: every step down is paid for by one
of them, so the reader needs no other measure.

A failure carries its cause; the wording is `Misfit.message`.
-/

namespace GameCondition

/-! ## Failures -/

/-- Why a text does not fit the grammar. The token that was found instead comes last. -/
inductive Misfit where
  | expectedSubject (found : Token)
  | expectedId (word : String) (found : Token)
  | expectedScene (found : Token)
  | expectedField (found : Token)
  | expectedAttribute (found : Token)
  | expectedComparison (found : Token)
  | expectedValue (found : Token)
  | expectedNumber (found : Token)
  | misplacedHas
  | incomparable (comparison : Comparison)
  | notWhole (number : Number)
  | unclosed (opened : Span) (found : Token)
  | unexpected (found : Token)
  deriving DecidableEq, Repr

/-- The wording of a cause. -/
def Misfit.message : Misfit → String
  | expectedSubject found => "expected a subject, found " ++ found.describe
  | expectedId word found => "expected an id after '" ++ word ++ "', found " ++ found.describe
  | expectedScene found => "expected a scene name after 'visits', found " ++ found.describe
  | expectedField found => "expected a field name after '.', found " ++ found.describe
  | expectedAttribute found => "expected an attribute name, found " ++ found.describe
  | expectedComparison found => "expected a comparison, found " ++ found.describe
  | expectedValue found => "expected a value, found " ++ found.describe
  | expectedNumber found => "expected a number, found " ++ found.describe
  | misplacedHas => "'has' must directly follow its subject"
  | incomparable comparison => "'" ++ comparison.word ++ "' cannot compare a number"
  | notWhole number => "expected a whole number, found " ++ toString number
  | unclosed opened found =>
    "expected ')' to close '(' opened at " ++ toString opened ++ ", found " ++ found.describe
  | unexpected found => "unexpected token: " ++ found.describe

/-- Why a text could not be read, and where. -/
inductive Failure where
  | misfit (cause : Misfit) (span : Span)
  | tooDeep (span : Span)
  deriving DecidableEq, Repr

/-- The diagnostic of a failure under a nesting limit. -/
def Failure.diagnostic (limit : Nat) : Failure → Diagnostic
  | misfit cause span => .misfit cause.message span
  | tooDeep span => .tooDeep limit span

/-! ## Token streams -/

/-- A place among the tokens of a text: the token there, those after it, and the stretch of the
token that was taken last. At the last token the stream stays. -/
structure Stream where
  current : Token
  later : List Token
  previous : Span
  deriving DecidableEq, Repr

namespace Stream

/-- The stream of a text. -/
def ofText (source : List Char) : Stream :=
  match tokenize source with
  | t :: ts => ⟨t, ts, t.span⟩
  | [] => ⟨.atEnd .start, [], .atStart⟩

/-- What the current token is. -/
def kind (s : Stream) : Token.Kind :=
  s.current.kind

/-- What the token after the current one is. -/
def nextKind (s : Stream) : Token.Kind :=
  (s.later.headD s.current).kind

/-- The stream after the current token. -/
def advance (s : Stream) : Stream :=
  match s.later with
  | t :: ts => ⟨t, ts, s.current.span⟩
  | [] => s

/-- The failure at the current token. -/
def fail {α : Type} (s : Stream) (cause : Token → Misfit) : Except Failure α :=
  .error (.misfit (cause s.current) s.current.span)

/-- The failure at a token that would stand too deep. -/
def failDeep {α : Type} (s : Stream) : Except Failure α :=
  .error (.tooDeep s.current.span)

end Stream

/-! ## Parts of a relation -/

namespace Condition

/-- Reads an identifier. -/
def readIdentifier (cause : Token → Misfit) (s : Stream) : Except Failure (String × Stream) :=
  match s.kind with
  | .identifier name => .ok (name, s.advance)
  | _ => s.fail cause

/-- Reads a subject: a word for a kind, with an id where the kind requires one, or the id of an
item alone. -/
def readSubject (s : Stream) : Except Failure (Subject × Stream) :=
  match s.kind with
  | .identifier word =>
    match SubjectKind.ofWord? word with
    | some kind =>
      if kind.requiresId then do
        let (id, s) ← readIdentifier (.expectedId word) s.advance
        return (⟨kind, some id⟩, s)
      else .ok (.simple kind, s.advance)
    | none => .ok (.item word, s.advance)
  | _ => s.fail .expectedSubject

/-- The comparison that a reserved word stands for. -/
def comparisonOf? : Keyword → Option Comparison
  | .is => some .is
  | .isNot => some .isNot
  | .isLessThan => some .lessThan
  | .isGreaterThan => some .greaterThan
  | .isEqualTo => some .equalTo
  | .isNotEqualTo => some .notEqualTo
  | .isIn => some .isIn
  | .isEmpty => some .isEmpty
  | _ => none

/-- Whether the current token is `has`. -/
def atHas (s : Stream) : Bool :=
  s.kind == .keyword .isIn && s.current.isSpelled "has"

/-- Reads a comparison other than `has`. -/
def readComparison (s : Stream) : Except Failure (Comparison × Stream) :=
  if atHas s then s.fail fun _ => .misplacedHas
  else match s.kind with
    | .keyword word =>
      match comparisonOf? word with
      | some comparison => .ok (comparison, s.advance)
      | none => s.fail .expectedComparison
    | _ => s.fail .expectedComparison

/-- Reads a comparison that applies to numbers. -/
def readNumericComparison (s : Stream) : Except Failure (Comparison × Stream) := do
  let (comparison, after) ← readComparison s
  if comparison.appliesToNumbers then return (comparison, after)
  else s.fail fun _ => .incomparable comparison

/-- Whole numbers are below this in magnitude, so that every one of them is exact. -/
def integerLimit : Nat := 9 * Nat.pow 10 15

/-- The whole number that a number is, if it is one and not too large. -/
def smallInteger? (n : Number) : Option Int :=
  n.toInt?.filter fun i => decide (i.natAbs < integerLimit)

/-- Reads a whole number, and gives its place. -/
def readInteger (s : Stream) : Except Failure (Int × Span × Stream) :=
  match s.kind with
  | .number n =>
    match smallInteger? n with
    | some i => .ok (i, s.current.span, s.advance)
    | none => s.fail fun _ => .notWhole n
  | _ => s.fail .expectedNumber

/-- Whether a word stands for a kind of named element. -/
def namesKind (word : String) : Bool :=
  match SubjectKind.ofWord? word with
  | some kind => kind.requiresId
  | none => false

/-- Reads an operand, and gives its place. A name may follow the word for its kind. -/
def readOperand (s : Stream) : Except Failure (Operand × Span × Stream) :=
  match s.kind with
  | .keyword .true => .ok (.bool true, s.current.span, s.advance)
  | .keyword .false => .ok (.bool false, s.current.span, s.advance)
  | .number n => .ok (.number n, s.current.span, s.advance)
  | .string text => .ok (.text text, s.current.span, s.advance)
  | .identifier word =>
    match namesKind word, s.nextKind with
    | true, .identifier id =>
      .ok (.element id, s.current.span.through s.advance.current.span, s.advance.advance)
    | _, _ => .ok (.element word, s.current.span, s.advance)
  | _ => s.fail .expectedValue

/-- Whether an operand can begin with the current token. -/
def atOperand (s : Stream) : Bool :=
  match s.kind with
  | .keyword .true | .keyword .false | .number _ | .string _ | .identifier _ => true
  | _ => false

/-- The fields named after a subject. -/
structure Fields where
  attr : Option String
  property : Option String
  deriving DecidableEq, Repr

/-- Reads one field after its point. -/
def readField (fields : Fields) (s : Stream) : Except Failure (Fields × Stream) :=
  match s.kind with
  | .keyword .attr => do
    let s := s.advance
    let s := if s.kind = .dot then s.advance else s
    let (name, s) ← readIdentifier .expectedAttribute s
    return ({ fields with attr := some name }, s)
  | .keyword .state => .ok ({ fields with property := some "state" }, s.advance)
  | .keyword .flag => .ok ({ fields with property := some "flag" }, s.advance)
  | .keyword .inventory => .ok ({ fields with property := some "inventory" }, s.advance)
  | .identifier name => .ok ({ fields with property := some name }, s.advance)
  | _ => s.fail .expectedField

theorem length_later_advance_le (s : Stream) : s.advance.later.length ≤ s.later.length := by
  unfold Stream.advance
  split <;> simp_all

theorem readIdentifier_later_le {cause : Token → Misfit} {s s' : Stream} {name : String}
    (h : readIdentifier cause s = .ok (name, s')) : s'.later.length ≤ s.later.length := by
  unfold readIdentifier Stream.fail at h
  split at h
  · simp only [Except.ok.injEq, Prod.mk.injEq] at h
    exact h.2 ▸ length_later_advance_le s
  · simp at h

theorem readField_later_le {fields fields' : Fields} {s s' : Stream}
    (h : readField fields s = .ok (fields', s')) : s'.later.length ≤ s.later.length := by
  unfold readField Stream.fail at h
  split at h
  case h_1 =>
    simp only [bind, Except.bind, pure, Except.pure] at h
    split at h
    · simp at h
    · next v hv =>
      simp only [Except.ok.injEq, Prod.mk.injEq] at h
      have hle := @readIdentifier_later_le _ _ v.2 v.1 hv
      have h₁ := length_later_advance_le s
      have h₂ := length_later_advance_le s.advance
      rw [← h.2]
      split at hle <;> omega
  all_goals
    first
    | (simp only [Except.ok.injEq, Prod.mk.injEq] at h
       exact h.2 ▸ length_later_advance_le s)
    | simp at h

/-- A field that follows a point takes up a token besides the point. -/
theorem readField_advance_later_lt {fields fields' : Fields} {s s' : Stream}
    (hdot : s.kind = .dot) (h : readField fields s.advance = .ok (fields', s')) :
    s'.later.length < s.later.length := by
  match hl : s.later with
  | [] =>
    have hadv : s.advance = s := by simp [Stream.advance, hl]
    rw [hadv, readField, hdot] at h
    simp [Stream.fail] at h
  | t :: ts =>
    have hadv : s.advance.later = ts := by simp [Stream.advance, hl]
    have hle := readField_later_le h
    rw [hadv] at hle
    simp only [List.length_cons]
    omega

/-- Reads the fields after a subject, each after a point. -/
def readFields (fields : Fields) (s : Stream) : Except Failure (Fields × Stream) :=
  if _hdot : s.kind = .dot then
    match _h : readField fields s.advance with
    | .error e => .error e
    | .ok (fields, s') => readFields fields s'
  else .ok (fields, s)
termination_by s.later.length
decreasing_by exact readField_advance_later_lt _hdot _h

/-! ## Relations -/

/-- Reads the rest of a relation after `has`, whose operand is a subject's name. -/
def readHas (subject : Subject) (start : Span) (s : Stream) :
    Except Failure (Condition × Stream) := do
  let (other, s) ← readSubject s
  return (relation ⟨subject, .has, .element other.name, none, none, start.through s.previous⟩, s)

/-- Reads the rest of a distance after `distance_from`. -/
def readDistance (origin : Subject) (start : Span) (s : Stream) :
    Except Failure (Condition × Stream) := do
  let (goal, s) ← readSubject s
  let (comparison, s) ← readNumericComparison s
  let (value, last, s) ← readInteger s
  return (distance ⟨origin, goal, comparison, value, start.through last⟩, s)

/-- Passes over the word `scene` in front of the name of a scene. -/
def skipScene (s : Stream) : Stream :=
  match s.kind, s.nextKind with
  | .identifier word, .identifier _ => if sameAscii word "scene" then s.advance else s
  | .identifier word, .string _ => if sameAscii word "scene" then s.advance else s
  | _, _ => s

/-- Reads the name of a scene, which may be a string. -/
def readScene (s : Stream) : Except Failure (String × Stream) :=
  match s.kind with
  | .identifier name => .ok (name, s.advance)
  | .string name => .ok (name, s.advance)
  | _ => s.fail .expectedScene

/-- Reads the rest of a count after `visits`. -/
def readVisits (subject : Subject) (start : Span) (s : Stream) :
    Except Failure (Condition × Stream) := do
  let (scene, s) ← readScene (skipScene s)
  let (comparison, s) ← readNumericComparison s
  let (value, last, s) ← readInteger s
  return (visits ⟨subject, scene, comparison, value, start.through last⟩, s)

/-- Reads the rest of a relation that compares a subject or a field of it. Nothing has to follow
`is_empty`. -/
def readProperty (subject : Subject) (start : Span) (s : Stream) :
    Except Failure (Condition × Stream) := do
  let (fields, s) ← readFields ⟨none, none⟩ s
  let (comparison, s) ← readComparison s
  if comparison = .isEmpty ∧ ¬ atOperand s then
    return (relation ⟨subject, comparison, .text "", fields.attr, fields.property,
      start.through s.previous⟩, s)
  else
    let (operand, last, s) ← readOperand s
    return (relation ⟨subject, comparison, operand, fields.attr, fields.property,
      start.through last⟩, s)

/-- Passes over a point in front of `distance_from` and `visits`. -/
def skipDot (s : Stream) : Stream :=
  match s.kind, s.nextKind with
  | .dot, .keyword .distanceFrom => s.advance
  | .dot, .keyword .visits => s.advance
  | _, _ => s

/-- Reads a relation, a count or a distance. -/
def readRelation (s : Stream) : Except Failure (Condition × Stream) := do
  let start := s.current.span
  let (subject, s) ← readSubject s
  if atHas s then readHas subject start s.advance
  else
    let s := skipDot s
    match s.kind with
    | .keyword .distanceFrom => readDistance subject start s.advance
    | .keyword .visits => readVisits subject start s.advance
    | _ => readProperty subject start s

/-! ## Expressions -/

mutual

/-- Reads a chain of `or` with so many levels left. -/
def readOr (levels : Nat) (s : Stream) : Except Failure (Condition × Stream) := do
  let (left, s) ← readAnd levels s
  readOrRest levels left s
termination_by 3 * levels + 2

/-- Reads the further operands of a chain of `or`, each a level deeper. -/
def readOrRest (levels : Nat) (left : Condition) (s : Stream) :
    Except Failure (Condition × Stream) :=
  if s.kind = .keyword .or then
    match levels with
    | 0 => s.failDeep
    | levels + 1 => do
      let (right, s) ← readAnd levels s.advance
      readOrRest levels (either left right) s
  else .ok (left, s)
termination_by 3 * levels

/-- Reads a chain of `and` with so many levels left. -/
def readAnd (levels : Nat) (s : Stream) : Except Failure (Condition × Stream) := do
  let (left, s) ← readUnary levels s
  readAndRest levels left s
termination_by 3 * levels + 1

/-- Reads the further operands of a chain of `and`, each a level deeper. -/
def readAndRest (levels : Nat) (left : Condition) (s : Stream) :
    Except Failure (Condition × Stream) :=
  if s.kind = .keyword .and then
    match levels with
    | 0 => s.failDeep
    | levels + 1 => do
      let (right, s) ← readUnary levels s.advance
      readAndRest levels (both left right) s
  else .ok (left, s)
termination_by 3 * levels

/-- Reads a negation, an expression in parentheses, or a relation. -/
def readUnary (levels : Nat) (s : Stream) : Except Failure (Condition × Stream) :=
  match s.kind with
  | .keyword .not =>
    match levels with
    | 0 => s.failDeep
    | levels + 1 => do
      let (inner, after) ← readUnary levels s.advance
      return (not inner (s.current.span.through inner.span), after)
  | .openParen =>
    match levels with
    | 0 => s.failDeep
    | levels + 1 => do
      let (inner, after) ← readOr levels s.advance
      if after.kind = .closeParen then return (inner, after.advance)
      else after.fail (.unclosed s.current.span)
  | _ => readRelation s
termination_by 3 * levels

end

/-- Reads an expression that is the whole text. -/
def readAll (levels : Nat) (s : Stream) : Except Failure Condition := do
  let (c, s) ← readOr levels s
  if s.kind = .endOfInput then return c
  else s.fail .unexpected

/-- How deep conditions may be nested unless another limit is set. -/
def defaultLimit : Nat := 64

/-- Reads a condition nested at most `limit` deep. -/
def read (limit : Nat) (source : String) : Except Diagnostic Condition :=
  (readAll limit (.ofText source.toList)).mapError (Failure.diagnostic limit)

/-- Reads a condition and reports the outcome. -/
def check (limit : Nat) (source : String) : Outcome :=
  .ofExcept (read limit source)

end Condition

end GameCondition
