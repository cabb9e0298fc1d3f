import GameCondition.Proofs.Condition.Streams
import GameCondition.Proofs.Text.LetterCase
import Mathlib.Data.List.Forall2

/-! # Readers of like texts

Texts may differ in ways that a reader of conditions does not see. A `Likeness` is such a way: it
says which tokens, which names and which places are alike. On like streams the readers stay in step:
either both succeed, with like conditions and with like streams behind them, or both fail, at like
tokens (`Likeness.readAll`). Below the chains of operands they fail with nothing but a misfit.

What is asked of a likeness is what the readers look at: the kinds of tokens, whether a token is
`has`, whether a name is some word of the language, and how stretches are joined.
-/

namespace GameCondition

/-- A text has the token at its end at least. -/
theorem tokenize_ne_nil (cs : List Char) : tokenize cs ≠ [] := by
  rw [tokenize, Cursor.tokens]
  split <;> simp

/-! ## Computations in step -/

/-- Two computations in step: either both succeed or both fail. -/
inductive InStep {α β : Type} (F : Failure → Failure → Prop) (R : α → β → Prop) :
    Except Failure α → Except Failure β → Prop where
  | ok {a : α} {b : β} (h : R a b) : InStep F R (.ok a) (.ok b)
  | error {e e' : Failure} (h : F e e') : InStep F R (.error e) (.error e')

namespace InStep

variable {α β γ δ : Type} {F G : Failure → Failure → Prop} {R : α → β → Prop} {S : γ → δ → Prop}

/-- What goes on in step from results in step is in step. -/
theorem bind {x : Except Failure α} {y : Except Failure β} {f : α → Except Failure γ}
    {g : β → Except Failure δ} (h : InStep F R x y) (hfg : ∀ a b, R a b → InStep F S (f a) (g b)) :
    InStep F S (x >>= f) (y >>= g) := by
  cases h with
  | ok hab => exact hfg _ _ hab
  | error he => exact .error he

/-- What fails alike in one sense fails alike in a weaker one. -/
theorem mono {x : Except Failure α} {y : Except Failure β} (h : InStep F R x y)
    (hFG : ∀ e e', F e e' → G e e') : InStep G R x y := by
  cases h with
  | ok hab => exact .ok hab
  | error he => exact .error (hFG _ _ he)

end InStep

/-! ## Likeness -/

/-- Kinds of tokens that are the same, but for like names. -/
inductive Token.Kind.Alike (name : String → String → Prop) : Token.Kind → Token.Kind → Prop where
  | identifier {w w' : String} (h : name w w') : Alike name (.identifier w) (.identifier w')
  | other {k : Token.Kind} (h : ∀ w, k ≠ .identifier w) : Alike name k k

/-- A way in which texts may differ that a reader does not see. -/
structure Likeness where
  token : Token → Token → Prop
  name : String → String → Prop
  place : Span → Span → Prop
  kind {t t' : Token} : token t t' → t.kind.Alike name t'.kind
  has {t t' : Token} : token t t' → (t.terminal = .has ↔ t'.terminal = .has)
  span {t t' : Token} : token t t' → place t.span t'.span
  through {a a' b b' : Span} : place a a' → place b b' → place (a.through b) (a'.through b')
  refl (w : String) : name w w
  ascii {w w' : String} : name w w' → sameAscii w w' = true

namespace Likeness

/-- Texts that do not differ at all. -/
def same : Likeness where
  token := Eq
  name := Eq
  place := Eq
  kind := by
    rintro t _ rfl
    cases hkind : t.kind with
    | identifier w => exact .identifier rfl
    | _ => exact .other (by simp)
  has := by
    rintro t _ rfl
    exact Iff.rfl
  span := by
    rintro t _ rfl
    rfl
  through := congrArg₂ Span.through
  refl := Eq.refl
  ascii := by
    rintro w _ rfl
    exact sameAscii_iff.mpr rfl

variable (L : Likeness)

/-- Like streams. -/
structure Streams (s s' : Stream) : Prop where
  current : L.token s.current s'.current
  later : List.Forall₂ L.token s.later s'.later
  previous : L.place s.previous s'.previous

/-- Like subjects. -/
structure Subjects (s s' : Subject) : Prop where
  kind : s.kind = s'.kind
  id : Option.Rel L.name s.id s'.id

/-- Like operands. -/
inductive Operands : Operand → Operand → Prop where
  | element {id id' : String} (h : L.name id id') : Operands (.element id) (.element id')
  | literal (o : Operand) : Operands o o

/-- Like fields. -/
structure Fields (f f' : Condition.Fields) : Prop where
  attr : Option.Rel L.name f.attr f'.attr
  property : Option.Rel L.name f.property f'.property

/-- Like conditions. -/
inductive Conditions : Condition → Condition → Prop where
  | and {l l' r r' : Condition} {span span' : Span} (hl : Conditions l l') (hr : Conditions r r')
      (hspan : L.place span span') : Conditions (.and l r span) (.and l' r' span')
  | or {l l' r r' : Condition} {span span' : Span} (hl : Conditions l l') (hr : Conditions r r')
      (hspan : L.place span span') : Conditions (.or l r span) (.or l' r' span')
  | not {c c' : Condition} {span span' : Span} (hc : Conditions c c')
      (hspan : L.place span span') : Conditions (.not c span) (.not c' span')
  | relation {subject subject' : Subject} (comparison : Comparison) {operand operand' : Operand}
      {attr attr' property property' : Option String} {span span' : Span}
      (hsubject : L.Subjects subject subject') (hoperand : L.Operands operand operand')
      (hattr : Option.Rel L.name attr attr') (hproperty : Option.Rel L.name property property')
      (hspan : L.place span span') :
      Conditions (.relation ⟨subject, comparison, operand, attr, property, span⟩)
        (.relation ⟨subject', comparison, operand', attr', property', span'⟩)
  | visits {subject subject' : Subject} {scene scene' : String} (comparison : Comparison)
      (value : Int) {span span' : Span} (hsubject : L.Subjects subject subject')
      (hscene : L.name scene scene') (hspan : L.place span span') :
      Conditions (.visits ⟨subject, scene, comparison, value, span⟩)
        (.visits ⟨subject', scene', comparison, value, span'⟩)
  | distance {origin origin' goal goal' : Subject} (comparison : Comparison) (value : Int)
      {span span' : Span} (horigin : L.Subjects origin origin') (hgoal : L.Subjects goal goal')
      (hspan : L.place span span') :
      Conditions (.distance ⟨origin, goal, comparison, value, span⟩)
        (.distance ⟨origin', goal', comparison, value, span'⟩)

/-- Misfits at like tokens, whatever their causes. -/
inductive Misfits : Failure → Failure → Prop where
  | misfit {t t' : Token} (cause cause' : Misfit) (h : L.token t t') :
      Misfits (.misfit cause t.span) (.misfit cause' t'.span)

/-- Failures of one sort at like tokens. -/
inductive Failures : Failure → Failure → Prop where
  | misfit {e e' : Failure} (h : L.Misfits e e') : Failures e e'
  | tooDeep {t t' : Token} (h : L.token t t') : Failures (.tooDeep t.span) (.tooDeep t'.span)

/-- Like results, with like streams behind them. -/
structure Given {α : Type} (R : α → α → Prop) (p p' : α × Stream) : Prop where
  result : R p.1 p'.1
  stream : L.Streams p.2 p'.2

/-- Two readers of parts in step: they succeed alike or meet misfits at like tokens. -/
abbrev Reads {α : Type} (R : α → α → Prop) : Except Failure (α × Stream) →
    Except Failure (α × Stream) → Prop :=
  InStep L.Misfits (L.Given R)

variable {L}

/-! ## Like names -/

/-- Alike words spell the same words in any case. -/
theorem sameAscii_left {w w' : String} (h : L.name w w') (word : String) :
    sameAscii w word = sameAscii w' word := by
  rw [sameAscii, sameAscii, sameAscii_iff.mp (L.ascii h)]

/-- Alike words stand for the same kind of subject. -/
theorem ofWord?_eq {w w' : String} (h : L.name w w') :
    SubjectKind.ofWord? w = SubjectKind.ofWord? w' := by
  simp only [SubjectKind.ofWord?, sameAscii, sameAscii_iff.mp (L.ascii h)]

/-- Alike words name a kind of subject, or neither does. -/
theorem namesKind_eq {w w' : String} (h : L.name w w') :
    Condition.namesKind w = Condition.namesKind w' := by
  rw [Condition.namesKind, Condition.namesKind, ofWord?_eq h]

/-- Alike subjects have alike names. -/
theorem Subjects.name {s s' : Subject} (h : L.Subjects s s') : L.name s.name s'.name := by
  obtain ⟨kind, id⟩ := s
  obtain ⟨kind', id'⟩ := s'
  obtain ⟨rfl, hid⟩ := h
  cases hid with
  | some hid => exact hid
  | none => exact L.refl _

/-- Alike conditions cover alike places. -/
theorem Conditions.span {c c' : Condition} (h : L.Conditions c c') : L.place c.span c'.span := by
  cases h <;> assumption

/-! ## Like streams -/

/-- A stream is the same as itself. -/
theorem same_streams (s : Stream) : same.Streams s s :=
  ⟨rfl, List.forall₂_same.mpr fun _ _ => rfl, rfl⟩

/-- Texts with like tokens have like streams. -/
theorem streams_ofText {cs ds : List Char}
    (h : List.Forall₂ L.token (tokenize cs) (tokenize ds)) :
    L.Streams (.ofText cs) (.ofText ds) := by
  have hcs := tokenize_ne_nil cs
  unfold Stream.ofText
  revert h hcs
  generalize tokenize cs = ts
  generalize tokenize ds = us
  intro h hts
  cases h with
  | nil => exact absurd rfl hts
  | cons hfirst hlater => exact ⟨hfirst, hlater, L.span hfirst⟩

namespace Streams

variable {s s' : Stream} (h : L.Streams s s')

include h

/-- Alike streams go on alike. -/
theorem advance : L.Streams s.advance s'.advance := by
  rcases s with ⟨t, ts, previous⟩
  rcases s' with ⟨t', ts', previous'⟩
  rcases h with ⟨hcurrent, hlater, hprevious⟩
  cases hlater with
  | nil => exact ⟨hcurrent, .nil, hprevious⟩
  | cons hnext hlater => exact ⟨hnext, hlater, L.span hcurrent⟩

/-- The tokens at like places are both names, like ones, or of one kind. -/
theorem kind_cases : (∃ w w', s.kind = .identifier w ∧ s'.kind = .identifier w' ∧ L.name w w') ∨
    (s'.kind = s.kind ∧ ∀ w, s.kind ≠ .identifier w) := by
  have hkind := L.kind h.current
  unfold Stream.kind
  revert hkind
  generalize s.current.kind = k
  generalize s'.current.kind = k'
  rintro (⟨hname⟩ | ⟨hother⟩)
  · exact .inl ⟨_, _, rfl, rfl, hname⟩
  · exact .inr ⟨rfl, hother⟩

/-- Alike streams stand at the same mark or keyword, or neither does. -/
theorem kind_eq_iff {k : Token.Kind} (hk : ∀ w, k ≠ .identifier w) : s.kind = k ↔ s'.kind = k := by
  rcases h.kind_cases with ⟨w, w', hw, hw', -⟩ | ⟨hsame, -⟩
  · rw [hw, hw']
    exact iff_of_false (hk w).symm (hk w').symm
  · rw [hsame]

/-- Alike streams fail alike, whatever the cause. -/
theorem fail {α β : Type} {R : α → β → Prop} (cause cause' : Token → Misfit) :
    InStep L.Misfits R (s.fail cause) (s'.fail cause') :=
  .error (.misfit _ _ h.current)

/-- Alike streams fail alike where the levels are used up. -/
theorem failDeep {α β : Type} {R : α → β → Prop} :
    InStep L.Failures R (s.failDeep : Except Failure α) (s'.failDeep : Except Failure β) :=
  .error (.tooDeep h.current)

/-! ## Parts of a relation -/

open Condition

/-- Alike streams give alike identifiers. -/
theorem readIdentifier (cause cause' : Token → Misfit) :
    L.Reads L.name (readIdentifier cause s) (readIdentifier cause' s') := by
  unfold Condition.readIdentifier
  rcases h.kind_cases with ⟨w, w', hw, hw', hname⟩ | ⟨hsame, hother⟩
  · rw [hw, hw']
    exact .ok ⟨hname, h.advance⟩
  · rw [hsame]
    cases hk : s.kind with
    | identifier w => exact absurd hk (hother w)
    | _ => exact h.fail _ _

/-- Alike streams give alike subjects. -/
theorem readSubject : L.Reads L.Subjects (readSubject s) (readSubject s') := by
  unfold Condition.readSubject
  rcases h.kind_cases with ⟨w, w', hw, hw', hname⟩ | ⟨hsame, hother⟩
  · rw [hw, hw']
    dsimp only
    -- like words stand for one kind of subject, or for none
    rw [ofWord?_eq hname]
    cases SubjectKind.ofWord? w' with
    | none => exact .ok ⟨⟨rfl, .some hname⟩, h.advance⟩
    | some kind =>
      dsimp only
      split
      · refine (h.advance.readIdentifier _ _).bind ?_
        rintro ⟨id, s₁⟩ ⟨id', s₁'⟩ ⟨hid, hs₁⟩
        exact .ok ⟨⟨rfl, .some hid⟩, hs₁⟩
      · exact .ok ⟨⟨rfl, .none⟩, h.advance⟩
  · rw [hsame]
    cases hk : s.kind with
    | identifier w => exact absurd hk (hother w)
    | _ => exact h.fail _ _

/-- Alike streams stand at `has`, or neither does. -/
theorem atHas_eq : atHas s = atHas s' := by
  have hhas := L.has h.current
  rw [Token.terminal_eq_has, Token.terminal_eq_has] at hhas
  rw [Bool.eq_iff_iff, atHas, atHas, Bool.and_eq_true, Bool.and_eq_true, beq_iff_eq, beq_iff_eq]
  exact hhas

/-- Alike streams give the same comparison. -/
theorem readComparison : L.Reads Eq (readComparison s) (readComparison s') := by
  unfold Condition.readComparison
  rw [h.atHas_eq]
  split
  · exact h.fail _ _
  · rcases h.kind_cases with ⟨w, w', hw, hw', -⟩ | ⟨hsame, -⟩
    · rw [hw, hw']
      exact h.fail _ _
    · rw [hsame]
      cases s.kind with
      | keyword word =>
        dsimp only
        cases comparisonOf? word with
        | some comparison => exact .ok ⟨rfl, h.advance⟩
        | none => exact h.fail _ _
      | _ => exact h.fail _ _

/-- Alike streams give the same comparison of numbers. -/
theorem readNumericComparison :
    L.Reads Eq (readNumericComparison s) (readNumericComparison s') := by
  refine h.readComparison.bind ?_
  rintro ⟨comparison, s₁⟩ ⟨_, s₁'⟩ ⟨rfl, hs₁⟩
  dsimp only
  split
  · exact .ok ⟨rfl, hs₁⟩
  · exact h.fail _ _

/-- A result together with its place, both alike. -/
theorem readInteger : InStep L.Misfits (fun p p' => p.1 = p'.1 ∧ L.Given L.place p.2 p'.2)
    (readInteger s) (readInteger s') := by
  unfold Condition.readInteger
  rcases h.kind_cases with ⟨w, w', hw, hw', -⟩ | ⟨hsame, -⟩
  · rw [hw, hw']
    exact h.fail _ _
  · rw [hsame]
    cases s.kind with
    | number n =>
      dsimp only
      cases smallInteger? n with
      | some i => exact .ok ⟨rfl, L.span h.current, h.advance⟩
      | none => exact h.fail _ _
    | _ => exact h.fail _ _

/-- Alike streams give alike operands, and alike places of them. -/
theorem readOperand :
    InStep L.Misfits (fun p p' => L.Operands p.1 p'.1 ∧ L.Given L.place p.2 p'.2)
      (readOperand s) (readOperand s') := by
  have hhere := L.span h.current
  unfold Condition.readOperand
  rw [s.nextKind_eq, s'.nextKind_eq]
  rcases h.kind_cases with ⟨w, w', hw, hw', hname⟩ | ⟨hsame, hother⟩
  · rw [hw, hw']
    dsimp only
    have hbare : InStep L.Misfits (fun p p' => L.Operands p.1 p'.1 ∧ L.Given L.place p.2 p'.2)
        (.ok (.element w, s.current.span, s.advance))
        (.ok (.element w', s'.current.span, s'.advance)) :=
      .ok ⟨.element hname, hhere, h.advance⟩
    rw [namesKind_eq hname]
    cases namesKind w' with
    | false => exact hbare
    | true =>
      -- a name that follows the word for its kind is the operand
      rcases h.advance.kind_cases with ⟨id, id', hid, hid', hids⟩ | ⟨hsame, hother⟩
      · rw [hid, hid']
        exact .ok ⟨.element hids, L.through hhere (L.span h.advance.current), h.advance.advance⟩
      · rw [hsame]
        cases hk : s.advance.kind with
        | identifier id => exact absurd hk (hother id)
        | _ => exact hbare
  · rw [hsame]
    cases hk : s.kind with
    | identifier w => exact absurd hk (hother w)
    | keyword word =>
      cases word with
      | true | false => exact .ok ⟨.literal _, hhere, h.advance⟩
      | _ => exact h.fail _ _
    | number | string => exact .ok ⟨.literal _, hhere, h.advance⟩
    | _ => exact h.fail _ _

theorem atOperand_eq : atOperand s = atOperand s' := by
  unfold atOperand
  rcases h.kind_cases with ⟨w, w', hw, hw', -⟩ | ⟨hsame, -⟩
  · rw [hw, hw']
  · rw [hsame]

/-! ## Fields -/

theorem skipDot_advance : L.Streams (if s.kind = .dot then s.advance else s)
    (if s'.kind = .dot then s'.advance else s') := by
  have hdot := h.kind_eq_iff (k := .dot) (by simp)
  simp only [hdot]
  split
  · exact h.advance
  · exact h

/-- Alike streams give alike fields. -/
theorem readField {fields fields' : Condition.Fields} (hfields : L.Fields fields fields') :
    L.Reads L.Fields (readField fields s) (readField fields' s') := by
  unfold Condition.readField
  rcases h.kind_cases with ⟨w, w', hw, hw', hname⟩ | ⟨hsame, hother⟩
  · rw [hw, hw']
    -- a name is set as it is spelled, and only these may differ
    exact .ok ⟨⟨hfields.attr, .some hname⟩, h.advance⟩
  · rw [hsame]
    have hproperty : ∀ word, L.Reads L.Fields
        (.ok ({ fields with property := some word }, s.advance))
        (.ok ({ fields' with property := some word }, s'.advance)) :=
      fun word => .ok ⟨⟨hfields.attr, .some (L.refl word)⟩, h.advance⟩
    cases hk : s.kind with
    | identifier w => exact absurd hk (hother w)
    | keyword word =>
      cases word with
      | attr =>
        refine (h.advance.skipDot_advance.readIdentifier _ _).bind ?_
        rintro ⟨name, s₁⟩ ⟨name', s₁'⟩ ⟨hname, hs₁⟩
        exact .ok ⟨⟨.some hname, hfields.property⟩, hs₁⟩
      | state | flag | inventory => exact hproperty _
      | _ => exact h.fail _ _
    | _ => exact h.fail _ _

/-- Alike streams give alike rows of fields. -/
theorem readFields {fields fields' : Condition.Fields} (hfields : L.Fields fields fields') :
    L.Reads L.Fields (readFields fields s) (readFields fields' s') := by
  -- by induction on the calls of one reader, with which the other keeps step
  fun_induction Condition.readFields fields s generalizing fields' s' with
  | case1 fields s hdot e hread =>
    have hfirst := h.advance.readField hfields
    rw [hread] at hfirst
    rw [Condition.readFields.eq_def fields' s', dif_pos ((h.kind_eq_iff (by simp)).mp hdot)]
    split
    · next e' hread' =>
      rw [hread'] at hfirst
      cases hfirst with
      | error he => exact .error he
    · next fields₁' s₁' hread' =>
      rw [hread'] at hfirst
      cases hfirst
  | case2 fields s hdot fields₁ s₁ hread ih =>
    have hfirst := h.advance.readField hfields
    rw [hread] at hfirst
    rw [Condition.readFields.eq_def fields' s', dif_pos ((h.kind_eq_iff (by simp)).mp hdot)]
    split
    · next e' hread' =>
      rw [hread'] at hfirst
      cases hfirst
    · next fields₁' s₁' hread' =>
      rw [hread'] at hfirst
      cases hfirst with
      | ok hgiven => exact ih hgiven.stream hgiven.result
  | case3 fields s hdot =>
    rw [Condition.readFields.eq_def fields' s', dif_neg (mt (h.kind_eq_iff (by simp)).mpr hdot)]
    exact .ok ⟨hfields, h⟩

/-! ## Relations -/

theorem readHas {subject subject' : Subject} {start start' : Span}
    (hsubject : L.Subjects subject subject') (hstart : L.place start start') :
    L.Reads L.Conditions (readHas subject start s) (readHas subject' start' s') := by
  refine h.readSubject.bind ?_
  rintro ⟨other, s₁⟩ ⟨other', s₁'⟩ ⟨hother, hs₁⟩
  exact .ok ⟨.relation .has hsubject (.element hother.name) .none .none
    (L.through hstart hs₁.previous), hs₁⟩

theorem readDistance {origin origin' : Subject} {start start' : Span}
    (horigin : L.Subjects origin origin') (hstart : L.place start start') :
    L.Reads L.Conditions (readDistance origin start s) (readDistance origin' start' s') := by
  refine h.readSubject.bind ?_
  rintro ⟨goal, s₁⟩ ⟨goal', s₁'⟩ ⟨hgoal, hs₁⟩
  refine hs₁.readNumericComparison.bind ?_
  rintro ⟨comparison, s₂⟩ ⟨_, s₂'⟩ ⟨rfl, hs₂⟩
  refine hs₂.readInteger.bind ?_
  rintro ⟨value, last, s₃⟩ ⟨_, last', s₃'⟩ ⟨rfl, hlast, hs₃⟩
  exact .ok ⟨.distance comparison value horigin hgoal (L.through hstart hlast), hs₃⟩

theorem skipScene : L.Streams (skipScene s) (skipScene s') := by
  unfold Condition.skipScene
  rw [s.nextKind_eq, s'.nextKind_eq]
  rcases h.kind_cases with ⟨w, w', hw, hw', hname⟩ | ⟨hsame, hother⟩
  · have hpassed : L.Streams (if sameAscii w "scene" then s.advance else s)
        (if sameAscii w' "scene" then s'.advance else s') := by
      -- like names are both `scene` or both not
      rw [sameAscii_left hname]
      split
      · exact h.advance
      · exact h
    rw [hw, hw']
    rcases h.advance.kind_cases with ⟨id, id', hid, hid', -⟩ | ⟨hsame, hother⟩
    · rw [hid, hid']
      exact hpassed
    · rw [hsame]
      cases s.advance.kind with
      | string | identifier => exact hpassed
      | _ => exact h
  · rw [hsame]
    cases hk : s.kind with
    | identifier w => exact absurd hk (hother w)
    | _ => exact h

/-- Alike streams give alike names of scenes. -/
theorem readScene : L.Reads L.name (readScene s) (readScene s') := by
  unfold Condition.readScene
  rcases h.kind_cases with ⟨w, w', hw, hw', hname⟩ | ⟨hsame, hother⟩
  · rw [hw, hw']
    exact .ok ⟨hname, h.advance⟩
  -- a literal is the same in both, unlike a name
  · rw [hsame]
    cases hk : s.kind with
    | identifier w => exact absurd hk (hother w)
    | string scene => exact .ok ⟨L.refl scene, h.advance⟩
    | _ => exact h.fail _ _

theorem readVisits {subject subject' : Subject} {start start' : Span}
    (hsubject : L.Subjects subject subject') (hstart : L.place start start') :
    L.Reads L.Conditions (readVisits subject start s) (readVisits subject' start' s') := by
  refine h.skipScene.readScene.bind ?_
  rintro ⟨scene, s₁⟩ ⟨scene', s₁'⟩ ⟨hscene, hs₁⟩
  refine hs₁.readNumericComparison.bind ?_
  rintro ⟨comparison, s₂⟩ ⟨_, s₂'⟩ ⟨rfl, hs₂⟩
  refine hs₂.readInteger.bind ?_
  rintro ⟨value, last, s₃⟩ ⟨_, last', s₃'⟩ ⟨rfl, hlast, hs₃⟩
  exact .ok ⟨.visits comparison value hsubject hscene (L.through hstart hlast), hs₃⟩

theorem readProperty {subject subject' : Subject} {start start' : Span}
    (hsubject : L.Subjects subject subject') (hstart : L.place start start') :
    L.Reads L.Conditions (readProperty subject start s) (readProperty subject' start' s') := by
  have hnone : L.Fields ⟨none, none⟩ ⟨none, none⟩ := ⟨.none, .none⟩
  refine (h.readFields hnone).bind ?_
  rintro ⟨fields, s₁⟩ ⟨fields', s₁'⟩ ⟨hfields, hs₁⟩
  -- the comparisons are equal, not just alike
  refine hs₁.readComparison.bind ?_
  rintro ⟨comparison, s₂⟩ ⟨_, s₂'⟩ ⟨rfl, hs₂⟩
  dsimp only
  rw [hs₂.atOperand_eq]
  split
  -- `is_empty` may stand without an operand
  · exact .ok ⟨.relation comparison hsubject (.literal _) hfields.attr hfields.property
      (L.through hstart hs₂.previous), hs₂⟩
  · refine hs₂.readOperand.bind ?_
    rintro ⟨operand, last, s₃⟩ ⟨operand', last', s₃'⟩ ⟨hoperand, hlast, hs₃⟩
    exact .ok ⟨.relation comparison hsubject hoperand hfields.attr hfields.property
      (L.through hstart hlast), hs₃⟩

theorem skipDot : L.Streams (skipDot s) (skipDot s') := by
  unfold Condition.skipDot
  rw [s.nextKind_eq, s'.nextKind_eq]
  rcases h.kind_cases with ⟨w, w', hw, hw', -⟩ | ⟨hsame, -⟩
  · rw [hw, hw']
    exact h
  · rw [hsame]
    -- a dot is skipped for the keyword behind it, which is no name
    rcases h.advance.kind_cases with ⟨id, id', hid, hid', -⟩ | ⟨hsame', -⟩
    · rw [hid, hid']
      cases s.kind <;> exact h
    · rw [hsame']
      split
      · exact h.advance
      · exact h.advance
      · exact h

/-- Alike streams give alike relations. -/
theorem readRelation : L.Reads L.Conditions (readRelation s) (readRelation s') := by
  have hstart := L.span h.current
  refine h.readSubject.bind ?_
  rintro ⟨subject, s₁⟩ ⟨subject', s₁'⟩ ⟨hsubject, hs₁⟩
  dsimp only
  -- the token after the subject sends both the same way
  rw [hs₁.atHas_eq]
  split
  · exact hs₁.advance.readHas hsubject hstart
  · have hskip : L.Streams (Condition.skipDot s₁) (Condition.skipDot s₁') := hs₁.skipDot
    rcases hskip.kind_cases with ⟨w, w', hw, hw', -⟩ | ⟨hsame, -⟩
    · rw [hw, hw']
      exact hskip.readProperty hsubject hstart
    · rw [hsame]
      split
      · exact hskip.advance.readDistance hsubject hstart
      · exact hskip.advance.readVisits hsubject hstart
      · exact hskip.readProperty hsubject hstart

end Streams

/-! ## Expressions -/

/-- Two readers in step that stop at the limit together. -/
abbrev ReadsBelow (L : Likeness) : Except Failure (Condition × Stream) →
    Except Failure (Condition × Stream) → Prop :=
  InStep L.Failures (L.Given L.Conditions)

namespace Streams

open Condition

/-- Alike operands make alike conjunctions. -/
theorem both {l l' r r' : Condition} (hl : L.Conditions l l') (hr : L.Conditions r r') :
    L.Conditions (both l r) (both l' r') :=
  .and hl hr (L.through hl.span hr.span)

/-- Alike operands make alike disjunctions. -/
theorem either {l l' r r' : Condition} (hl : L.Conditions l l') (hr : L.Conditions r r') :
    L.Conditions (either l r) (either l' r') :=
  .or hl hr (L.through hl.span hr.span)

mutual

/-- Alike streams give alike chains of `or`, with the same levels left. -/
theorem readOr (levels : Nat) {s s' : Stream} (h : L.Streams s s') :
    L.ReadsBelow (readOr levels s) (readOr levels s') := by
  rw [Condition.readOr, Condition.readOr]
  -- both have the same levels left, and what comes next is read from like streams
  refine (readAnd levels h).bind ?_
  rintro ⟨left, s₁⟩ ⟨left', s₁'⟩ ⟨hleft, hs₁⟩
  exact readOrRest levels hleft hs₁
termination_by (levels, 2)

/-- Alike streams go on alike behind an operand of `or`. -/
theorem readOrRest (levels : Nat) {left left' : Condition} (hleft : L.Conditions left left')
    {s s' : Stream} (h : L.Streams s s') :
    L.ReadsBelow (readOrRest levels left s) (readOrRest levels left' s') := by
  rw [readOrRest.eq_def, readOrRest.eq_def levels left']
  simp only [← h.kind_eq_iff (k := .keyword .or) (by simp)]
  split
  · cases levels with
    | zero => exact h.failDeep
    | succ levels =>
        refine (readAnd levels h.advance).bind ?_
        rintro ⟨right, s₁⟩ ⟨right', s₁'⟩ ⟨hright, hs₁⟩
        exact readOrRest levels (either hleft hright) hs₁
  · exact .ok ⟨hleft, h⟩
termination_by (levels, 0)

/-- Alike streams give alike chains of `and`, with the same levels left. -/
theorem readAnd (levels : Nat) {s s' : Stream} (h : L.Streams s s') :
    L.ReadsBelow (readAnd levels s) (readAnd levels s') := by
  rw [Condition.readAnd, Condition.readAnd]
  refine (readUnary levels h).bind ?_
  rintro ⟨left, s₁⟩ ⟨left', s₁'⟩ ⟨hleft, hs₁⟩
  exact readAndRest levels hleft hs₁
termination_by (levels, 1)

/-- Alike streams go on alike behind an operand of `and`. -/
theorem readAndRest (levels : Nat) {left left' : Condition} (hleft : L.Conditions left left')
    {s s' : Stream} (h : L.Streams s s') :
    L.ReadsBelow (readAndRest levels left s) (readAndRest levels left' s') := by
  rw [readAndRest.eq_def, readAndRest.eq_def levels left']
  simp only [← h.kind_eq_iff (k := .keyword .and) (by simp)]
  split
  · cases levels with
    | zero => exact h.failDeep
    | succ levels =>
        refine (readUnary levels h.advance).bind ?_
        rintro ⟨right, s₁⟩ ⟨right', s₁'⟩ ⟨hright, hs₁⟩
        exact readAndRest levels (both hleft hright) hs₁
  · exact .ok ⟨hleft, h⟩
termination_by (levels, 0)

/-- Alike streams give alike operands of a chain. -/
theorem readUnary (levels : Nat) {s s' : Stream} (h : L.Streams s s') :
    L.ReadsBelow (readUnary levels s) (readUnary levels s') := by
  have hrelation : L.ReadsBelow (Condition.readRelation s) (Condition.readRelation s') :=
    h.readRelation.mono fun _ _ => .misfit
  have hhere := L.span h.current
  rw [readUnary.eq_def, readUnary.eq_def levels s']
  -- a name begins a relation in both, any other token is the same in both
  rcases h.kind_cases with ⟨w, w', hw, hw', -⟩ | ⟨hsame, -⟩
  · rw [hw, hw']
    exact hrelation
  · rw [hsame]
    split
    · cases levels with
      | zero => exact h.failDeep
      | succ levels =>
          refine (readUnary levels h.advance).bind ?_
          rintro ⟨inner, s₁⟩ ⟨inner', s₁'⟩ ⟨hinner, hs₁⟩
          exact .ok ⟨.not hinner (L.through hhere hinner.span), hs₁⟩
    · cases levels with
      | zero => exact h.failDeep
      | succ levels =>
          refine (readOr levels h.advance).bind ?_
          rintro ⟨inner, s₁⟩ ⟨inner', s₁'⟩ ⟨hinner, hs₁⟩
          dsimp only
          simp only [← hs₁.kind_eq_iff (k := .closeParen) (by simp)]
          split
          · exact .ok ⟨hinner, hs₁.advance⟩
          · exact (hs₁.fail _ _).mono fun _ _ => .misfit
    · exact hrelation
termination_by (levels, 0)

end

/-- On like streams the reader of whole texts succeeds alike or fails at like tokens. -/
theorem readAll (levels : Nat) {s s' : Stream} (h : L.Streams s s') :
    InStep L.Failures L.Conditions (readAll levels s) (readAll levels s') := by
  refine (readOr levels h).bind ?_
  rintro ⟨c, s₁⟩ ⟨c', s₁'⟩ ⟨hc, hs₁⟩
  dsimp only
  -- what is left ends for both or for neither
  simp only [← hs₁.kind_eq_iff (k := .endOfInput) (by simp)]
  split
  · exact .ok hc
  · exact (hs₁.fail _ _).mono fun _ _ => .misfit

end Streams

end Likeness

end GameCondition
