import GameCondition.Proofs.Condition.Reprinting
import GameCondition.Proofs.Token.Tiling

/-! # How conditions are put together

The readers of expressions differ in the levels that are left to them and in the operators that they
go on with. What they build is told by one relation between streams (`Reading`): a leaf, a negation,
an expression in parentheses, or two conditions with an operator between them
(`Reading.of_readOr` and its companions). So a property of all conditions that are read is shown by
one induction.

A leaf stretches from the first to the last of the tokens that were taken for it
(`exists_tokens_of_readRelation`).
-/

namespace GameCondition

/-! ## Tokens of a stream -/

namespace Stream

/-- The tokens from the current one on. -/
def tokens (s : Stream) : List Token :=
  s.current :: s.later

theorem tokens_advance {s : Stream} (h : s.later ≠ []) :
    s.tokens = [s.current] ++ s.advance.tokens := by
  unfold tokens advance
  cases hlater : s.later with
  | nil => exact absurd hlater h
  | cons t ts => rfl

theorem previous_advance {s : Stream} (h : s.later ≠ []) : s.advance.previous = s.current.span := by
  unfold advance
  cases hlater : s.later with
  | nil => exact absurd hlater h
  | cons t ts => rfl

theorem tokens_ofText (cs : List Char) : (ofText cs).tokens = tokenize cs := by
  obtain ⟨init, htokens, -⟩ := (tiles_tokenize cs).ended
  unfold ofText
  cases hts : tokenize cs with
  | nil => simp [hts] at htokens
  | cons t ts => rfl

end Stream

/-- Terminals are taken with their tokens, and the stream remembers the last of these. -/
theorem Takes.exists_tokens {s s' : Stream} {t : Terminal} {ts : List Terminal}
    (h : Takes s (t :: ts) s') :
    ∃ us, s.tokens = s.current :: us ++ s'.tokens ∧
      (s.current :: us).map Token.terminal = t :: ts ∧
      s'.previous = ((s.current :: us).getLast (List.cons_ne_nil _ us)).span := by
  induction ts generalizing s t with
  | nil =>
    obtain ⟨hterminal, hlater, rfl⟩ := Takes.singleton_iff.mp h
    refine ⟨[], Stream.tokens_advance hlater, ?_, Stream.previous_advance hlater⟩
    rw [List.map_singleton, hterminal]
  | cons t' ts ih =>
    obtain ⟨hterminal, hlater, hrest⟩ := Takes.cons_iff.mp h
    obtain ⟨us, htokens, hterminals, hprevious⟩ := ih hrest
    refine ⟨s.advance.current :: us, ?_, ?_, ?_⟩
    · rw [Stream.tokens_advance hlater, htokens]
      rfl
    · rw [List.map_cons, hterminal, hterminals]
    · rw [hprevious, List.getLast_cons (List.cons_ne_nil _ us)]

/-! ## Places of leaves -/

namespace Condition

open Grammar

theorem previous_of_readInteger {s s' : Stream} {i : Int} {last : Span} (hs : s.Closed)
    (h : readInteger s = .ok (i, last, s')) : last = s'.previous := by
  unfold readInteger at h
  split at h
  · next n hkind =>
    split at h
    · cases h
      exact (Stream.previous_advance (hs.later_ne_nil (by simp [hkind]))).symm
    · cases h
  · cases h

/-- The place of an operand ends with the last token of it. -/
theorem stop_of_readOperand {s s' : Stream} {x : Operand} {last : Span} (hs : s.Closed)
    (h : readOperand s = .ok (x, last, s')) : last.stop = s'.previous.stop := by
  have hsingle : s.kind ≠ .endOfInput → s.current.span.stop = s.advance.previous.stop := by
    intro hkind
    rw [Stream.previous_advance (hs.later_ne_nil hkind)]
  unfold readOperand at h
  split at h
  case h_1 hkind => cases h; exact hsingle (by simp [hkind])
  case h_2 hkind => cases h; exact hsingle (by simp [hkind])
  case h_3 hkind => cases h; exact hsingle (by simp [hkind])
  case h_4 hkind => cases h; exact hsingle (by simp [hkind])
  case h_5 word hkind =>
    split at h
    · next id hnames hnext =>
      -- two tokens, of which the second was only looked at before
      cases h
      rw [Stream.nextKind_eq] at hnext
      have hend : s.advance.kind ≠ .endOfInput := by simp [hnext]
      rw [Stream.previous_advance (hs.advance.later_ne_nil hend)]
      rfl
    · cases h
      exact hsingle (by simp [hkind])
  case h_6 => cases h

/-- Of the second stretch only its end matters. -/
theorem through_eq {a b b' : Span} (h : b.stop = b'.stop) : a.through b = a.through b' := by
  rw [Span.through, h]
  rfl

theorem span_of_readDistance {origin : Subject} {start : Span} {s s' : Stream} {c : Condition}
    (hs : s.Closed) (h : readDistance origin start s = .ok (c, s')) :
    c.span = start.through s'.previous := by
  rcases except_bind_eq_ok.mp h with ⟨⟨goal, s₁⟩, hgoal, hrest⟩
  rcases except_bind_eq_ok.mp hrest with ⟨⟨comparison, s₂⟩, hcomparison, hrest⟩
  rcases except_bind_eq_ok.mp hrest with ⟨⟨value, last, s₃⟩, hvalue, hret⟩
  rcases readSubject_sound hs hgoal with ⟨p, -, hp⟩
  rcases readNumericComparison_sound (hp.closed hs) hcomparison with ⟨n, -, hword⟩
  have hlast := previous_of_readInteger (hword.closed (hp.closed hs)) hvalue
  cases hret
  rw [← hlast]
  rfl

theorem span_of_readVisits {subject : Subject} {start : Span} {s s' : Stream} {c : Condition}
    (hs : s.Closed) (h : readVisits subject start s = .ok (c, s')) :
    c.span = start.through s'.previous := by
  rcases except_bind_eq_ok.mp h with ⟨⟨scene, s₁⟩, hscene, hrest⟩
  rcases except_bind_eq_ok.mp hrest with ⟨⟨comparison, s₂⟩, hcomparison, hrest⟩
  rcases except_bind_eq_ok.mp hrest with ⟨⟨value, last, s₃⟩, hvalue, hret⟩
  rcases skipScene_sound hs with ⟨mark, hmark⟩
  rcases readScene_sound (hmark.closed hs) hscene with ⟨p, -, hp⟩
  have hname := hmark.append hp
  rcases readNumericComparison_sound (hname.closed hs) hcomparison with ⟨n, -, hword⟩
  have hlast := previous_of_readInteger (hword.closed (hname.closed hs)) hvalue
  cases hret
  rw [← hlast]
  rfl

theorem span_of_readProperty {subject : Subject} {start : Span} {s s' : Stream} {c : Condition}
    (hs : s.Closed) (h : readProperty subject start s = .ok (c, s')) :
    c.span = start.through s'.previous := by
  rcases except_bind_eq_ok.mp h with ⟨⟨fields, s₁⟩, hfields, hrest⟩
  rcases except_bind_eq_ok.mp hrest with ⟨⟨comparison, s₂⟩, hcomparison, hrest⟩
  dsimp only at hrest
  split at hrest
  · cases hrest
    rfl
  · rcases except_bind_eq_ok.mp hrest with ⟨⟨operand, last, s₃⟩, hoperand, hret⟩
    rcases readFields_sound hs hfields with ⟨fs, -, hfs⟩
    have hword := (readComparison_sound (hfs.closed hs) hcomparison).2
    have hlast := stop_of_readOperand (hword.closed (hfs.closed hs)) hoperand
    cases hret
    exact through_eq hlast

/-- A leaf goes from the current token to the last one that was taken for it. -/
theorem span_of_readRelation {s s' : Stream} {c : Condition} (hs : s.Closed)
    (h : readRelation s = .ok (c, s')) : c.span = s.current.span.through s'.previous := by
  rcases except_bind_eq_ok.mp h with ⟨⟨subject, s₁⟩, hsubject, hrest⟩
  rcases readSubject_sound hs hsubject with ⟨p, -, hp⟩
  rcases skipDot_sound (hp.closed hs) with ⟨dot, hdot⟩
  have hs₁ := hdot.closed (hp.closed hs)
  dsimp only at hrest
  split at hrest
  · rcases except_bind_eq_ok.mp hrest with ⟨⟨other, s₂⟩, -, hret⟩
    cases hret
    rfl
  · split at hrest
    · exact span_of_readDistance hs₁.advance hrest
    · exact span_of_readVisits hs₁.advance hrest
    · exact span_of_readProperty hs₁ hrest

/-- A leaf is read from the tokens of a phrase, from the first of which to the last it stretches. -/
theorem exists_tokens_of_readRelation {s s' : Stream} {c : Condition} (hs : s.Closed)
    (h : readRelation s = .ok (c, s')) :
    ∃ (p : Phrase) (us : List Token), c.unplaced = p.leaf ∧ s'.Closed ∧
      s.tokens = s.current :: us ++ s'.tokens ∧
      (s.current :: us).map Token.terminal = p.terminals ∧
      c.span = s.current.span.through ((s.current :: us).getLast (List.cons_ne_nil _ us)).span := by
  rcases readRelation_sound hs h with ⟨p, hleaf, htakes⟩
  rcases p.exists_name with ⟨w, ts, hname⟩
  rw [hname] at htakes
  rcases htakes.exists_tokens with ⟨us, htokens, hterminals, hprevious⟩
  refine ⟨p, us, hleaf, htakes.closed hs, htokens, hterminals.trans hname.symm, ?_⟩
  rw [span_of_readRelation hs h, hprevious]

/-! ## Expressions -/

/-- How a condition is put together from what is read between two streams. -/
inductive Reading : Stream → Condition → Stream → Prop where
  | leaf {s s' : Stream} {c : Condition} : readRelation s = .ok (c, s') → Reading s c s'
  | not {s s' : Stream} {c : Condition} : s.kind = .keyword .not → Reading s.advance c s' →
      Reading s (.not c (s.current.span.through c.span)) s'
  | group {s s' : Stream} {c : Condition} : s.kind = .openParen → Reading s.advance c s' →
      s'.kind = .closeParen → Reading s c s'.advance
  | both {s s₁ s' : Stream} {l r : Condition} : Reading s l s₁ → s₁.kind = .keyword .and →
      Reading s₁.advance r s' → Reading s (both l r) s'
  | either {s s₁ s' : Stream} {l r : Condition} : Reading s l s₁ → s₁.kind = .keyword .or →
      Reading s₁.advance r s' → Reading s (either l r) s'

namespace Reading

mutual

theorem of_readOr {levels : Nat} {s s' : Stream} {c : Condition}
    (h : readOr levels s = .ok (c, s')) : Reading s c s' := by
  rw [readOr] at h
  rcases except_bind_eq_ok.mp h with ⟨⟨left, s₁⟩, hleft, hrest⟩
  exact of_readOrRest (of_readAnd hleft) hrest
termination_by (levels, 2)

/-- What is read as the first operands of a chain goes on with the others. -/
theorem of_readOrRest {levels : Nat} {left : Condition} {s s₁ s' : Stream} {c : Condition}
    (hleft : Reading s left s₁) (h : readOrRest levels left s₁ = .ok (c, s')) :
    Reading s c s' := by
  rw [readOrRest.eq_def] at h
  split at h
  · next hkind =>
    cases levels with
    | zero => cases h
    | succ levels =>
        rcases except_bind_eq_ok.mp h with ⟨⟨right, s₂⟩, hright, hmore⟩
        exact of_readOrRest (hleft.either hkind (of_readAnd hright)) hmore
  · cases h
    exact hleft
termination_by (levels, 0)

theorem of_readAnd {levels : Nat} {s s' : Stream} {c : Condition}
    (h : readAnd levels s = .ok (c, s')) : Reading s c s' := by
  rw [readAnd] at h
  rcases except_bind_eq_ok.mp h with ⟨⟨left, s₁⟩, hleft, hrest⟩
  exact of_readAndRest (of_readUnary hleft) hrest
termination_by (levels, 1)

theorem of_readAndRest {levels : Nat} {left : Condition} {s s₁ s' : Stream} {c : Condition}
    (hleft : Reading s left s₁) (h : readAndRest levels left s₁ = .ok (c, s')) :
    Reading s c s' := by
  rw [readAndRest.eq_def] at h
  split at h
  · next hkind =>
    cases levels with
    | zero => cases h
    | succ levels =>
        rcases except_bind_eq_ok.mp h with ⟨⟨right, s₂⟩, hright, hmore⟩
        exact of_readAndRest (hleft.both hkind (of_readUnary hright)) hmore
  · cases h
    exact hleft
termination_by (levels, 0)

theorem of_readUnary {levels : Nat} {s s' : Stream} {c : Condition}
    (h : readUnary levels s = .ok (c, s')) : Reading s c s' := by
  rw [readUnary.eq_def] at h
  split at h
  · next hkind =>
    cases levels with
    | zero => cases h
    | succ levels =>
        rcases except_bind_eq_ok.mp h with ⟨⟨inner, s₁⟩, hinner, hret⟩
        cases hret
        exact .not hkind (of_readUnary hinner)
  · next hkind =>
    cases levels with
    | zero => cases h
    | succ levels =>
        rcases except_bind_eq_ok.mp h with ⟨⟨inner, s₁⟩, hinner, hret⟩
        dsimp only at hret
        split at hret
        · next hclose =>
          cases hret
          exact .group hkind (of_readOr hinner) hclose
        · cases hret
  · exact .leaf h
termination_by (levels, 0)

end

/-- What is read as a whole text was put together from there to the end. -/
theorem of_readAll {levels : Nat} {s : Stream} {c : Condition} (h : readAll levels s = .ok c) :
    ∃ s', Reading s c s' ∧ s'.kind = .endOfInput := by
  rcases except_bind_eq_ok.mp h with ⟨⟨c', s'⟩, hread, hret⟩
  dsimp only at hret
  split at hret
  · next hend =>
    cases hret
    exact ⟨s', of_readOr hread, hend⟩
  · cases hret

end Reading

end Condition

end GameCondition
