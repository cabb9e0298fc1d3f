import GameCondition.Proofs.Condition.Likeness
import GameCondition.Proofs.Condition.Recognition

/-! # Limits only remove results

A reader with fewer levels left does what one with more levels does, unless it stops at a token that
would stand too deep (`readAll_agrees`). Each level is paid for by a token, so with a level for each
token that is left no reader stops so (`readAll_not_stopsDeep`).
-/

namespace GameCondition

/-! ## Computations that stop at the limit -/

/-- Whether a computation stops at a token that would stand too deep. -/
def StopsDeep {α : Type} (x : Except Failure α) : Prop :=
  ∃ span, x = .error (.tooDeep span)

/-- A computation stops at the limit in its first part or behind that. -/
theorem stopsDeep_bind {α β : Type} {x : Except Failure α} {f : α → Except Failure β} :
    StopsDeep (x >>= f) ↔ StopsDeep x ∨ ∃ a, x = .ok a ∧ StopsDeep (f a) := by
  cases x with
  | error e => simp [StopsDeep, bind, Except.bind]
  | ok a => simp [StopsDeep, bind, Except.bind]

theorem not_stopsDeep_ok {α : Type} (a : α) : ¬ StopsDeep (.ok a : Except Failure α) := by
  rintro ⟨span, h⟩
  cases h

/-- A failure for another cause is no stop at the limit. -/
theorem not_stopsDeep_fail {α : Type} (s : Stream) (cause : Token → Misfit) :
    ¬ StopsDeep (s.fail cause : Except Failure α) := by
  rintro ⟨span, h⟩
  cases h

/-- One computation does what another does, unless it stops at the limit. -/
def AgreesUnlessDeep {α : Type} (x x' : Except Failure α) : Prop :=
  x = x' ∨ StopsDeep x

namespace AgreesUnlessDeep

variable {α β : Type}

/-- A computation does what it does. -/
theorem refl (x : Except Failure α) : AgreesUnlessDeep x x :=
  .inl rfl

/-- A computation that stops at the limit agrees with any. -/
theorem failDeep (s : Stream) (x : Except Failure α) : AgreesUnlessDeep s.failDeep x :=
  .inr ⟨_, rfl⟩

/-- Computations agree if their parts do. -/
theorem bind {x x' : Except Failure α} {f f' : α → Except Failure β}
    (h : AgreesUnlessDeep x x') (hf : ∀ a, AgreesUnlessDeep (f a) (f' a)) :
    AgreesUnlessDeep (x >>= f) (x' >>= f') := by
  rcases h with rfl | hdeep
  · cases x with
    | error e => exact .inl rfl
    | ok a => exact hf a
  · exact .inr (stopsDeep_bind.mpr (.inl hdeep))

end AgreesUnlessDeep

/-! ## Tokens that are left -/

/-- The terminals that are taken are passed over. -/
theorem Takes.length_later {s s' : Stream} {ts : List Terminal} (h : Takes s ts s') :
    s.later.length = ts.length + s'.later.length := by
  have hlength := congrArg List.length h.ahead
  simp only [Stream.ahead, List.length_cons, List.length_append, List.length_map] at hlength
  omega

/-- Nothing that is taken comes back. -/
theorem Takes.length_later_le {s s' : Stream} {ts : List Terminal} (h : Takes s ts s') :
    s'.later.length ≤ s.later.length := by
  have hlength := h.length_later
  omega

/-- Before the end each step takes a token. -/
theorem Stream.Closed.length_later {s : Stream} (hs : s.Closed) (hkind : s.kind ≠ .endOfInput) :
    s.later.length = 1 + s.advance.later.length :=
  Takes.length_later (Takes.singleton_iff.mpr ⟨rfl, hs.later_ne_nil hkind, rfl⟩)

/-- Behind the first token of a text are all others. -/
theorem Stream.length_later_ofText (cs : List Char) :
    (ofText cs).later.length + 1 = (tokenize cs).length := by
  have hlength := congrArg List.length (ahead_ofText cs)
  rwa [ahead, terminals, List.length_cons, List.length_map, List.length_map] at hlength

namespace Condition

/-! ## Fewer levels -/

mutual

/-- With fewer levels a chain of `or` is read as it is with more, or stops at the limit. -/
theorem readOr_agrees {levels levels' : Nat} (hle : levels ≤ levels') (s : Stream) :
    AgreesUnlessDeep (readOr levels s) (readOr levels' s) := by
  rw [readOr, readOr]
  -- a chain is read on with the levels of its first operand, so the order of the two stays
  refine (readAnd_agrees hle s).bind ?_
  intro p
  exact readOrRest_agrees hle p.1 p.2
termination_by (levels, 2)

theorem readOrRest_agrees {levels levels' : Nat} (hle : levels ≤ levels') (left : Condition)
    (s : Stream) : AgreesUnlessDeep (readOrRest levels left s) (readOrRest levels' left s) := by
  rw [readOrRest.eq_def, readOrRest.eq_def levels']
  split
  · cases levels with
    -- without a level left only this reader stops, and the other may go on
    | zero => exact .failDeep s _
    | succ levels =>
        rcases exists_level (show 1 + levels ≤ levels' by omega) with ⟨levels', rfl, hless⟩
        refine (readAnd_agrees hless s.advance).bind ?_
        intro p
        exact readOrRest_agrees hless (either left p.1) p.2
  · exact .refl _
termination_by (levels, 0)

/-- With fewer levels a chain of `and` is read as it is with more, or stops at the limit. -/
theorem readAnd_agrees {levels levels' : Nat} (hle : levels ≤ levels') (s : Stream) :
    AgreesUnlessDeep (readAnd levels s) (readAnd levels' s) := by
  rw [readAnd, readAnd]
  refine (readUnary_agrees hle s).bind ?_
  intro p
  exact readAndRest_agrees hle p.1 p.2
termination_by (levels, 1)

theorem readAndRest_agrees {levels levels' : Nat} (hle : levels ≤ levels') (left : Condition)
    (s : Stream) : AgreesUnlessDeep (readAndRest levels left s) (readAndRest levels' left s) := by
  rw [readAndRest.eq_def, readAndRest.eq_def levels']
  split
  · cases levels with
    | zero => exact .failDeep s _
    | succ levels =>
        rcases exists_level (show 1 + levels ≤ levels' by omega) with ⟨levels', rfl, hless⟩
        refine (readUnary_agrees hless s.advance).bind ?_
        intro p
        exact readAndRest_agrees hless (both left p.1) p.2
  · exact .refl _
termination_by (levels, 0)

/-- With fewer levels an operand is read as it is with more, or stops at the limit. -/
theorem readUnary_agrees {levels levels' : Nat} (hle : levels ≤ levels') (s : Stream) :
    AgreesUnlessDeep (readUnary levels s) (readUnary levels' s) := by
  rw [readUnary.eq_def, readUnary.eq_def levels']
  split
  · cases levels with
    | zero => exact .failDeep s _
    | succ levels =>
        rcases exists_level (show 1 + levels ≤ levels' by omega) with ⟨levels', rfl, hless⟩
        refine (readUnary_agrees hless s.advance).bind ?_
        intro p
        exact .refl _
  · cases levels with
    | zero => exact .failDeep s _
    | succ levels =>
        rcases exists_level (show 1 + levels ≤ levels' by omega) with ⟨levels', rfl, hless⟩
        refine (readOr_agrees hless s.advance).bind ?_
        intro p
        exact .refl _
  · exact .refl _
termination_by (levels, 0)

end

/-- With fewer levels a text is read as it is with more, or stops at the limit. -/
theorem readAll_agrees {levels levels' : Nat} (hle : levels ≤ levels') (s : Stream) :
    AgreesUnlessDeep (readAll levels s) (readAll levels' s) := by
  refine (readOr_agrees hle s).bind ?_
  intro p
  exact .refl _

/-! ## A level for each token -/

/-- A relation takes no level. -/
theorem not_stopsDeep_readRelation (s : Stream) : ¬ StopsDeep (readRelation s) := by
  rintro ⟨span, hdeep⟩
  -- a reader is in step with itself, and in step they fail with misfits only
  have hself := (Likeness.same_streams s).readRelation
  rw [hdeep] at hself
  cases hself with
  | error hmisfit => cases hmisfit

mutual

/-- A level for each token that is left is enough for a chain of `or`. -/
theorem not_stopsDeep_readOr {levels : Nat} {s : Stream} (hs : s.Closed)
    (hlevels : s.later.length ≤ levels) : ¬ StopsDeep (readOr levels s) := by
  rw [readOr, stopsDeep_bind]
  rintro (hdeep | ⟨⟨left, s₁⟩, hleft, hdeep⟩)
  · exact not_stopsDeep_readAnd hs hlevels hdeep
  · rcases readAnd_sound hs hleft with ⟨_, -, -, htakes⟩
    exact not_stopsDeep_readOrRest left (htakes.closed hs) (htakes.length_later_le.trans hlevels)
      hdeep
termination_by (levels, 2)

theorem not_stopsDeep_readOrRest {levels : Nat} (left : Condition) {s : Stream} (hs : s.Closed)
    (hlevels : s.later.length ≤ levels) : ¬ StopsDeep (readOrRest levels left s) := by
  rw [readOrRest.eq_def]
  split
  · next hkind =>
    -- the word takes a token, which pays for the level
    have hpaid := hs.length_later (by simp [hkind])
    cases levels with
    | zero => omega
    | succ levels =>
        have hnext : s.advance.later.length ≤ levels := by omega
        rw [stopsDeep_bind]
        rintro (hdeep | ⟨⟨right, s₁⟩, hright, hdeep⟩)
        · exact not_stopsDeep_readAnd hs.advance hnext hdeep
        · rcases readAnd_sound hs.advance hright with ⟨_, -, -, htakes⟩
          exact not_stopsDeep_readOrRest _ (htakes.closed hs.advance)
            (htakes.length_later_le.trans hnext) hdeep
  · exact not_stopsDeep_ok _
termination_by (levels, 0)

/-- A level for each token that is left is enough for a chain of `and`. -/
theorem not_stopsDeep_readAnd {levels : Nat} {s : Stream} (hs : s.Closed)
    (hlevels : s.later.length ≤ levels) : ¬ StopsDeep (readAnd levels s) := by
  rw [readAnd, stopsDeep_bind]
  rintro (hdeep | ⟨⟨left, s₁⟩, hleft, hdeep⟩)
  · exact not_stopsDeep_readUnary hs hlevels hdeep
  · rcases readUnary_sound hs hleft with ⟨_, -, -, htakes⟩
    exact not_stopsDeep_readAndRest left (htakes.closed hs) (htakes.length_later_le.trans hlevels)
      hdeep
termination_by (levels, 1)

theorem not_stopsDeep_readAndRest {levels : Nat} (left : Condition) {s : Stream} (hs : s.Closed)
    (hlevels : s.later.length ≤ levels) : ¬ StopsDeep (readAndRest levels left s) := by
  rw [readAndRest.eq_def]
  split
  · next hkind =>
    have hpaid := hs.length_later (by simp [hkind])
    cases levels with
    | zero => omega
    | succ levels =>
        have hnext : s.advance.later.length ≤ levels := by omega
        rw [stopsDeep_bind]
        rintro (hdeep | ⟨⟨right, s₁⟩, hright, hdeep⟩)
        · exact not_stopsDeep_readUnary hs.advance hnext hdeep
        · rcases readUnary_sound hs.advance hright with ⟨_, -, -, htakes⟩
          exact not_stopsDeep_readAndRest _ (htakes.closed hs.advance)
            (htakes.length_later_le.trans hnext) hdeep
  · exact not_stopsDeep_ok _
termination_by (levels, 0)

/-- A level for each token that is left is enough for an operand. -/
theorem not_stopsDeep_readUnary {levels : Nat} {s : Stream} (hs : s.Closed)
    (hlevels : s.later.length ≤ levels) : ¬ StopsDeep (readUnary levels s) := by
  rw [readUnary.eq_def]
  split
  · next hkind =>
    -- a level is paid for by the token that enters it
    have hpaid := hs.length_later (by simp [hkind])
    cases levels with
    | zero => omega
    | succ levels =>
        rw [stopsDeep_bind]
        rintro (hdeep | ⟨⟨inner, s₁⟩, -, hdeep⟩)
        · exact not_stopsDeep_readUnary hs.advance (by omega) hdeep
        · exact not_stopsDeep_ok _ hdeep
  · next hkind =>
    have hpaid := hs.length_later (by simp [hkind])
    cases levels with
    | zero => omega
    | succ levels =>
        rw [stopsDeep_bind]
        rintro (hdeep | ⟨⟨inner, s₁⟩, -, hdeep⟩)
        · exact not_stopsDeep_readOr hs.advance (by omega) hdeep
        · dsimp only at hdeep
          split at hdeep
          · exact not_stopsDeep_ok _ hdeep
          · exact not_stopsDeep_fail s₁ _ hdeep
  · exact not_stopsDeep_readRelation s
termination_by (levels, 0)

end

/-- A level for each token that is left is enough for a text. -/
theorem not_stopsDeep_readAll {levels : Nat} {s : Stream} (hs : s.Closed)
    (hlevels : s.later.length ≤ levels) : ¬ StopsDeep (readAll levels s) := by
  rw [readAll, stopsDeep_bind]
  rintro (hdeep | ⟨⟨c, s₁⟩, -, hdeep⟩)
  · exact not_stopsDeep_readOr hs hlevels hdeep
  · dsimp only at hdeep
    split at hdeep
    · exact not_stopsDeep_ok _ hdeep
    · exact not_stopsDeep_fail s₁ _ hdeep

/-! ## Whole texts -/

/-- The limit shows in a diagnostic only where a reading stops at it. -/
theorem read_eq_of_readAll_eq {limit limit' : Nat} {source : String}
    (h : readAll limit (.ofText source.toList) = readAll limit' (.ofText source.toList))
    (hdeep : ¬ StopsDeep (readAll limit (.ofText source.toList))) :
    read limit source = read limit' source := by
  rw [read, read, ← h]
  cases hread : readAll limit (.ofText source.toList) with
  | ok c => rfl
  | error e =>
      cases e with
      | misfit cause span => rfl
      | tooDeep span => exact absurd ⟨span, hread⟩ hdeep

/-- Under a tighter limit a text is read as it is under a looser one, with the same places or the
same diagnostic, or is refused as too deep. With a level for each token before the end it is never
refused so. -/
theorem read_limit {limit limit' : Nat} (hle : limit ≤ limit') (source : String) :
    (read limit source = read limit' source ∨
      ∃ span, read limit source = .error (.tooDeep limit span)) ∧
    ((tokenize source.toList).length ≤ limit + 1 →
      ∀ d, read limit source = .error d → ∀ n, d.code ≠ .nestingLimit n) := by
  constructor
  · by_cases hdeep : StopsDeep (readAll limit (.ofText source.toList))
    · rcases hdeep with ⟨span, hdeep⟩
      exact .inr ⟨span, by rw [read, hdeep]; rfl⟩
    · rcases readAll_agrees hle (.ofText source.toList) with hsame | hdeep'
      · exact .inl (read_eq_of_readAll_eq hsame hdeep)
      · exact absurd hdeep' hdeep
  · intro htokens d hread n hcode
    rw [← Stream.length_later_ofText] at htokens
    refine not_stopsDeep_readAll (Stream.closed_ofText source.toList)
      (Nat.le_of_succ_le_succ htokens) ?_
    -- no other failure has the code of a limit
    unfold read at hread
    revert hread
    cases hall : readAll limit (.ofText source.toList) with
    | ok c =>
        intro hread
        cases hread
    | error e =>
        intro hread
        cases hread
        cases e with
        | misfit cause span => cases hcode
        | tooDeep span => exact ⟨span, rfl⟩

/-- A text whose levels are enough fails for want of an operand, whatever the limit. -/
theorem read_limit_of_unfinished :
    4 ≤ 64 ∧ (tokenize "not not a is".toList).length ≤ 4 + 1 ∧
    (read 4 "not not a is" = read 64 "not not a is" ∨
      ∃ span, read 4 "not not a is" = .error (.tooDeep 4 span)) ∧
    ∃ d, read 4 "not not a is" = .error d ∧ ∀ n, d.code ≠ .nestingLimit n := by
  have hle : 4 ≤ 64 := by decide
  have htokens : (tokenize "not not a is".toList).length ≤ 4 + 1 := by decide +kernel
  have hfails : (readAll 4 (.ofText "not not a is".toList)).isOk = false := by decide +kernel
  rcases read_limit hle "not not a is" with ⟨hagree, hnever⟩
  refine ⟨hle, htokens, hagree, ?_⟩
  cases hread : read 4 "not not a is" with
  | error d => exact ⟨d, rfl, hnever htokens d hread⟩
  | ok c =>
      rw [read_eq_ok_iff.mp hread] at hfails
      cases hfails

end Condition

end GameCondition
