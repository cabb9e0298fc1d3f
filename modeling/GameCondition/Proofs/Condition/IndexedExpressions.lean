import GameCondition.Proofs.Condition.IndexedRelations
import GameCondition.Proofs.Condition.Limits

/-! # Expressions read by index

Each operand of a chain, each negation and each pair of parentheses is a level, which a reader by
index enters with one token and leaves when it is done. So the levels that are left to the reader of
streams are those of the limit without the ones that were entered, and a reader that succeeds stands
as deep as before (`follows_orWithin` and its companions). What it has read takes up a token at least
(`Condition.Reading.advances`).

Hence no reader gets stuck on the tokens of a text (`isBalanced_readers`), nor does the scanner, and
reading by index is reading (`read_not_stuck`).
-/

namespace GameCondition

/-! ## Progress -/

/-- What is put together from two streams has taken up a token at least between them. -/
theorem Condition.Reading.advances {s s' : Stream} {c : Condition} (h : Condition.Reading s c s')
    (hs : s.Closed) : s'.Closed ∧ s'.later.length < s.later.length := by
  -- by induction on what was read; each step takes a token at least
  induction h with
  | leaf h =>
    obtain ⟨p, us, -, hs', htokens, -⟩ := exists_tokens_of_readRelation hs h
    refine ⟨hs', ?_⟩
    have hlength := congrArg List.length htokens
    simp only [Stream.tokens, List.length_cons, List.length_append] at hlength
    omega
  | not hkind _ ih =>
    obtain ⟨hs', hlt⟩ := ih hs.advance
    have hlength := hs.length_later (by simp [hkind])
    exact ⟨hs', by omega⟩
  | @group s s' c hkind _ hclose ih =>
    obtain ⟨hs', hlt⟩ := ih hs.advance
    have hlength := hs.length_later (by simp [hkind])
    have hle := length_later_advance_le s'
    exact ⟨hs'.advance, by omega⟩
  | both _ hkind _ ihl ihr =>
    obtain ⟨hs₁, hlt₁⟩ := ihl hs
    obtain ⟨hs', hlt⟩ := ihr hs₁.advance
    have hlength := hs₁.length_later (by simp [hkind])
    exact ⟨hs', by omega⟩
  | either _ hkind _ ihl ihr =>
    obtain ⟨hs₁, hlt₁⟩ := ihl hs
    obtain ⟨hs', hlt⟩ := ihr hs₁.advance
    have hlength := hs₁.length_later (by simp [hkind])
    exact ⟨hs', by omega⟩

namespace Indexed

variable {α : Type} {ts : List Token} {s : Stream} {st : State} {depth depth₁ limit : Nat}

/-! ## Levels -/

namespace Follows

theorem leave {n : Nat} (h : Stands ts depth₁ st s) (hdepth : depth₁ = depth + n) (a : α) :
    Follows ts depth st (outcome (do leave n; return a) st) (.ok (a, s)) := by
  have hst := h.depth_eq
  have hleft : st.depth - n = depth := by omega
  have hle : depth ≤ st.depth := by omega
  rw [outcome_bind_of_ok (outcome_leave (by omega)), hleft]
  refine .ok ⟨h.stream, rfl⟩ ⟨passes_moveTo h.stream.lt_length ?_, Nat.le_refl _, ?_⟩
  · show depth + st.index ≤ st.depth + st.index + 1
    omega
  · show depth + st.index ≤ st.depth + st.index
    omega

theorem tooDeep {left : Nat} (h : Stands ts depth₁ st s) (hlimit : limit ≤ depth₁)
    (f : {n : Nat // n < left} → Run α) :
    Follows ts depth st (outcome (descend ts limit left s.current.span >>= f) st) s.failDeep := by
  have hdeep : limit ≤ st.depth := h.depth_eq ▸ hlimit
  rw [outcome_bind_of_error (outcome_descend_of_tooDeep hdeep)]
  refine .error (passes_moveTo h.stream.lt_length ?_)
  show st.depth + 1 + st.index ≤ st.depth + st.index + 1
  omega

/-- A level is entered and a token taken, which pays for it. -/
theorem descend {left : Nat} {f : {n : Nat // n < left} → Run α}
    {r : Except Failure (α × Stream)} (h : Stands ts depth₁ st s) (hkind : s.kind ≠ .endOfInput)
    (hlimit : depth₁ < limit) (hleft : ts.length - st.index ≤ left)
    (hf : ∀ n st', Stands ts (depth₁ + 1) st' s.advance → ts.length - st'.index ≤ n.val →
      Follows ts depth st' (outcome (f n) st') r) :
    Follows ts depth st (outcome (descend ts limit left s.current.span >>= f) st) r := by
  have hlater := h.stream.closed.length_later hkind
  have hlength := h.stream.length_eq
  have hnext : st.index + 1 < ts.length := by omega
  have hshallow : st.depth < limit := h.depth_eq ▸ hlimit
  have hdeeper : Stands ts (depth₁ + 1) st.deeper s := ⟨h.stream, congrArg (· + 1) h.depth_eq⟩
  -- this is not the end, so the token is taken in fact
  obtain ⟨n, hdescend, hn⟩ := outcome_descend hshallow hnext hleft
  rw [outcome_bind_of_ok hdescend]
  refine (hf n _ hdeeper.onward hn.le).of_leads ?_
  rw [State.onward, State.deeper, if_pos hnext]
  refine ⟨⟨[⟨st.index + 1, st.depth + 1⟩, ⟨st.index, st.depth + 1⟩], rfl, ?_⟩, Nat.le_succ _, ?_⟩
  · simp only [List.forall_mem_cons, List.not_mem_nil, false_implies, implies_true, and_true]
    omega
  · show st.depth + 1 + st.index ≤ st.depth + (st.index + 1)
    omega

end Follows

/-! ## Expressions -/

mutual

theorem follows_expressionWithin {ts : List Token} {limit levels left depth : Nat} {st : State}
    {s : Stream} (h : Stands ts depth st s) (hlevels : levels = limit - depth)
    (hleft : ts.length - st.index ≤ left) :
    Follows ts depth st (outcome (expressionWithin ts limit left) st)
      (Condition.readOr levels s) := by
  rw [expressionWithin]
  exact follows_orWithin h hlevels hleft
termination_by (levels, 3)

theorem follows_orWithin {ts : List Token} {limit levels left depth : Nat} {st : State} {s : Stream}
    (h : Stands ts depth st s) (hlevels : levels = limit - depth)
    (hleft : ts.length - st.index ≤ left) :
    Follows ts depth st (outcome (orWithin ts limit left) st) (Condition.readOr levels s) := by
  rw [orWithin, Condition.readOr]
  refine (follows_andWithin h hlevels hleft).bind_onward ?_
  intro c st₁ s₁ h₁ hle
  exact follows_orRestWithin c h₁ rfl hlevels (by omega)
termination_by (levels, 2)

theorem follows_orRestWithin {ts : List Token} {limit levels left depth depth₁ folds : Nat}
    {st : State} {s : Stream} (c : Condition) (h : Stands ts depth₁ st s)
    (hfolds : depth₁ = depth + folds) (hlevels : levels = limit - depth₁)
    (hleft : ts.length - st.index ≤ left) :
    Follows ts depth st (outcome (orRestWithin ts limit c folds left) st)
      (Condition.readOrRest levels c s) := by
  rw [orRestWithin, outcome_bind_of_ok (outcome_current h.stream), Condition.readOrRest.eq_def,
    Stream.kind]
  split
  · next hkind =>
    cases levels with
    | zero => exact .tooDeep h (by omega) _
    | succ levels =>
      refine .descend h (by simp [Stream.kind, hkind]) (by omega) hleft ?_
      intro n st₁ h₁ hleft₁
      -- the operand ends as deep as it began, that is one level deeper than the one before it
      refine (follows_andWithin h₁ (by omega) hleft₁).bind_onward ?_
      intro right st₂ s₂ h₂ hle
      exact follows_orRestWithin _ h₂ (by omega) (by omega) (by omega)
  · exact .leave h hfolds c
termination_by (levels, 0)

theorem follows_andWithin {ts : List Token} {limit levels left depth : Nat} {st : State}
    {s : Stream} (h : Stands ts depth st s) (hlevels : levels = limit - depth)
    (hleft : ts.length - st.index ≤ left) :
    Follows ts depth st (outcome (andWithin ts limit left) st) (Condition.readAnd levels s) := by
  rw [andWithin, Condition.readAnd]
  refine (follows_unaryWithin h hlevels hleft).bind_onward ?_
  intro c st₁ s₁ h₁ hle
  exact follows_andRestWithin c h₁ rfl hlevels (by omega)
termination_by (levels, 1)

theorem follows_andRestWithin {ts : List Token} {limit levels left depth depth₁ folds : Nat}
    {st : State} {s : Stream} (c : Condition) (h : Stands ts depth₁ st s)
    (hfolds : depth₁ = depth + folds) (hlevels : levels = limit - depth₁)
    (hleft : ts.length - st.index ≤ left) :
    Follows ts depth st (outcome (andRestWithin ts limit c folds left) st)
      (Condition.readAndRest levels c s) := by
  rw [andRestWithin, outcome_bind_of_ok (outcome_current h.stream), Condition.readAndRest.eq_def,
    Stream.kind]
  split
  · next hkind =>
    cases levels with
    | zero => exact .tooDeep h (by omega) _
    | succ levels =>
      refine .descend h (by simp [Stream.kind, hkind]) (by omega) hleft ?_
      intro n st₁ h₁ hleft₁
      refine (follows_unaryWithin h₁ (by omega) hleft₁).bind_onward ?_
      intro right st₂ s₂ h₂ hle
      exact follows_andRestWithin _ h₂ (by omega) (by omega) (by omega)
  · exact .leave h hfolds c
termination_by (levels, 0)

theorem follows_unaryWithin {ts : List Token} {limit levels left depth : Nat} {st : State}
    {s : Stream} (h : Stands ts depth st s) (hlevels : levels = limit - depth)
    (hleft : ts.length - st.index ≤ left) :
    Follows ts depth st (outcome (unaryWithin ts limit left) st)
      (Condition.readUnary levels s) := by
  have hkind : s.kind = s.current.kind := rfl
  rw [unaryWithin, outcome_bind_of_ok (outcome_current h.stream), Condition.readUnary.eq_def, hkind]
  cases hcurrent : s.current.kind with
  | keyword word =>
    cases word with
    | not =>
      cases levels with
      | zero => exact .tooDeep h (by omega) _
      | succ levels =>
        -- a level is entered and the token passed, so that fewer tokens are left
        refine .descend h (by simp [hkind, hcurrent]) (by omega) hleft ?_
        intro n st₁ h₁ hleft₁
        refine (follows_unaryWithin h₁ (by omega) hleft₁).bind ?_
        intro inner st₂ s₂ h₂
        exact .leave h₂ rfl _
    | _ => exact follows_readRelation h
  | openParen =>
    cases levels with
    | zero => exact .tooDeep h (by omega) _
    | succ levels =>
      refine .descend h (by simp [hkind, hcurrent]) (by omega) hleft ?_
      intro n st₁ h₁ hleft₁
      refine (follows_expressionWithin h₁ (by omega) hleft₁).bind ?_
      intro inner st₂ s₂ h₂
      rw [outcome_bind_of_ok (outcome_current h₂.stream)]
      dsimp only
      rw [Stream.kind]
      split
      · exact .onward (.leave h₂.onward rfl inner)
      · exact .fail h₂ _
  | _ => exact follows_readRelation h
termination_by (levels, 0)

end

/-- The reader of a whole text does what that of its stream does. -/
theorem outcome_readAll (h : Stands ts 0 st s) (limit : Nat) :
    ∃ st', outcome (readAll ts limit) st = some (Condition.readAll limit s, st') ∧
      Passes ts st st' := by
  have hread : Follows ts 0 st (outcome (readExpression ts limit) st)
      (Condition.readOr limit s) := follows_expressionWithin h rfl (Nat.le_refl _)
  rw [readAll, outcome_bind, Condition.readAll]
  generalize outcome (readExpression ts limit) st = x at hread
  generalize Condition.readOr limit s = r at hread
  cases hread with
  | error hpasses => exact ⟨_, rfl, hpasses⟩
  | @ok c st' s' hs hleads =>
    refine ⟨st', ?_, hleads.passes⟩
    show outcome (_ >>= _) st' = _
    rw [outcome_bind_of_ok (outcome_current hs.stream)]
    show outcome (if s'.kind = .endOfInput then _ else _) st' = some (if _ then _ else _, st')
    split
    · rfl
    · exact outcome_fail hs.stream _

/-! ## Balance -/

/-- From every token and any depth a run has a result. Until then it stands at tokens, and where it
succeeds it has gone on by one at least and is as many levels deep as before. -/
def IsBalanced (ts : List Token) (m : Run Condition) : Prop :=
  ∀ st : State, st.index < ts.length → ∃ x st', outcome m st = some (x, st') ∧ Passes ts st st' ∧
    ∀ c, x = .ok c → st'.depth = st.depth ∧ st.index < st'.index ∧ st'.index < ts.length

/-- What follows the reading of a condition is balanced. -/
theorem isBalanced_of_follows {cs : List Char} {m : Run Condition}
    (hm : ∀ st s, Stands (tokenize cs) st.depth st s → ∃ r,
      Follows (tokenize cs) st.depth st (outcome m st) r ∧
        ∀ c s', r = .ok (c, s') → Condition.Reading s c s') : IsBalanced (tokenize cs) m := by
  intro st hst
  obtain ⟨s, hs⟩ := Stream.exists_standsAt cs hst
  obtain ⟨r, hfollows, hr⟩ := hm st s ⟨hs, rfl⟩
  generalize outcome m st = x at hfollows
  cases hfollows with
  | @error e st' hpasses =>
    refine ⟨.error e, st', rfl, hpasses, ?_⟩
    intro c hc
    cases hc
  | @ok c st' s' hs' hleads =>
    refine ⟨.ok c, st', rfl, hleads.passes, ?_⟩
    rintro c' -
    -- fewer tokens are left than before, so the index has grown
    obtain ⟨-, hlt⟩ := (hr c s' rfl).advances hs.closed
    have hlength := hs.length_eq
    have hlength' := hs'.stream.length_eq
    exact ⟨hs'.depth_eq, by omega, by omega⟩

/-- The readers of conditions are balanced. -/
theorem isBalanced_readers (cs : List Char) (limit : Nat) :
    ∀ m ∈ [readExpression (tokenize cs) limit, readOr (tokenize cs) limit,
      readAnd (tokenize cs) limit, readUnary (tokenize cs) limit, readRelation (tokenize cs)],
      IsBalanced (tokenize cs) m := by
  simp only [List.forall_mem_cons, List.not_mem_nil, false_implies, implies_true, and_true]
  refine ⟨isBalanced_of_follows ?expression, isBalanced_of_follows ?or, isBalanced_of_follows ?and,
    isBalanced_of_follows ?unary, isBalanced_of_follows ?relation⟩
  case expression =>
    intro st s h
    exact ⟨_, follows_expressionWithin h rfl (Nat.le_refl _), fun c s' => .of_readOr⟩
  case or =>
    intro st s h
    exact ⟨_, follows_orWithin h rfl (Nat.le_refl _), fun c s' => .of_readOr⟩
  case and =>
    intro st s h
    exact ⟨_, follows_andWithin h rfl (Nat.le_refl _), fun c s' => .of_readAnd⟩
  case unary =>
    intro st s h
    exact ⟨_, follows_unaryWithin h rfl (Nat.le_refl _), fun c s' => .of_readUnary⟩
  case relation =>
    intro st s h
    exact ⟨_, follows_readRelation h, fun c s' => .leaf⟩

/-! ## Whole texts -/

/-- Reading by index gives what reading does, and stands at tokens all the time. It is never more
levels deep than it has passed tokens, but for the one that it is about to take. -/
theorem read_eq (limit : Nat) (source : String) : ∃ trail,
    read limit source = some (Condition.read limit source, trail) ∧
      ∀ p ∈ trail, p.index < (tokenize source.toList).length ∧ p.depth ≤ p.index + 1 := by
  obtain ⟨k, hscan⟩ := Scan.run_tokens source.toList
  have hs := Stream.standsAt_ofText source.toList
  have hstart : Stands (tokenize source.toList) 0 .start (.ofText source.toList) := ⟨hs, rfl⟩
  obtain ⟨st', houtcome, passed, htrail, hpassed⟩ := outcome_readAll hstart limit
  refine ⟨st'.trail, ?_, ?_⟩
  · rw [read, hscan]
    dsimp only [Option.bind_eq_bind, Option.bind_some]
    rw [houtcome]
    rfl
  · intro p hp
    rw [htrail] at hp
    rcases List.mem_append.mp hp with hp | hp
    · obtain ⟨hindex, hdepth⟩ := hpassed p hp
      change p.depth + 0 ≤ 0 + p.index + 1 at hdepth
      exact ⟨hindex, by omega⟩
    · obtain rfl := List.mem_singleton.mp hp
      exact ⟨hs.lt_length, Nat.zero_le _⟩

/-- No text and no limit leave a reader stuck. All cuts that the scanner makes are between two
characters. The index is always that of a token, no more levels are left than were entered, and
each round of a loop or a recursion leaves fewer tokens; so reading by index comes to an end, with
what reading gives. A reader that succeeds has gone on by a token at least, and is as many levels
deep as before. -/
theorem read_not_stuck (limit : Nat) (source : String) :
    (∃ k, (Scan.tokens source.toList).run (.start source.toList) =
      some (tokenize source.toList, k)) ∧
    (∃ trail, read limit source = some (Condition.read limit source, trail) ∧
      ∀ p ∈ trail, p.index < (tokenize source.toList).length ∧ p.depth ≤ p.index + 1) ∧
    ∀ m ∈ [readExpression (tokenize source.toList) limit, readOr (tokenize source.toList) limit,
      readAnd (tokenize source.toList) limit, readUnary (tokenize source.toList) limit,
      readRelation (tokenize source.toList)], IsBalanced (tokenize source.toList) m :=
  ⟨Scan.run_tokens source.toList, read_eq limit source,
    isBalanced_readers source.toList limit⟩

end Indexed

end GameCondition
