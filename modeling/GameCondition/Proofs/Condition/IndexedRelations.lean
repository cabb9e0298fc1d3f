import GameCondition.Proofs.Condition.Indexing
import GameCondition.Proofs.Condition.Readings

/-! # Relations read by index

A stream stands at an index if the tokens from there on are its own (`Stream.StandsAt`). From there
a reader by index does what the reader of streams does (`Follows`): both fail, or both come to stand
at one place. On the way each standing is at a token, and no more levels are entered than tokens are
passed, but for one (`Passes`). This holds of each step and so of the readers of relations
(`follows_readRelation`).
-/

namespace GameCondition

/-! ## Streams at an index -/

/-- The tokens from an index on are those of a stream that ends, and the one before it is that which
the stream remembers. -/
structure Stream.StandsAt (s : Stream) (ts : List Token) (i : Nat) : Prop where
  closed : s.Closed
  tokens : ts.drop i = s.tokens
  previous : (ts[i - 1]?).map Token.span = some s.previous

namespace Stream.StandsAt

variable {ts : List Token} {s : Stream} {i : Nat}

/-- The token at the index is the current one. -/
theorem current (h : s.StandsAt ts i) : ts[i]? = some s.current := by
  have hzero := congrArg (·[0]?) h.tokens
  simpa [Stream.tokens] using hzero

/-- The tokens behind the index are those after the current one. -/
theorem later (h : s.StandsAt ts i) : ts.drop (i + 1) = s.later := by
  rw [← List.tail_drop, h.tokens]
  rfl

/-- The index and what is left make up the tokens. -/
theorem length_eq (h : s.StandsAt ts i) : ts.length = i + 1 + s.later.length := by
  have hlength := congrArg List.length h.tokens
  rw [List.length_drop, Stream.tokens, List.length_cons] at hlength
  omega

/-- A stream stands at a token. -/
theorem lt_length (h : s.StandsAt ts i) : i < ts.length := by
  have hlength := h.length_eq
  omega

/-- From the index on there are the current token and those after it. -/
theorem rest_eq (h : s.StandsAt ts i) : ts.length - i = s.later.length + 1 := by
  have hlength := h.length_eq
  omega

/-- The index after the current one, or the last, has the kind that the stream sees next. -/
theorem nextKind (h : s.StandsAt ts i) :
    (ts[min (i + 1) (ts.length - 1)]?).map Token.kind = some s.nextKind := by
  have hlength := h.length_eq
  have hlater := h.later
  unfold Stream.nextKind
  cases hl : s.later with
  | nil =>
    rw [hl, List.length_nil] at hlength
    -- the last token is looked up again, as the stream repeats its own
    have hmin : min (i + 1) (ts.length - 1) = i := by omega
    rw [hmin, h.current]
    rfl
  | cons t us =>
    rw [hl, List.length_cons] at hlength
    have hmin : min (i + 1) (ts.length - 1) = i + 1 := by omega
    -- the first of the later tokens is the one at the next index
    have hzero := congrArg (·[0]?) (hlater.trans hl)
    simp only [List.getElem?_drop, Nat.add_zero, List.getElem?_cons_zero] at hzero
    rw [hmin, hzero]
    rfl

/-- A stream goes on as an index does, and both stay at the last token. -/
theorem advance (h : s.StandsAt ts i) :
    s.advance.StandsAt ts (if i + 1 < ts.length then i + 1 else i) := by
  have hlength := h.length_eq
  have hlater := h.later
  have hclosed := h.closed.advance
  unfold Stream.advance at hclosed ⊢
  cases hl : s.later with
  | nil =>
    rw [hl, List.length_nil] at hlength
    -- at the last token neither moves
    rw [if_neg (by omega)]
    exact h
  | cons t us =>
    rw [hl] at hclosed
    rw [hl, List.length_cons] at hlength
    rw [if_pos (by omega)]
    refine ⟨hclosed, hlater.trans hl, ?_⟩
    rw [Nat.add_sub_cancel, h.current]
    rfl

end Stream.StandsAt

/-- The stream of a text stands at its first token. -/
theorem Stream.standsAt_ofText (cs : List Char) : (ofText cs).StandsAt (tokenize cs) 0 := by
  refine ⟨closed_ofText cs, (tokens_ofText cs).symm, ?_⟩
  obtain ⟨init, hend, -⟩ := (tiles_tokenize cs).ended
  cases hts : tokenize cs with
  | nil => simp [hts] at hend
  | cons t ts =>
    rw [ofText, hts]
    rfl

/-- At each token of a text a stream stands. -/
theorem Stream.exists_standsAt (cs : List Char) {i : Nat} (hi : i < (tokenize cs).length) :
    ∃ s : Stream, s.StandsAt (tokenize cs) i := by
  induction i with
  | zero => exact ⟨.ofText cs, standsAt_ofText cs⟩
  | succ i ih =>
    -- the stream at the index before is advanced
    obtain ⟨s, hs⟩ := ih (Nat.lt_of_succ_lt hi)
    refine ⟨s.advance, ?_⟩
    have hadvance := hs.advance
    rwa [if_pos hi] at hadvance

namespace Indexed

variable {α β : Type} {ts : List Token} {s s' : Stream} {st st' st₁ : State}

/-- The token that is looked up is that of the stream. -/
theorem outcome_current (hs : s.StandsAt ts st.index) :
    outcome (current ts) st = some (.ok s.current, st) := by
  rw [current, outcome_get_bind, outcome_require, hs.current]
  rfl

/-- The next token that is looked up is that of the stream. -/
theorem outcome_nextKind (hs : s.StandsAt ts st.index) :
    outcome (nextKind ts) st = some (.ok s.nextKind, st) := by
  obtain ⟨t, ht, hkind⟩ := Option.map_eq_some_iff.mp hs.nextKind
  rw [nextKind, outcome_get_bind, outcome_require_bind ht, hkind, outcome_pure]

/-- The stretch that is looked up is that of the token taken last. -/
theorem outcome_previous (hs : s.StandsAt ts st.index) :
    outcome (previous ts) st = some (.ok s.previous, st) := by
  obtain ⟨t, ht, hspan⟩ := Option.map_eq_some_iff.mp hs.previous
  rw [previous, outcome_get_bind, outcome_require_bind ht, hspan, outcome_pure]

theorem standsAt_onward (hs : s.StandsAt ts st.index) :
    s.advance.StandsAt ts (st.onward ts).index := by
  rw [index_onward]
  exact hs.advance

/-- A run fails with the cause and the place with which the stream fails. -/
theorem outcome_fail (hs : s.StandsAt ts st.index) (cause : Token → Misfit) :
    outcome (fail ts cause : Run α) st =
      some (.error (.misfit (cause s.current) s.current.span), st) := by
  rw [fail, outcome_bind_of_ok (outcome_current hs)]
  rfl

/-! ## Standings -/

/-- Every standing in between is at a token, and for each level but one that was entered until then
a token was passed. -/
def Passes (ts : List Token) (st st' : State) : Prop :=
  ∃ passed, st'.trail = passed ++ st.trail ∧
    ∀ p ∈ passed, p.index < ts.length ∧ p.depth + st.index ≤ st.depth + p.index + 1

/-- Besides, for each level that was entered and not left a token was passed. -/
structure Leads (ts : List Token) (st st' : State) : Prop where
  passes : Passes ts st st'
  index_le : st.index ≤ st'.index
  paid : st'.depth + st.index ≤ st.depth + st'.index

/-- Nothing is passed where nothing is done. -/
theorem Passes.refl (ts : List Token) (st : State) : Passes ts st st :=
  ⟨[], rfl, List.forall_mem_nil _⟩

/-- Where nothing is done, nothing is owed. -/
theorem Leads.refl (ts : List Token) (st : State) : Leads ts st st :=
  ⟨.refl ts st, Nat.le_refl _, Nat.le_refl _⟩

/-- What is passed behind a way that owes nothing is passed from its start on. -/
theorem Leads.passes_trans (h : Leads ts st st₁) (h₁ : Passes ts st₁ st') : Passes ts st st' := by
  obtain ⟨passed, htrail, hpassed⟩ := h.passes
  obtain ⟨passed₁, htrail₁, hpassed₁⟩ := h₁
  refine ⟨passed₁ ++ passed, by rw [htrail₁, htrail, List.append_assoc], ?_⟩
  intro p hp
  rcases List.mem_append.mp hp with hp | hp
  · obtain ⟨hindex, hdepth⟩ := hpassed₁ p hp
    -- what was entered on the first way is paid for, so that the second may owe a level again
    have hpaid := h.paid
    exact ⟨hindex, by omega⟩
  · exact hpassed p hp

/-- One way after the other. -/
theorem Leads.trans (h : Leads ts st st₁) (h₁ : Leads ts st₁ st') : Leads ts st st' := by
  have hpaid := h.paid
  have hpaid₁ := h₁.paid
  exact ⟨h.passes_trans h₁.passes, h.index_le.trans h₁.index_le, by omega⟩

/-- A single standing is passed if it is at a token and its level is paid for. -/
theorem passes_moveTo {p : Standing} (hindex : p.index < ts.length)
    (hdepth : p.depth + st.index ≤ st.depth + p.index + 1) : Passes ts st ⟨p, p :: st.trail⟩ := by
  refine ⟨[p], rfl, ?_⟩
  rw [List.forall_mem_singleton]
  exact ⟨hindex, hdepth⟩

/-- A step to the next token leads there, as does staying at the last. -/
theorem leads_onward (ts : List Token) (st : State) : Leads ts st (st.onward ts) := by
  rw [State.onward]
  split
  · next hlt =>
    refine ⟨passes_moveTo hlt ?_, Nat.le_succ _, ?_⟩
    · show st.depth + st.index ≤ st.depth + (st.index + 1) + 1
      omega
    · show st.depth + st.index ≤ st.depth + (st.index + 1)
      omega
  · exact .refl ts st

/-- A reader by index stands where a stream does, so many levels deep. -/
structure Stands (ts : List Token) (depth : Nat) (st : State) (s : Stream) : Prop where
  stream : s.StandsAt ts st.index
  depth_eq : st.depth = depth

variable {depth depth₁ : Nat}

theorem Stands.onward (h : Stands ts depth st s) : Stands ts depth (st.onward ts) s.advance :=
  ⟨standsAt_onward h.stream, (depth_onward ts st).trans h.depth_eq⟩

/-- A run does what the reading of a stream does, and ends so many levels deep. -/
inductive Follows (ts : List Token) (depth : Nat) (st : State) :
    Option (Except Failure α × State) → Except Failure (α × Stream) → Prop where
  | ok {a : α} {st' : State} {s' : Stream} : Stands ts depth st' s' → Leads ts st st' →
      Follows ts depth st (some (.ok a, st')) (.ok (a, s'))
  | error {e : Failure} {st' : State} : Passes ts st st' →
      Follows ts depth st (some (.error e, st')) (.error e)

namespace Follows

variable {x : Option (Except Failure α × State)} {r : Except Failure (α × Stream)}

/-- What is followed behind a way is followed from its start on. -/
theorem of_leads (h : Leads ts st st₁) (hx : Follows ts depth st₁ x r) :
    Follows ts depth st x r := by
  cases hx with
  | ok hs hleads => exact .ok hs (h.trans hleads)
  | error hpasses => exact .error (h.passes_trans hpasses)

/-- Behind a reading the run goes on, with no more tokens left. -/
theorem bind_onward {m : Run α} {f : α → Run β} {g : α × Stream → Except Failure (β × Stream)}
    (h : Follows ts depth₁ st (outcome m st) r)
    (hf : ∀ a st' s', Stands ts depth₁ st' s' → st.index ≤ st'.index →
      Follows ts depth st' (outcome (f a) st') (g (a, s'))) :
    Follows ts depth st (outcome (m >>= f) st) (r >>= g) := by
  rw [outcome_bind]
  generalize outcome m st = x at h
  cases h with
  | ok hs hleads => exact (hf _ _ _ hs hleads.index_le).of_leads hleads
  | error hpasses => exact .error hpasses

/-- Behind a reading the run goes on. -/
theorem bind {m : Run α} {f : α → Run β} {g : α × Stream → Except Failure (β × Stream)}
    (h : Follows ts depth₁ st (outcome m st) r)
    (hf : ∀ a st' s', Stands ts depth₁ st' s' →
      Follows ts depth st' (outcome (f a) st') (g (a, s'))) :
    Follows ts depth st (outcome (m >>= f) st) (r >>= g) :=
  h.bind_onward fun a st' s' hs _ => hf a st' s' hs

theorem pure (h : Stands ts depth st s) (a : α) :
    Follows ts depth st (outcome (pure a) st) (.ok (a, s)) :=
  .ok h (.refl ts st)

/-- A run fails where the stream fails. -/
theorem fail (h : Stands ts depth₁ st s) (cause : Token → Misfit) :
    Follows ts depth st (outcome (fail ts cause : Run α) st) (s.fail cause) := by
  rw [outcome_fail h.stream]
  exact .error (.refl ts st)

/-- A token is passed over in both. -/
theorem pass (h : Stands ts depth st s) :
    Follows ts depth st (outcome (advance ts) st) (.ok ((), s.advance)) := by
  rw [outcome_advance]
  exact .ok h.onward (leads_onward ts st)

/-- A token is taken on the way. -/
theorem onward {m : Run α} (h : Follows ts depth (st.onward ts) (outcome m (st.onward ts)) r) :
    Follows ts depth st (outcome (advance ts >>= fun _ => m) st) r := by
  rw [outcome_bind_of_ok (outcome_advance ts st)]
  exact h.of_leads (leads_onward ts st)

/-- A token is taken in both, with what it gives. -/
theorem take (h : Stands ts depth st s) (a : α) :
    Follows ts depth st (outcome (do advance ts; return a) st) (.ok (a, s.advance)) :=
  .onward (.pure h.onward a)

/-- What cannot fail is done on the way. -/
theorem step {γ : Type} {m : Run γ} {f : γ → Run α} {c : γ} {s : Stream}
    {r : Except Failure (α × Stream)} (h : Follows ts depth₁ st (outcome m st) (.ok (c, s)))
    (hf : ∀ st', Stands ts depth₁ st' s → Follows ts depth st' (outcome (f c) st') r) :
    Follows ts depth st (outcome (m >>= f) st) r := by
  rw [outcome_bind]
  generalize outcome m st = x at h
  cases h with
  | ok hs hleads => exact (hf _ hs).of_leads hleads

/-- What fails on the way ends the run. -/
theorem halt {m : Run α} {e : Failure} (h : Follows ts depth₁ st (outcome m st) (.error e))
    (f : α → Run β) : Follows ts depth st (outcome (m >>= f) st) (.error e) := by
  rw [outcome_bind]
  generalize outcome m st = x at h
  cases h with
  | error hpasses => exact .error hpasses

end Follows

/-! ## Parts of a relation -/

/-- An identifier is read by index as it is from the stream. -/
theorem follows_readIdentifier (h : Stands ts depth st s) (cause : Token → Misfit) :
    Follows ts depth st (outcome (readIdentifier ts cause) st)
      (Condition.readIdentifier cause s) := by
  rw [readIdentifier, outcome_bind_of_ok (outcome_current h.stream), Condition.readIdentifier,
    Stream.kind]
  cases s.current.kind with
  | identifier name => exact .take h name
  | _ => exact .fail h cause

/-- A subject is read by index as it is from the stream. -/
theorem follows_readSubject (h : Stands ts depth st s) :
    Follows ts depth st (outcome (readSubject ts) st) (Condition.readSubject s) := by
  rw [readSubject, outcome_bind_of_ok (outcome_current h.stream), Condition.readSubject,
    Stream.kind]
  cases s.current.kind with
  | identifier word =>
    refine .onward ?_
    dsimp only
    cases SubjectKind.ofWord? word with
    | none => exact .pure h.onward _
    | some kind =>
      dsimp only
      -- only a kind that requires an id takes a second token
      cases kind.requiresId with
      | false => exact .pure h.onward _
      | true =>
        refine (follows_readIdentifier h.onward _).bind ?_
        intro id st' s' h'
        exact .pure h' _
  | _ => exact .fail h _

/-- Both see the same of `has`, which is asked for without going on. -/
theorem outcome_atHas (h : Stands ts depth st s) :
    outcome (atHas ts) st = some (.ok (Condition.atHas s), st) := by
  rw [atHas, outcome_bind_of_ok (outcome_current h.stream)]
  rfl

/-- A comparison is read by index as it is from the stream. -/
theorem follows_readComparison (h : Stands ts depth st s) :
    Follows ts depth st (outcome (readComparison ts) st) (Condition.readComparison s) := by
  rw [readComparison, outcome_bind_of_ok (outcome_atHas h), Condition.readComparison, Stream.kind]
  -- `has` is spelled as a comparison but is none here
  cases Condition.atHas s with
  | true => exact .fail h _
  | false =>
    simp only [Bool.false_eq_true, if_false]
    rw [outcome_bind_of_ok (outcome_current h.stream)]
    cases s.current.kind with
    | keyword word =>
      dsimp only
      cases Condition.comparisonOf? word with
      | some comparison => exact .take h comparison
      | none => exact .fail h _
    | _ => exact .fail h _

theorem follows_readNumericComparison (h : Stands ts depth st s) :
    Follows ts depth st (outcome (readNumericComparison ts) st)
      (Condition.readNumericComparison s) := by
  rw [readNumericComparison, outcome_bind_of_ok (outcome_current h.stream),
    Condition.readNumericComparison]
  refine (follows_readComparison h).bind ?_
  intro comparison st' s' h'
  dsimp only
  split
  · exact .pure h' _
  · exact .error (.refl ts st')

/-- A value with its place, and the stream after it. -/
def placed {α : Type} (p : α × Span × Stream) : (α × Span) × Stream :=
  ((p.1, p.2.1), p.2.2)

/-- A reading that gives a place as well goes on. -/
theorem Follows.bind_placed {m : Run (α × Span)} {f : α × Span → Run β}
    {r : Except Failure (α × Span × Stream)} {g : α × Span × Stream → Except Failure (β × Stream)}
    (h : Follows ts depth₁ st (outcome m st) (r.map placed))
    (hf : ∀ a last st' s', Stands ts depth₁ st' s' →
      Follows ts depth st' (outcome (f (a, last)) st') (g (a, last, s'))) :
    Follows ts depth st (outcome (m >>= f) st) (r >>= g) := by
  have hplaced : r >>= g = r.map placed >>= fun p => g (p.1.1, p.1.2, p.2) := by
    cases r <;> rfl
  -- the place goes with the value, so that `bind` applies
  rw [hplaced]
  refine h.bind ?_
  intro a st' s' hs
  exact hf a.1 a.2 st' s' hs

/-- A whole number is read by index as it is from the stream, with its stretch. -/
theorem follows_readInteger (h : Stands ts depth st s) :
    Follows ts depth st (outcome (readInteger ts) st) ((Condition.readInteger s).map placed) := by
  rw [readInteger, outcome_bind_of_ok (outcome_current h.stream), Condition.readInteger,
    Stream.kind]
  cases s.current.kind with
  | number n =>
    dsimp only
    cases Condition.smallInteger? n with
    | some i => exact .take h (i, s.current.span)
    | none => exact .error (.refl ts st)
  | _ => exact .fail h _

/-- An operand is read by index as it is from the stream, with its stretch. -/
theorem follows_readOperand (h : Stands ts depth st s) :
    Follows ts depth st (outcome (readOperand ts) st) ((Condition.readOperand s).map placed) := by
  have hnext := outcome_nextKind h.stream
  rw [readOperand, outcome_bind_of_ok (outcome_current h.stream), Condition.readOperand,
    Stream.kind]
  cases s.current.kind with
  | keyword word =>
    cases word with
    | true => exact .take h _
    | false => exact .take h _
    | _ => exact .fail h _
  | number n => exact .take h _
  | string text => exact .take h _
  | identifier word =>
    dsimp only
    -- the token after a kind's word tells whether it is the word's id
    rw [outcome_bind_of_ok hnext]
    cases Condition.namesKind word with
    | false => exact .take h _
    | true =>
      cases s.nextKind with
      | identifier id =>
        refine .onward ?_
        rw [outcome_bind_of_ok (outcome_current h.onward.stream)]
        exact .take h.onward _
      | _ => exact .take h _
  | _ => exact .fail h _

theorem outcome_atOperand (h : Stands ts depth st s) :
    outcome (atOperand ts) st = some (.ok (Condition.atOperand s), st) := by
  rw [atOperand, outcome_bind_of_ok (outcome_current h.stream), Condition.atOperand, Stream.kind]
  cases s.current.kind with
  | keyword word => cases word <;> rfl
  | _ => rfl

/-- A token of a kind is passed over in both, or in neither. -/
theorem follows_skip (h : Stands ts depth st s) (kind : Token.Kind) :
    Follows ts depth st (outcome (skip ts kind) st)
      (.ok (decide (s.kind = kind), if s.kind = kind then s.advance else s)) := by
  rw [skip, outcome_bind_of_ok (outcome_current h.stream), Stream.kind]
  split
  · next hkind =>
    rw [decide_eq_true hkind]
    exact .take h true
  · next hkind =>
    rw [decide_eq_false hkind]
    exact .pure h false

/-- A field behind a point is read by index as it is from the stream. -/
theorem follows_readField (h : Stands ts depth st s) (fields : Condition.Fields) :
    Follows ts depth st (outcome (readField ts fields) st) (Condition.readField fields s) := by
  rw [readField, outcome_bind_of_ok (outcome_current h.stream), Condition.readField, Stream.kind]
  cases s.current.kind with
  | keyword word =>
    cases word with
    | attr =>
      -- a point may stand between `attr` and the name
      refine .onward ((follows_skip h.onward .dot).step ?_)
      intro st' h'
      refine (follows_readIdentifier h' _).bind ?_
      intro name st' s' h'
      exact .pure h' _
    | state => exact .take h _
    | flag => exact .take h _
    | inventory => exact .take h _
    | _ => exact .fail h _
  | identifier name => exact .take h _
  | _ => exact .fail h _

/-- The fields are read to the last as long as the bound counts the tokens that are left. -/
theorem follows_readFieldsWithin (h : Stands ts depth st s) (fields : Condition.Fields) {left : Nat}
    (hleft : ts.length - st.index ≤ left) :
    Follows ts depth st (outcome (readFieldsWithin ts fields left) st)
      (Condition.readFields fields s) := by
  rw [readFieldsWithin]
  -- by induction on the rounds of the stream's reader, whatever bound is left
  fun_induction Condition.readFields fields s generalizing st left with
  | case1 fields s hdot e hread =>
    have hskip := follows_skip h .dot
    rw [decide_eq_true hdot, if_pos hdot] at hskip
    refine hskip.step ?_
    intro st' h'
    have hfield := follows_readField h' fields
    rw [hread] at hfield
    exact hfield.halt _
  | case2 fields s hdot fields' s' hread ih =>
    have hskip := follows_skip h .dot
    rw [decide_eq_true hdot, if_pos hdot] at hskip
    refine hskip.step ?_
    intro st₁ h₁
    have hfield := follows_readField h₁ fields
    rw [hread] at hfield
    refine hfield.step ?_
    intro st' h'
    -- the dot at least was taken in this round
    have hrest := h.stream.rest_eq
    have hrest' := h'.stream.rest_eq
    have hlt := Condition.readField_advance_later_lt hdot hread
    have hfewer : ts.length - st'.index < left := by omega
    rw [outcome_bind_of_ok (outcome_remaining hfewer)]
    dsimp only
    rw [readFieldsWithin]
    exact ih h' (Nat.le_refl _)
  | case3 fields s hdot =>
    have hskip := follows_skip h .dot
    rw [decide_eq_false hdot, if_neg hdot] at hskip
    refine hskip.step ?_
    intro st' h'
    exact .pure h' fields

/-- The fields of a relation are read by index as they are from the stream. -/
theorem follows_readFields (h : Stands ts depth st s) (fields : Condition.Fields) :
    Follows ts depth st (outcome (readFields ts fields) st) (Condition.readFields fields s) :=
  follows_readFieldsWithin h fields (Nat.le_refl _)

/-! ## Relations -/

theorem follows_readHas (h : Stands ts depth st s) (subject : Subject) (start : Span) :
    Follows ts depth st (outcome (readHas ts subject start) st)
      (Condition.readHas subject start s.advance) := by
  refine .onward ((follows_readSubject h.onward).bind ?_)
  intro other st' s' h'
  rw [outcome_bind_of_ok (outcome_previous h'.stream)]
  exact .pure h' _

theorem follows_readDistance (h : Stands ts depth st s) (origin : Subject) (start : Span) :
    Follows ts depth st (outcome (readDistance ts origin start) st)
      (Condition.readDistance origin start s.advance) := by
  refine .onward ((follows_readSubject h.onward).bind ?_)
  intro goal st₁ s₁ h₁
  refine (follows_readNumericComparison h₁).bind ?_
  intro comparison st₂ s₂ h₂
  refine (follows_readInteger h₂).bind_placed ?_
  intro value last st' s' h'
  exact .pure h' _

/-- The word `scene` is passed over in both, or in neither. -/
theorem follows_skipScene (h : Stands ts depth st s) :
    Follows ts depth st (outcome (skipScene ts) st) (.ok ((), Condition.skipScene s)) := by
  rw [skipScene, outcome_bind_of_ok (outcome_current h.stream),
    outcome_bind_of_ok (outcome_nextKind h.stream), Condition.skipScene, Stream.kind]
  -- `scene` is a mark only before a name or a literal, else it is the scene itself
  have hscene (word : String) : Follows ts depth st
      (outcome (if sameAscii word "scene" then advance ts else pure ()) st)
      (.ok ((), if sameAscii word "scene" then s.advance else s)) := by
    split
    · exact .pass h
    · exact .pure h ()
  cases s.current.kind with
  | identifier word =>
    cases s.nextKind with
    | identifier name => exact hscene word
    | string name => exact hscene word
    | _ => exact .pure h ()
  | _ => exact .pure h ()

theorem follows_readScene (h : Stands ts depth st s) :
    Follows ts depth st (outcome (readScene ts) st) (Condition.readScene s) := by
  rw [readScene, outcome_bind_of_ok (outcome_current h.stream), Condition.readScene, Stream.kind]
  cases s.current.kind with
  | identifier name => exact .take h name
  | string name => exact .take h name
  | _ => exact .fail h _

theorem follows_readVisits (h : Stands ts depth st s) (subject : Subject) (start : Span) :
    Follows ts depth st (outcome (readVisits ts subject start) st)
      (Condition.readVisits subject start s.advance) := by
  refine .onward ((follows_skipScene h.onward).step ?_)
  intro st₀ h₀
  refine (follows_readScene h₀).bind ?_
  intro scene st₁ s₁ h₁
  refine (follows_readNumericComparison h₁).bind ?_
  intro comparison st₂ s₂ h₂
  refine (follows_readInteger h₂).bind_placed ?_
  intro value last st' s' h'
  exact .pure h' _

/-- A relation of a field is read by index as it is from the stream. -/
theorem follows_readProperty (h : Stands ts depth st s) (subject : Subject) (start : Span) :
    Follows ts depth st (outcome (readProperty ts subject start) st)
      (Condition.readProperty subject start s) := by
  refine (follows_readFields h _).bind ?_
  intro fields st₁ s₁ h₁
  refine (follows_readComparison h₁).bind ?_
  intro comparison st₂ s₂ h₂
  rw [outcome_bind_of_ok (outcome_atOperand h₂)]
  dsimp only
  split
  · rw [outcome_bind_of_ok (outcome_previous h₂.stream)]
    exact .pure h₂ _
  · refine (follows_readOperand h₂).bind_placed ?_
    intro operand last st' s' h'
    exact .pure h' _

/-- A point in front of a count or of a distance is passed over in both, or in neither. -/
theorem follows_skipDot (h : Stands ts depth st s) :
    Follows ts depth st (outcome (skipDot ts) st) (.ok ((), Condition.skipDot s)) := by
  rw [skipDot, outcome_bind_of_ok (outcome_current h.stream),
    outcome_bind_of_ok (outcome_nextKind h.stream), Condition.skipDot, Stream.kind]
  cases s.current.kind with
  | dot =>
    cases s.nextKind with
    | keyword word =>
      cases word with
      | distanceFrom => exact .pass h
      | visits => exact .pass h
      | _ => exact .pure h ()
    | _ => exact .pure h ()
  | _ => exact .pure h ()

/-- A relation is read by index as it is from the stream. -/
theorem follows_readRelation (h : Stands ts depth st s) :
    Follows ts depth st (outcome (readRelation ts) st) (Condition.readRelation s) := by
  rw [readRelation, outcome_bind_of_ok (outcome_current h.stream)]
  refine (follows_readSubject h).bind ?_
  intro subject st₁ s₁ h₁
  rw [outcome_bind_of_ok (outcome_atHas h₁)]
  dsimp only
  split
  · exact follows_readHas h₁ subject _
  · refine (follows_skipDot h₁).step ?_
    intro st₂ h₂
    -- the keyword behind the subject tells which relation it is
    rw [outcome_bind_of_ok (outcome_current h₂.stream), Stream.kind]
    cases (Condition.skipDot s₁).current.kind with
    | keyword word =>
      cases word with
      | distanceFrom => exact follows_readDistance h₂ subject _
      | visits => exact follows_readVisits h₂ subject _
      | _ => exact follows_readProperty h₂ subject _
    | _ => exact follows_readProperty h₂ subject _

end Indexed

end GameCondition
