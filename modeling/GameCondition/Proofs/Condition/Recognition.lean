import GameCondition.Proofs.Condition.Phrases

/-! # The reader accepts the grammar

A condition is read from a text exactly when a derivation of its terminals means that condition and
stands no deeper than the limit (`read_iff`). One direction is an induction on the levels that are
left, as the reader itself goes (`readOr_sound` and its companions); the other is an induction on
the derivation (`readOr_complete` and its companions).
-/

namespace GameCondition

/-! ## Texts end -/

/-- The terminals of a text end with the last one, which occurs nowhere else. -/
theorem terminals_endsOnce (cs : List Char) : EndsOnce (terminals cs) := by
  refine terminals_induction (motive := EndsOnce) ?_ ?_ cs
  · exact ⟨[], rfl, by simp⟩
  · rintro c ds ts ⟨us, rfl, hlast⟩
    refine ⟨_ :: us, rfl, ?_⟩
    rw [List.mem_cons, not_or]
    refine ⟨fun h => ?_, hlast⟩
    exact Lexeme.kind_ofText_ne_endOfInput c ds (Token.terminal_eq_kind_iff.mp h.symm).1

namespace Stream

/-- A stream begins with all the terminals of its text. -/
theorem ahead_ofText (cs : List Char) : (ofText cs).ahead = terminals cs := by
  unfold ofText ahead terminals
  cases htokens : tokenize cs with
  | nil =>
      rcases terminals_endsOnce cs with ⟨ts, hts, -⟩
      rw [terminals, htokens] at hts
      simp at hts
  | cons t ts => simp

/-- The stream of a text ends, and only once. -/
theorem closed_ofText (cs : List Char) : (ofText cs).Closed := by
  unfold Closed
  rw [ahead_ofText]
  exact terminals_endsOnce cs

end Stream

namespace Condition

open Grammar

/-! ## What is read is derived -/

mutual

/-- What is read as an `or` chain has a derivation of what was taken. -/
theorem readOr_sound {levels : Nat} {s s' : Stream} {c : Condition} (hs : s.Closed)
    (h : readOr levels s = .ok (c, s')) :
    ∃ d : Derivation .or, d.meaning = c.unplaced ∧ d.nesting ≤ levels ∧
      Takes s d.terminals s' := by
  rw [readOr] at h
  rcases except_bind_eq_ok.mp h with ⟨⟨left, s₁⟩, hleft, hright⟩
  rcases readAnd_sound hs hleft with ⟨first, hfirst, hlevels, htakes⟩
  -- the chain is read with the levels that its first operand was read with: a maximum, no sum
  rcases readOrRest_sound (htakes.closed hs) hright with ⟨rest, hrest, hlevels', htakes'⟩
  refine ⟨.or first rest, ?_, max_le hlevels hlevels', htakes.append htakes'⟩
  rw [← hrest, ← hfirst]
  rfl
termination_by (levels, 2)

/-- What is read as the rest of an `or` chain has one, with the chain so far at its left. -/
theorem readOrRest_sound {levels : Nat} {left : Condition} {s s' : Stream} {c : Condition}
    (hs : s.Closed) (h : readOrRest levels left s = .ok (c, s')) :
    ∃ d : Derivation .orRest, d.meaning left.unplaced = c.unplaced ∧ d.nesting ≤ levels ∧
      Takes s d.terminals s' := by
  rw [readOrRest.eq_def] at h
  split at h
  · next hkind =>
    cases levels with
    | zero => cases h
    | succ levels =>
        rcases except_bind_eq_ok.mp h with ⟨⟨right, s₁⟩, hright, hmore⟩
        rcases readAnd_sound hs.advance hright with ⟨next, hnext, hlevels, htakes⟩
        rcases readOrRest_sound (htakes.closed hs.advance) hmore with
          ⟨rest, hrest, hlevels', htakes'⟩
        refine ⟨.orMore next rest, ?_, ?_, .step hs hkind rfl (htakes.append htakes')⟩
        · rw [← hrest, Derivation.meaning, hnext]
          rfl
        · simp only [Derivation.nesting]
          omega
  · cases h
    exact ⟨.orEnd, rfl, Nat.zero_le _, .nil _⟩
termination_by (levels, 0)

/-- What is read as an `and` chain has a derivation of what was taken. -/
theorem readAnd_sound {levels : Nat} {s s' : Stream} {c : Condition} (hs : s.Closed)
    (h : readAnd levels s = .ok (c, s')) :
    ∃ d : Derivation .and, d.meaning = c.unplaced ∧ d.nesting ≤ levels ∧
      Takes s d.terminals s' := by
  rw [readAnd] at h
  rcases except_bind_eq_ok.mp h with ⟨⟨left, s₁⟩, hleft, hright⟩
  rcases readUnary_sound hs hleft with ⟨first, hfirst, hlevels, htakes⟩
  rcases readAndRest_sound (htakes.closed hs) hright with ⟨rest, hrest, hlevels', htakes'⟩
  refine ⟨.and first rest, ?_, max_le hlevels hlevels', htakes.append htakes'⟩
  rw [← hrest, ← hfirst]
  rfl
termination_by (levels, 1)

/-- What is read as the rest of an `and` chain has one, with the chain so far at its left. -/
theorem readAndRest_sound {levels : Nat} {left : Condition} {s s' : Stream} {c : Condition}
    (hs : s.Closed) (h : readAndRest levels left s = .ok (c, s')) :
    ∃ d : Derivation .andRest, d.meaning left.unplaced = c.unplaced ∧ d.nesting ≤ levels ∧
      Takes s d.terminals s' := by
  rw [readAndRest.eq_def] at h
  split at h
  · next hkind =>
    cases levels with
    | zero => cases h
    | succ levels =>
        rcases except_bind_eq_ok.mp h with ⟨⟨right, s₁⟩, hright, hmore⟩
        rcases readUnary_sound hs.advance hright with ⟨next, hnext, hlevels, htakes⟩
        rcases readAndRest_sound (htakes.closed hs.advance) hmore with
          ⟨rest, hrest, hlevels', htakes'⟩
        refine ⟨.andMore next rest, ?_, ?_, .step hs hkind rfl (htakes.append htakes')⟩
        · rw [← hrest, Derivation.meaning, hnext]
          rfl
        · simp only [Derivation.nesting]
          omega
  · cases h
    exact ⟨.andEnd, rfl, Nat.zero_le _, .nil _⟩
termination_by (levels, 0)

/-- What is read as an operand has a derivation of what was taken. -/
theorem readUnary_sound {levels : Nat} {s s' : Stream} {c : Condition} (hs : s.Closed)
    (h : readUnary levels s = .ok (c, s')) :
    ∃ d : Derivation .unary, d.meaning = c.unplaced ∧ d.nesting ≤ levels ∧
      Takes s d.terminals s' := by
  rw [readUnary.eq_def] at h
  split at h
  · next hkind =>
    cases levels with
    | zero => cases h
    | succ levels =>
        rcases except_bind_eq_ok.mp h with ⟨⟨inner, s₁⟩, hinner, hret⟩
        cases hret
        rcases readUnary_sound hs.advance hinner with ⟨d, hd, hlevels, htakes⟩
        -- the level of the `not` is the one that was taken from the limit
        refine ⟨.not d, ?_, ?_, .step hs hkind rfl htakes⟩
        · rw [Derivation.meaning, hd]
          rfl
        · simp only [Derivation.nesting]
          omega
  · next hkind =>
    cases levels with
    | zero => cases h
    | succ levels =>
        rcases except_bind_eq_ok.mp h with ⟨⟨inner, s₁⟩, hinner, hret⟩
        dsimp only at hret
        split at hret
        · next hclose =>
          cases hret
          rcases readOr_sound hs.advance hinner with ⟨d, hd, hlevels, htakes⟩
          -- behind the inner condition the stream still ends, at the parenthesis or later
          have hclosed := htakes.closed hs.advance
          refine ⟨.group d, hd, ?_, .step hs hkind rfl
            (htakes.append (.step hclosed hclose rfl (.nil _)))⟩
          simp only [Derivation.nesting]
          omega
        · cases hret
  · rcases readRelation_sound hs h with ⟨p, hleaf, htakes⟩
    exact ⟨.phrase p, hleaf.symm, Nat.zero_le _, htakes⟩
termination_by (levels, 0)

end

/-! ## What is derived is read -/

/-- Where one level is taken, the others are left. -/
theorem exists_level {nesting levels : Nat} (h : 1 + nesting ≤ levels) :
    ∃ left, levels = left + 1 ∧ nesting ≤ left :=
  ⟨levels - 1, by omega, by omega⟩

/-- A stream does not go on with a token that cannot follow. -/
theorem kind_ne_of_follows {n : Nonterminal} {s : Stream} {k : Token.Kind}
    (h : Follows n s.ahead) (hk : k ≠ .keyword .isIn) (hn : n.follow (.kind k) = false) :
    s.kind ≠ k := by
  intro hkind
  rcases h with ⟨t, us, hahead, ht⟩
  have hcurrent : s.current.terminal = t := (List.cons.inj hahead).1
  rw [← hcurrent, (Token.terminal_eq_kind hk).mpr hkind, hn] at ht
  cases ht

mutual

/-- A derived `or` chain is read as what it means. -/
theorem readOr_complete {levels : Nat} {d : Derivation .or} {s s' : Stream}
    (h : Takes s d.terminals s') (hs' : Follows .or s'.ahead) (hlevels : d.nesting ≤ levels) :
    ∃ c, readOr levels s = .ok (c, s') ∧ c.unplaced = d.meaning := by
  cases d with
  | or first rest =>
      rcases Takes.append_iff.mp h with ⟨s₁, hfirst, hrest⟩
      have hs₁ : Follows .and s₁.ahead := hrest.ahead ▸ Follows.and_of_orRest hs' rest
      have hmax := max_le_iff.mp hlevels
      rcases readAnd_complete hfirst hs₁ hmax.1 with ⟨left, hleft, hmeaning⟩
      rcases readOrRest_complete left hrest hs' hmax.2 with ⟨c, hc, hmeaning'⟩
      refine ⟨c, ?_, by rw [hmeaning', hmeaning]; rfl⟩
      rw [readOr]
      exact except_bind_eq_ok.mpr ⟨_, hleft, hc⟩

/-- The derived rest of an `or` chain is read as what it means to the chain so far. -/
theorem readOrRest_complete {levels : Nat} {d : Derivation .orRest} {s s' : Stream}
    (left : Condition) (h : Takes s d.terminals s') (hs' : Follows .orRest s'.ahead)
    (hlevels : d.nesting ≤ levels) :
    ∃ c, readOrRest levels left s = .ok (c, s') ∧ c.unplaced = d.meaning left.unplaced := by
  cases d with
  | orEnd =>
      rw [Takes.nil_iff.mp h] at hs' ⊢
      have hkind := kind_ne_of_follows (k := .keyword .or) hs' (by simp) rfl
      exact ⟨left, by rw [readOrRest.eq_def, if_neg hkind], rfl⟩
  | orMore next rest =>
      rcases h.kind_and_rest with ⟨hkind, h⟩
      rcases Takes.append_iff.mp h with ⟨s₁, hnext, hrest⟩
      -- what follows the next operand is the rest of the chain, or what follows that
      have hs₁ : Follows .and s₁.ahead := hrest.ahead ▸ Follows.and_of_orRest hs' rest
      rcases exists_level hlevels with ⟨levels, rfl, hmax⟩
      rw [max_le_iff] at hmax
      rcases readAnd_complete hnext hs₁ hmax.1 with ⟨right, hright, hmeaning⟩
      rcases readOrRest_complete (either left right) hrest hs' hmax.2 with ⟨c, hc, hmeaning'⟩
      refine ⟨c, ?_, ?_⟩
      · rw [readOrRest.eq_def, if_pos hkind]
        exact except_bind_eq_ok.mpr ⟨_, hright, hc⟩
      · rw [hmeaning', Derivation.meaning, ← hmeaning]
        rfl

/-- A derived `and` chain is read as what it means. -/
theorem readAnd_complete {levels : Nat} {d : Derivation .and} {s s' : Stream}
    (h : Takes s d.terminals s') (hs' : Follows .and s'.ahead) (hlevels : d.nesting ≤ levels) :
    ∃ c, readAnd levels s = .ok (c, s') ∧ c.unplaced = d.meaning := by
  cases d with
  | and first rest =>
      rcases Takes.append_iff.mp h with ⟨s₁, hfirst, hrest⟩
      have hs₁ : Follows .unary s₁.ahead := hrest.ahead ▸ Follows.unary_of_andRest hs' rest
      have hmax := max_le_iff.mp hlevels
      rcases readUnary_complete hfirst hs₁ hmax.1 with ⟨left, hleft, hmeaning⟩
      rcases readAndRest_complete left hrest hs' hmax.2 with ⟨c, hc, hmeaning'⟩
      refine ⟨c, ?_, by rw [hmeaning', hmeaning]; rfl⟩
      rw [readAnd]
      exact except_bind_eq_ok.mpr ⟨_, hleft, hc⟩

/-- The derived rest of an `and` chain is read as what it means to the chain so far. -/
theorem readAndRest_complete {levels : Nat} {d : Derivation .andRest} {s s' : Stream}
    (left : Condition) (h : Takes s d.terminals s') (hs' : Follows .andRest s'.ahead)
    (hlevels : d.nesting ≤ levels) :
    ∃ c, readAndRest levels left s = .ok (c, s') ∧ c.unplaced = d.meaning left.unplaced := by
  cases d with
  | andEnd =>
      rw [Takes.nil_iff.mp h] at hs' ⊢
      have hkind := kind_ne_of_follows (k := .keyword .and) hs' (by simp) rfl
      exact ⟨left, by rw [readAndRest.eq_def, if_neg hkind], rfl⟩
  | andMore next rest =>
      rcases h.kind_and_rest with ⟨hkind, h⟩
      rcases Takes.append_iff.mp h with ⟨s₁, hnext, hrest⟩
      have hs₁ : Follows .unary s₁.ahead := hrest.ahead ▸ Follows.unary_of_andRest hs' rest
      rcases exists_level hlevels with ⟨levels, rfl, hmax⟩
      rw [max_le_iff] at hmax
      rcases readUnary_complete hnext hs₁ hmax.1 with ⟨right, hright, hmeaning⟩
      rcases readAndRest_complete (both left right) hrest hs' hmax.2 with ⟨c, hc, hmeaning'⟩
      refine ⟨c, ?_, ?_⟩
      · rw [readAndRest.eq_def, if_pos hkind]
        exact except_bind_eq_ok.mpr ⟨_, hright, hc⟩
      · rw [hmeaning', Derivation.meaning, ← hmeaning]
        rfl

/-- A derived operand is read as what it means. -/
theorem readUnary_complete {levels : Nat} {d : Derivation .unary} {s s' : Stream}
    (h : Takes s d.terminals s') (hs' : Follows .unary s'.ahead) (hlevels : d.nesting ≤ levels) :
    ∃ c, readUnary levels s = .ok (c, s') ∧ c.unplaced = d.meaning := by
  cases d with
  | not d =>
      rcases h.kind_and_rest with ⟨hkind, h⟩
      rcases exists_level hlevels with ⟨levels, rfl, hinner⟩
      rcases readUnary_complete h hs' hinner with ⟨c, hc, hmeaning⟩
      refine ⟨.not c (s.current.span.through c.span), ?_, ?_⟩
      · rw [readUnary.eq_def, hkind]
        exact except_bind_eq_ok.mpr ⟨_, hc, rfl⟩
      · rw [Derivation.meaning, ← hmeaning]
        rfl
  | group d =>
      rcases h.kind_and_rest with ⟨hkind, h⟩
      -- inside the parentheses the text goes on with the closing one
      rcases Takes.append_iff.mp h with ⟨s₁, hinside, hclose⟩
      have hs₁ : Follows .or s₁.ahead := hclose.ahead ▸ follows_closeParen _
      rcases hclose.kind_and_rest with ⟨hclose, hrest⟩
      rcases exists_level hlevels with ⟨levels, rfl, hinner⟩
      rcases readOr_complete hinside hs₁ hinner with ⟨c, hc, hmeaning⟩
      refine ⟨c, ?_, hmeaning⟩
      rw [readUnary.eq_def, hkind]
      refine except_bind_eq_ok.mpr ⟨_, hc, ?_⟩
      simp only [hclose, if_true, Takes.nil_iff.mp hrest]
      rfl
  | phrase p =>
      -- a phrase begins with a name, so the reader takes it for nothing else
      rcases p.exists_name with ⟨w, ts, hname⟩
      have hkind : s.kind = .identifier w := by
        rw [Derivation.terminals, hname] at h
        exact h.kind_and_rest.1
      rcases readRelation_complete h hs' with ⟨c, hc, hleaf⟩
      refine ⟨c, ?_, hleaf⟩
      rw [readUnary.eq_def, hkind]
      exact hc

end

/-! ## Whole texts -/

/-- A stream is read as a condition when a derivation of all its terminals means it. -/
theorem readAll_iff {levels : Nat} {s : Stream} (hs : s.Closed) {t : Condition} :
    (∃ c, readAll levels s = .ok c ∧ c.unplaced = t) ↔
      ∃ d : Derivation .or, d.terminals ++ [.last] = s.ahead ∧ d.meaning = t ∧
        d.nesting ≤ levels := by
  constructor
  · rintro ⟨c, h, rfl⟩
    rcases except_bind_eq_ok.mp h with ⟨⟨c', s'⟩, hread, hret⟩
    dsimp only at hret
    split at hret
    · next hend =>
      cases hret
      rcases readOr_sound hs hread with ⟨d, hmeaning, hlevels, htakes⟩
      refine ⟨d, ?_, hmeaning, hlevels⟩
      rw [htakes.ahead, (htakes.closed hs).ahead_eq_last hend]
    · cases hret
  · rintro ⟨d, hahead, rfl, hlevels⟩
    rcases Takes.exists_of_ahead hahead.symm (by simp) with ⟨s', htakes, hs'⟩
    -- the end follows the whole derivation
    have hfollows : Follows .or s'.ahead := ⟨_, [], hs', rfl⟩
    rcases readOr_complete htakes hfollows hlevels with ⟨c, hc, hmeaning⟩
    refine ⟨c, except_bind_eq_ok.mpr ⟨_, hc, ?_⟩, hmeaning⟩
    have hend : s'.kind = .endOfInput :=
      (Token.terminal_eq_kind (by simp)).mp (List.cons.inj hs').1
    simp only [hend, if_true]
    rfl

/-- A source is read when its stream is. -/
theorem read_eq_ok_iff {limit : Nat} {source : String} {c : Condition} :
    read limit source = .ok c ↔ readAll limit (.ofText source.toList) = .ok c := by
  unfold read
  cases readAll limit (.ofText source.toList) with
  | error e => simp [Except.mapError]
  | ok c' => simp [Except.mapError]

/-- A text is read as a condition exactly when a derivation of its terminals means that condition
and stands no deeper than the limit. -/
theorem read_iff {limit : Nat} {source : String} {t : Condition} :
    (∃ c, read limit source = .ok c ∧ c.unplaced = t) ↔
      ∃ d : Derivation .or, d.terminals ++ [.last] = terminals source.toList ∧ d.meaning = t ∧
        d.nesting ≤ limit := by
  simp only [read_eq_ok_iff]
  rw [readAll_iff (Stream.closed_ofText _), Stream.ahead_ofText]

/-- With a level for each token, a text is read as a condition exactly when its terminals derive
that condition, and they do so in one way. -/
theorem read_iff_derivation {limit : Nat} {source : String}
    (hlimit : (tokenize source.toList).length ≤ limit + 1) (t : Condition) :
    ((∃ c, read limit source = .ok c ∧ c.unplaced = t) ↔
      ∃ d : Derivation .or, d.terminals ++ [.last] = terminals source.toList ∧ d.meaning = t) ∧
    ∀ d d' : Derivation .or, d.terminals ++ [.last] = terminals source.toList →
      d'.terminals ++ [.last] = terminals source.toList → d = d' := by
  constructor
  · rw [read_iff]
    constructor
    · rintro ⟨d, hd, hmeaning, -⟩
      exact ⟨d, hd, hmeaning⟩
    · rintro ⟨d, hd, hmeaning⟩
      have hlength := congrArg List.length hd
      rw [terminals, List.length_map, List.length_append, List.length_singleton] at hlength
      -- each level is taken by a token, so no derivation of the text needs more than there are
      have hnesting := d.nesting_le_length
      exact ⟨d, hd, hmeaning, by omega⟩
  · intro d d' hd hd'
    exact Derivation.terminals_injective (List.append_cancel_right (hd.trans hd'.symm))

/-- A negation is read, and has one derivation. -/
theorem read_iff_derivation_of_negation :
    (tokenize "not a is x".toList).length ≤ 4 + 1 ∧
    (∃ c, read 4 "not a is x" = .ok c ∧ c.unplaced =
      .not (.relation ⟨.item "a", .is, .element "x", none, none, .atStart⟩) .atStart) ∧
    ∀ d d' : Derivation .or, d.terminals ++ [.last] = terminals "not a is x".toList →
      d'.terminals ++ [.last] = terminals "not a is x".toList → d = d' := by
  have hlimit : (tokenize "not a is x".toList).length ≤ 4 + 1 := by decide +kernel
  rcases read_iff_derivation hlimit
    (.not (.relation ⟨.item "a", .is, .element "x", none, none, .atStart⟩) .atStart) with
    ⟨hread, hunique⟩
  have hsentence : terminals "not a is x".toList =
      [.word .not, .name "a", .word .is, .name "x", .last] := by
    decide +kernel
  have hphrase : ∃ p : Phrase, p.terminals = [.name "a", .word .is, .name "x"] ∧
      p.leaf = .relation ⟨.item "a", .is, .element "x", none, none, .atStart⟩ :=
    ⟨.compares (.alone ⟨"a", by decide⟩) [] ⟨.is, by decide⟩ (.bare "x"), by decide, by decide⟩
  rcases hphrase with ⟨p, hp, hmeaning⟩
  refine ⟨hlimit, hread.mpr ⟨.or (.and (.not (.phrase p)) .andEnd) .orEnd, ?_, ?_⟩, hunique⟩
  · rw [hsentence]
    simp [Derivation.terminals, hp]
  · simp [Derivation.meaning, hmeaning]

end Condition

end GameCondition
