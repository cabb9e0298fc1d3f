import GameCondition.Condition.Reading
import GameCondition.Proofs.Token.Terminals

/-! # Streams as terminals

What a reader sees of a stream are the terminals ahead (`Stream.ahead`). `Takes s ts s'` says that
the terminals `ts` lead from one stream to another; a stream that ends keeps ending
(`Takes.closed`), and whatever is ahead of it can be taken up to the end
(`Takes.exists_of_ahead`).
-/

namespace GameCondition

/-! ## Terminals of tokens -/

/-- The terminal `has` is the keyword of `is_in` in another spelling. -/
theorem Token.terminal_eq_has {t : Token} :
    t.terminal = .has ↔ t.kind = .keyword .isIn ∧ t.isSpelled "has" = true := by
  unfold terminal
  split <;> simp_all

/-- Any other terminal is the kind of its token. -/
theorem Token.terminal_eq_kind_iff {t : Token} {k : Token.Kind} :
    t.terminal = .kind k ↔ t.kind = k ∧ ¬ (k = .keyword .isIn ∧ t.isSpelled "has" = true) := by
  unfold terminal
  split
  · next h =>
    constructor
    · intro hhas
      cases hhas
    · rintro ⟨rfl, hno⟩
      exact absurd h hno
  · next h =>
    constructor
    · intro hkind
      cases hkind
      exact ⟨rfl, h⟩
    · rintro ⟨rfl, -⟩
      rfl

/-- The terminal of a token tells its kind, and of `is_in` besides how it is spelled. -/
theorem Token.terminal_eq_kind {t : Token} {k : Token.Kind} (hk : k ≠ .keyword .isIn) :
    t.terminal = .kind k ↔ t.kind = k := by
  simp [terminal_eq_kind_iff, hk]

/-- Whether tokens of a kind are taken by their kind: `is_in` has two terminals, and the end of
the text is never taken. -/
def Token.Kind.isOrdinary : Token.Kind → Bool
  | keyword .isIn => false
  | endOfInput => false
  | _ => true

/-- Whether terminals end with the last one, which is nowhere else among them. -/
def EndsOnce (ts : List Terminal) : Prop :=
  ∃ us, ts = us ++ [.last] ∧ Terminal.last ∉ us

/-! ## Streams -/

namespace Stream

/-- The terminals from the current token on. -/
def ahead (s : Stream) : List Terminal :=
  s.current.terminal :: s.later.map Token.terminal

/-- Whether the text of a stream ends, and only once. -/
def Closed (s : Stream) : Prop :=
  EndsOnce s.ahead

theorem ahead_ne_nil (s : Stream) : s.ahead ≠ [] := by
  simp [ahead]

/-- The current token is the first of those ahead. -/
theorem ahead_advance {s : Stream} (h : s.later ≠ []) :
    s.ahead = s.current.terminal :: s.advance.ahead := by
  unfold advance
  cases hlater : s.later with
  | nil => exact absurd hlater h
  | cons t ts => simp [ahead, hlater]

/-- What comes after the current token is seen without taking it. -/
theorem nextKind_eq (s : Stream) : s.nextKind = s.advance.kind := by
  unfold nextKind advance kind
  cases s.later <;> rfl

/-- A closed stream goes on behind a token that is not its end. -/
theorem Closed.later_ne_nil {s : Stream} (h : s.Closed) (hkind : s.kind ≠ .endOfInput) :
    s.later ≠ [] := by
  intro hlater
  rcases h with ⟨ts, hahead, -⟩
  rw [ahead, hlater, List.map_nil] at hahead
  have hlast := congrArg List.getLast? hahead
  rw [List.getLast?_append, List.getLast?_singleton, List.getLast?_singleton, Option.some_or,
    Option.some.injEq, Token.terminal_eq_kind (by simp)] at hlast
  exact hkind hlast

/-- At the end nothing is left. -/
theorem Closed.ahead_eq_last {s : Stream} (h : s.Closed) (hkind : s.kind = .endOfInput) :
    s.ahead = [.last] := by
  rcases h with ⟨ts, hahead, hlast⟩
  have hcurrent : s.current.terminal = .last := (Token.terminal_eq_kind (by simp)).mpr hkind
  cases ts with
  | nil => exact hahead
  | cons t ts =>
      rw [ahead, hcurrent, List.cons_append, List.cons.injEq] at hahead
      exact absurd (hahead.1 ▸ List.mem_cons_self) hlast

end Stream

/-- The terminals that lead from one stream to another. -/
structure Takes (s : Stream) (ts : List Terminal) (s' : Stream) : Prop where
  ahead : s.ahead = ts ++ s'.ahead
  stream : s' = Stream.advance^[ts.length] s

namespace Takes

theorem nil (s : Stream) : Takes s [] s :=
  ⟨rfl, rfl⟩

/-- Taking nothing leaves a stream as it is. -/
theorem nil_iff {s s' : Stream} : Takes s [] s' ↔ s' = s := by
  constructor
  · intro h
    exact h.stream
  · rintro rfl
    exact nil s'

/-- Taking terminals begins with the current token. -/
theorem cons_iff {s s' : Stream} {t : Terminal} {ts : List Terminal} :
    Takes s (t :: ts) s' ↔ s.current.terminal = t ∧ s.later ≠ [] ∧ Takes s.advance ts s' := by
  constructor
  · rintro ⟨hahead, hstream⟩
    have hcurrent : s.current.terminal = t := (List.cons.inj hahead).1
    have hlater : s.later ≠ [] := by
      intro hnil
      have := (List.cons.inj hahead).2
      rw [hnil, List.map_nil] at this
      exact s'.ahead_ne_nil (List.append_eq_nil_iff.mp this.symm).2
    rw [Stream.ahead_advance hlater, List.cons_append, List.cons.injEq] at hahead
    exact ⟨hcurrent, hlater, hahead.2, hstream⟩
  · rintro ⟨rfl, hlater, hahead, hstream⟩
    exact ⟨by rw [Stream.ahead_advance hlater, hahead, List.cons_append], hstream⟩

/-- Terminals are taken one part after the other. -/
theorem append_iff {s s' : Stream} {ts us : List Terminal} :
    Takes s (ts ++ us) s' ↔ ∃ s₁, Takes s ts s₁ ∧ Takes s₁ us s' := by
  induction ts generalizing s with
  | nil => simp [nil_iff]
  | cons t ts ih => simp [cons_iff, ih, and_assoc]

theorem append {s s₁ s' : Stream} {ts us : List Terminal} (h : Takes s ts s₁)
    (h₁ : Takes s₁ us s') : Takes s (ts ++ us) s' :=
  append_iff.mpr ⟨s₁, h, h₁⟩

/-- The first terminal may be taken by itself. -/
theorem split_first {s s' : Stream} {t : Terminal} {ts : List Terminal}
    (h : Takes s (t :: ts) s') : ∃ s₁, Takes s [t] s₁ ∧ Takes s₁ ts s' :=
  append_iff.mp h

/-- One terminal is taken by advancing. -/
theorem singleton_iff {s s' : Stream} {t : Terminal} :
    Takes s [t] s' ↔ s.current.terminal = t ∧ s.later ≠ [] ∧ s' = s.advance := by
  rw [cons_iff, nil_iff]

/-- Whatever is ahead can be taken, up to the end. -/
theorem exists_of_ahead {s : Stream} {ts us : List Terminal} (h : s.ahead = ts ++ us)
    (hus : us ≠ []) : ∃ s', Takes s ts s' ∧ s'.ahead = us := by
  -- as long as something is left behind `ts`, the stream is not at its end
  induction ts generalizing s with
  | nil => exact ⟨s, nil s, h⟩
  | cons t ts ih =>
      have hlater : s.later ≠ [] := by
        intro hnil
        have := (List.cons.inj h).2
        rw [hnil, List.map_nil] at this
        exact hus (List.append_eq_nil_iff.mp this.symm).2
      rw [Stream.ahead_advance hlater, List.cons_append, List.cons.injEq] at h
      rcases ih h.2 with ⟨s', htakes, hahead⟩
      exact ⟨s', cons_iff.mpr ⟨h.1, hlater, htakes⟩, hahead⟩

/-- What is left of a closed stream is closed. -/
theorem closed {s s' : Stream} {ts : List Terminal} (h : Takes s ts s') (hs : s.Closed) :
    s'.Closed := by
  rcases hs with ⟨us, hahead, hlast⟩
  have heq : ts ++ s'.ahead = us ++ [Terminal.last] := h.ahead.symm.trans hahead
  -- what was taken does not hold the last terminal, since something is ahead after it
  rcases List.append_eq_append_iff.mp heq with ⟨vs, rfl, hvs⟩ | ⟨vs, hts, hvs⟩
  · exact ⟨vs, hvs, fun hmem => hlast (List.mem_append_right ts hmem)⟩
  · have hvs_nil : vs = [] := by
      cases vs with
      | nil => rfl
      | cons v vs =>
          rw [List.cons_append, List.cons.injEq] at hvs
          exact absurd (List.append_eq_nil_iff.mp hvs.2.symm).2 s'.ahead_ne_nil
    rw [hvs_nil, List.nil_append] at hvs
    exact ⟨[], hvs.symm, by simp⟩

end Takes

theorem Stream.Closed.advance {s : Stream} (hs : s.Closed) : s.advance.Closed := by
  by_cases hlater : s.later = []
  · have hstay : s.advance = s := by simp [Stream.advance, hlater]
    rwa [hstay]
  · exact Takes.closed (Takes.singleton_iff.mpr ⟨rfl, hlater, rfl⟩) hs

namespace Takes

/-- A token besides `is_in` and the end is taken by its kind. -/
theorem step {s s' : Stream} {k : Token.Kind} {ts : List Terminal} (hs : s.Closed)
    (hkind : s.kind = k) (hk : k.isOrdinary = true) (h : Takes s.advance ts s') :
    Takes s (.kind k :: ts) s' := by
  have hisIn : k ≠ .keyword .isIn := by
    rintro rfl
    cases hk
  have hend : s.kind ≠ .endOfInput := by
    rintro hlast
    rw [← hkind, hlast] at hk
    cases hk
  exact cons_iff.mpr ⟨(Token.terminal_eq_kind hisIn).mpr hkind, hs.later_ne_nil hend, h⟩

/-- The first of the terminals taken tells the kind of the current token. -/
theorem kind_and_rest {s s' : Stream} {k : Token.Kind} {ts : List Terminal}
    (h : Takes s (.kind k :: ts) s') : s.kind = k ∧ Takes s.advance ts s' := by
  rcases cons_iff.mp h with ⟨hterminal, -, hrest⟩
  exact ⟨(Token.terminal_eq_kind_iff.mp hterminal).1, hrest⟩

end Takes

end GameCondition
