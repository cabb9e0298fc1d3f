import GameCondition.Proofs.Condition.Likeness
import GameCondition.Proofs.Token.Spacing

/-! # Reading with other white space

Texts with the same terminals are alike to the reader, token by token (`Likeness.sameTerminals`).
White space between tokens does not show in the terminals, so under every limit a text with other
white space is read as the same condition, or is refused at the token of the same number
(`Condition.read_respaced`).
-/

namespace GameCondition

/-- The kind of the tokens that have a terminal. -/
def Terminal.tokenKind : Terminal → Token.Kind
  | has => .keyword .isIn
  | kind k => k

/-- The terminal of a token tells its kind. -/
theorem Token.tokenKind_terminal (t : Token) : t.terminal.tokenKind = t.kind := by
  cases h : t.terminal with
  | has => exact (terminal_eq_has.mp h).1.symm
  | kind k => exact (terminal_eq_kind_iff.mp h).1.symm

theorem tokenKind_comp_terminal : Terminal.tokenKind ∘ Token.terminal = Token.kind :=
  funext Token.tokenKind_terminal

namespace Likeness

/-- Texts with the same terminals. Tokens are alike if they have the same number, and no place is
told from another. -/
def sameTerminals (ts us : List Token)
    (h : us.map Token.terminal = ts.map Token.terminal) : Likeness where
  token t t' := ∃ i : Nat, ts[i]? = some t ∧ us[i]? = some t'
  name := Eq
  place _ _ := True
  kind := by
    rintro t t' ⟨i, ht, ht'⟩
    have hterminal := congrArg (fun terminals : List Terminal => terminals[i]?) h
    simp only [List.getElem?_map, ht, ht', Option.map_some, Option.some.injEq] at hterminal
    rw [← t.tokenKind_terminal, ← t'.tokenKind_terminal, hterminal, t.tokenKind_terminal]
    exact same.kind (rfl : t = t)
  has := by
    rintro t t' ⟨i, ht, ht'⟩
    have hterminal := congrArg (fun terminals : List Terminal => terminals[i]?) h
    simp only [List.getElem?_map, ht, ht', Option.map_some, Option.some.injEq] at hterminal
    rw [hterminal]
  span _ := trivial
  through _ _ := trivial
  refl := Eq.refl
  ascii := same.ascii

variable {ts us : List Token} {h : us.map Token.terminal = ts.map Token.terminal}

theorem forall₂_sameTerminals : List.Forall₂ (sameTerminals ts us h).token ts us := by
  have hlength : ts.length = us.length := by
    have := congrArg List.length h
    rw [List.length_map, List.length_map] at this
    exact this.symm
  refine List.forall₂_iff_get.mpr ⟨hlength, ?_⟩
  intro i hi hi'
  exact ⟨i, List.getElem?_eq_getElem hi, List.getElem?_eq_getElem hi'⟩

/-! ## What is alike -/

theorem Subjects.eq {s s' : Subject} (hs : (sameTerminals ts us h).Subjects s s') : s = s' := by
  obtain ⟨kind, id⟩ := s
  obtain ⟨kind', id'⟩ := s'
  obtain ⟨rfl, hid⟩ := hs
  cases hid with
  | some hid =>
    have hid : _ = _ := hid
    rw [hid]
  | none => rfl

theorem Operands.eq {o o' : Operand} (ho : (sameTerminals ts us h).Operands o o') : o = o' := by
  cases ho with
  | element hid => exact congrArg Operand.element hid
  | literal => rfl

theorem optionRel_eq {name name' : Option String}
    (hname : Option.Rel (sameTerminals ts us h).name name name') : name = name' := by
  cases hname with
  | some hname => exact congrArg some hname
  | none => rfl

/-- Like conditions are the same up to places. -/
theorem Conditions.unplaced_eq {c c' : Condition}
    (hc : (sameTerminals ts us h).Conditions c c') : c.unplaced = c'.unplaced := by
  induction hc with
  | and _ _ _ ihl ihr => rw [Condition.unplaced, Condition.unplaced, ihl, ihr]
  | or _ _ _ ihl ihr => rw [Condition.unplaced, Condition.unplaced, ihl, ihr]
  | not _ _ ih => rw [Condition.unplaced, Condition.unplaced, ih]
  | relation comparison hsubject hoperand hattr hproperty =>
    rw [hsubject.eq, hoperand.eq, optionRel_eq hattr, optionRel_eq hproperty]
    rfl
  | visits comparison value hsubject hscene =>
    have hscene : _ = _ := hscene
    rw [hsubject.eq, hscene]
    rfl
  | distance comparison value horigin hgoal =>
    rw [horigin.eq, hgoal.eq]
    rfl

/-- Like failures are reported with one code, at tokens of the same number. -/
theorem Failures.exists_index {e e' : Failure} (he : (sameTerminals ts us h).Failures e e')
    (limit : Nat) : (e.diagnostic limit).code = (e'.diagnostic limit).code ∧
      ∃ (i : Nat) (t t' : Token), ts[i]? = some t ∧ us[i]? = some t' ∧
        (e.diagnostic limit).span = t.span ∧ (e'.diagnostic limit).span = t'.span := by
  cases he with
  | misfit he =>
    cases he with
    | misfit cause cause' ht =>
      obtain ⟨i, ht, ht'⟩ := ht
      exact ⟨rfl, i, _, _, ht, ht', rfl, rfl⟩
  | tooDeep ht =>
    obtain ⟨i, ht, ht'⟩ := ht
    exact ⟨rfl, i, _, _, ht, ht', rfl, rfl⟩

end Likeness

namespace Condition

/-- A text with other white space has tokens of the same kinds. Under every limit both texts are
read, as conditions that are the same up to places, or both are refused with one code, at tokens of
the same number. -/
theorem read_respaced {a b : String} (h : IsRespaced a.toList b.toList) :
    (tokenize b.toList).map Token.kind = (tokenize a.toList).map Token.kind ∧
    ∀ limit, (∃ c c', read limit a = .ok c ∧ read limit b = .ok c' ∧ c.unplaced = c'.unplaced) ∨
      ∃ d d', read limit a = .error d ∧ read limit b = .error d' ∧ d.code = d'.code ∧
        ∃ (i : Nat) (t t' : Token), (tokenize a.toList)[i]? = some t ∧
          (tokenize b.toList)[i]? = some t' ∧ d.span = t.span ∧ d'.span = t'.span := by
  have halike := Likeness.forall₂_sameTerminals (h := h.terminals_eq)
  constructor
  · have hkinds := congrArg (List.map Terminal.tokenKind) h.terminals_eq
    rwa [terminals, terminals, List.map_map, List.map_map, tokenKind_comp_terminal] at hkinds
  · intro limit
    have hstep := (Likeness.streams_ofText halike).readAll limit
    unfold read
    revert hstep
    generalize readAll limit (.ofText a.toList) = x
    generalize readAll limit (.ofText b.toList) = y
    rintro (⟨hc⟩ | ⟨he⟩)
    · exact .inl ⟨_, _, rfl, rfl, hc.unplaced_eq⟩
    · obtain ⟨hcode, hindex⟩ := he.exists_index limit
      exact .inr ⟨_, _, rfl, rfl, hcode, hindex⟩

theorem read_respaced_quotedName :
    IsRespaced "a.b is\"x y\"".toList "\ta . b\nis \"x y\" ".toList ∧
    (tokenize "\ta . b\nis \"x y\" ".toList).map Token.kind =
      (tokenize "a.b is\"x y\"".toList).map Token.kind ∧
    ∃ c c', read 64 "a.b is\"x y\"" = .ok c ∧ read 64 "\ta . b\nis \"x y\" " = .ok c' ∧
      c.unplaced = c'.unplaced := by
  have htexts : inkTexts (tokenize "a.b is\"x y\"".toList) =
      ["a".toList, ".".toList, "b".toList, "is".toList, "\"x y\"".toList] := by decide +kernel
  have hblank : ∀ c ∈ [' '], isWhite c = true := List.forall_mem_singleton.mpr (by decide)
  have hbreak : ∀ c ∈ ['\n'], isWhite c = true := List.forall_mem_singleton.mpr (by decide)
  have hindent : ∀ c ∈ ['\t'], isWhite c = true := List.forall_mem_singleton.mpr (by decide)
  have hspaced : IsRespaced "a.b is\"x y\"".toList "\ta . b\nis \"x y\" ".toList := by
    refine ⟨[], ['\t'], "a.b is\"x y\"".toList, "a . b\nis \"x y\" ".toList, rfl, rfl,
      List.forall_mem_nil _, hindent, ?_⟩
    rw [htexts]
    exact .cons [] [' '] (List.forall_mem_nil _) hblank (by simp) <|
      .cons [] [' '] (List.forall_mem_nil _) hblank (by simp) <|
      .cons [' '] ['\n'] hblank hbreak (by simp) <|
      .cons [] [' '] (List.forall_mem_nil _) hblank (by simp) <|
      .cons [] [' '] (List.forall_mem_nil _) hblank (by simp) .nil
  have hread : (read 64 "a.b is\"x y\"").isOk = true := by decide +kernel
  obtain ⟨hkinds, hreads⟩ := read_respaced hspaced
  refine ⟨hspaced, hkinds, ?_⟩
  rcases hreads 64 with h | ⟨d, d', hd, -⟩
  · exact h
  · rw [hd] at hread
    cases hread

end Condition

end GameCondition
