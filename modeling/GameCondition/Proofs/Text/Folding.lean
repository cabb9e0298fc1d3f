import GameCondition.Proofs.Text.Partner

/-! # Lowering and folding

Lowering a text and folding its characters go their own ways: a text is lowered with `İ` as two
characters and with two forms of small sigma, and letters that folding does not know yet are
lowered all the same. Elsewhere they agree: a lowered text folds to what the text itself folds to
(`map_foldChar_lowerText`), and neither of them makes or removes white space. A text need not be
lowered twice, whichever sigma ends a word (`lowerText_lowerText`).
-/

namespace GameCondition

/-! ## Representatives -/

/-- The letters that have another letter as representative, though both are lower case. -/
def variantBits : Nat :=
  tableBits (variantLetters.map fun entry => (entry.1, entry.1))

/-- Such a letter has no partner in lower case, and is not the partner of another. -/
theorem bits_variantLetters : variantBits &&& (casedBits ||| partnerBits) = 0 := by
  decide +kernel

theorem testBit_variantBits {n m : Nat} (h : variantLetters.lookup n = some m) :
    variantBits.testBit n = true := by
  rw [variantBits, testBit_tableBits, inRanges, List.any_map, List.any_eq_true]
  exact ⟨_, mem_variantLetters h, by simp⟩

theorem lookup_variantLetters_of_cased {n : Nat}
    (h : casedBits.testBit n = true ∨ partnerBits.testBit n = true) :
    variantLetters.lookup n = none := by
  rw [Option.eq_none_iff_forall_ne_some]
  intro m hm
  have hapart := testBit_of_land_eq_zero bits_variantLetters (testBit_variantBits hm)
  rw [Nat.testBit_or, Bool.or_eq_false_iff] at hapart
  rcases h with hcased | hpartner
  · rw [hapart.1] at hcased
    cases hcased
  · rw [hapart.2] at hpartner
    cases hpartner

/-- A partner in lower case is its own representative. -/
theorem foldChar_of_partnerBits {c : Char} (hc : ¬ c.toNat < 128)
    (h : partnerBits.testBit c.toNat = true) : foldChar c = c := by
  have hself : lowerPartner c = c :=
    lowerPartner_of_not_cased hc (of_partnerBits h (Nat.le_of_not_lt hc)).2.1
  rw [foldChar, if_neg hc, lookup_variantLetters_of_cased (.inr h)]
  dsimp only
  rw [hself, ite_self]

/-- A character and its partner have one representative, unless folding does not know the
character yet. -/
theorem foldChar_lowerPartner {c : Char} (h : isRecent c = true → lowerPartner c = c) :
    foldChar (lowerPartner c) = foldChar c := by
  by_cases hc : c.toNat < 128
  · exact forall_ascii (P := fun c => foldChar (lowerPartner c) = foldChar c) (by decide) hc
  · rcases lowerPartner_cases hc with hself | rfl | ⟨hcased, hpartner, hbound⟩
    · rw [hself]
    · decide
    · by_cases hrecent : isRecent c = true
      · rw [h hrecent]
      · rw [foldChar_of_partnerBits (Nat.not_lt_of_le hbound) hpartner, foldChar, if_neg hc,
          lookup_variantLetters_of_cased (.inl hcased)]
        exact (if_neg hrecent).symm

theorem isWhite_variantLetters : ∀ entry ∈ variantLetters,
    isWhite (Char.ofNat entry.1) = false ∧ isWhite (Char.ofNat entry.2) = false := by
  decide

/-- Folding makes and removes no white space. -/
@[simp] theorem isWhite_foldChar (c : Char) : isWhite (foldChar c) = isWhite c := by
  by_cases hc : c.toNat < 128
  · exact forall_ascii (P := fun c => isWhite (foldChar c) = isWhite c) (by decide) hc
  · rw [foldChar, if_neg hc]
    cases hlookup : variantLetters.lookup c.toNat with
    | none =>
      dsimp only
      split
      · rfl
      · exact isWhite_lowerPartner c
    | some n =>
      obtain ⟨hwhite, hwhite'⟩ := isWhite_variantLetters _ (mem_variantLetters hlookup)
      rw [Char.ofNat_toNat] at hwhite
      exact hwhite'.trans hwhite.symm

theorem ofNat_variantLetters : ∀ entry ∈ variantLetters,
    128 ≤ (Char.ofNat entry.2).toNat ∨ entry.1 = 0x17F := by
  decide

/-- Besides the characters of ASCII only the long `s` and the Kelvin sign fold to one. -/
theorem foldChar_ascii_cases {c : Char} (h : (foldChar c).toNat < 128) :
    c.toNat < 128 ∨ c = 'ſ' ∨ c = '\u212A' := by
  refine Decidable.or_iff_not_imp_left.mpr fun hc => ?_
  rw [foldChar, if_neg hc] at h
  cases hlookup : variantLetters.lookup c.toNat with
  | some n =>
    rw [hlookup] at h
    rcases ofNat_variantLetters _ (mem_variantLetters hlookup) with hlarge | hlong
    · exact absurd h (Nat.not_lt_of_le hlarge)
    · have hlong : c.toNat = 0x17F := hlong
      exact .inl (by rw [← c.ofNat_toNat, hlong])
  | none =>
    rw [hlookup] at h
    dsimp only at h
    split at h
    · exact absurd h hc
    · rcases lowerPartner_cases hc with hself | hkelvin | ⟨-, -, hlarge⟩
      · rw [hself] at h
        exact absurd h hc
      · exact .inr hkelvin
      · exact absurd h (Nat.not_lt_of_le hlarge)

/-- What folds to a character of words of ASCII is one itself. -/
theorem isWordChar_of_foldChar {c : Char} (hascii : (foldChar c).toNat < 128)
    (h : isWordChar (foldChar c) = true) : isWordChar c = true := by
  rcases foldChar_ascii_cases hascii with hc | rfl | rfl
  · exact forall_ascii (P := fun c => isWordChar (foldChar c) = true → isWordChar c = true)
      (by decide) hc h
  · decide
  · exact isWordChar_of_foldsToLetter (by decide)

/-! ## Lowered texts -/

/-- A lowered text reads as the text does to whoever cannot tell a character from its partner, nor
the two forms of small sigma. -/
theorem map_lowerText {α : Type} {p : Char → α} {cs : List Char} (hsigma : p 'ς' = p 'σ')
    (h : ∀ c ∈ cs, c ≠ 'İ' ∧ p (lowerPartner c) = p c) : (lowerText cs).map p = cs.map p := by
  suffices hafter : ∀ before, (lowerAfter before cs).map p = cs.map p from hafter []
  induction cs with
  | nil => exact fun _ => rfl
  | cons c cs ih =>
    intro before
    obtain ⟨⟨hdotted, hpartner⟩, hcs⟩ := List.forall_mem_cons.mp h
    have hhead : (if c = 'Σ' then [lowerSigma before cs] else lowerChar c).map p = [p c] := by
      split
      · rename_i hcapital
        subst hcapital
        have hsmall : lowerPartner 'Σ' = 'σ' := by decide
        rw [hsmall] at hpartner
        rw [List.map_singleton, lowerSigma]
        split
        · rw [hsigma, hpartner]
        · rw [hpartner]
      · rw [lowerChar, if_neg hdotted, List.map_singleton, hpartner]
    rw [lowerAfter, List.map_append, hhead, ih hcs, List.map_cons, List.singleton_append]

/-- Whether folding and lowering agree on a character. -/
def FoldsAsLowered (c : Char) : Prop :=
  c ≠ 'İ' ∧ (isRecent c = true → lowerPartner c = c)

instance (c : Char) : Decidable (FoldsAsLowered c) :=
  inferInstanceAs (Decidable (_ ∧ _))

/-- Lowering a text changes case only. -/
theorem map_foldChar_lowerText {cs : List Char} (h : ∀ c ∈ cs, FoldsAsLowered c) :
    (lowerText cs).map foldChar = cs.map foldChar :=
  map_lowerText (by decide) fun c hc => ⟨(h c hc).1, foldChar_lowerPartner (h c hc).2⟩

/-- What is said of every character of a lowered text is said of the small sigmas and of what the
other characters are lowered to. -/
theorem forall_mem_lowerText {P : Char → Prop} {cs : List Char}
    (hsigma : ∀ before after, P (lowerSigma before after))
    (h : ∀ c ∈ cs, ∀ d ∈ lowerChar c, P d) : ∀ d ∈ lowerText cs, P d := by
  suffices hafter : ∀ before, ∀ d ∈ lowerAfter before cs, P d from hafter []
  induction cs with
  | nil => exact fun _ => List.forall_mem_nil _
  | cons c cs ih =>
    intro before
    obtain ⟨hc, hcs⟩ := List.forall_mem_cons.mp h
    rw [lowerAfter, List.forall_mem_append]
    refine ⟨?_, ih hcs (c :: before)⟩
    split
    · exact List.forall_mem_singleton.mpr (hsigma before cs)
    · exact hc

theorem isWhite_of_mem_lowerText {cs : List Char} (h : ∀ c ∈ cs, isWhite c = false) :
    ∀ d ∈ lowerText cs, isWhite d = false := by
  refine forall_mem_lowerText ?_ ?_
  · intro before after
    rw [lowerSigma]
    split <;> decide
  · intro c hc
    rw [lowerChar]
    split
    · rw [List.forall_mem_cons, List.forall_mem_singleton]
      decide
    · rw [List.forall_mem_singleton, isWhite_lowerPartner]
      exact h c hc

/-- Lowering brings no quotes into a text. -/
theorem noQuote_lowerText (cs : List Char) (h : ∀ c ∈ cs, c ≠ '"') :
    ∀ d ∈ lowerText cs, d ≠ '"' := by
  refine forall_mem_lowerText ?_ ?_
  · intro before after
    rw [lowerSigma]
    split <;> decide
  · intro c hc
    rw [lowerChar]
    split
    · decide
    · rw [List.forall_mem_singleton]
      exact fun hquote => h c hc ((lowerPartner_eq_iff (by decide)).mp hquote)

theorem lowerText_ne_nil {cs : List Char} (h : cs ≠ []) : lowerText cs ≠ [] := by
  obtain ⟨c, cs, rfl⟩ := List.exists_cons_of_ne_nil h
  refine List.append_ne_nil_of_left_ne_nil ?_ _
  split
  · exact List.cons_ne_nil _ _
  · rw [lowerChar]
    split <;> exact List.cons_ne_nil _ _

/-- Whether lowering leaves a character as it is, wherever it stands. -/
def IsSmall (c : Char) : Prop :=
  c ≠ 'Σ' ∧ lowerChar c = [c]

theorem isSmall_lowerPartner {c : Char} (hc : c ≠ 'İ') : IsSmall (lowerPartner c) := by
  have htwice := lowerPartner_lowerPartner c
  constructor
  · intro hcapital
    rw [hcapital] at htwice
    exact absurd htwice (by decide)
  · rw [lowerChar, if_neg (mt (lowerPartner_eq_dotted_iff c).mp hc), htwice]

theorem isSmall_lowerSigma (before after : List Char) : IsSmall (lowerSigma before after) := by
  rw [lowerSigma]
  split
  · exact ⟨by decide, by decide⟩
  · exact ⟨by decide, by decide⟩

/-- What a character is lowered to is not lowered any further. -/
theorem isSmall_of_mem_lowerChar {c d : Char} (h : d ∈ lowerChar c) : IsSmall d := by
  rw [lowerChar] at h
  split at h
  · have hdotted : ∀ d ∈ ['i', '\u0307'], d ≠ 'Σ' ∧ lowerChar d = [d] := by decide
    exact hdotted d h
  · rename_i hc
    rw [List.mem_singleton.mp h]
    exact isSmall_lowerPartner hc

theorem lowerText_of_isSmall {cs : List Char} (h : ∀ c ∈ cs, IsSmall c) : lowerText cs = cs := by
  suffices hafter : ∀ before, lowerAfter before cs = cs from hafter []
  induction cs with
  | nil => exact fun _ => rfl
  | cons c cs ih =>
    intro before
    obtain ⟨⟨hcapital, hself⟩, hcs⟩ := List.forall_mem_cons.mp h
    rw [lowerAfter, if_neg hcapital, hself, ih hcs, List.singleton_append]

/-- Lowering a text once is enough. -/
theorem lowerText_lowerText (cs : List Char) : lowerText (lowerText cs) = lowerText cs :=
  lowerText_of_isSmall
    (forall_mem_lowerText isSmall_lowerSigma fun _ _ _ => isSmall_of_mem_lowerChar)

/-- What is lowered to characters of ASCII other than `k` was written with such characters. -/
theorem map_foldChar_of_ascii {cs : List Char} (h : ∀ d ∈ lowerText cs, d.toNat < 128 ∧ d ≠ 'k') :
    cs.map foldChar = lowerText cs := by
  suffices hafter : ∀ before, (∀ d ∈ lowerAfter before cs, d.toNat < 128 ∧ d ≠ 'k') →
      cs.map foldChar = lowerAfter before cs from hafter [] h
  clear h
  induction cs with
  | nil => exact fun _ _ => rfl
  | cons c cs ih =>
    intro before h
    rw [lowerAfter, List.forall_mem_append] at h
    obtain ⟨hc, hcs⟩ := h
    rw [lowerAfter, List.map_cons, ih (c :: before) hcs]
    split at hc
    · -- neither form of small sigma is in ASCII
      rw [List.forall_mem_singleton, lowerSigma] at hc
      split at hc <;> exact absurd hc.1 (by decide)
    · rename_i hcapital
      rw [if_neg hcapital]
      rw [lowerChar] at hc ⊢
      split at hc
      · exact absurd (hc '\u0307' (by decide)).1 (by decide)
      · rename_i hdotted
        rw [List.forall_mem_singleton] at hc
        have hlower : c.toLower = lowerPartner c := (lowerPartner_eq_ascii_iff hc.1 hc.2).mp rfl
        have hascii : c.toNat < 128 := by
          refine Decidable.by_contra fun hlarge => ?_
          rw [toLower_of_not_ascii hlarge] at hlower
          rw [← hlower] at hc
          exact hlarge hc.1
        rw [if_neg hdotted, ← hlower, foldChar, if_pos hascii, List.singleton_append]

end GameCondition
