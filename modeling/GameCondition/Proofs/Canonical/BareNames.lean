import GameCondition.Proofs.Canonical.NormalForm

/-! # Bare names

A name without its determiners, and with single blanks between its other words, is its bare name. In
lower case that is the phrase it is registered under (`phraseWords_eq`), and it is what the steps
for determiners and white space leave of the name, up to white space around it
(`exists_dropDeterminers_eq`), provided that a determiner is found only where it is a word of its
own, with white space around it (`DeterminersAreWords`).
-/

namespace GameCondition

/-- The words of a name that are no determiners. -/
def bareWords (cs : List Char) : List (List Char) :=
  (words cs).filter fun w => !determiners.contains (lowerText w)

/-- A name without determiners and with single blanks. -/
def bareName (cs : List Char) : List Char :=
  joinWords ' ' (bareWords cs)

variable {cs w : List Char}

theorem isUnspaced_of_mem_bareWords (h : w ∈ bareWords cs) : IsUnspaced w :=
  isUnspaced_of_mem_words (List.mem_filter.mp h).1

/-- A bare name begins and ends with something else than white space. -/
theorem bareName_ends (cs : List Char) : (bareName cs).head?.any isWhite = false ∧
    (bareName cs).getLast?.any isWhite = false := by
  have hall : ∀ c ∈ (bareWords cs).flatten, isWhite c = false := by
    intro c hc
    obtain ⟨w, hw, hc⟩ := List.mem_flatten.mp hc
    exact (isUnspaced_of_mem_bareWords hw).2 c hc
  rw [bareName, head?_joinWords fun _ => isUnspaced_of_mem_bareWords,
    getLast?_joinWords fun _ => isUnspaced_of_mem_bareWords]
  exact ink_ends_of_forall hall

theorem bareName_ne_nil (h : bareWords cs ≠ []) : bareName cs ≠ [] := by
  have hunspaced : ∀ w ∈ bareWords cs, IsUnspaced w := fun _ => isUnspaced_of_mem_bareWords
  rw [bareName]
  generalize bareWords cs = ws at h hunspaced
  obtain ⟨w, ws, rfl⟩ := List.exists_cons_of_ne_nil h
  obtain ⟨c, cs, hjoined, -⟩ := exists_joinWords_eq_cons hunspaced
  rw [hjoined]
  exact List.cons_ne_nil c cs

theorem words_bareName (cs : List Char) : words (bareName cs) = bareWords cs :=
  words_joinWords fun _ => isUnspaced_of_mem_bareWords

/-- The words of a phrase are those of the bare name in lower case. -/
theorem phraseWords_eq (cs : List Char) : phraseWords cs = (bareWords cs).map lowerText := by
  rw [phraseWords, bareWords, List.filter_map]
  rfl

/-- A bare name is the same phrase as the name. -/
theorem phraseWords_bareName (cs : List Char) : phraseWords (bareName cs) = phraseWords cs := by
  have hsame : bareWords (bareName cs) = bareWords cs := by
    rw [bareWords, words_bareName, bareWords, List.filter_filter]
    simp only [Bool.and_self]
  rw [phraseWords_eq, hsame, phraseWords_eq]

theorem bareWords_white_append {gap : List Char} (hgap : ∀ c ∈ gap, isWhite c = true)
    (cs : List Char) : bareWords (gap ++ cs) = bareWords cs := by
  rw [bareWords, words_white_append hgap, bareWords]

theorem bareWords_append {rest : List Char} (hw : IsUnspaced w)
    (hrest : rest.head?.all isWhite = true) : bareWords (w ++ rest) =
      if lowerText w ∈ determiners then bareWords rest else w :: bareWords rest := by
  rw [bareWords, words_append hw.1 hw.2 hrest, List.filter_cons, bareWords]
  by_cases h : lowerText w ∈ determiners
  · simp [h]
  · simp [h]

namespace Canonical

/-- Determiners are found in a name only where they are words of their own. -/
def DeterminersAreWords (cs : List Char) : Prop :=
  ∀ w ∈ words cs, lowerText w ∈ determiners ∨ AppliesNowhere determiner none w

instance (cs : List Char) : Decidable (DeterminersAreWords cs) :=
  inferInstanceAs (Decidable (∀ w ∈ words cs, _))

variable {before : Option Char} {rest : List Char}

theorem determiner_white : ∀ before c cs, isWhite c = true → determiner before (c :: cs) = none :=
  rule_white isLetterPhrase_of_mem_determinerPhrases fun _ _ => determiner_eq_none_iff

/-- A word that is a determiner in lower case is one for the rule. -/
theorem map_foldChar_of_mem_determiners (h : lowerText w ∈ determiners) :
    [lowerText w] ∈ determinerPhrases ∧ w.map foldChar = (lowerText w).map foldChar := by
  have hascii : ∀ u ∈ determiners,
      (u.all fun d => Nat.blt d.toNat 128 && d != 'k') = true ∧ u.map foldChar = u := by
    decide
  obtain ⟨hall, hfold⟩ := hascii _ h
  have hletters : ∀ d ∈ lowerText w, d.toNat < 128 ∧ d ≠ 'k' := by
    intro d hd
    have hletter := List.all_eq_true.mp hall d hd
    rwa [Bool.and_eq_true, Nat.blt_eq, bne_iff_ne] at hletter
  exact ⟨List.mem_map_of_mem h, (map_foldChar_of_ascii hletters).trans hfold.symm⟩

/-- Where white space follows a word, the characters of words that a text begins with are in it. -/
theorem exists_of_append_word {taken b : List Char} (htaken : ∀ c ∈ taken, isWordChar c = true)
    (hrest : rest.head?.all isWhite = true) (h : cs ++ rest = taken ++ b) :
    ∃ b', cs = taken ++ b' ∧ b = b' ++ rest := by
  rcases List.append_eq_append_iff.mp h with ⟨a, rfl, rfl⟩ | ⟨a, rfl, rfl⟩
  · cases a with
    | nil => exact ⟨[], by simp, rfl⟩
    | cons c a =>
      have hword := htaken c (List.mem_append_right cs List.mem_cons_self)
      have hwhite : isWhite c = true := hrest
      rw [isWordChar_of_isWhite hwhite] at hword
      cases hword
  · exact ⟨a, rfl, rfl⟩

/-- The rule for determiners passes over a word in which it finds none. -/
theorem passesOver_determiner (h : AppliesNowhere determiner none w)
    (hbefore : before.any isWordChar = false) (hrest : rest.head?.all isWhite = true) :
    PassesOver determiner rest before w := by
  have hnowhere : StandsNowhere determinerPhrases none w :=
    (appliesNowhere_iff_standsNowhere fun _ _ => determiner_eq_none_iff).mp h
  have hnowhere' : StandsNowhere determinerPhrases before w := hnowhere.congr_before hbefore
  refine hnowhere'.passesOver (fun _ _ => determiner_eq_none_iff) ?_
  intro phrase hphrase taken hspelled a b heq
  exact exists_of_append_word (isWordChar_of_mem_determinerPhrases phrase hphrase taken hspelled)
    hrest heq

/-- A determiner is dropped with some white space after it. -/
theorem exists_determiner_eq_some (h : lowerText w ∈ determiners)
    (hbefore : before.any isWordChar = false) (hrest : rest.head?.all isWhite = true) :
    ∃ gap behind, rest = gap ++ behind ∧ (∀ c ∈ gap, isWhite c = true) ∧
      determiner before (w ++ rest) = some ⟨[], behind⟩ := by
  obtain ⟨hphrase, hfold⟩ := map_foldChar_of_mem_determiners h
  have hspelled : Spelled [lowerText w] w := .last hfold
  have hcloses : rest.head?.any isWordChar = false := by
    cases rest with
    | nil => rfl
    | cons c rest => exact isWordChar_of_isWhite hrest
  have hstands : Stands determinerPhrases before (w ++ rest) :=
    ⟨_, hphrase, w, rest, rfl, hspelled, hbefore, hcloses⟩
  cases hr : determiner before (w ++ rest) with
  | none => exact absurd hstands (determiner_eq_none_iff.mp hr)
  | some r =>
    obtain ⟨text, behind⟩ := r
    obtain ⟨phrase', hphrase', taken, gap, heq, hspelled', hgap, rfl, -, hcloses'⟩ :=
      determiner_eq_some hr
    -- what is dropped is the word, as the word goes no further
    have hword := isWordChar_of_mem_determinerPhrases _ hphrase w hspelled
    have htaken := isWordChar_of_mem_determinerPhrases _ hphrase' taken hspelled'
    obtain ⟨b, rfl, hbehind⟩ := exists_of_append_word htaken hrest heq
    cases b with
    | nil => exact ⟨gap, behind, hbehind.symm, hgap, rfl⟩
    | cons c b =>
      have hc := hword c (List.mem_append_right taken List.mem_cons_self)
      rw [hbehind] at hcloses'
      have hends : isWordChar c = false := hcloses'
      rw [hc] at hends
      cases hends

theorem head?_rewriteFrom_determiner (hrest : rest.head?.all isWhite = true) :
    (rewriteFrom determiner 0 before rest).head?.all isWhite = true := by
  cases rest with
  | nil => rfl
  | cons c rest =>
    rw [rewriteFrom, determiner_white before c rest hrest]
    exact hrest

/-- Dropping determiners leaves the other words, wherever in a text the name begins. -/
theorem words_rewriteFrom_determiner (hcs : DeterminersAreWords cs)
    (hbefore : before.any isWordChar = false ∨ cs.head?.all isWhite = true) :
    words (rewriteFrom determiner 0 before cs) = bareWords cs := by
  induction cs using words_induction generalizing before with
  | white gap hgap =>
    rw [rewriteFrom_white determiner_white hgap, bareWords, words_of_white hgap]
    rfl
  | word gap w rest hgap hw hrest ih =>
    have hwords : words (gap ++ (w ++ rest)) = w :: words rest := by
      rw [words_white_append hgap, words_append hw.1 hw.2 hrest]
    rw [DeterminersAreWords, hwords, List.forall_mem_cons] at hcs
    -- behind the word it does not matter what stands before: `rest` begins with white space or ends
    have htail : ∀ before, words (rewriteFrom determiner 0 before rest) = bareWords rest :=
      fun _ => ih hcs.2 (.inr hrest)
    have hopens : (gap.getLast?.or before).any isWordChar = false := by
      refine getLast?_or_white hgap fun hnil => hbefore.resolve_right fun hhead => ?_
      obtain ⟨c, w, rfl⟩ := List.exists_cons_of_ne_nil hw.1
      rw [hnil] at hhead
      have hc : isWhite c = true := hhead
      rw [hw.2 c List.mem_cons_self] at hc
      cases hc
    rw [rewriteFrom_of_passesOver (passesOver_white determiner_white hgap before _),
      words_white_append hgap, bareWords_white_append hgap]
    generalize gap.getLast?.or before = before at hopens
    by_cases hdet : lowerText w ∈ determiners
    -- a determiner goes with the white space behind it, of which `htail` still speaks
    · obtain ⟨gap', behind, rfl, hgap', hr⟩ := exists_determiner_eq_some hdet hopens hrest
      rw [bareWords_append hw hrest, if_pos hdet, ← htail w.getLast?,
        rewriteFrom_of_passesOver (passesOver_white determiner_white hgap' _ behind),
        words_white_append hgap', ← List.getLast?_append]
      obtain ⟨c, w, rfl⟩ := List.exists_cons_of_ne_nil hw.1
      rw [← List.append_assoc] at hr ⊢
      rw [List.cons_append] at hr ⊢
      rw [rewriteFrom_replace hr]
      rfl
    · have hnone := hcs.1.resolve_left hdet
      rw [rewriteFrom_of_passesOver (passesOver_determiner hnone hopens hrest),
        words_append hw.1 hw.2 (head?_rewriteFrom_determiner hrest), htail,
        bareWords_append hw hrest, if_neg hdet]

/-- What the steps for determiners and white space leave of a name. -/
theorem exists_dropDeterminers_eq (h : DeterminersAreWords cs) :
    ∃ a b, dropDeterminers cs = a ++ (bareName cs ++ b) ∧ (∀ c ∈ a, isWhite c = true) ∧
      ∀ c ∈ b, isWhite c = true := by
  have hspace := Rewrites.rewriteBy whiteSpace_plain.advances (rewriteBy determiner cs)
  have hwords : words (dropDeterminers cs) = bareWords cs :=
    (words_of_whiteSpace hspace).trans (words_rewriteFrom_determiner h (.inl rfl))
  obtain ⟨a, b, heq, ha, hb⟩ := (evenlySpaced_of_whiteSpace hspace).exists_eq_joinWords
  refine ⟨a, b, ?_, ha, hb⟩
  rw [bareName, ← hwords]
  exact heq

end Canonical

end GameCondition
