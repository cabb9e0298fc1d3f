import GameCondition.Proofs.Canonical.Rules

/-! # The normal form of plain text

After determiners are dropped, white space is evened out and operators are joined, none of these
steps finds anything more to do (`isNormal_joinOperators_dropDeterminers`,
`IsNormal.joinOperators_dropDeterminers`): what one step puts in cannot complete a phrase that a
step looks for, since a dropped determiner leaves no word edge behind that was not there, and a
joined operator has an underscore in it, which no phrase has.
-/

namespace GameCondition.Canonical

variable {before before' : Option Char} {cs out taken text rest : List Char}

/-- A phrase without underscores that ends with a word cannot begin with a word that has one. -/
theorem not_append_eq_append (hall : ∀ c ∈ text, isWordChar c = true) (hmem : '_' ∈ text)
    (htaken : ∀ c ∈ taken, c ≠ '_') (hrest : rest.head?.any isWordChar = false) :
    text ++ out ≠ taken ++ rest := by
  intro heq
  rcases List.append_eq_append_iff.mp heq with ⟨a, rfl, rfl⟩ | ⟨a, rfl, rfl⟩
  · exact htaken '_' (List.mem_append_left a hmem) rfl
  · rw [List.forall_mem_append] at hall
    rcases List.mem_append.mp hmem with hmem | hmem
    · exact htaken '_' hmem rfl
    · obtain ⟨c, cs, rfl⟩ := List.exists_cons_of_ne_nil (List.ne_nil_of_mem hmem)
      have hc : isWordChar c = false := hrest
      rw [hall.2 c List.mem_cons_self] at hc
      cases hc

/-! ## Nothing is left to do -/

/-- The phrases that plain text is searched for. -/
def searchedPhrases : List (List (List Char)) :=
  operatorPhrases ++ determinerPhrases

/-- The phrases searched for are of letters. -/
theorem isLetterPhrase_of_mem_searchedPhrases :
    ∀ phrase ∈ searchedPhrases, IsLetterPhrase phrase := by
  intro phrase hphrase
  rcases List.mem_append.mp hphrase with h | h
  · exact isLetterPhrase_of_mem_operatorPhrases phrase h
  · exact isLetterPhrase_of_mem_determinerPhrases phrase h

/-- A spelled determiner is one word. -/
theorem isWordChar_of_mem_determinerPhrases : ∀ phrase ∈ determinerPhrases, ∀ taken,
    Spelled phrase taken → ∀ c ∈ taken, isWordChar c = true := by
  intro phrase hphrase taken hspelled
  obtain ⟨w, -, rfl⟩ := List.mem_map.mp hphrase
  exact hspelled.isWordChar_of_single (isLetterPhrase_of_mem_determinerPhrases _ hphrase)

/-- Inside a word no determiner is dropped. -/
theorem beginsAlike_of_determiner (h : Rewrites determiner before cs out)
    (hbefore : before.any isWordChar = true) :
    BeginsAlike (fun c => isWordChar c = true) cs out := by
  refine h.beginsAlike (P := fun before => before.any isWordChar = true) hbefore
    (fun c hc => hc) ?_
  intro before taken text rest hword hr
  obtain ⟨_, _, _, _, -, -, -, -, hopens, -⟩ := determiner_eq_some hr
  rw [hopens] at hword
  cases hword

/-- Once determiners are dropped there are none. The character before the rewritten text need not
be the one before the text itself, if no word begins there. -/
theorem standsNowhere_of_determiner (h : Rewrites determiner before cs out)
    (hbefore : before'.any isWordChar = before.any isWordChar ∨
      cs.head?.any isWordChar = false) :
    StandsNowhere determinerPhrases before' out := by
  induction h generalizing before' with
  | nil => trivial
  | @keep before c cs out hnone hrewrites ih =>
    refine ⟨fun hstands => ?_, ih (.inl rfl)⟩
    obtain ⟨hopens, hword⟩ := hstands.edge isLetterPhrase_of_mem_determinerPhrases
    have hword : isWordChar c = true := hword
    rcases hbefore with hbefore | hhead
    · exact determiner_eq_none_iff.mp hnone (hstands.of_beginsAlike
        isLetterPhrase_of_mem_determinerPhrases isWordChar_of_mem_determinerPhrases
        (hbefore ▸ hopens) (beginsAlike_of_determiner hrewrites hword))
    · have hhead : isWordChar c = false := hhead
      rw [hword] at hhead
      cases hhead
  | @replace before taken text rest out _ hr hrewrites ih =>
    obtain ⟨phrase, hphrase, word, gap, heq, hspelled, hgap, rfl, hopens, hcloses⟩ :=
      determiner_eq_some hr
    have hletters := isLetterPhrase_of_mem_determinerPhrases phrase hphrase
    rw [← List.append_assoc, List.append_cancel_right_eq] at heq
    subst heq
    -- the determiner begins a word, so the character before it is the one before the text
    have hopens' : before'.any isWordChar = false := by
      rcases hbefore with hbefore | hhead
      · rw [hbefore, hopens]
      · rw [List.append_assoc, hspelled.head?_any hletters] at hhead
        cases hhead
    refine ih ?_
    cases hlast : gap.getLast? with
    | none =>
      rw [List.getLast?_eq_none_iff.mp hlast] at hcloses
      exact .inr hcloses
    | some d =>
      left
      rw [List.getLast?_append, hlast, hopens']
      exact (isWordChar_of_isWhite (hgap d (List.mem_of_getLast? hlast))).symm

/-- Evening out white space keeps words. -/
theorem beginsAlike_of_whiteSpace (h : Rewrites whiteSpace before cs out) :
    BeginsAlike (fun c => isWordChar c = true) cs out := by
  refine h.beginsAlike (P := fun _ => True) trivial (fun _ _ => trivial) ?_
  intro before gap text rest _ hr out taken rest' hout hall hrest'
  obtain ⟨gap', heq, hne, hwhite, -, rfl⟩ := whiteSpace_eq_some.mp hr
  obtain rfl := List.append_cancel_right heq
  cases taken with
  | nil =>
    obtain ⟨c, gap, rfl⟩ := List.exists_cons_of_ne_nil hne
    exact ⟨_, rfl, isWordChar_of_isWhite (hwhite c List.mem_cons_self)⟩
  | cons d taken =>
    obtain ⟨rfl, -⟩ := List.cons.inj hout
    exact absurd (hall ' ' List.mem_cons_self) (by decide)

/-- Evening out white space leaves no determiners where there were none. -/
theorem standsNowhere_of_whiteSpace (h : Rewrites whiteSpace before cs out)
    (hbefore : before'.any isWordChar = before.any isWordChar)
    (hcs : StandsNowhere determinerPhrases before cs) :
    StandsNowhere determinerPhrases before' out := by
  induction h generalizing before' with
  | nil => trivial
  | keep _ hrewrites ih =>
    refine ⟨fun hstands => ?_, ih rfl hcs.2⟩
    have hopens := (hstands.edge isLetterPhrase_of_mem_determinerPhrases).1
    exact hcs.1 (hstands.of_beginsAlike isLetterPhrase_of_mem_determinerPhrases
      isWordChar_of_mem_determinerPhrases (hbefore ▸ hopens) (beginsAlike_of_whiteSpace hrewrites))
  | @replace before gap text rest out hne hr _ ih =>
    obtain ⟨gap', heq, -, hwhite, -, rfl⟩ := whiteSpace_eq_some.mp hr
    obtain rfl := List.append_cancel_right heq
    have hlast : gap.getLast? = some (gap.getLast hne) := List.getLast?_eq_some_getLast hne
    have hblank : isWordChar (gap.getLast hne) = false :=
      isWordChar_of_isWhite (hwhite _ (List.getLast_mem hne))
    refine ⟨fun hstands => ?_, ih ?_ ?_⟩
    · have hblank : isWordChar ' ' = true :=
        (hstands.edge isLetterPhrase_of_mem_determinerPhrases).2
      exact absurd hblank (by decide)
    · rw [hlast]
      exact hblank.symm
    · have hrest := hcs.of_append
      rwa [hlast, Option.some_or, ← hlast] at hrest

/-- Joining operators changes no text before an underscore. -/
theorem beginsAlike_of_operator (h : Rewrites operator before cs out) :
    BeginsAlike (fun c => c ≠ '_') cs out := by
  refine h.beginsAlike (P := fun _ => True) trivial (fun _ _ => trivial) ?_
  intro before taken text rest _ hr out taken' rest' hout hall hrest'
  obtain ⟨phrase, hphrase, word, -, hspelled, rfl, -⟩ := operator_eq_some hr
  obtain ⟨hword, -, hmem⟩ := operatorWord_of_mem hphrase hspelled
  exact absurd hout (not_append_eq_append hword hmem hall hrest')

/-- Once operators are joined there are none left to join, and no determiners if there were none. -/
theorem standsNowhere_of_operator (h : Rewrites operator before cs out)
    (hbefore : before'.any isWordChar = before.any isWordChar)
    (hcs : StandsNowhere determinerPhrases before cs) :
    StandsNowhere searchedPhrases before' out := by
  have hsearched := isLetterPhrase_of_mem_searchedPhrases
  have hplain : ∀ phrase ∈ searchedPhrases, ∀ taken, Spelled phrase taken → ∀ c ∈ taken, c ≠ '_' :=
    fun phrase hphrase taken hspelled => hspelled.ne_underscore (hsearched phrase hphrase)
  -- by induction on the rewriting; of the character before it only matters whether it is in a word
  induction h generalizing before' with
  | nil => trivial
  | @keep before c cs out hnone hrewrites ih =>
    refine ⟨fun hstands => ?_, ih rfl hcs.2⟩
    -- what stands in the output at a kept character would have stood in the input
    have hopens := (hstands.edge hsearched).1
    obtain ⟨phrase, hphrase, hfound⟩ := hstands.of_beginsAlike hsearched hplain (hbefore ▸ hopens)
      (beginsAlike_of_operator hrewrites)
    rcases List.mem_append.mp hphrase with hphrase | hphrase
    · exact operator_eq_none_iff.mp hnone ⟨phrase, hphrase, hfound⟩
    · exact hcs.1 ⟨phrase, hphrase, hfound⟩
  | @replace before taken text rest out hne hr _ ih =>
    obtain ⟨phrase, hphrase, word, heq, hspelled, rfl, -⟩ := operator_eq_some hr
    obtain rfl := List.append_cancel_right heq
    obtain ⟨hword, -, hmem⟩ := operatorWord_of_mem hphrase hspelled
    have hlast := hspelled.getLast?_any (isLetterPhrase_of_mem_operatorPhrases phrase hphrase)
    have hrest : StandsNowhere determinerPhrases taken.getLast? rest := by
      have happend := hcs.of_append
      rwa [List.getLast?_eq_some_getLast hne, Option.some_or,
        ← List.getLast?_eq_some_getLast hne] at happend
    obtain ⟨c, w, hcw⟩ := List.exists_cons_of_ne_nil (List.ne_nil_of_mem hmem)
    rw [hcw] at hword hmem ⊢
    have hwordLast : ((c :: w).getLast?).any isWordChar = true := by
      rw [List.getLast?_eq_some_getLast (List.cons_ne_nil c w)]
      exact hword _ (List.getLast_mem _)
    -- behind the joined operator as behind any word
    have htail : StandsNowhere searchedPhrases (w.getLast?.or (some c)) out := by
      rw [← getLast?_cons_or c w none, Option.or_none]
      exact ih (hwordLast.trans hlast.symm) hrest
    rw [List.forall_mem_cons] at hword
    refine ⟨?_, htail.word_append hsearched hword.1 hword.2⟩
    -- nothing is spelled across the underscore of the joined operator
    rintro ⟨phrase, hphrase, taken, rest, happend, hspelled, -, hcloses⟩
    exact not_append_eq_append (List.forall_mem_cons.mpr hword) hmem
      (hplain phrase hphrase taken hspelled) hcloses happend

/-! ## White space -/

/-- All white space in a text is single blanks. -/
def EvenlySpaced : List Char → Prop
  | [] => True
  | c :: cs => (isWhite c = true → c = ' ' ∧ cs.head?.any isWhite = false) ∧ EvenlySpaced cs

/-- The end of an evenly spaced text is evenly spaced. -/
theorem EvenlySpaced.of_append {a : List Char} (h : EvenlySpaced (a ++ cs)) : EvenlySpaced cs := by
  induction a with
  | nil => exact h
  | cons c a ih => exact ih h.2

/-- So is its front. -/
theorem EvenlySpaced.of_append_left {a : List Char} (h : EvenlySpaced (cs ++ a)) :
    EvenlySpaced cs := by
  induction cs with
  | nil => trivial
  | cons c cs ih =>
    refine ⟨fun hc => ⟨(h.1 hc).1, ?_⟩, ih h.2⟩
    cases cs with
    | nil => rfl
    | cons d cs => exact (h.1 hc).2

/-- A word may be put before an evenly spaced text. -/
theorem EvenlySpaced.word_append {w : List Char} (hw : ∀ c ∈ w, isWordChar c = true)
    (h : EvenlySpaced cs) : EvenlySpaced (w ++ cs) := by
  induction w with
  | nil => exact h
  | cons c w ih =>
    rw [List.forall_mem_cons] at hw
    refine ⟨fun hc => ?_, ih hw.2⟩
    rw [isWhite_of_isWordChar hw.1] at hc
    cases hc

/-- A text begins with white space, or with something else, when it did so before its white space
was evened out. -/
theorem map_head?_of_whiteSpace (h : Rewrites whiteSpace before cs out) :
    out.head?.map isWhite = cs.head?.map isWhite := by
  cases h with
  | nil => rfl
  | keep => rfl
  | replace hne hr =>
    obtain ⟨gap, heq, -, hwhite, -, rfl⟩ := whiteSpace_eq_some.mp hr
    obtain rfl := List.append_cancel_right heq
    obtain ⟨c, gap, rfl⟩ := List.exists_cons_of_ne_nil hne
    exact congrArg some (hwhite c List.mem_cons_self).symm

/-- The pass over white space leaves whether a text begins with it. -/
theorem head?_of_whiteSpace (h : Rewrites whiteSpace before cs out) :
    out.head?.any isWhite = cs.head?.any isWhite := by
  have hhead := congrArg (Option.any id) (map_head?_of_whiteSpace h)
  rwa [Option.any_map, Option.any_map] at hhead

/-- Evening out white space keeps words. -/
theorem words_of_whiteSpace (h : Rewrites whiteSpace before cs out) : words out = words cs := by
  induction h with
  | nil => rfl
  | keep _ hrewrites ih => exact words_cons_congr (map_head?_of_whiteSpace hrewrites) ih _
  | replace _ hr _ ih =>
    obtain ⟨gap, heq, -, hwhite, -, rfl⟩ := whiteSpace_eq_some.mp hr
    obtain rfl := List.append_cancel_right heq
    rw [List.singleton_append, words_white_cons (by decide), ih, words_white_append hwhite]

/-- The pass over white space leaves an evenly spaced text. -/
theorem evenlySpaced_of_whiteSpace (h : Rewrites whiteSpace before cs out) : EvenlySpaced out := by
  induction h with
  | nil => trivial
  | keep hnone _ ih =>
    refine ⟨fun hc => ?_, ih⟩
    rw [isWhite_of_whiteSpace_eq_none hnone] at hc
    cases hc
  | replace _ hr hrewrites ih =>
    obtain ⟨gap, -, -, -, hrest, rfl⟩ := whiteSpace_eq_some.mp hr
    exact ⟨fun _ => ⟨rfl, (head?_of_whiteSpace hrewrites).trans hrest⟩, ih⟩

/-- White space in an evenly spaced text is a single blank. -/
theorem EvenlySpaced.eq_blank {a : List Char} (h : EvenlySpaced (a ++ cs)) (hne : a ≠ [])
    (ha : ∀ c ∈ a, isWhite c = true) : a = [' '] := by
  obtain ⟨c, a, rfl⟩ := List.exists_cons_of_ne_nil hne
  rw [List.forall_mem_cons] at ha
  obtain ⟨rfl, hnext⟩ := h.1 ha.1
  cases a with
  | nil => rfl
  | cons d a =>
    have hd : isWhite d = false := hnext
    rw [ha.2 d List.mem_cons_self] at hd
    cases hd

/-- Where white space is even there are single blanks between words. -/
theorem EvenlySpaced.exists_eq_joinWords (h : EvenlySpaced cs) :
    ∃ a b, cs = a ++ (joinWords ' ' (words cs) ++ b) ∧ (∀ c ∈ a, isWhite c = true) ∧
      ∀ c ∈ b, isWhite c = true := by
  induction cs using words_induction with
  | white gap hgap =>
    rw [words_of_white hgap]
    exact ⟨gap, [], (List.append_nil gap).symm, hgap, List.forall_mem_nil _⟩
  | word gap w rest hgap hw hrest ih =>
    have hspaced : EvenlySpaced rest := h.of_append.of_append
    obtain ⟨a, b, heq, ha, hb⟩ := ih hspaced
    rw [words_white_append hgap, words_append hw.1 hw.2 hrest]
    cases hwords : words rest with
    | nil =>
      have hwhite : ∀ c ∈ rest, isWhite c = true := by
        rw [heq, hwords, joinWords, List.nil_append, List.forall_mem_append]
        exact ⟨ha, hb⟩
      exact ⟨gap, rest, rfl, hgap, hwhite⟩
    | cons v ws =>
      have hunspaced : ∀ u ∈ v :: ws, IsUnspaced u :=
        fun u hu => isUnspaced_of_mem_words (hwords ▸ hu)
      obtain ⟨c, ds, hjoined, hc⟩ := exists_joinWords_eq_cons hunspaced
      rw [hwords] at heq
      -- the text goes on with white space, which is a blank, and the next word
      have hne : a ≠ [] := by
        rintro rfl
        rw [heq, hjoined] at hrest
        have hwhite : isWhite c = true := hrest
        rw [hc] at hwhite
        cases hwhite
      have hblank : a = [' '] := EvenlySpaced.eq_blank (heq ▸ hspaced) hne ha
      refine ⟨gap, b, ?_, hgap, hb⟩
      rw [joinWords_cons_cons, heq, hblank]
      simp only [List.append_assoc, List.cons_append, List.nil_append]

/-- Where white space is even nothing is done about it. -/
theorem eq_of_evenlySpaced (h : Rewrites whiteSpace before cs out) (hcs : EvenlySpaced cs) :
    out = cs := by
  induction h with
  | nil => rfl
  | keep _ _ ih => rw [ih hcs.2]
  | @replace before gap text rest out hne hr _ ih =>
    obtain ⟨gap', heq, -, hwhite, -, rfl⟩ := whiteSpace_eq_some.mp hr
    obtain rfl := List.append_cancel_right heq
    obtain ⟨c, gap, rfl⟩ := List.exists_cons_of_ne_nil hne
    rw [List.forall_mem_cons] at hwhite
    obtain ⟨rfl, hnext⟩ := hcs.1 hwhite.1
    -- a second white character cannot follow
    cases gap with
    | nil => rw [ih hcs.2]
    | cons d gap =>
      have hd : isWhite d = false := hnext
      rw [hwhite.2 d List.mem_cons_self] at hd
      cases hd

/-- The pass over operators leaves whether a text begins with white space. -/
theorem head?_of_operator (h : Rewrites operator before cs out) :
    out.head?.any isWhite = cs.head?.any isWhite := by
  cases h with
  | nil => rfl
  | keep => rfl
  | @replace before taken text rest out _ hr _ =>
    obtain ⟨phrase, hphrase, word, heq, hspelled, rfl, -⟩ := operator_eq_some hr
    obtain rfl := List.append_cancel_right heq
    obtain ⟨hword, -, hmem⟩ := operatorWord_of_mem hphrase hspelled
    obtain ⟨c, w, hcw⟩ := List.exists_cons_of_ne_nil (List.ne_nil_of_mem hmem)
    obtain ⟨⟨d, ds, rfl, hd⟩, -⟩ :=
      hspelled.ends (isLetterPhrase_of_mem_operatorPhrases phrase hphrase)
    rw [hcw] at hword ⊢
    exact (isWhite_of_isWordChar (hword c List.mem_cons_self)).trans
      (isWhite_of_foldsToLetter hd).symm

/-- Joining operators keeps white space even. -/
theorem evenlySpaced_of_operator (h : Rewrites operator before cs out) (hcs : EvenlySpaced cs) :
    EvenlySpaced out := by
  induction h with
  | nil => trivial
  | keep _ hrewrites ih =>
    refine ⟨fun hc => ?_, ih hcs.2⟩
    obtain ⟨hblank, hnext⟩ := hcs.1 hc
    exact ⟨hblank, (head?_of_operator hrewrites).trans hnext⟩
  | replace _ hr _ ih =>
    obtain ⟨phrase, hphrase, word, -, hspelled, rfl, -⟩ := operator_eq_some hr
    exact (ih hcs.of_append).word_append (operatorWord_of_mem hphrase hspelled).1

/-! ## The normal form -/

/-- Plain text in normal form: no determiner and no operator of several words stands in it, and
its white space is single blanks. -/
structure IsNormal (cs : List Char) : Prop where
  searched : StandsNowhere searchedPhrases none cs
  spaced : EvenlySpaced cs

namespace IsNormal

/-- No determiner is dropped from normal text. -/
theorem appliesNowhere_determiner (h : IsNormal cs) : AppliesNowhere determiner none cs :=
  (appliesNowhere_iff_standsNowhere fun _ _ => determiner_eq_none_iff).mpr
    (h.searched.mono fun _ => List.mem_append_right operatorPhrases)

/-- No operator is joined in normal text. -/
theorem appliesNowhere_operator (h : IsNormal cs) : AppliesNowhere operator none cs :=
  (appliesNowhere_iff_standsNowhere fun _ _ => operator_eq_none_iff).mpr
    (h.searched.mono fun _ => List.mem_append_left determinerPhrases)

/-- Text in normal form stays as it is. -/
theorem joinOperators_dropDeterminers (h : IsNormal cs) :
    joinOperators (dropDeterminers cs) = cs := by
  have hdeterminer := rewriteBy_of_appliesNowhere h.appliesNowhere_determiner
  have hspace := eq_of_evenlySpaced (Rewrites.rewriteBy whiteSpace_plain.advances cs) h.spaced
  rw [joinOperators, dropDeterminers, hdeterminer, hspace]
  exact rewriteBy_of_appliesNowhere h.appliesNowhere_operator

/-- Text in normal form is so without the white space at its ends. -/
theorem of_white_append {a b : List Char} (h : IsNormal (a ++ (cs ++ b)))
    (ha : ∀ c ∈ a, isWhite c = true) (hb : ∀ c ∈ b, isWhite c = true) : IsNormal cs := by
  refine ⟨?_, h.spaced.of_append.of_append_left⟩
  have hopens : (none : Option Char).any isWordChar = (a.getLast?.or none).any isWordChar :=
    (getLast?_or_white ha fun _ => rfl).symm
  have hcloses : b.head?.any isWordChar = false := by
    cases b with
    | nil => rfl
    | cons c b => exact isWordChar_of_isWhite (hb c List.mem_cons_self)
  exact (h.searched.of_append.of_append_left hcloses).congr_before hopens

end IsNormal

/-- The steps after the first bring plain text into normal form. -/
theorem isNormal_joinOperators_dropDeterminers (cs : List Char) :
    IsNormal (joinOperators (dropDeterminers cs)) := by
  have hdeterminer : StandsNowhere determinerPhrases none (rewriteBy determiner cs) :=
    standsNowhere_of_determiner (Rewrites.rewriteBy determiner_plain.advances cs) (.inl rfl)
  have hspace := Rewrites.rewriteBy whiteSpace_plain.advances (rewriteBy determiner cs)
  have hoperator := Rewrites.rewriteBy operator_plain.advances (dropDeterminers cs)
  have hnowhere : StandsNowhere determinerPhrases none (dropDeterminers cs) :=
    standsNowhere_of_whiteSpace hspace rfl hdeterminer
  exact ⟨standsNowhere_of_operator hoperator rfl hnowhere,
    evenlySpaced_of_operator hoperator (evenlySpaced_of_whiteSpace hspace)⟩

end GameCondition.Canonical
