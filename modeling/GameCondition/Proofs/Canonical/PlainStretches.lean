import GameCondition.Proofs.Canonical.FixedPoint

/-! # What is nowhere in canonical text

A phrase occurs in a text if a part of the text spells it, in any case, between two edges of words
(`Occurs`). In the plain stretches of canonical text neither a determiner nor an operator of several
words occurs, and every white space is one blank (`Vocabulary.not_occurs_canonicalize`).
-/

namespace GameCondition

/-- A part of a text spells a phrase, and has edges of words at both ends. -/
def Occurs (phrase : List (List Char)) (cs : List Char) : Prop :=
  ∃ a found b, cs = a ++ (found ++ b) ∧ Spelled phrase found ∧
    atWordEdge a.getLast? (found ++ b) = true ∧ atWordEdge found.getLast? b = true

variable {phrase : List (List Char)} {phrases : List (List (List Char))} {cs : List Char}

/-- Where a phrase of letters occurs it stands at a place of the text. -/
theorem Occurs.exists_stands (h : Occurs phrase cs) (hletters : IsLetterPhrase phrase)
    (hphrase : phrase ∈ phrases) :
    ∃ a c b, cs = a ++ c :: b ∧ Stands phrases a.getLast? (c :: b) := by
  obtain ⟨a, found, b, hcs, hspelled, hopens, hcloses⟩ := h
  rw [atWordEdge, hspelled.head?_any hletters, bne_iff_ne] at hopens
  rw [atWordEdge, hspelled.getLast?_any hletters, bne_iff_ne] at hcloses
  obtain ⟨c, found', rfl⟩ := List.exists_cons_of_ne_nil (hspelled.ne_nil hletters.isPhrase)
  refine ⟨a, c, found' ++ b, hcs, phrase, hphrase, _, b, rfl, hspelled, ?_, ?_⟩
  · exact Bool.eq_false_iff.mpr hopens
  · exact Bool.eq_false_iff.mpr hcloses.symm

/-- A phrase of letters that stands nowhere in a text does not occur in it. -/
theorem StandsNowhere.not_occurs (h : StandsNowhere phrases none cs) (hphrase : phrase ∈ phrases)
    (hletters : IsLetterPhrase phrase) : ¬ Occurs phrase cs := by
  intro hoccurs
  obtain ⟨a, c, b, rfl, hstands⟩ := hoccurs.exists_stands hletters hphrase
  have hbehind := h.of_append
  rw [Option.or_none] at hbehind
  exact hbehind.1 hstands

namespace Vocabulary

/-- In the plain stretches of canonical text no determiner and no operator of several words occurs,
and every white space is one blank. -/
theorem not_occurs_canonicalize {source : String} (hsource : isBlank source.toList = false)
    {cs : List Char} (h : .plain cs ∈ segments (empty.canonicalize source).toList) :
    (∀ w ∈ determiners, ¬ Occurs [w] cs) ∧
    (∀ phrase ∈ Canonical.operatorPhrases, ¬ Occurs phrase cs) ∧
    ∀ a gap b, cs = a ++ (gap ++ b) → gap ≠ [] → (∀ c ∈ gap, isWhite c = true) → gap = [' '] := by
  rw [canonicalize, String.toList_ofList] at h
  have hnormal := Canonical.isNormal_of_mem_segments hsource h
  have hnowhere : ∀ phrase ∈ Canonical.searchedPhrases, ¬ Occurs phrase cs :=
    fun phrase hphrase => hnormal.searched.not_occurs hphrase
      (Canonical.isLetterPhrase_of_mem_searchedPhrases phrase hphrase)
  refine ⟨?_, ?_, ?_⟩
  · intro w hw
    exact hnowhere [w] (List.mem_append_right _ (List.mem_map_of_mem hw))
  · intro phrase hphrase
    exact hnowhere phrase (List.mem_append_left _ hphrase)
  · rintro a gap b rfl hne hgap
    exact hnormal.spaced.of_append.eq_blank hne hgap

theorem not_occurs_canonicalize_behindLiteral :
    isBlank "x is  not \"the\" An\n item".toList = false ∧
    empty.canonicalize "x is  not \"the\" An\n item" = "x is_not \"the\" item" ∧
    (∀ w ∈ determiners, ¬ Occurs [w] " item".toList) ∧
    (∀ phrase ∈ Canonical.operatorPhrases, ¬ Occurs phrase " item".toList) := by
  have hcanonical : empty.canonicalize "x is  not \"the\" An\n item" = "x is_not \"the\" item" := by
    decide +kernel
  have hplain : .plain " item".toList ∈
      segments (empty.canonicalize "x is  not \"the\" An\n item").toList := by
    rw [hcanonical]
    decide +kernel
  have hblank : isBlank "x is  not \"the\" An\n item".toList = false := by decide +kernel
  obtain ⟨hdeterminers, hoperators, -⟩ := not_occurs_canonicalize hblank hplain
  exact ⟨hblank, hcanonical, hdeterminers, hoperators⟩

end Vocabulary

end GameCondition
