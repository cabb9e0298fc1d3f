import GameCondition.Proofs.Canonical.Rules
import GameCondition.Proofs.Vocabulary.Table

/-! # Ids for phrases

What the rule for the phrases of a vocabulary takes up and what it puts for that (`phrase_eq_some`):
something that spells a phrase, and the id that is meant by it. The rule takes something up wherever
it applies (`phrase_advances`), and brings in no quotes if the ids have none
(`noQuote_replacePhrases`).
-/

namespace GameCondition.Canonical

variable {before : Option Char} {cs taken text rest : List Char}

/-- A phrase is taken up where it is spelled and the edges of words are where it demands them. -/
theorem takeNamed?_eq_some {phrase : List (List Char)} (hphrase : IsPhrase phrase) :
    takeNamed? before phrase cs = some (taken, rest) ↔
      cs = taken ++ rest ∧ Spelled phrase taken ∧
        (phrase.flatten.head?.any demandsEdge = true → atWordEdge before cs = true) ∧
        (phrase.flatten.getLast?.any demandsEdge = true →
          atWordEdge taken.getLast? rest = true) := by
  simp only [takeNamed?, Option.bind_eq_bind, Option.bind_eq_some_iff, Option.pure_def,
    Option.ite_none_right_eq_some, Option.some.injEq, Prod.exists, Prod.mk.injEq,
    takePhrase?_eq_some hphrase, Bool.and_eq_true, Bool.or_eq_true, Bool.not_eq_true',
    ← Bool.not_eq_true, ← imp_iff_not_or]
  constructor
  · rintro ⟨taken, rest, ⟨hcs, hspelled⟩, ⟨hopens, hcloses⟩, rfl, rfl⟩
    exact ⟨hcs, hspelled, hopens, hcloses⟩
  · rintro ⟨hcs, hspelled, hopens, hcloses⟩
    exact ⟨taken, rest, ⟨hcs, hspelled⟩, ⟨hopens, hcloses⟩, rfl, rfl⟩

theorem phrase_eq_some_iff {v : Vocabulary} {phrases : List (List (List Char))} :
    phrase v phrases before cs = some ⟨text, rest⟩ ↔
      ∃ taken, (phrases.findSome? fun p => takeNamed? before p cs) = some (taken, rest) ∧
        text = idFor v taken := by
  simp only [phrase, Option.bind_eq_bind, Option.bind_eq_some_iff, Option.pure_def,
    Option.some.injEq, Prod.exists, Replacement.mk.injEq]
  constructor
  · rintro ⟨taken, rest, hfound, rfl, rfl⟩
    exact ⟨taken, hfound, rfl⟩
  · rintro ⟨taken, hfound, rfl⟩
    exact ⟨taken, rest, hfound, rfl, rfl⟩

theorem phrase_eq_none_iff {v : Vocabulary} {phrases : List (List (List Char))} :
    phrase v phrases before cs = none ↔ ∀ p ∈ phrases, takeNamed? before p cs = none := by
  rw [← List.findSome?_eq_none_iff, phrase, Option.bind_eq_bind, Option.bind_eq_none_iff]
  constructor
  · intro hnone
    rw [Option.eq_none_iff_forall_ne_some]
    intro found hfound
    cases hnone found hfound
  · intro hnone found hfound
    rw [hnone] at hfound
    cases hfound

/-- What an id is put for. -/
theorem phrase_eq_some {v : Vocabulary} {phrases : List (List (List Char))}
    (h : phrase v phrases before cs = some ⟨text, rest⟩) :
    ∃ p ∈ phrases, ∃ taken, takeNamed? before p cs = some (taken, rest) ∧ text = idFor v taken := by
  obtain ⟨taken, hfound, htext⟩ := phrase_eq_some_iff.mp h
  obtain ⟨p, hp, htaken⟩ := List.exists_of_findSome?_eq_some hfound
  exact ⟨p, hp, taken, htaken, htext⟩

variable {es : List ContentElement}

/-- An id is put for something. -/
theorem phrase_advances (es : List ContentElement) :
    Rule.Advances (phrase (.ofElements es) (Vocabulary.ofElements es).longestFirst) := by
  rintro before cs ⟨text, rest⟩ h
  obtain ⟨p, hp, taken, htaken, -⟩ := phrase_eq_some h
  have hphrase := Vocabulary.isPhrase_of_mem_longestFirst hp
  obtain ⟨hcs, hspelled, -⟩ := (takeNamed?_eq_some hphrase).mp htaken
  exact ⟨taken, hspelled.ne_nil hphrase, hcs⟩

/-- What stands for a phrase is what was found or the id of an element. -/
theorem idFor_eq_self_or (es : List ContentElement) (taken : List Char) :
    idFor (.ofElements es) taken = taken ∨ ∃ e ∈ es, idFor (.ofElements es) taken = e.id.toList := by
  unfold idFor
  dsimp only
  split
  · exact .inl rfl
  · split
    · rename_i id hid
      obtain ⟨e, he, rfl⟩ := Vocabulary.exists_of_firstId? hid
      exact .inr ⟨e, he, rfl⟩
    · exact .inl rfl

/-! ## Quotes -/

/-- What stands for a phrase has no quotes if the ids have none. -/
theorem noQuote_idFor (hids : ∀ e ∈ es, ∀ c ∈ e.id.toList, c ≠ '"')
    (htaken : ∀ c ∈ taken, c ≠ '"') : ∀ c ∈ idFor (.ofElements es) taken, c ≠ '"' := by
  rcases idFor_eq_self_or es taken with hself | ⟨e, he, hid⟩
  · rw [hself]
    exact htaken
  · rw [hid]
    exact hids e he

theorem noQuote_replacePhrases (hids : ∀ e ∈ es, ∀ c ∈ e.id.toList, c ≠ '"')
    (hcs : ∀ c ∈ cs, c ≠ '"') : ∀ c ∈ replacePhrases (.ofElements es) cs, c ≠ '"' := by
  refine (Rewrites.rewriteBy (phrase_advances es) cs).forall_mem ?_ hcs
  intro before taken text rest h htaken
  obtain ⟨p, hp, taken', hfound, rfl⟩ := phrase_eq_some h
  have hphrase := Vocabulary.isPhrase_of_mem_longestFirst hp
  obtain ⟨heq, -⟩ := (takeNamed?_eq_some hphrase).mp hfound
  obtain rfl := List.append_cancel_right heq
  exact noQuote_idFor hids htaken

/-- Rewriting a plain stretch brings no quotes into it. -/
theorem noQuote_rewriteSegment (hids : ∀ e ∈ es, ∀ c ∈ e.id.toList, c ≠ '"') (cs : List Char)
    (hcs : ∀ c ∈ cs, c ≠ '"') : ∀ c ∈ rewriteSegment (.ofElements es) cs, c ≠ '"' :=
  noQuote_replacePhrases hids (noQuote_joinOperators_dropDeterminers_rewriteSubjects hcs)

end GameCondition.Canonical
