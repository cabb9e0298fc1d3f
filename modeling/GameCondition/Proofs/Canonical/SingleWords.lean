import GameCondition.Proofs.Canonical.LongestPhrase
import GameCondition.Proofs.Text.WordRules

/-! # Names of one word

If all names and ids are single words of ASCII, phrases are whole words as well, and ids are put for
whole words alone (`phrase_eq_wordRule`). An id that was put is known as an id and stays, whatever
else it may be the name of; so the pass over the phrases of a vocabulary is done after one time
(`replacePhrases_replacePhrases`).
-/

namespace GameCondition.Canonical

/-- A name that is one word of ASCII. -/
def IsAsciiWord (w : List Char) : Prop :=
  IsWord w ∧ IsAscii w

instance (w : List Char) : Decidable (IsAsciiWord w) :=
  inferInstanceAs (Decidable (_ ∧ _))

/-- Whether every name and every id is one word of ASCII. -/
def HasAsciiWords (es : List ContentElement) : Prop :=
  ∀ e ∈ es, ∀ name ∈ e.id :: e.name :: e.aliases, IsAsciiWord name.toList

instance (es : List ContentElement) : Decidable (HasAsciiWords es) :=
  List.decidableBAll _ _

variable {v : Vocabulary} {es : List ContentElement} {before : Option Char}
  {cs taken text rest w : List Char}

/-! ## Phrases of one word -/

theorem IsAsciiWord.lowerText (h : IsAsciiWord w) : IsAsciiWord (lowerText w) := by
  rw [lowerText_of_isAscii h.2]
  refine ⟨⟨fun hnil => h.1.1 (List.map_eq_nil_iff.mp hnil), ?_⟩, ?_⟩
  · rw [List.forall_mem_map]
    exact fun c hc => forall_ascii
      (P := fun c => isWordChar c = true → isWordChar c.toLower = true) (by decide) (h.2 c hc)
      (h.1.2 c hc)
  · rw [IsAscii, List.forall_mem_map]
    exact fun c hc => toNat_toLower_lt (h.2 c hc)

/-- What differs from a word of ASCII in case only is a word. -/
theorem IsAsciiWord.isWord_of_map_foldChar (h : IsAsciiWord w)
    (hsame : taken.map foldChar = w.map foldChar) : IsWord taken := by
  constructor
  · rintro rfl
    exact h.1.1 (List.map_eq_nil_iff.mp hsame.symm)
  · intro c hc
    obtain ⟨d, hd, heq⟩ := List.mem_map.mp (hsame ▸ List.mem_map_of_mem hc)
    have hascii := h.2 d hd
    have hfold : (foldChar d).toNat < 128 ∧ isWordChar (foldChar d) = true :=
      forall_ascii (P := fun d => isWordChar d = true →
        (foldChar d).toNat < 128 ∧ isWordChar (foldChar d) = true) (by decide) hascii (h.1.2 d hd)
    rw [heq] at hfold
    exact isWordChar_of_foldChar hfold.1 hfold.2

/-- If every name is one word, so is every phrase. -/
theorem exists_of_mem_longestFirst (hes : HasAsciiWords es) {p : List (List Char)}
    (hp : p ∈ (Vocabulary.ofElements es).longestFirst) : ∃ w, p = [w] ∧ IsAsciiWord w := by
  obtain ⟨key, hkey, rfl⟩ := Vocabulary.mem_longestFirst.mp hp
  obtain ⟨e, he, hphrase⟩ := Vocabulary.mem_keys_ofElements.mp hkey
  have hne := (Vocabulary.isPhrase_of_mem_phrases hphrase).1
  obtain ⟨name, hname, rfl⟩ := List.mem_map.mp (List.mem_filter.mp hphrase).1
  have hword := hes e he name (List.mem_cons_of_mem e.id hname)
  rw [words_normalPhrase, phraseWords, words_of_isUnspaced hword.1.isUnspaced, List.map_singleton]
    at hne ⊢
  -- the only word is no determiner, or there would be no phrase
  rw [List.filter_singleton] at hne ⊢
  cases hbare : determiners.contains (lowerText name.toList) with
  | true =>
    rw [hbare] at hne
    exact absurd rfl hne
  | false => exact ⟨_, rfl, hword.lowerText⟩

/-- A phrase of one word is taken up where the word stands alone. -/
theorem takeNamed?_word (h : IsAsciiWord w) :
    takeNamed? before [w] cs = some (taken, rest) ↔
      cs = taken ++ rest ∧ IsWord taken ∧ before.any isWordChar = false ∧
        rest.head?.any isWordChar = false ∧ taken.map foldChar = w.map foldChar := by
  have hphrase : IsPhrase [w] :=
    ⟨List.cons_ne_nil w [], List.forall_mem_singleton.mpr h.1.isUnspaced⟩
  -- both ends of an ASCII word are in words, so both edges are demanded
  have hhead : [w].flatten.head?.any demandsEdge = true := by
    obtain ⟨c, w, rfl⟩ := List.exists_cons_of_ne_nil h.1.1
    exact (demandsEdge_of_ascii (h.2 c List.mem_cons_self)).trans (h.1.2 c List.mem_cons_self)
  have hlast : [w].flatten.getLast?.any demandsEdge = true := by
    rw [List.flatten_singleton, List.getLast?_eq_some_getLast h.1.1]
    have hmem := List.getLast_mem h.1.1
    exact (demandsEdge_of_ascii (h.2 _ hmem)).trans (h.1.2 _ hmem)
  have hspelled : Spelled [w] taken ↔ taken.map foldChar = w.map foldChar := by
    constructor
    · intro h
      cases h with
      | last hmap => exact hmap
    · exact .last
  rw [takeNamed?_eq_some hphrase, hspelled]
  constructor
  · rintro ⟨rfl, hsame, hopens, hcloses⟩
    have hword := h.isWord_of_map_foldChar hsame
    have hopens := hopens hhead
    have hcloses := hcloses hlast
    rw [atWordEdge, hword.head?_append, bne_iff_ne, Ne, Bool.not_eq_true] at hopens
    rw [atWordEdge, hword.getLast?] at hcloses
    exact ⟨rfl, hword, hopens, by simpa using hcloses, hsame⟩
  · rintro ⟨rfl, hword, hbefore, hrest, hsame⟩
    refine ⟨rfl, hsame, fun _ => ?_, fun _ => ?_⟩
    · rw [atWordEdge, hword.head?_append, hbefore]
      rfl
    · rw [atWordEdge, hword.getLast?, hrest]
      rfl

/-! ## The pass over the words of a text -/

/-- What is put for a word: if some phrase is the same but for case, the id that is meant. -/
def wordId? (v : Vocabulary) (w : List Char) : Option (List Char) :=
  if v.longestFirst.any fun p => sameFolded p.flatten w then some (idFor v w) else none

theorem wordId?_eq_some : wordId? v w = some text ↔
    (∃ p ∈ v.longestFirst, p.flatten.map foldChar = w.map foldChar) ∧ text = idFor v w := by
  simp only [wordId?, Option.ite_none_right_eq_some, List.any_eq_true, sameFolded, beq_iff_eq,
    Option.some.injEq]
  exact and_congr_right fun _ => eq_comm

/-- If all names are single words, so is what a phrase is replaced in. -/
theorem phrase_eq_wordRule (hes : HasAsciiWords es) :
    phrase (.ofElements es) (Vocabulary.ofElements es).longestFirst =
      wordRule (wordId? (.ofElements es)) := by
  -- what the phrases are taken up in is a word that stands alone
  have hsome : ∀ before cs r,
      phrase (.ofElements es) (Vocabulary.ofElements es).longestFirst before cs = some r →
        wordRule (wordId? (.ofElements es)) before cs = some r := by
    rintro before cs ⟨text, rest⟩ h
    obtain ⟨p, hp, taken, htaken, htext⟩ := phrase_eq_some h
    obtain ⟨w, rfl, hw⟩ := exists_of_mem_longestFirst hes hp
    obtain ⟨hcs, hword, hbefore, hrest, hsame⟩ := (takeNamed?_word hw).mp htaken
    refine wordRule_eq_some.mpr ⟨taken, hcs, hword, hbefore, hrest, ?_⟩
    refine wordId?_eq_some.mpr ⟨⟨[w], hp, ?_⟩, htext⟩
    rw [List.flatten_singleton, hsame]
  have hnone : ∀ before cs,
      phrase (.ofElements es) (Vocabulary.ofElements es).longestFirst before cs = none →
        wordRule (wordId? (.ofElements es)) before cs = none := by
    intro before cs h
    rw [wordRule_eq_none_iff]
    intro taken rest hcs hword hbefore hrest
    rw [Option.eq_none_iff_forall_ne_some]
    intro text htext
    obtain ⟨⟨p, hp, hsame⟩, -⟩ := wordId?_eq_some.mp htext
    obtain ⟨w, rfl, hw⟩ := exists_of_mem_longestFirst hes hp
    rw [List.flatten_singleton] at hsame
    have htaken := (takeNamed?_word hw).mpr ⟨hcs, hword, hbefore, hrest, hsame.symm⟩
    rw [phrase_eq_none_iff.mp h [w] hp] at htaken
    cases htaken
  funext before cs
  cases h : phrase (.ofElements es) (Vocabulary.ofElements es).longestFirst before cs with
  | none => rw [hnone before cs h]
  | some r => rw [hsome before cs r h]

/-! ## Ids that were put -/

/-- An id stands for itself. -/
theorem idFor_id {e : ContentElement} (he : e ∈ es) :
    idFor (.ofElements es) e.id.toList = e.id.toList := by
  have hknown : (Vocabulary.ofElements es).isKnownId (String.ofList e.id.toList) = true := by
    rw [String.ofList_toList]
    exact Vocabulary.isKnownId_ofElements.mpr ⟨e, he, rfl⟩
  exact if_pos hknown

/-- Putting ids for phrases a second time changes nothing, if all names and ids are single words of
ASCII. -/
theorem replacePhrases_replacePhrases (hes : HasAsciiWords es) (cs : List Char) :
    replacePhrases (.ofElements es) (replacePhrases (.ofElements es) cs) =
      replacePhrases (.ofElements es) cs := by
  rw [replacePhrases, replacePhrases, phrase_eq_wordRule hes]
  refine rewriteBy_wordRule_twice ?_ cs
  intro w text hw htext
  have hself := (wordId?_eq_some.mp htext).2
  rcases idFor_eq_self_or es w with hsame | ⟨e, he, hid⟩
  · rw [hsame] at hself
    subst hself
    exact ⟨hw, .inr htext⟩
  · rw [hid] at hself
    subst hself
    refine ⟨(hes e he e.id List.mem_cons_self).1, ?_⟩
    rw [wordId?, idFor_id he]
    split
    · exact .inr rfl
    · exact .inl rfl

/-- Elements whose names are the ids of one another, all around. -/
def roundElements : List ContentElement :=
  [{ ContentElement.named "lamp" "torch" with aliases := ["kiosk"] },
    .named "torch" "lantern", .named "lantern" "lamp"]

theorem replacePhrases_replacePhrases_roundElements :
    HasAsciiWords roundElements ∧
      replacePhrases (.ofElements roundElements)
          (replacePhrases (.ofElements roundElements) "Torch is \u212Aio\u017F\u212A".toList) =
        replacePhrases (.ofElements roundElements) "Torch is \u212Aio\u017F\u212A".toList := by
  have hes : HasAsciiWords roundElements := by
    decide
  exact ⟨hes, replacePhrases_replacePhrases hes _⟩

end GameCondition.Canonical
