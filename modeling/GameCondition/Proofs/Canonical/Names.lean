import GameCondition.Proofs.Canonical.BareNames
import GameCondition.Proofs.Canonical.FixedPoint
import GameCondition.Proofs.Token.LetterCase

/-! # Names in canonical text

A name that elements are registered under becomes the id of the first of them when it is made
canonical on its own, if the vocabulary recognizes it (`canonicalize_name`). What is registered is
made from the words of the name, between which there is white space. Canonical text is made from
the words that its rules see, which end at every other character too, and it ignores case letter by
letter. `Vocabulary.Recognizes` says where this is no difference. A name in which a determiner is
joined to other words, as in *Jack-in-the-Box*, is registered but never found
(`not_canonicalize_name`).
-/

namespace GameCondition

open Canonical

/-! ## Names that are recognized -/

/-- A vocabulary recognizes a name if no rule before the one for phrases has a hand in it, but for
determiners that are words of their own, if case and the edges of words are the same for the phrase
as for the text, and if no phrase for a part of the name is as long as that for the name. -/
structure Vocabulary.Recognizes (v : Vocabulary) (name : String) : Prop where
  subjects : SubjectsAreSettled (trim name.toList)
  determiners : DeterminersAreWords name.toList
  operators : AppliesNowhere operator none (bareName name.toList)
  letters : ∀ c ∈ bareName name.toList, FoldsAsLowered c
  opens : (bareName name.toList).head?.any demandsEdge = true →
    (bareName name.toList).head?.any isWordChar = true
  closes : (bareName name.toList).getLast?.any demandsEdge = true →
    (bareName name.toList).getLast?.any isWordChar = true
  longest : ∀ key ∈ v.phrases.keys,
    ∀ found ∈ takeNamed? none (words key.toList) (bareName name.toList),
      found.2 ≠ [] → key.utf8ByteSize < (normalPhrase name).utf8ByteSize

instance (v : Vocabulary) (name : String) : Decidable (v.Recognizes name) :=
  have : Decidable (∀ c ∈ bareName name.toList, FoldsAsLowered c) := List.decidableBAll _ _
  decidable_of_iff (_ ∧ _ ∧ _ ∧ _ ∧ _ ∧ _ ∧ _)
    ⟨fun ⟨h₁, h₂, h₃, h₄, h₅, h₆, h₇⟩ => ⟨h₁, h₂, h₃, h₄, h₅, h₆, h₇⟩,
      fun ⟨h₁, h₂, h₃, h₄, h₅, h₆, h₇⟩ => ⟨h₁, h₂, h₃, h₄, h₅, h₆, h₇⟩⟩

namespace Canonical

variable {before : Option Char} {cs gap taken rest : List Char}

/-! ## Edges of words -/

theorem demandsEdge_lowerPartner (c : Char) : demandsEdge (lowerPartner c) = demandsEdge c :=
  isIdentifierChar_lowerPartner c

/-- A phrase demands edges where the bare name does. -/
theorem map_demandsEdge_flatten (h : ∀ c ∈ bareName cs, FoldsAsLowered c) :
    (phraseWords cs).flatten.map demandsEdge = (bareWords cs).flatten.map demandsEdge := by
  have hword : ∀ w ∈ bareWords cs, (lowerText w).map demandsEdge = w.map demandsEdge := by
    intro w hw
    refine map_lowerText (by decide) fun c hc => ⟨?_, demandsEdge_lowerPartner c⟩
    exact (h c (mem_joinWords hw hc)).1
  rw [phraseWords_eq, List.map_flatten, List.map_flatten, List.map_map]
  exact congrArg List.flatten (List.map_congr_left hword)

theorem head?_demandsEdge (h : ∀ c ∈ bareName cs, FoldsAsLowered c) :
    (phraseWords cs).flatten.head?.any demandsEdge = (bareName cs).head?.any demandsEdge := by
  have hhead := congrArg (fun bs => bs.head?.any id) (map_demandsEdge_flatten h)
  simp only [List.head?_map, Option.any_map, id_eq] at hhead
  rw [hhead, bareName, head?_joinWords fun _ => isUnspaced_of_mem_bareWords]

theorem getLast?_demandsEdge (h : ∀ c ∈ bareName cs, FoldsAsLowered c) :
    (phraseWords cs).flatten.getLast?.any demandsEdge =
      (bareName cs).getLast?.any demandsEdge := by
  have hlast := congrArg (fun bs => bs.getLast?.any id) (map_demandsEdge_flatten h)
  simp only [List.getLast?_map, Option.any_map, id_eq] at hlast
  rw [hlast, bareName, getLast?_joinWords fun _ => isUnspaced_of_mem_bareWords]

/-- White space at the end of a text is no part of a word. -/
theorem head?_append_white (hgap : ∀ c ∈ gap, isWhite c = true) (cs : List Char) :
    (cs ++ gap).head?.any isWordChar = cs.head?.any isWordChar := by
  cases cs with
  | cons c cs => rfl
  | nil =>
    cases gap with
    | nil => rfl
    | cons c gap => exact isWordChar_of_isWhite (hgap c List.mem_cons_self)

/-! ## Phrases with white space around them -/

variable {es : List ContentElement}

/-- No phrase begins with white space. -/
theorem phrase_white (es : List ContentElement) (before : Option Char) (c : Char)
    (cs : List Char) (hc : isWhite c = true) :
    phrase (.ofElements es) (Vocabulary.ofElements es).longestFirst before (c :: cs) = none := by
  rw [Option.eq_none_iff_forall_ne_some]
  rintro ⟨text, rest⟩ h
  obtain ⟨p, hp, taken, hfound, -⟩ := phrase_eq_some h
  have hphrase := Vocabulary.isPhrase_of_mem_longestFirst hp
  obtain ⟨heq, hspelled, -⟩ := (takeNamed?_eq_some hphrase).mp hfound
  obtain ⟨⟨d, ds, rfl, hd⟩, -⟩ := hspelled.ink_ends hphrase
  rw [List.cons_append, List.cons.injEq] at heq
  rw [← heq.1, hc] at hd
  cases hd

/-- What is found in a text with white space around it is found in the text. -/
theorem exists_takeNamed?_of_append_white {p : List (List Char)} (hp : IsPhrase p)
    (hbefore : before.any isWordChar = false) (hgap : ∀ c ∈ gap, isWhite c = true)
    (h : takeNamed? before p (cs ++ gap) = some (taken, rest)) :
    ∃ rest', takeNamed? none p cs = some (taken, rest') ∧ rest = rest' ++ gap := by
  obtain ⟨heq, hspelled, hopens, hcloses⟩ := (takeNamed?_eq_some hp).mp h
  obtain ⟨rest', rfl, rfl⟩ := hspelled.exists_of_append_white hp hgap heq
  refine ⟨rest', (takeNamed?_eq_some hp).mpr ⟨rfl, hspelled, ?_, ?_⟩, rfl⟩
  · rwa [atWordEdge, head?_append_white hgap, hbefore] at hopens
  · rwa [atWordEdge, head?_append_white hgap] at hcloses

end Canonical

/-! ## The phrase of a name -/

theorem bareWords_ne_nil_of_mem_keys {es : List ContentElement} {name : String}
    (hkey : normalPhrase name ∈ (Vocabulary.ofElements es).phrases.keys) :
    bareWords name.toList ≠ [] := by
  obtain ⟨e, -, he⟩ := Vocabulary.mem_keys_ofElements.mp hkey
  have hphrase := Vocabulary.isPhrase_of_mem_phrases he
  rw [words_normalPhrase, phraseWords_eq] at hphrase
  intro hnil
  rw [hnil] at hphrase
  exact hphrase.1 rfl

namespace Vocabulary.Recognizes

variable {v : Vocabulary} {name : String} {before : Option Char} {gap : List Char}

/-- The phrase of a name is found in its bare name. -/
theorem takeNamed?_bareName (h : v.Recognizes name) (hne : bareWords name.toList ≠ [])
    (hbefore : before.any isWordChar = false) (hgap : ∀ c ∈ gap, isWhite c = true) :
    takeNamed? before (phraseWords name.toList) (bareName name.toList ++ gap) =
      some (bareName name.toList, gap) := by
  have hphrase : IsPhrase (phraseWords name.toList) := by
    refine ⟨?_, fun _ => isUnspaced_of_mem_phraseWords⟩
    rw [phraseWords_eq]
    exact fun hnil => hne (List.map_eq_nil_iff.mp hnil)
  have hspelled : Spelled (phraseWords name.toList) (bareName name.toList) := by
    rw [phraseWords_eq]
    refine spelled_joinWords fun w hw => map_foldChar_lowerText fun c hc => ?_
    exact h.letters c (mem_joinWords hw hc)
  have hends : gap.head?.any isWordChar = false := head?_append_white hgap []
  refine (takeNamed?_eq_some hphrase).mpr ⟨rfl, hspelled, ?_, ?_⟩
  -- edges are demanded only where the name's own ends are in words
  · rw [head?_demandsEdge h.letters, atWordEdge, head?_append_white hgap, hbefore]
    intro hdemands
    rw [h.opens hdemands]
    rfl
  · rw [getLast?_demandsEdge h.letters, atWordEdge, hends]
    intro hdemands
    rw [h.closes hdemands]
    rfl

/-- What stands for a name is found at it, and it is found as a whole. -/
theorem phrase_bareName {es : List ContentElement} (h : (ofElements es).Recognizes name)
    (hkey : normalPhrase name ∈ (ofElements es).phrases.keys)
    (hne : bareWords name.toList ≠ []) (hbefore : before.any isWordChar = false)
    (hgap : ∀ c ∈ gap, isWhite c = true) :
    phrase (ofElements es) (ofElements es).longestFirst before (bareName name.toList ++ gap) =
      some ⟨idFor (ofElements es) (bareName name.toList), gap⟩ := by
  have hown := h.takeNamed?_bareName hne hbefore hgap
  cases hfound : (ofElements es).longestFirst.findSome? fun p =>
      takeNamed? before p (bareName name.toList ++ gap) with
  | none =>
    have hmem : phraseWords name.toList ∈ (ofElements es).longestFirst :=
      mem_longestFirst.mpr ⟨_, hkey, words_normalPhrase name⟩
    have hnone := List.findSome?_eq_none_iff.mp hfound _ hmem
    rw [hown] at hnone
    cases hnone
  | some found =>
    obtain ⟨taken, rest⟩ := found
    obtain ⟨key, hkey', hfirst, hsize⟩ := exists_of_findSome?_longestFirst hfound hkey
      (by rw [words_normalPhrase, hown]; exact Option.some_ne_none _)
    have hphrase : IsPhrase (words key.toList) :=
      isPhrase_of_mem_longestFirst (mem_longestFirst.mpr ⟨key, hkey', rfl⟩)
    obtain ⟨rest', hbare, rfl⟩ := exists_takeNamed?_of_append_white hphrase hbefore hgap hfirst
    -- a phrase for a part of the name is shorter, and would not come first
    have hwhole : rest' = [] := by
      by_contra hpart
      exact Nat.lt_irrefl _ (Nat.lt_of_lt_of_le (h.longest key hkey' _ hbare hpart) hsize)
    obtain ⟨heq, -⟩ := (takeNamed?_eq_some hphrase).mp hbare
    rw [hwhole, List.append_nil] at heq
    rw [phrase, hfound, hwhole, ← heq]
    rfl

end Vocabulary.Recognizes

namespace Canonical

variable {es : List ContentElement} {name : String} {a b cs : List Char}

/-- Where operators stand nowhere in a name they stand nowhere with white space around it. -/
theorem joinOperators_white_append (h : AppliesNowhere operator none cs)
    (ha : ∀ c ∈ a, isWhite c = true) (hb : ∀ c ∈ b, isWhite c = true) :
    joinOperators (a ++ (cs ++ b)) = a ++ (cs ++ b) := by
  have hletters := isLetterPhrase_of_mem_operatorPhrases
  have hnone : ∀ before cs, operator before cs = none ↔ ¬ Stands operatorPhrases before cs :=
    fun _ _ => operator_eq_none_iff
  have hwhite := rule_white hletters hnone
  have hbefore : (a.getLast?.or none).any isWordChar = false :=
    getLast?_or_white ha fun _ => rfl
  have hnowhere : StandsNowhere operatorPhrases (a.getLast?.or none) cs :=
    ((appliesNowhere_iff_standsNowhere hnone).mp h).congr_before hbefore
  have hpass : PassesOver operator b (a.getLast?.or none) cs :=
    hnowhere.passesOver hnone fun phrase hphrase _ hspelled _ _ heq =>
      hspelled.exists_of_append_white (hletters phrase hphrase).isPhrase hb heq
  rw [joinOperators, rewriteBy, rewriteFrom_of_passesOver (passesOver_white hwhite ha none _),
    rewriteFrom_of_passesOver hpass, rewriteFrom_white hwhite hb]

/-- The id is put for a name with white space around it, which stays. -/
theorem replacePhrases_white_append (h : (Vocabulary.ofElements es).Recognizes name)
    (hkey : normalPhrase name ∈ (Vocabulary.ofElements es).phrases.keys)
    (hne : bareWords name.toList ≠ []) (ha : ∀ c ∈ a, isWhite c = true)
    (hb : ∀ c ∈ b, isWhite c = true) :
    replacePhrases (.ofElements es) (a ++ (bareName name.toList ++ b)) =
      a ++ (idFor (.ofElements es) (bareName name.toList) ++ b) := by
  have hwhite := phrase_white es
  have hbefore : (a.getLast?.or none).any isWordChar = false :=
    getLast?_or_white ha fun _ => rfl
  have hfound := h.phrase_bareName hkey hne hbefore hb
  rw [replacePhrases, rewriteBy, rewriteFrom_of_passesOver (passesOver_white hwhite ha none _)]
  generalize bareName name.toList = cs, bareName_ne_nil hne = hcs at hfound ⊢
  obtain ⟨c, cs, rfl⟩ := List.exists_cons_of_ne_nil hcs
  rw [rewriteFrom_replace hfound, rewriteFrom_white hwhite hb]

/-- What is left of a name after all steps, up to white space around it. -/
theorem exists_rewriteSegment_eq (h : (Vocabulary.ofElements es).Recognizes name)
    (hkey : normalPhrase name ∈ (Vocabulary.ofElements es).phrases.keys)
    (hne : bareWords name.toList ≠ []) :
    ∃ a b, rewriteSegment (.ofElements es) (trim name.toList) =
        a ++ (idFor (.ofElements es) (bareName name.toList) ++ b) ∧
      (∀ c ∈ a, isWhite c = true) ∧ ∀ c ∈ b, isWhite c = true := by
  have hdeterminers : DeterminersAreWords (trim name.toList) := by
    rw [DeterminersAreWords, words_trim]
    exact h.determiners
  have hbare : bareName (trim name.toList) = bareName name.toList := by
    rw [bareName, bareWords, words_trim]
    rfl
  obtain ⟨a, b, heq, ha, hb⟩ := exists_dropDeterminers_eq hdeterminers
  refine ⟨a, b, ?_, ha, hb⟩
  rw [rewriteSegment, h.subjects.rewriteSubjects, heq, hbare,
    joinOperators_white_append h.operators ha hb, replacePhrases_white_append h hkey hne ha hb]

/-- Text without quotes is one plain stretch. -/
theorem ofText_of_noQuote (v : Vocabulary) {cs : List Char} (hwords : words cs ≠ [])
    (hcs : ∀ c ∈ cs, c ≠ '"') : ofText v cs = trim (rewriteSegment v (trim cs)) := by
  have hblank : isBlank cs = false := by
    rw [Bool.eq_false_iff]
    exact fun hblank => hwords (words_of_white (isBlank_iff.mp hblank))
  have htrim : trim cs ≠ [] := by
    intro hnil
    rw [← words_trim, hnil] at hwords
    exact hwords rfl
  have hsegments := segments_of_noQuote htrim fun c hc => hcs c (mem_of_mem_trim hc)
  rw [ofText, hblank, if_neg Bool.false_ne_true, rewritePlain, hsegments, List.flatMap_singleton]
  rfl

/-- What is put for a bare name. -/
theorem idFor_bareName {v : Vocabulary} {id : String} (h : v.firstId? name = some id) :
    idFor v (bareName name.toList) =
      if v.isKnownId (String.ofList (bareName name.toList)) then bareName name.toList
      else id.toList := by
  have hsame : normalPhrase (String.ofList (bareName name.toList)) = normalPhrase name := by
    rw [normalPhrase, String.toList_ofList, phraseWords_bareName, normalPhrase]
  have hfirst : v.firstId? (String.ofList (bareName name.toList)) = some id := by
    rw [← h, Vocabulary.firstId?, Vocabulary.resolve, hsame]
    rfl
  rw [idFor, hfirst]

end Canonical

namespace Vocabulary

/-- A name that elements are registered under, and that the vocabulary recognizes, becomes the id of
the first of them, or stays a bare name if that is an id itself. -/
theorem canonicalize_name (es : List ContentElement) (name : String)
    (hids : ∀ e ∈ es, isPlainIdentifier e.id = true) (hquote : ∀ c ∈ name.toList, c ≠ '"')
    (hresolve : (ofElements es).resolve name ≠ []) (hname : (ofElements es).Recognizes name) :
    ∃ e, es.find? (·.goesBy name) = some e ∧
      (ofElements es).canonicalize name =
        if (ofElements es).isKnownId (String.ofList (bareName name.toList)) then
          String.ofList (bareName name.toList)
        else e.id := by
  -- what the name resolves to has a first id
  obtain ⟨id, hfirst⟩ : ∃ id, (ofElements es).firstId? name = some id := by
    obtain ⟨id, ids, hcons⟩ := List.exists_cons_of_ne_nil hresolve
    exact ⟨id, by rw [firstId?, hcons]; rfl⟩
  have hbare := idFor_bareName hfirst
  rw [firstId?_ofElements, Option.map_eq_some_iff] at hfirst
  obtain ⟨e, he, rfl⟩ := hfirst
  have hmem : e ∈ es := List.mem_of_find?_eq_some he
  have hgoes := List.find?_some he
  have hkey : normalPhrase name ∈ (ofElements es).phrases.keys :=
    mem_keys_ofElements.mpr ⟨e, hmem, ContentElement.goesBy_iff.mp hgoes⟩
  have hne : bareWords name.toList ≠ [] := bareWords_ne_nil_of_mem_keys hkey
  have hwords : words name.toList ≠ [] := by
    intro hnil
    rw [bareWords, hnil] at hne
    exact hne rfl
  obtain ⟨a, b, heq, ha, hb⟩ := exists_rewriteSegment_eq hname hkey hne
  -- neither the name nor an id loses anything when the result is trimmed
  have hends : (idFor (ofElements es) (bareName name.toList)).head?.any isWhite = false ∧
      (idFor (ofElements es) (bareName name.toList)).getLast?.any isWhite = false := by
    rw [hbare]
    split
    · exact bareName_ends name.toList
    · exact ink_ends_of_forall (isWhite_of_isPlainIdentifier (hids e hmem))
  refine ⟨e, he, ?_⟩
  rw [canonicalize, ofText_of_noQuote _ hwords hquote, heq, trim_white_append ha hb hends.1 hends.2,
    hbare]
  split
  · rfl
  · rw [String.ofList_toList]

/-- Some elements, two of which share a name. -/
def ironElements : List ContentElement :=
  [.named "iron" "Iron", .named "chest" "The Iron-Bound É'2", .named "copy" "iron-bound é'2"]

/-- A name in other case and spacing, with an apostrophe, a hyphen, a numeral and letters beyond
ASCII; two elements share it, and another goes by its first word. -/
theorem canonicalize_name_of_capitals :
    (∀ e ∈ ironElements, isPlainIdentifier e.id = true) ∧
      (∀ c ∈ "an IRON-bound\tÉ'2".toList, c ≠ '"') ∧
      (ofElements ironElements).resolve "an IRON-bound\tÉ'2" ≠ [] ∧
      (ofElements ironElements).Recognizes "an IRON-bound\tÉ'2" ∧
      (ofElements ironElements).canonicalize "an IRON-bound\tÉ'2" = "chest" := by
  have hids : ∀ e ∈ ironElements, isPlainIdentifier e.id = true := by decide +kernel
  have hquote : ∀ c ∈ "an IRON-bound\tÉ'2".toList, c ≠ '"' := by simp
  have hresolve : (ofElements ironElements).resolve "an IRON-bound\tÉ'2" ≠ [] := by
    decide +kernel
  have hname : (ofElements ironElements).Recognizes "an IRON-bound\tÉ'2" := by
    decide +kernel
  have hbare : (ofElements ironElements).isKnownId
      (String.ofList (bareName "an IRON-bound\tÉ'2".toList)) = false := by
    decide +kernel
  have hfirst : (ironElements.find? (·.goesBy "an IRON-bound\tÉ'2")).map (·.id) =
      some "chest" := by
    decide +kernel
  obtain ⟨e, he, hcanonical⟩ := canonicalize_name ironElements _ hids hquote hresolve hname
  rw [he] at hfirst
  have hid : e.id = "chest" := Option.some.inj hfirst
  rw [hbare, if_neg Bool.false_ne_true, hid] at hcanonical
  exact ⟨hids, hquote, hresolve, hname, hcanonical⟩

/-- There are names that are registered and not found: the determiner in the middle of this one is
dropped from the text, while the phrase has the name as one word. -/
theorem not_canonicalize_name :
    ¬ ∀ (es : List ContentElement) (e : ContentElement) (name id : String),
      (∀ e ∈ es, isPlainIdentifier e.id = true) →
      (∀ e ∈ es, ∀ name ∈ e.name :: e.aliases, ∀ c ∈ name.toList, c ≠ '"') →
      e ∈ es → name ∈ e.name :: e.aliases → (ofElements es).firstId? name = some id →
      (ofElements es).isKnownId (String.ofList (bareName name.toList)) = false →
      (ofElements es).canonicalize name = id := by
  intro h
  have hbox := h [.named "box" "Jack-in-the-Box"] (.named "box" "Jack-in-the-Box")
    "Jack-in-the-Box" "box" (by decide +kernel) (by simp [ContentElement.named])
    List.mem_cons_self List.mem_cons_self (by decide +kernel) (by decide +kernel)
  revert hbox
  decide +kernel

end Vocabulary

end GameCondition
