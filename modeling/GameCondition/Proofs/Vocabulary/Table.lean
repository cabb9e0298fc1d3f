import GameCondition.Proofs.Text.Phrases

/-! # The phrases of a vocabulary

A phrase stands for the elements that go by it, in the order in which they were told and for each id
once (`resolve_ofElements`, `resolve_eq_eraseDups`), so the first of them is meant
(`firstId?_ofElements`). The phrases that texts are searched for are the normal phrases of all
elements, each of them with words in it (`isPhrase_of_mem_longestFirst`), and what is found is found
for one of the longest (`exists_of_findSome?_longestFirst`).
-/

namespace GameCondition

/-- An element of which no more is told than its id and its name. -/
def ContentElement.named (id name : String) : ContentElement :=
  { id, name, kind := .other, aliases := [], attributes := [], flags := [], states := [] }

/-- Whether an element goes by a name, in any case and spacing. -/
def ContentElement.goesBy (e : ContentElement) (name : String) : Bool :=
  e.phrases.contains (normalPhrase name)

/-- An element goes by the names whose phrases are its own. -/
theorem ContentElement.goesBy_iff {e : ContentElement} {name : String} :
    e.goesBy name = true ↔ normalPhrase name ∈ e.phrases :=
  List.contains_iff_mem

/-- A phrase may stand for elements if it has words and is no word of the language. -/
theorem isUsable_iff {phrase : String} :
    isUsable phrase = true ↔ phrase ≠ "" ∧ phrase ≠ "of" ∧ Keyword.ofWord? phrase = none ∧
      SubjectKind.ofWord? phrase = none := by
  simp [isUsable, isReserved, and_assoc]

/-- An element goes by a name if one of its names has the same normal form, and that may stand for
elements. -/
theorem ContentElement.goesBy_eq (e : ContentElement) (name : String) :
    e.goesBy name = (isUsable (normalPhrase name) &&
      (e.name :: e.aliases).any fun n => normalPhrase n == normalPhrase name) := by
  rw [goesBy, phrases, Bool.eq_iff_iff]
  simp only [List.contains_iff_mem, List.mem_filter, List.mem_map, Bool.and_eq_true,
    List.any_eq_true, beq_iff_eq]
  exact and_comm

/-! ## Sets of names -/

namespace NameSet

/-- A key is in a dictionary of names when some name is the key in lower case. -/
theorem get?_foldl_insert (names : List String) (d : Dict Unit) (key : String) :
    ((names.foldl (fun d name => d.insert (lowered name) ()) d).get? key).isSome = true ↔
      (d.get? key).isSome = true ∨ ∃ name ∈ names, lowered name = key := by
  induction names generalizing d with
  | nil => simp
  | cons name names ih =>
    rw [List.foldl_cons, ih, Dict.get?_insert]
    by_cases hkey : key = lowered name
    · simp [hkey]
    · simp [hkey, Ne.symm hkey]

/-- A set of names has a name when it has it in some case. -/
theorem contains_ofList {names : List String} {name : String} :
    (ofList names).contains name = true ↔ ∃ n ∈ names, lowered n = lowered name := by
  rw [contains, ofList, get?_foldl_insert]
  simp

end NameSet

/-! ## Ids -/

/-- An id is added once. -/
theorem addId_addId (ids : List String) (id : String) :
    addId (addId ids id) id = addId ids id := by
  by_cases h : ids.contains id = true
  · rw [addId, addId, if_pos h, if_pos h]
  · have hcontains : (ids ++ [id]).contains id = true := by simp
    rw [addId, addId, if_neg h, if_pos hcontains]

/-- The first id stays the first. -/
theorem head?_addId (ids : List String) (id : String) :
    (addId ids id).head? = ids.head?.or (some id) := by
  cases ids with
  | nil => rfl
  | cons first ids =>
    unfold addId
    split <;> rfl

/-- The first of the ids and of those added stays the first. -/
theorem head?_foldl_addId (ids new : List String) :
    (new.foldl addId ids).head? = ids.head?.or new.head? := by
  induction new generalizing ids with
  | nil => simp
  | cons first new ih =>
    rw [List.foldl_cons, ih, head?_addId, Option.or_assoc]
    rfl

/-- Ids are added in the order in which they come first. -/
theorem foldl_addId (ids new : List String) :
    new.foldl addId ids = ids ++ (new.filter fun id => !ids.contains id).eraseDups := by
  induction new generalizing ids with
  | nil => simp
  | cons id new ih =>
    rw [List.foldl_cons, ih]
    by_cases h : ids.contains id = true
    · rw [addId, if_pos h, List.filter_cons, h]
      rfl
    · rw [addId, if_neg h, List.filter_cons, Bool.eq_false_iff.mpr h, Bool.not_false, if_pos rfl,
        List.eraseDups_cons, List.filter_filter, List.append_assoc, List.singleton_append]
      have hfilter : (fun other => !(ids ++ [id]).contains other) =
          fun other => (!other == id) && !ids.contains other := by
        funext other
        rw [List.contains_append, Bool.not_or, Bool.and_comm, List.contains_cons, List.contains_nil,
          Bool.or_false]
      rw [hfilter]

/-- Adding an id repeats none. -/
theorem nodup_addId {ids : List String} (h : ids.Nodup) (id : String) : (addId ids id).Nodup := by
  unfold addId
  split
  · exact h
  · rename_i hnew
    rw [List.contains_iff_mem] at hnew
    refine List.nodup_append.mpr ⟨h, List.pairwise_singleton _ id, ?_⟩
    rintro a ha b hb rfl
    exact hnew (List.mem_singleton.mp hb ▸ ha)

/-- Adding ids repeats none. -/
theorem nodup_foldl_addId {ids : List String} (h : ids.Nodup) (new : List String) :
    (new.foldl addId ids).Nodup := by
  induction new generalizing ids with
  | nil => exact h
  | cons id new ih => exact ih (nodup_addId h id)

/-! ## Registering elements -/

namespace PhraseTable

/-- The ids that a phrase stands for. -/
def ids (t : PhraseTable) (phrase : String) : List String :=
  (t.get? phrase).getD []

variable (t : PhraseTable) (phrase q : String)

/-- Registering an id changes the ids of its phrase only. -/
theorem ids_register (id : String) :
    (t.register phrase id).ids q = if q = phrase then addId (t.ids phrase) id else t.ids q := by
  rw [ids, register, Dict.get?_insert]
  split <;> rfl

/-- Registering an id adds its phrase to the keys. -/
theorem mem_keys_register (id : String) :
    q ∈ (t.register phrase id).keys ↔ q = phrase ∨ q ∈ t.keys := by
  rw [Dict.mem_keys_iff, Dict.mem_keys_iff, register, Dict.get?_insert]
  split <;> simp [*]

/-- An element is registered under its phrases alone. -/
theorem ids_registerElement (e : ContentElement) :
    (t.registerElement e).ids q = if q ∈ e.phrases then addId (t.ids q) e.id else t.ids q := by
  rw [registerElement]
  induction e.phrases generalizing t with
  | nil => rfl
  | cons phrase phrases ih =>
    rw [List.foldl_cons, ih, ids_register]
    by_cases hq : q = phrase
    · subst hq
      simp [addId_addId]
    · simp [hq]

/-- Registering an element adds its phrases to the keys. -/
theorem mem_keys_registerElement (e : ContentElement) :
    q ∈ (t.registerElement e).keys ↔ q ∈ e.phrases ∨ q ∈ t.keys := by
  rw [registerElement]
  induction e.phrases generalizing t with
  | nil => simp
  | cons phrase phrases ih =>
    rw [List.foldl_cons, ih, mem_keys_register, List.mem_cons, or_left_comm, or_assoc]

/-- Registering elements adds the ids of those that have the phrase, in their order. -/
theorem ids_foldl_registerElement (es : List ContentElement) :
    ids (es.foldl registerElement t) q =
      ((es.filter fun e => e.phrases.contains q).map (·.id)).foldl addId (t.ids q) := by
  induction es generalizing t with
  | nil => rfl
  | cons e es ih =>
    rw [List.foldl_cons, ih, ids_registerElement, List.filter_cons]
    by_cases hq : q ∈ e.phrases
    · simp [hq]
    · simp [hq]

/-- Registering elements adds their phrases to the keys. -/
theorem mem_keys_foldl_registerElement (es : List ContentElement) :
    q ∈ (es.foldl registerElement t).keys ↔ (∃ e ∈ es, q ∈ e.phrases) ∨ q ∈ t.keys := by
  induction es generalizing t with
  | nil => simp
  | cons e es ih =>
    rw [List.foldl_cons, ih, mem_keys_registerElement]
    simp only [List.exists_mem_cons_iff, or_assoc, or_left_comm]

end PhraseTable

namespace Vocabulary

variable {es : List ContentElement} {s : String}

/-- A phrase stands for the ids of the elements that go by it. -/
theorem resolve_ofElements (es : List ContentElement) (s : String) :
    (ofElements es).resolve s = ((es.filter (·.goesBy s)).map (·.id)).foldl addId [] :=
  PhraseTable.ids_foldl_registerElement .empty (normalPhrase s) es

/-- A phrase stands for the ids of the elements that have a name or an alias of the same normal
form, each once and in the order in which they come first. One without words stands for none, and
neither does a word of the language. -/
theorem resolve_eq_eraseDups (es : List ContentElement) (q : String) :
    ((ofElements es).resolve q =
      if normalPhrase q ≠ "" ∧ normalPhrase q ≠ "of" ∧ Keyword.ofWord? (normalPhrase q) = none ∧
        SubjectKind.ofWord? (normalPhrase q) = none
      then ((es.filter fun e => (e.name :: e.aliases).any fun name =>
        normalPhrase name == normalPhrase q).map (·.id)).eraseDups
      else []) ∧
    ((ofElements es).resolve q).Nodup := by
  constructor
  · rw [resolve_ofElements, foldl_addId]
    simp only [← isUsable_iff, ContentElement.goesBy_eq]
    cases isUsable (normalPhrase q) with
    | false => simp
    | true => simp
  · rw [resolve_ofElements]
    exact nodup_foldl_addId List.nodup_nil _

/-- The first element that goes by a phrase is meant by it. -/
theorem firstId?_ofElements (es : List ContentElement) (s : String) :
    (ofElements es).firstId? s = (es.find? (·.goesBy s)).map (·.id) := by
  rw [firstId?, resolve_ofElements, head?_foldl_addId, List.head?_map, List.head?_filter]
  rfl

/-- The first id of a phrase is that of an element. -/
theorem exists_of_firstId? {id : String} (h : (ofElements es).firstId? s = some id) :
    ∃ e ∈ es, e.id = id := by
  rw [firstId?_ofElements, Option.map_eq_some_iff] at h
  obtain ⟨e, he, hid⟩ := h
  exact ⟨e, List.mem_of_find?_eq_some he, hid⟩

/-- The ids of all elements are known, in any case. -/
theorem isKnownId_ofElements {word : String} :
    (ofElements es).isKnownId word = true ↔ ∃ e ∈ es, lowered e.id = lowered word := by
  rw [isKnownId, ofElements, NameSet.contains_ofList]
  simp

/-- The keys of a vocabulary are the phrases of its elements. -/
theorem mem_keys_ofElements {key : String} :
    key ∈ (ofElements es).phrases.keys ↔ ∃ e ∈ es, key ∈ e.phrases := by
  have hkeys := PhraseTable.mem_keys_foldl_registerElement .empty key es
  exact hkeys.trans (or_iff_left List.not_mem_nil)

/-! ## Phrases that are looked for -/

/-- The order in which phrases are looked for. -/
theorem pairwise_longestFirst (v : Vocabulary) :
    (v.phrases.keys.mergeSort fun a b => decide (b.utf8ByteSize ≤ a.utf8ByteSize)).Pairwise
      fun a b => b.utf8ByteSize ≤ a.utf8ByteSize := by
  have hsorted :
      (v.phrases.keys.mergeSort fun a b => decide (b.utf8ByteSize ≤ a.utf8ByteSize)).Pairwise
        fun a b => decide (b.utf8ByteSize ≤ a.utf8ByteSize) = true := by
    apply List.pairwise_mergeSort
    · intro a b c hab hbc
      simp only [decide_eq_true_eq] at *
      omega
    · intro a b
      simp only [Bool.or_eq_true, decide_eq_true_eq]
      omega
  exact hsorted.imp of_decide_eq_true

/-- What is searched for are the keys, word by word. -/
theorem mem_longestFirst {v : Vocabulary} {phrase : List (List Char)} :
    phrase ∈ v.longestFirst ↔ ∃ key ∈ v.phrases.keys, words key.toList = phrase := by
  rw [longestFirst, List.mem_map]
  simp only [List.mem_mergeSort]

/-- What is found first is found for a phrase that is as long as any for which something is
found. -/
theorem exists_of_findSome?_longestFirst {α : Type} {v : Vocabulary} {key : String} {found : α}
    {f : List (List Char) → Option α} (h : v.longestFirst.findSome? f = some found)
    (hkey : key ∈ v.phrases.keys) (hf : f (words key.toList) ≠ none) :
    ∃ key' ∈ v.phrases.keys, f (words key'.toList) = some found ∧
      key.utf8ByteSize ≤ key'.utf8ByteSize := by
  have hsorted := v.pairwise_longestFirst
  rw [longestFirst, List.findSome?_map, List.findSome?_eq_some_iff] at h
  obtain ⟨before, key', after, hsplit, hfound, hbefore⟩ := h
  have hmem : key ∈ before ++ key' :: after := by
    rw [← hsplit]
    exact List.mem_mergeSort.mpr hkey
  have hkey' : key' ∈ v.phrases.keys := by
    apply List.mem_mergeSort.mp
    rw [hsplit]
    exact List.mem_append_right before List.mem_cons_self
  rw [hsplit, List.pairwise_append, List.pairwise_cons] at hsorted
  refine ⟨key', hkey', hfound, ?_⟩
  rcases List.mem_append.mp hmem with hmem | hmem
  · exact absurd (hbefore key hmem) hf
  · rcases List.mem_cons.mp hmem with rfl | hmem
    · exact Nat.le_refl _
    · exact hsorted.2.1.1 key hmem

/-- A phrase of an element has words. -/
theorem isPhrase_of_mem_phrases {e : ContentElement} {key : String} (h : key ∈ e.phrases) :
    IsPhrase (words key.toList) := by
  obtain ⟨hmem, husable⟩ := List.mem_filter.mp h
  obtain ⟨name, -, rfl⟩ := List.mem_map.mp hmem
  rw [words_normalPhrase]
  refine ⟨?_, fun w => isUnspaced_of_mem_phraseWords⟩
  intro hnil
  rw [isUsable, normalPhrase, hnil] at husable
  simp [joinWords] at husable

/-- What is searched for are phrases. -/
theorem isPhrase_of_mem_longestFirst {phrase : List (List Char)}
    (h : phrase ∈ (ofElements es).longestFirst) : IsPhrase phrase := by
  obtain ⟨key, hkey, rfl⟩ := mem_longestFirst.mp h
  obtain ⟨e, -, he⟩ := mem_keys_ofElements.mp hkey
  exact isPhrase_of_mem_phrases he

end Vocabulary

end GameCondition
