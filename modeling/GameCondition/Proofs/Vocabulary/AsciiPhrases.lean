import GameCondition.Proofs.Vocabulary.Table

/-! # Phrases of ASCII

For names of ASCII the phrases of an element are texts in small letters, with single blanks between
their words and no determiner among these (`isAsciiPhrase_of_mem_phrases`). So a text of ASCII that
is such a phrase in any case has it as its normal form (`IsAsciiPhrase.normalPhrase_eq`).
-/

namespace GameCondition

/-! ## Text of ASCII -/

/-- A text of ASCII. -/
def IsAscii (cs : List Char) : Prop :=
  ∀ c ∈ cs, c.toNat < 128

instance (cs : List Char) : Decidable (IsAscii cs) :=
  List.decidableBAll _ _

variable {cs found : List Char} {key : String}

theorem map_foldChar_of_isAscii (h : IsAscii cs) : cs.map foldChar = cs.map Char.toLower :=
  List.map_congr_left fun c hc => if_pos (h c hc)

theorem lowerChar_of_ascii {c : Char} (hc : c.toNat < 128) : lowerChar c = [c.toLower] := by
  have hdotted : c ≠ 'İ' := by
    rintro rfl
    exact absurd hc (by decide)
  rw [lowerChar, if_neg hdotted, lowerPartner, if_pos hc]

theorem lowerText_of_isAscii (h : IsAscii cs) : lowerText cs = cs.map Char.toLower := by
  suffices hafter : ∀ before, lowerAfter before cs = cs.map Char.toLower from hafter []
  induction cs with
  | nil => exact fun _ => rfl
  | cons c cs ih =>
    intro before
    obtain ⟨hc, hcs⟩ := List.forall_mem_cons.mp h
    have hsigma : c ≠ 'Σ' := by
      rintro rfl
      exact absurd hc (by decide)
    rw [lowerAfter, if_neg hsigma, lowerChar_of_ascii hc, ih hcs, List.map_cons]
    rfl

theorem utf8ByteSize_of_isAscii {s : String} (h : IsAscii s.toList) :
    s.utf8ByteSize = s.length := by
  rw [← String.length_toList, ← s.ofList_toList, String.toList_ofList]
  generalize s.toList = cs at h
  induction cs with
  | nil => rfl
  | cons c cs ih =>
    obtain ⟨hc, hcs⟩ := List.forall_mem_cons.mp h
    have hsize : c.utf8Size = 1 := Char.utf8Size_eq_one_iff.mpr (Nat.le_of_lt_succ hc)
    rw [String.ofList_cons, String.utf8ByteSize_append, String.utf8ByteSize_singleton, hsize,
      ih hcs, List.length_cons, Nat.add_comm]

/-! ## Phrases in normal form -/

/-- A phrase in normal form, of ASCII. -/
structure IsAsciiPhrase (key : String) : Prop where
  phrase : IsPhrase (words key.toList)
  joined : joinWords ' ' (words key.toList) = key.toList
  ascii : IsAscii key.toList
  lower : key.toList.map Char.toLower = key.toList
  bare : ∀ w ∈ words key.toList, determiners.contains w = false

/-- The phrases of an element with names of ASCII. -/
theorem isAsciiPhrase_of_mem_phrases {e : ContentElement}
    (hnames : ∀ name ∈ e.name :: e.aliases, IsAscii name.toList) (h : key ∈ e.phrases) :
    IsAsciiPhrase key := by
  have hphrase := Vocabulary.isPhrase_of_mem_phrases h
  obtain ⟨hmem, -⟩ := List.mem_filter.mp h
  obtain ⟨name, hname, rfl⟩ := List.mem_map.mp hmem
  have hwords := words_normalPhrase name
  have hjoined : joinWords ' ' (phraseWords name.toList) = (normalPhrase name).toList := by
    rw [normalPhrase, String.toList_ofList]
  -- each word is a word of the name in small letters
  have hspelled : ∀ w ∈ phraseWords name.toList, determiners.contains w = false ∧
      ∀ c ∈ w, c.toNat < 128 ∧ c.toLower = c := by
    intro w hw
    obtain ⟨hlowered, hbare⟩ := List.mem_filter.mp hw
    obtain ⟨v, hv, rfl⟩ := List.mem_map.mp hlowered
    have hascii : IsAscii v := fun c hc => hnames name hname c (mem_of_mem_words hv hc)
    refine ⟨by simpa using hbare, ?_⟩
    rw [lowerText_of_isAscii hascii, List.forall_mem_map]
    exact fun c hc => ⟨toNat_toLower_lt (hascii c hc), toLower_toLower c⟩
  have hchars : ∀ c ∈ (normalPhrase name).toList, c.toNat < 128 ∧ c.toLower = c := by
    rw [← hjoined]
    exact forall_mem_joinWords (by decide) fun w hw => (hspelled w hw).2
  refine ⟨hphrase, ?_, fun c hc => (hchars c hc).1, ?_, ?_⟩
  · rw [hwords, hjoined]
  · rw [List.map_congr_left fun c hc => (hchars c hc).2, List.map_id']
  · rw [hwords]
    exact fun w hw => (hspelled w hw).1

namespace IsAsciiPhrase

/-- A text that is a phrase but for case is the same phrase as that. -/
theorem normalPhrase_eq (h : IsAsciiPhrase key) (hfound : IsAscii found)
    (hsame : found.map Char.toLower = key.toList) : normalPhrase (String.ofList found) = key := by
  have hlowered : (words found).map lowerText = words key.toList := by
    rw [← hsame, words_map isWhite_toLower]
    refine List.map_congr_left fun w hw => lowerText_of_isAscii fun c hc => ?_
    exact hfound c (mem_of_mem_words hw hc)
  have hbare : (words key.toList).filter (fun w => !determiners.contains w) = words key.toList := by
    refine List.filter_eq_self.mpr fun w hw => ?_
    rw [h.bare w hw]
    rfl
  rw [normalPhrase, String.toList_ofList, phraseWords, hlowered, hbare, h.joined,
    String.ofList_toList]

end IsAsciiPhrase

end GameCondition
