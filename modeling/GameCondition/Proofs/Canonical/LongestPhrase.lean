import GameCondition.Proofs.Canonical.NormalForm
import GameCondition.Proofs.Canonical.Phrases
import GameCondition.Proofs.Vocabulary.AsciiPhrases

/-! # The longest phrase wins

Ids are put for the phrases of a vocabulary by one reading of the text from left to right. At each
place the longest phrase is taken that the text there is equal to but for case (`LongestFirst`).
The rule for phrases tries them by their length in bytes, as words with white space between them,
and looks what it has found up again by its normal form. For names and text of ASCII with even white
space that comes to the same (`replacePhrases_eq_iff`).
-/

namespace GameCondition.Canonical

/-! ## The reading -/

/-- A phrase of a vocabulary stands at a place: the text there is the phrase in any case, and where
the phrase begins or ends with a character of a word, so does a word of the text. -/
structure PhraseStands (v : Vocabulary) (before : Option Char) (key : String)
    (found rest : List Char) : Prop where
  known : key ∈ v.phrases.keys
  same : sameAscii (String.ofList found) key = true
  opens : key.toList.head?.any isWordChar = true → atWordEdge before (found ++ rest) = true
  closes : key.toList.getLast?.any isWordChar = true → atWordEdge found.getLast? rest = true

/-- No phrase that stands at a place is longer. -/
def IsLongest (v : Vocabulary) (before : Option Char) (key : String) (cs : List Char) : Prop :=
  ∀ key' found rest, cs = found ++ rest → PhraseStands v before key' found rest →
    key'.length ≤ key.length

/-- What is put where a phrase is found: the text itself if it is an id, else the first id that is
registered under the phrase. -/
def StandsFor (v : Vocabulary) (key : String) (found text : List Char) : Prop :=
  if v.isKnownId (String.ofList found) = true then text = found
  else ∃ id, v.firstId? key = some id ∧ text = id.toList

/-- A reading of a text behind a character from left to right. Where phrases stand the longest is
taken, and the reading goes on behind it. Elsewhere a character is kept. -/
inductive LongestFirst (v : Vocabulary) : Option Char → List Char → List Char → Prop where
  | nil (before : Option Char) : LongestFirst v before [] []
  | keep {before : Option Char} {c : Char} {cs out : List Char} :
      (∀ key found rest, c :: cs = found ++ rest → ¬ PhraseStands v before key found rest) →
      LongestFirst v (some c) cs out → LongestFirst v before (c :: cs) (c :: out)
  | put {before : Option Char} {key : String} {found rest text out : List Char} :
      PhraseStands v before key found rest → IsLongest v before key (found ++ rest) →
      StandsFor v key found text → LongestFirst v found.getLast? rest out →
      LongestFirst v before (found ++ rest) (text ++ out)

theorem PhraseStands.length_eq {v : Vocabulary} {before : Option Char} {key : String}
    {found rest : List Char} (h : PhraseStands v before key found rest) :
    key.length = found.length := by
  have hlength := congrArg List.length (sameAscii_iff.mp h.same)
  rw [String.toList_ofList, List.length_map, List.length_map, String.length_toList] at hlength
  exact hlength.symm

/-! ## Spellings in evenly spaced text -/

variable {ws : List (List Char)} {before : Option Char} {key : String}
  {cs found rest text out : List Char}

/-- Where white space is even, what spells a phrase is the phrase but for case. -/
theorem map_foldChar_of_spelled (h : Spelled ws found) (hspaced : EvenlySpaced found) :
    found.map foldChar = (joinWords ' ' ws).map foldChar := by
  induction h with
  | nil => rfl
  | last hmap => exact hmap
  | cons hmap hne hgap _ ih =>
    obtain rfl := hspaced.of_append.eq_blank hne hgap
    have htail := ih hspaced.of_append.of_append
    simp only [joinWords_cons_cons, List.map_append, List.map_cons, hmap, htail, List.cons_append,
      List.nil_append]

theorem spelled_of_map_foldChar (h : found.map foldChar = (joinWords ' ' ws).map foldChar) :
    Spelled ws found := by
  induction ws generalizing found with
  | nil =>
    obtain rfl := List.map_eq_nil_iff.mp h
    exact .nil
  | cons w ws ih =>
    cases ws with
    | nil => exact .last h
    | cons v ws =>
      rw [joinWords_cons_cons, List.map_append, List.map_cons] at h
      obtain ⟨a, b, rfl, ha, hb⟩ := List.map_eq_append_iff.mp h
      obtain ⟨c, taken, rfl, hc, htaken⟩ := List.map_eq_cons_iff.mp hb
      have hwhite : isWhite c = true := by
        rw [← isWhite_foldChar, hc, isWhite_foldChar]
        decide
      exact .cons ha (List.cons_ne_nil c []) (List.forall_mem_singleton.mpr hwhite) (ih htaken)

theorem demandsEdge_of_ascii {c : Char} (hc : c.toNat < 128) : demandsEdge c = isWordChar c :=
  forall_ascii (P := fun c => demandsEdge c = isWordChar c) (by decide) hc

/-- The ends of a phrase of ASCII at which edges of words are demanded. -/
theorem ends_demandsEdge (h : IsAsciiPhrase key) :
    (words key.toList).flatten.head?.any demandsEdge = key.toList.head?.any isWordChar ∧
    (words key.toList).flatten.getLast?.any demandsEdge = key.toList.getLast?.any isWordChar := by
  rw [← head?_joinWords h.phrase.2, ← getLast?_joinWords h.phrase.2, h.joined]
  constructor
  · cases hhead : key.toList.head? with
    | none => rfl
    | some c => exact demandsEdge_of_ascii (h.ascii c (List.mem_of_head? hhead))
  · cases hlast : key.toList.getLast? with
    | none => rfl
    | some c => exact demandsEdge_of_ascii (h.ascii c (List.mem_of_getLast? hlast))

theorem sameAscii_iff_of_isAsciiPhrase (h : IsAsciiPhrase key) :
    sameAscii (String.ofList found) key = true ↔ found.map Char.toLower = key.toList := by
  rw [sameAscii_iff, String.toList_ofList, h.lower]

/-! ## One step -/

section Step

variable {es : List ContentElement}

theorem isAsciiPhrase_of_mem_keys
    (hnames : ∀ e ∈ es, ∀ name ∈ e.name :: e.aliases, IsAscii name.toList)
    (hkey : key ∈ (Vocabulary.ofElements es).phrases.keys) : IsAsciiPhrase key := by
  obtain ⟨e, he, hphrase⟩ := Vocabulary.mem_keys_ofElements.mp hkey
  exact isAsciiPhrase_of_mem_phrases (hnames e he) hphrase

/-- A phrase is taken up where it stands. -/
theorem takeNamed?_eq_some_iff_stands {v : Vocabulary} (hphrase : IsAsciiPhrase key)
    (hkey : key ∈ v.phrases.keys) (hcs : IsAscii cs) (hspaced : EvenlySpaced cs) :
    takeNamed? before (words key.toList) cs = some (found, rest) ↔
      cs = found ++ rest ∧ PhraseStands v before key found rest := by
  obtain ⟨hhead, hlast⟩ := ends_demandsEdge hphrase
  rw [takeNamed?_eq_some hphrase.phrase, hhead, hlast]
  refine and_congr_right ?_
  rintro rfl
  have hfound : IsAscii found := fun c hc => hcs c (List.mem_append_left rest hc)
  have hspelled : Spelled (words key.toList) found ↔
      sameAscii (String.ofList found) key = true := by
    have hfolded : (joinWords ' ' (words key.toList)).map foldChar = key.toList := by
      rw [hphrase.joined, map_foldChar_of_isAscii hphrase.ascii, hphrase.lower]
    rw [sameAscii_iff_of_isAsciiPhrase hphrase, ← map_foldChar_of_isAscii hfound]
    constructor
    · intro h
      exact (map_foldChar_of_spelled h hspaced.of_append_left).trans hfolded
    · intro h
      exact spelled_of_map_foldChar (h.trans hfolded.symm)
  constructor
  · rintro ⟨htaken, hopens, hcloses⟩
    exact ⟨hkey, hspelled.mp htaken, hopens, hcloses⟩
  · rintro ⟨-, hsame, hopens, hcloses⟩
    exact ⟨hspelled.mpr hsame, hopens, hcloses⟩

/-- What is put for a phrase is found by what was taken up. -/
theorem standsFor_iff (hphrase : IsAsciiPhrase key)
    (hkey : key ∈ (Vocabulary.ofElements es).phrases.keys) (hfound : IsAscii found)
    (hsame : sameAscii (String.ofList found) key = true) :
    StandsFor (.ofElements es) key found text ↔ text = idFor (.ofElements es) found := by
  -- a key is in normal form already
  have hself : normalPhrase key = key := by
    have hkeySame := hphrase.normalPhrase_eq hphrase.ascii hphrase.lower
    rwa [String.ofList_toList] at hkeySame
  -- the text found is the key in another case, and looked up in lower case
  have hlookup : (Vocabulary.ofElements es).firstId? (String.ofList found) =
      (Vocabulary.ofElements es).firstId? key := by
    rw [sameAscii_iff_of_isAsciiPhrase hphrase] at hsame
    rw [Vocabulary.firstId?, Vocabulary.resolve, hphrase.normalPhrase_eq hfound hsame,
      Vocabulary.firstId?, Vocabulary.resolve, hself]
  -- some element has the key, so that it has an id
  obtain ⟨id, hid⟩ : ∃ id, (Vocabulary.ofElements es).firstId? key = some id := by
    obtain ⟨e, he, hmem⟩ := Vocabulary.mem_keys_ofElements.mp hkey
    have hgoes : e.goesBy key = true := by rwa [ContentElement.goesBy_iff, hself]
    rw [Vocabulary.firstId?_ofElements, ← Option.isSome_iff_exists, Option.isSome_map,
      List.find?_isSome]
    exact ⟨e, he, hgoes⟩
  rw [StandsFor, idFor, hlookup, hid]
  split
  · exact Iff.rfl
  · constructor
    · rintro ⟨id', hid', rfl⟩
      rw [Option.some.inj hid']
    · intro htext
      exact ⟨id, rfl, htext⟩

variable (hnames : ∀ e ∈ es, ∀ name ∈ e.name :: e.aliases, IsAscii name.toList)
include hnames

/-- The rule applies just where a phrase stands. -/
theorem phrase_eq_none_iff_stands (hcs : IsAscii cs) (hspaced : EvenlySpaced cs) :
    phrase (.ofElements es) (Vocabulary.ofElements es).longestFirst before cs = none ↔
      ∀ key found rest, cs = found ++ rest →
        ¬ PhraseStands (.ofElements es) before key found rest := by
  rw [phrase_eq_none_iff]
  constructor
  · intro hnone key found rest heq hstands
    have hphrase := isAsciiPhrase_of_mem_keys hnames hstands.known
    have htaken := (takeNamed?_eq_some_iff_stands hphrase hstands.known hcs hspaced).mpr
      ⟨heq, hstands⟩
    rw [hnone _ (Vocabulary.mem_longestFirst.mpr ⟨key, hstands.known, rfl⟩)] at htaken
    cases htaken
  · intro hnowhere p hp
    obtain ⟨key, hkey, rfl⟩ := Vocabulary.mem_longestFirst.mp hp
    have hphrase := isAsciiPhrase_of_mem_keys hnames hkey
    rw [Option.eq_none_iff_forall_ne_some]
    rintro ⟨found, rest⟩ htaken
    obtain ⟨heq, hstands⟩ := (takeNamed?_eq_some_iff_stands hphrase hkey hcs hspaced).mp htaken
    exact hnowhere key found rest heq hstands

/-- What the rule takes up is the longest phrase that stands at the place. -/
theorem stands_of_phrase_eq_some (hcs : IsAscii cs) (hspaced : EvenlySpaced cs)
    (h : phrase (.ofElements es) (Vocabulary.ofElements es).longestFirst before cs =
      some ⟨text, rest⟩) :
    ∃ key found, cs = found ++ rest ∧ PhraseStands (.ofElements es) before key found rest ∧
      IsLongest (.ofElements es) before key cs ∧ StandsFor (.ofElements es) key found text := by
  have htakes : ∀ {key found rest}, key ∈ (Vocabulary.ofElements es).phrases.keys →
      (takeNamed? before (words key.toList) cs = some (found, rest) ↔
        cs = found ++ rest ∧ PhraseStands (.ofElements es) before key found rest) :=
    fun hkey => takeNamed?_eq_some_iff_stands (isAsciiPhrase_of_mem_keys hnames hkey) hkey hcs
      hspaced
  obtain ⟨found, hfirst, htext⟩ := phrase_eq_some_iff.mp h
  obtain ⟨p, hp, htaken⟩ := List.exists_of_findSome?_eq_some hfirst
  obtain ⟨key, hkey, rfl⟩ := Vocabulary.mem_longestFirst.mp hp
  obtain ⟨heq, hstands⟩ := (htakes hkey).mp htaken
  have hfound : IsAscii found := fun c hc => hcs c (heq ▸ List.mem_append_left rest hc)
  refine ⟨key, found, heq, hstands, ?_, ?_⟩
  · -- phrases are tried by their length in bytes, and that is their length
    intro key' found' rest' heq' hstands'
    have hother : takeNamed? before (words key'.toList) cs ≠ none := by
      rw [(htakes hstands'.known).mpr ⟨heq', hstands'⟩]
      exact Option.some_ne_none _
    obtain ⟨key'', hkey'', htaken'', hsize⟩ :=
      Vocabulary.exists_of_findSome?_longestFirst hfirst hstands'.known hother
    obtain ⟨-, hstands''⟩ := (htakes hkey'').mp htaken''
    rw [utf8ByteSize_of_isAscii (isAsciiPhrase_of_mem_keys hnames hstands'.known).ascii,
      utf8ByteSize_of_isAscii (isAsciiPhrase_of_mem_keys hnames hkey'').ascii] at hsize
    rwa [hstands.length_eq, ← hstands''.length_eq]
  · exact (standsFor_iff (isAsciiPhrase_of_mem_keys hnames hkey) hkey hfound hstands.same).mpr htext

theorem phrase_eq_some_of_stands (hcs : IsAscii (found ++ rest))
    (hspaced : EvenlySpaced (found ++ rest))
    (hstands : PhraseStands (.ofElements es) before key found rest)
    (hlongest : IsLongest (.ofElements es) before key (found ++ rest))
    (htext : StandsFor (.ofElements es) key found text) :
    phrase (.ofElements es) (Vocabulary.ofElements es).longestFirst before (found ++ rest) =
      some ⟨text, rest⟩ := by
  cases hphrase : phrase (.ofElements es) (Vocabulary.ofElements es).longestFirst before
      (found ++ rest) with
  | none =>
    rw [phrase_eq_none_iff_stands hnames hcs hspaced] at hphrase
    exact absurd hstands (hphrase key found rest rfl)
  | some r =>
    obtain ⟨text', rest'⟩ := r
    obtain ⟨key', found', heq, hstands', hlongest', htext'⟩ :=
      stands_of_phrase_eq_some hnames hcs hspaced hphrase
    -- two longest phrases at one place are of one length, so they take up the same
    have hle := hlongest key' found' rest' heq hstands'
    have hge := hlongest' key found rest rfl hstands
    rw [hstands.length_eq, hstands'.length_eq] at hle hge
    obtain ⟨rfl, rfl⟩ := List.append_inj heq (Nat.le_antisymm hge hle)
    have hfound : IsAscii found := fun c hc => hcs c (List.mem_append_left rest hc)
    rw [standsFor_iff (isAsciiPhrase_of_mem_keys hnames hstands.known) hstands.known hfound
      hstands.same] at htext
    rw [standsFor_iff (isAsciiPhrase_of_mem_keys hnames hstands'.known) hstands'.known hfound
      hstands'.same] at htext'
    rw [htext, htext']

/-! ## The whole text -/

theorem rewrites_iff_longestFirst (hcs : IsAscii cs) (hspaced : EvenlySpaced cs) :
    Rewrites (phrase (.ofElements es) (Vocabulary.ofElements es).longestFirst) before cs out ↔
      LongestFirst (.ofElements es) before cs out := by
  constructor
  · intro h
    -- either way by induction on the rewriting, whose texts stay ASCII and evenly spaced
    induction h with
    | nil before => exact .nil before
    | keep hnone _ ih =>
      refine .keep ((phrase_eq_none_iff_stands hnames hcs hspaced).mp hnone) (ih ?_ hspaced.2)
      exact (List.forall_mem_cons.mp hcs).2
    | @replace before taken text rest out _ hsome _ ih =>
      obtain ⟨key, found, heq, hstands, hlongest, htext⟩ :=
        stands_of_phrase_eq_some hnames hcs hspaced hsome
      obtain rfl := List.append_cancel_right heq
      refine .put hstands hlongest htext (ih ?_ hspaced.of_append)
      exact fun c hc => hcs c (List.mem_append_right taken hc)
  · intro h
    induction h with
    | nil before => exact .nil before
    | keep hnowhere _ ih =>
      refine .keep ((phrase_eq_none_iff_stands hnames hcs hspaced).mpr hnowhere) (ih ?_ hspaced.2)
      exact (List.forall_mem_cons.mp hcs).2
    | @put before key found rest text out hstands hlongest htext _ ih =>
      have hsome := phrase_eq_some_of_stands hnames hcs hspaced hstands hlongest htext
      obtain ⟨taken, hne, heq⟩ := phrase_advances es _ _ _ hsome
      obtain rfl := List.append_cancel_right heq
      refine .replace hne hsome (ih ?_ hspaced.of_append)
      exact fun c hc => hcs c (List.mem_append_right found hc)

/-- Among names of ASCII, in a text of ASCII with even white space, the longest phrases win: ids are
put for those that `LongestFirst` finds. -/
theorem replacePhrases_eq_iff (hcs : IsAscii cs) (hspaced : EvenlySpaced cs) :
    replacePhrases (.ofElements es) cs = out ↔ LongestFirst (.ofElements es) none cs out := by
  rw [replacePhrases, rewriteBy_eq_iff (phrase_advances es)]
  exact rewrites_iff_longestFirst hnames hcs hspaced

end Step

/-- Two lamps, of which one has the other in its name, and someone with a mark in his name. -/
def lampElements : List ContentElement :=
  [.named "lamp" "Lamp", .named "oil_lamp" "Oil Lamp", .named "doctor" "Dr. Who"]

theorem replacePhrases_eq_iff_lampElements :
    (∀ e ∈ lampElements, ∀ name ∈ e.name :: e.aliases, IsAscii name.toList) ∧
    IsAscii "LAMP of oil LAMP, dr. who".toList ∧ EvenlySpaced "LAMP of oil LAMP, dr. who".toList ∧
    LongestFirst (.ofElements lampElements) none "LAMP of oil LAMP, dr. who".toList
      "LAMP of oil_lamp, doctor".toList := by
  have hnames : ∀ e ∈ lampElements, ∀ name ∈ e.name :: e.aliases, IsAscii name.toList := by decide
  have hascii : IsAscii "LAMP of oil LAMP, dr. who".toList := by decide
  have hspaced : EvenlySpaced "LAMP of oil LAMP, dr. who".toList := by simp [EvenlySpaced, isWhite]
  have hkeys : (Vocabulary.ofElements lampElements).phrases.keys =
      ["dr. who", "lamp", "oil lamp"] := by decide +kernel
  have hlongest : (Vocabulary.ofElements lampElements).longestFirst =
      [["oil".toList, "lamp".toList], ["dr.".toList, "who".toList], ["lamp".toList]] := by
    have hdoctor : "dr. who".utf8ByteSize = 7 := by decide +kernel
    have hlamp : "lamp".utf8ByteSize = 4 := by decide +kernel
    have hoil : "oil lamp".utf8ByteSize = 8 := by decide +kernel
    -- the order is computed from the three lengths
    have hsorted : (["dr. who", "lamp", "oil lamp"].mergeSort fun a b =>
        decide (b.utf8ByteSize ≤ a.utf8ByteSize)) = ["oil lamp", "dr. who", "lamp"] := by
      simp [List.mergeSort, List.MergeSort.Internal.splitInTwo, hdoctor, hlamp, hoil]
    rw [Vocabulary.longestFirst, hkeys, hsorted]
    decide +kernel
  refine ⟨hnames, hascii, hspaced, (replacePhrases_eq_iff hnames hascii hspaced).mp ?_⟩
  rw [replacePhrases, hlongest]
  decide +kernel

end GameCondition.Canonical
