import GameCondition.Proofs.Text.Rewriting
import GameCondition.Proofs.Text.Words

/-! # Phrases in a text

A phrase is spelled by a text when the words are those of the phrase ignoring case, with any white
space between them (`Spelled`). That is what `takePhrase?` looks for (`takePhrase?_eq_some`). A
phrase of words of letters stands at a place of a text when it is spelled there and the edges of
words are at both of its ends (`Stands`). That is what `takeBounded?` looks for
(`takeBounded?_eq_some`).
-/

namespace GameCondition

/-! ## Words -/

/-- Whether a word is spelled with letters of ASCII, in any case. -/
def isLetterWord (w : List Char) : Bool :=
  !w.isEmpty && w.all foldsToLetter

theorem isLetterWord_iff {w : List Char} :
    isLetterWord w = true ↔ w ≠ [] ∧ ∀ c ∈ w, foldsToLetter c = true := by
  simp [isLetterWord]

/-- A word of letters is one in any case. -/
theorem isLetterWord_of_map_foldChar {a w : List Char} (h : a.map foldChar = w.map foldChar) :
    isLetterWord a = isLetterWord w := by
  have hall : a.all foldsToLetter = w.all foldsToLetter := by
    have := congrArg (List.all · Char.isLower) h
    rwa [List.all_map, List.all_map] at this
  have hempty : a.isEmpty = w.isEmpty := by
    have := congrArg List.isEmpty h
    simpa only [List.isEmpty_map] using this
  rw [isLetterWord, isLetterWord, hall, hempty]

/-- White space does not fold to a letter. -/
theorem isWhite_of_foldsToLetter {c : Char} (h : foldsToLetter c = true) : isWhite c = false :=
  isWhite_of_isWordChar (isWordChar_of_foldsToLetter h)

/-- A word is one in any case. -/
theorem IsUnspaced.of_map_foldChar {a w : List Char} (hw : IsUnspaced w)
    (h : a.map foldChar = w.map foldChar) : IsUnspaced a := by
  constructor
  · rintro rfl
    exact hw.1 (List.map_eq_nil_iff.mp h.symm)
  · intro c hc
    have hmem : foldChar c ∈ w.map foldChar := h ▸ List.mem_map_of_mem hc
    obtain ⟨d, hd, heq⟩ := List.mem_map.mp hmem
    rw [← isWhite_foldChar, ← heq, isWhite_foldChar]
    exact hw.2 d hd

/-! ## Spellings of a phrase -/

/-- A text spells a phrase: its words in any case, with white space between them. -/
inductive Spelled : List (List Char) → List Char → Prop where
  | nil : Spelled [] []
  | last {w a : List Char} : a.map foldChar = w.map foldChar → Spelled [w] a
  | cons {w v a gap taken : List Char} {vs : List (List Char)} :
      a.map foldChar = w.map foldChar → gap ≠ [] → (∀ c ∈ gap, isWhite c = true) →
      Spelled (v :: vs) taken → Spelled (w :: v :: vs) (a ++ (gap ++ taken))

/-- A phrase has words. -/
def IsPhrase (phrase : List (List Char)) : Prop :=
  phrase ≠ [] ∧ ∀ w ∈ phrase, IsUnspaced w

/-- A phrase of words of letters. -/
def IsLetterPhrase (phrase : List (List Char)) : Prop :=
  phrase ≠ [] ∧ ∀ w ∈ phrase, isLetterWord w = true

instance (phrase : List (List Char)) : Decidable (IsLetterPhrase phrase) :=
  inferInstanceAs (Decidable (_ ∧ _))

/-- A phrase of letters is a phrase. -/
theorem IsLetterPhrase.isPhrase {phrase : List (List Char)} (h : IsLetterPhrase phrase) :
    IsPhrase phrase := by
  refine ⟨h.1, fun w hw => ?_⟩
  obtain ⟨hne, hletters⟩ := isLetterWord_iff.mp (h.2 w hw)
  exact ⟨hne, fun c hc => isWhite_of_foldsToLetter (hletters c hc)⟩

namespace Spelled

variable {phrase : List (List Char)} {taken : List Char}

/-- What spells a phrase of letters begins and ends with a letter, and has white space besides. -/
theorem ends (h : Spelled phrase taken) (hphrase : IsLetterPhrase phrase) :
    (∃ c cs, taken = c :: cs ∧ foldsToLetter c = true) ∧
      (∃ c, taken.getLast? = some c ∧ foldsToLetter c = true) ∧
      ∀ c ∈ taken, foldsToLetter c = true ∨ isWhite c = true := by
  obtain ⟨hne, hwords⟩ := hphrase
  induction h with
  | nil => exact absurd rfl hne
  | @last w a hmap =>
    have ha := hwords w List.mem_cons_self
    rw [← isLetterWord_of_map_foldChar hmap, isLetterWord_iff] at ha
    refine ⟨?_, ?_, fun c hc => .inl (ha.2 c hc)⟩
    · obtain ⟨c, cs, rfl⟩ := List.exists_cons_of_ne_nil ha.1
      exact ⟨c, cs, rfl, ha.2 c List.mem_cons_self⟩
    · exact ⟨a.getLast ha.1, List.getLast?_eq_some_getLast ha.1, ha.2 _ (List.getLast_mem ha.1)⟩
  | @cons w v a gap taken vs hmap hgap hwhite _ ih =>
    have ha := hwords w List.mem_cons_self
    rw [← isLetterWord_of_map_foldChar hmap, isLetterWord_iff] at ha
    obtain ⟨⟨d, ds, htaken, hd⟩, ⟨e, he, hletter⟩, hall⟩ :=
      ih (List.cons_ne_nil v vs) fun u hu => hwords u (List.mem_cons_of_mem w hu)
    refine ⟨?_, ⟨e, ?_, hletter⟩, ?_⟩
    · obtain ⟨c, cs, rfl⟩ := List.exists_cons_of_ne_nil ha.1
      exact ⟨c, cs ++ (gap ++ taken), rfl, ha.2 c List.mem_cons_self⟩
    · simp [List.getLast?_append, he]
    · simp only [List.mem_append]
      rintro c (hc | hc | hc)
      · exact .inl (ha.2 c hc)
      · exact .inr (hwhite c hc)
      · exact hall c hc

/-- What spells a phrase begins and ends with something else than white space. -/
theorem ink_ends (h : Spelled phrase taken) (hphrase : IsPhrase phrase) :
    (∃ c cs, taken = c :: cs ∧ isWhite c = false) ∧
      ∃ c, taken.getLast? = some c ∧ isWhite c = false := by
  obtain ⟨hne, hwords⟩ := hphrase
  induction h with
  | nil => exact absurd rfl hne
  | @last w a hmap =>
    obtain ⟨hne, hink⟩ := (hwords w List.mem_cons_self).of_map_foldChar hmap
    constructor
    · obtain ⟨c, cs, rfl⟩ := List.exists_cons_of_ne_nil hne
      exact ⟨c, cs, rfl, hink c List.mem_cons_self⟩
    · exact ⟨a.getLast hne, List.getLast?_eq_some_getLast hne, hink _ (List.getLast_mem hne)⟩
  | @cons w v a gap taken vs hmap _ _ _ ih =>
    obtain ⟨hne, hink⟩ := (hwords w List.mem_cons_self).of_map_foldChar hmap
    obtain ⟨-, d, hlast, hd⟩ :=
      ih (List.cons_ne_nil v vs) fun u hu => hwords u (List.mem_cons_of_mem w hu)
    constructor
    · obtain ⟨c, cs, rfl⟩ := List.exists_cons_of_ne_nil hne
      exact ⟨c, cs ++ (gap ++ taken), rfl, hink c List.mem_cons_self⟩
    · exact ⟨d, by simp [List.getLast?_append, hlast], hd⟩

/-- A spelled phrase takes some text. -/
theorem ne_nil (h : Spelled phrase taken) (hphrase : IsPhrase phrase) : taken ≠ [] := by
  obtain ⟨⟨c, cs, htaken, -⟩, -⟩ := h.ink_ends hphrase
  rw [htaken]
  exact List.cons_ne_nil c cs

/-- What spells a phrase does not reach into the white space at the end of a text. -/
theorem exists_of_append_white (h : Spelled phrase taken) (hphrase : IsPhrase phrase)
    {cs gap rest : List Char} (hgap : ∀ c ∈ gap, isWhite c = true)
    (hcs : cs ++ gap = taken ++ rest) : ∃ rest', cs = taken ++ rest' ∧ rest = rest' ++ gap := by
  rcases List.append_eq_append_iff.mp hcs with ⟨a, rfl, rfl⟩ | ⟨a, rfl, rfl⟩
  · -- the last character of the spelling would be white space
    cases hlast : a.getLast? with
    | none =>
      obtain rfl := List.getLast?_eq_none_iff.mp hlast
      exact ⟨[], by simp, rfl⟩
    | some d =>
      obtain ⟨-, c, hc, hink⟩ := h.ink_ends hphrase
      rw [List.getLast?_append, hlast] at hc
      obtain rfl := Option.some.inj hc
      rw [hgap d (List.mem_append_left rest (List.mem_of_getLast? hlast))] at hink
      cases hink
  · exact ⟨a, rfl, rfl⟩

/-- A spelled phrase of letters begins a word. -/
theorem head?_any (h : Spelled phrase taken) (hphrase : IsLetterPhrase phrase) (rest : List Char) :
    (taken ++ rest).head?.any isWordChar = true := by
  obtain ⟨⟨c, cs, rfl, hc⟩, -⟩ := h.ends hphrase
  exact isWordChar_of_foldsToLetter hc

/-- A spelled phrase of letters ends a word. -/
theorem getLast?_any (h : Spelled phrase taken) (hphrase : IsLetterPhrase phrase) :
    taken.getLast?.any isWordChar = true := by
  obtain ⟨-, ⟨c, hlast, hc⟩, -⟩ := h.ends hphrase
  rw [hlast]
  exact isWordChar_of_foldsToLetter hc

/-- No spelling has an underscore in it. -/
theorem ne_underscore (h : Spelled phrase taken) (hphrase : IsLetterPhrase phrase) :
    ∀ c ∈ taken, c ≠ '_' := by
  intro c hc
  rcases (h.ends hphrase).2.2 c hc with hletter | hwhite
  · exact ne_underscore_of_foldsToLetter hletter
  · rintro rfl
    exact absurd hwhite (by decide)

/-- A single word is spelled without white space. -/
theorem isWordChar_of_single {w : List Char} (h : Spelled [w] taken)
    (hphrase : IsLetterPhrase [w]) : ∀ c ∈ taken, isWordChar c = true := by
  cases h with
  | last hmap =>
    have ha := hphrase.2 w List.mem_cons_self
    rw [← isLetterWord_of_map_foldChar hmap, isLetterWord_iff] at ha
    exact fun c hc => isWordChar_of_foldsToLetter (ha.2 c hc)

end Spelled

/-- Words with blanks between them spell a phrase of these words in any case. -/
theorem spelled_joinWords {f : List Char → List Char} {ws : List (List Char)}
    (h : ∀ w ∈ ws, (f w).map foldChar = w.map foldChar) :
    Spelled (ws.map f) (joinWords ' ' ws) := by
  induction ws with
  | nil => exact .nil
  | cons w ws ih =>
    obtain ⟨hw, hws⟩ := List.forall_mem_cons.mp h
    cases ws with
    | nil => exact .last hw.symm
    | cons v ws =>
      have hblank : ∀ c ∈ [' '], isWhite c = true := List.forall_mem_singleton.mpr (by decide)
      exact .cons hw.symm (List.cons_ne_nil ' ' []) hblank (ih hws)

/-! ## Taking up a phrase -/

section Taking

variable {phrase : List (List Char)} {before : Option Char} {cs taken rest : List Char}

/-- What is taken for a phrase spells it. -/
theorem takePhrase?_sound (h : takePhrase? phrase cs = some (taken, rest)) :
    cs = taken ++ rest ∧ Spelled phrase taken := by
  induction phrase generalizing cs taken with
  | nil =>
    cases h
    exact ⟨rfl, .nil⟩
  | cons w ws ih =>
    cases ws with
    | nil =>
      obtain ⟨hcs, hmap⟩ := takeFolded?_eq_some.mp h
      exact ⟨hcs, .last hmap⟩
    | cons v vs =>
      obtain ⟨a, cs', b, hfirst, hsecond, rfl⟩ := takeBoth?_eq_some.mp h
      obtain ⟨gap, cs'', taken', hgap, hphrase, rfl⟩ := takeBoth?_eq_some.mp hsecond
      obtain ⟨rfl, hmap⟩ := takeFolded?_eq_some.mp hfirst
      obtain ⟨rfl, hne, hwhite, -⟩ := takeRun?_eq_some.mp hgap
      obtain ⟨rfl, hspelled⟩ := ih hphrase
      exact ⟨by simp only [List.append_assoc], .cons hmap hne hwhite hspelled⟩

/-- Where a phrase is spelled it is taken up. -/
theorem Spelled.takePhrase? (h : Spelled phrase taken) (hphrase : IsPhrase phrase)
    (rest : List Char) : takePhrase? phrase (taken ++ rest) = some (taken, rest) := by
  induction h with
  | nil => exact absurd rfl hphrase.1
  | last hmap => exact takeFolded?_eq_some.mpr ⟨rfl, hmap⟩
  | @cons w v a gap taken vs hmap hne hwhite htail ih =>
    have htailPhrase : IsPhrase (v :: vs) :=
      ⟨List.cons_ne_nil v vs, fun u hu => hphrase.2 u (List.mem_cons_of_mem w hu)⟩
    -- the white space ends where the next word begins
    have hstop : (taken ++ rest).head?.any isWhite = false := by
      obtain ⟨⟨c, cs, rfl, hc⟩, -⟩ := htail.ink_ends htailPhrase
      exact hc
    rw [List.append_assoc, List.append_assoc]
    refine takeBoth?_eq_some.mpr ⟨a, gap ++ (taken ++ rest), gap ++ taken, ?_, ?_, rfl⟩
    · exact takeFolded?_eq_some.mpr ⟨rfl, hmap⟩
    · exact takeBoth?_eq_some.mpr ⟨gap, taken ++ rest, taken,
        takeRun?_eq_some.mpr ⟨rfl, hne, hwhite, hstop⟩, ih htailPhrase, rfl⟩

/-- What is taken for a phrase is all the text that spells it. -/
theorem takePhrase?_eq_some (hphrase : IsPhrase phrase) :
    takePhrase? phrase cs = some (taken, rest) ↔ cs = taken ++ rest ∧ Spelled phrase taken := by
  constructor
  · exact takePhrase?_sound
  · rintro ⟨rfl, hspelled⟩
    exact hspelled.takePhrase? hphrase rest

/-- A phrase is taken up where it is spelled and no word goes on at its ends. -/
theorem takeBounded?_eq_some (hphrase : IsLetterPhrase phrase) :
    takeBounded? before phrase cs = some (taken, rest) ↔
      cs = taken ++ rest ∧ Spelled phrase taken ∧ before.any isWordChar = false ∧
        rest.head?.any isWordChar = false := by
  simp only [takeBounded?, atWordEdge, Option.bind_eq_bind, Option.bind_eq_some_iff,
    Option.ite_none_right_eq_some, Option.pure_def, Option.some.injEq, Prod.exists, Prod.mk.injEq,
    Bool.and_eq_true, bne_iff_ne]
  constructor
  · rintro ⟨taken, rest, htaken, ⟨hopens, hcloses⟩, rfl, rfl⟩
    obtain ⟨rfl, hspelled⟩ := takePhrase?_sound htaken
    rw [hspelled.head?_any hphrase] at hopens
    rw [hspelled.getLast?_any hphrase] at hcloses
    exact ⟨rfl, hspelled, by simpa using hopens, by simpa using hcloses.symm⟩
  · rintro ⟨rfl, hspelled, hbefore, hrest⟩
    refine ⟨taken, rest, hspelled.takePhrase? hphrase.isPhrase rest, ⟨?_, ?_⟩, rfl, rfl⟩
    · rw [hspelled.head?_any hphrase, hbefore]
      exact Bool.false_ne_true
    · rw [hspelled.getLast?_any hphrase, hrest]
      exact Bool.false_ne_true.symm

end Taking

/-! ## Places at which a phrase stands -/

/-- One of some phrases is spelled at a place, and no word goes on at its ends. -/
def Stands (phrases : List (List (List Char))) (before : Option Char) (cs : List Char) : Prop :=
  ∃ phrase ∈ phrases, ∃ taken rest, cs = taken ++ rest ∧ Spelled phrase taken ∧
    before.any isWordChar = false ∧ rest.head?.any isWordChar = false

section Standing

variable {phrases : List (List (List Char))} {before before' : Option Char} {cs out : List Char}

/-- None of the phrases is taken where none of them stands. -/
theorem findSome?_takeBounded?_eq_none (hphrases : ∀ phrase ∈ phrases, IsLetterPhrase phrase) :
    (phrases.findSome? fun phrase => takeBounded? before phrase cs) = none ↔
      ¬ Stands phrases before cs := by
  rw [List.findSome?_eq_none_iff]
  constructor
  · rintro hnone ⟨phrase, hphrase, taken, rest, hstands⟩
    have hsome := (takeBounded?_eq_some (hphrases phrase hphrase)).mpr hstands
    rw [hnone phrase hphrase] at hsome
    cases hsome
  · intro hstands phrase hphrase
    rw [Option.eq_none_iff_forall_not_mem]
    rintro ⟨taken, rest⟩ htaken
    exact hstands ⟨phrase, hphrase, taken, rest,
      (takeBounded?_eq_some (hphrases phrase hphrase)).mp htaken⟩

/-- A phrase stands only where a word begins. -/
theorem Stands.edge (h : Stands phrases before cs)
    (hphrases : ∀ phrase ∈ phrases, IsLetterPhrase phrase) :
    before.any isWordChar = false ∧ cs.head?.any isWordChar = true := by
  obtain ⟨phrase, hphrase, taken, rest, rfl, hspelled, hbefore, -⟩ := h
  exact ⟨hbefore, hspelled.head?_any (hphrases phrase hphrase) rest⟩

/-- A rule that applies where a phrase of letters stands applies at no white space. -/
theorem rule_white {rule : Rule} (hphrases : ∀ phrase ∈ phrases, IsLetterPhrase phrase)
    (hrule : ∀ before cs, rule before cs = none ↔ ¬ Stands phrases before cs)
    (before : Option Char) (c : Char) (cs : List Char) (hc : isWhite c = true) :
    rule before (c :: cs) = none := by
  rw [hrule]
  intro hstands
  have hword : isWordChar c = true := (hstands.edge hphrases).2
  rw [isWordChar_of_isWhite hc] at hword
  cases hword

/-- None of some phrases stands anywhere in a text. -/
def StandsNowhere (phrases : List (List (List Char))) : Option Char → List Char → Prop
  | _, [] => True
  | before, c :: cs => ¬ Stands phrases before (c :: cs) ∧ StandsNowhere phrases (some c) cs

/-- A rule that applies where a phrase stands applies nowhere if none does. -/
theorem appliesNowhere_iff_standsNowhere {rule : Rule}
    (hrule : ∀ before cs, rule before cs = none ↔ ¬ Stands phrases before cs) :
    AppliesNowhere rule before cs ↔ StandsNowhere phrases before cs := by
  induction cs generalizing before with
  | nil => exact Iff.rfl
  | cons c cs ih => exact and_congr (hrule before (c :: cs)) ih

/-- Fewer phrases stand nowhere as well. -/
theorem StandsNowhere.mono {phrases' : List (List (List Char))}
    (h : StandsNowhere phrases before cs) (hsub : ∀ phrase ∈ phrases', phrase ∈ phrases) :
    StandsNowhere phrases' before cs := by
  induction cs generalizing before with
  | nil => trivial
  | cons c cs ih =>
    refine ⟨?_, ih h.2⟩
    rintro ⟨phrase, hphrase, hstands⟩
    exact h.1 ⟨phrase, hsub phrase hphrase, hstands⟩

/-- Of the character before a text only matters whether it is part of a word. -/
theorem StandsNowhere.congr_before (h : StandsNowhere phrases before cs)
    (hbefore : before'.any isWordChar = before.any isWordChar) :
    StandsNowhere phrases before' cs := by
  cases cs with
  | nil => trivial
  | cons c cs =>
    refine ⟨?_, h.2⟩
    rintro ⟨phrase, hphrase, taken, rest, hcs, hspelled, hopens, hcloses⟩
    exact h.1 ⟨phrase, hphrase, taken, rest, hcs, hspelled, hbefore ▸ hopens, hcloses⟩

/-- Where phrases stand nowhere in a text, they stand nowhere at its end. -/
theorem StandsNowhere.of_append {a : List Char} (h : StandsNowhere phrases before (a ++ cs)) :
    StandsNowhere phrases (a.getLast?.or before) cs := by
  induction a generalizing before with
  | nil => exact h
  | cons c a ih =>
    rw [getLast?_cons_or]
    exact ih h.2

/-- A phrase that stands at the end of a text stands there when the text goes on with something
that is no part of a word. -/
theorem Stands.append {a : List Char} (h : Stands phrases before cs)
    (ha : a.head?.any isWordChar = false) : Stands phrases before (cs ++ a) := by
  obtain ⟨phrase, hphrase, taken, rest, rfl, hspelled, hopens, hcloses⟩ := h
  refine ⟨phrase, hphrase, taken, rest ++ a, List.append_assoc .., hspelled, hopens, ?_⟩
  cases rest with
  | nil => exact ha
  | cons d rest => exact hcloses

/-- Nor do they stand at its front, if it is not cut inside a word. -/
theorem StandsNowhere.of_append_left {a : List Char} (h : StandsNowhere phrases before (cs ++ a))
    (ha : a.head?.any isWordChar = false) : StandsNowhere phrases before cs := by
  induction cs generalizing before with
  | nil => trivial
  | cons c cs ih => exact ⟨fun hstands => h.1 (hstands.append ha), ih h.2⟩

/-- A rule for phrases that stand nowhere in a text passes over it, if no phrase that begins in it
reaches into what follows. -/
theorem StandsNowhere.passesOver {rule : Rule} {rest : List Char}
    (hrule : ∀ before cs, rule before cs = none ↔ ¬ Stands phrases before cs)
    (h : StandsNowhere phrases before cs)
    (hrest : ∀ phrase ∈ phrases, ∀ taken, Spelled phrase taken → ∀ a b, a ++ rest = taken ++ b →
      ∃ b', a = taken ++ b' ∧ b = b' ++ rest) : PassesOver rule rest before cs := by
  induction cs generalizing before with
  | nil => trivial
  | cons c cs ih =>
    obtain ⟨hnone, hcs⟩ := h
    refine ⟨(hrule _ _).mpr fun hstands => ?_, ih hcs⟩
    obtain ⟨phrase, hphrase, taken, b, heq, hspelled, hopens, hcloses⟩ := hstands
    obtain ⟨b', heq', rfl⟩ := hrest phrase hphrase taken hspelled (c :: cs) b heq
    refine hnone ⟨phrase, hphrase, taken, b', heq', hspelled, hopens, ?_⟩
    cases b' with
    | nil => rfl
    | cons d b' => exact hcloses

/-- No phrase stands inside a word. -/
theorem StandsNowhere.word_append {w : List Char}
    (hphrases : ∀ phrase ∈ phrases, IsLetterPhrase phrase)
    (hbefore : before.any isWordChar = true) (hw : ∀ c ∈ w, isWordChar c = true)
    (h : StandsNowhere phrases (w.getLast?.or before) cs) :
    StandsNowhere phrases before (w ++ cs) := by
  induction w generalizing before with
  | nil => exact h
  | cons c w ih =>
    rw [List.forall_mem_cons] at hw
    rw [getLast?_cons_or] at h
    refine ⟨fun hstands => ?_, ih hw.1 hw.2 h⟩
    rw [(hstands.edge hphrases).1] at hbefore
    cases hbefore

/-- Two texts begin alike as far as characters of one sort go that end with a word. -/
def BeginsAlike (sort : Char → Prop) (cs out : List Char) : Prop :=
  ∀ taken rest, out = taken ++ rest → (∀ c ∈ taken, sort c) →
    rest.head?.any isWordChar = false →
      ∃ rest', cs = taken ++ rest' ∧ rest'.head?.any isWordChar = false

/-- A rewritten text begins like the text before, if each replacement does. Of the characters
before a place it is known that they satisfy `P`. -/
theorem Rewrites.beginsAlike {rule : Rule} {sort : Char → Prop} {P : Option Char → Prop}
    (h : Rewrites rule before cs out) (hbefore : P before) (hsort : ∀ c, sort c → P (some c))
    (hreplace : ∀ before taken text rest, P before →
      rule before (taken ++ rest) = some ⟨text, rest⟩ →
        ∀ out, BeginsAlike sort (taken ++ rest) (text ++ out)) : BeginsAlike sort cs out := by
  -- by induction on the rewriting; kept characters are taken one by one
  induction h with
  | nil =>
    intro taken rest hout _ _
    obtain ⟨rfl, rfl⟩ := List.nil_eq_append_iff.mp hout
    exact ⟨[], rfl, rfl⟩
  | @keep before c cs out _ _ ih =>
    intro taken rest hout hall hrest
    cases taken with
    | nil =>
      obtain rfl : c :: out = rest := hout
      exact ⟨c :: cs, rfl, hrest⟩
    | cons d taken =>
      rw [List.cons_append, List.cons.injEq] at hout
      obtain ⟨rfl, hout⟩ := hout
      rw [List.forall_mem_cons] at hall
      obtain ⟨rest', rfl, hrest'⟩ := ih (hsort c hall.1) taken rest hout hall.2 hrest
      exact ⟨rest', rfl, hrest'⟩
  | replace _ hr _ _ => exact hreplace _ _ _ _ hbefore hr _

/-- A phrase stands in a text that begins alike behind its first character. -/
theorem Stands.of_beginsAlike {sort : Char → Prop} {c : Char} (h : Stands phrases before' (c :: out))
    (hphrases : ∀ phrase ∈ phrases, IsLetterPhrase phrase)
    (hsort : ∀ phrase ∈ phrases, ∀ taken, Spelled phrase taken → ∀ c ∈ taken, sort c)
    (hbefore : before.any isWordChar = false) (halike : BeginsAlike sort cs out) :
    Stands phrases before (c :: cs) := by
  obtain ⟨phrase, hphrase, taken, rest, hout, hspelled, -, hrest⟩ := h
  have hne := hspelled.ne_nil (hphrases phrase hphrase).isPhrase
  obtain ⟨d, taken', rfl⟩ := List.exists_cons_of_ne_nil hne
  rw [List.cons_append, List.cons.injEq] at hout
  obtain ⟨rfl, hout⟩ := hout
  have hall := (List.forall_mem_cons.mp (hsort phrase hphrase _ hspelled)).2
  obtain ⟨rest', rfl, hrest'⟩ := halike taken' rest hout hall hrest
  exact ⟨phrase, hphrase, _, rest', rfl, hspelled, hbefore, hrest'⟩

end Standing

end GameCondition
