import GameCondition.Condition.Basic
import GameCondition.Proofs.Canonical.FixedPoint
import GameCondition.Proofs.Token.Quoted

/-! # Tidy text

Text in which no rule of the canonical form finds anything to do, told by which words stand next to
each other (`Fits`). Such text is put together from words, single blanks, marks and literals
(`Tidy`), and each is looked at together with all that follows it, so that no word is cut in two.
The rules apply only where a word begins, and there they look for words that do not stand next to
each other in tidy text (`Tidy.ofText`).
-/

namespace GameCondition.Canonical

/-! ## Neighbouring words -/

/-- The words that may stand behind any other. -/
def followers : List (List Char) :=
  (Comparison.all.map Comparison.word ++ ["visits", "distance_from", "and", "or"]).map String.toList

/-- The words that others may stand behind. -/
def leaders : List (List Char) :=
  ((SubjectKind.all.filter SubjectKind.requiresId).map SubjectKind.word ++
    Comparison.all.map Comparison.word ++
    ["attribute", "visits", "distance_from", "and", "or", "not"]).map String.toList

/-- The words that would make up an operator with an `is` in front of them. -/
def joinedToIs : List (List Char) :=
  ["not", "empty", "in"].map String.toList

/-- Whether a word is `current` and `scene` with underscores between them, in any case. -/
def IsSceneWord (w : List Char) : Prop :=
  ∃ n, w.map foldChar = "current".toList ++ (List.replicate (n + 1) '_' ++ "scene".toList)

/-- Whether a word is left alone that has another behind it, or none. -/
structure Fits (w next : List Char) : Prop where
  determiner : w.map foldChar ∉ determiners
  scene : ¬ IsSceneWord w
  next : next = [] ∨ next ∈ followers ∨
    w ∈ leaders ∧ (w.map foldChar = "is".toList → next.map foldChar ∉ joinedToIs)

/-- Whether two words in lower case are none that may stand next to each other. -/
def clash (x y : List Char) : Bool :=
  !y.isEmpty && followers.all (·.map foldChar != y) &&
    (leaders.all (·.map foldChar != x) || (x == "is".toList && joinedToIs.contains y))

/-- Words that fit do not clash. -/
theorem Fits.clash_eq_false {w next : List Char} (h : Fits w next) :
    clash (w.map foldChar) (next.map foldChar) = false := by
  rw [Bool.eq_false_iff]
  intro hclash
  simp only [clash, Bool.and_eq_true, Bool.or_eq_true, List.all_eq_true, bne_iff_ne,
    Bool.not_eq_true', List.isEmpty_eq_false_iff, beq_iff_eq, List.contains_iff_mem] at hclash
  rcases hclash with ⟨⟨hne, hfollowers⟩, hleaders⟩
  rcases h.next with rfl | hnext | ⟨hw, his⟩
  · exact hne rfl
  · exact hfollowers _ hnext rfl
  · rcases hleaders with hleaders | ⟨hx, hy⟩
    · exact hleaders w hw rfl
    · exact his hx hy

/-- The word that a text begins with behind its white space. -/
def nextWord (cs : List Char) : List Char :=
  (cs.dropWhile isWhite).takeWhile isWordChar

/-! ## Tidy text -/

/-- Whether a character may stand between words. -/
def isMark (c : Char) : Bool :=
  ".()-".toList.contains c

/-- Text of words that fit what follows them, single blanks, marks and literals. -/
inductive Tidy : List Char → Prop where
  | nil : Tidy []
  | word {w cs : List Char} : w ≠ [] → (∀ c ∈ w, isWordChar c = true) →
      cs.head?.any isWordChar = false → Fits w (nextWord cs) → Tidy cs → Tidy (w ++ cs)
  | blank {cs : List Char} : cs.head?.any isWhite = false → Tidy cs → Tidy (' ' :: cs)
  | mark {c : Char} {cs : List Char} : isMark c = true → Tidy cs → Tidy (c :: cs)
  | literal {body cs : List Char} : IsClosed body → Tidy cs → Tidy ('"' :: (body ++ cs))

variable {before : Option Char} {cs w a rest : List Char} {c : Char}

/-- A mark is neither part of a word nor white space, an apostrophe or a quote. -/
theorem isMark_spec (h : isMark c = true) :
    isWordChar c = false ∧ isWhite c = false ∧ isApostrophe c = false ∧ c ≠ '"' := by
  have hmem : c = '.' ∨ c = '(' ∨ c = ')' ∨ c = '-' := by simpa [isMark] using h
  rcases hmem with rfl | rfl | rfl | rfl <;> decide

/-- A blank in front of an inked text is what white space there is. -/
theorem nextWord_blank (h : cs.head?.any isWhite = false) :
    nextWord (' ' :: cs) = cs.takeWhile isWordChar := by
  have hblank : isWhite ' ' = true := by decide
  rw [nextWord, List.dropWhile_cons_of_pos hblank, dropWhile_eq_self h]

/-- Behind a mark stands no next word. -/
theorem nextWord_of_ink (hc : isWhite c = false) (hword : isWordChar c = false) :
    nextWord (c :: cs) = [] := by
  rw [nextWord, List.dropWhile_cons_of_neg (by simp [hc]),
    List.takeWhile_cons_of_neg (by simp [hword])]

/-- The run of word characters that a text begins with. -/
theorem takeWhile_word_append (hw : ∀ c ∈ w, isWordChar c = true)
    (hcs : cs.head?.any isWordChar = false) :
    (w ++ cs).takeWhile isWordChar = w ∧ (w ++ cs).dropWhile isWordChar = cs := by
  rw [List.takeWhile_append_of_pos hw, List.dropWhile_append_of_pos hw]
  cases cs with
  | nil => simp
  | cons c cs =>
      have hc : ¬ isWordChar c = true := by simpa using hcs
      simp [hc]

/-! ## Plain stretches of tidy text -/

/-- What a text begins with up to its first literal. -/
def plainFront (cs : List Char) : List Char :=
  cs.takeWhile (· != '"')

/-- What a text has from its first literal on. -/
def fromLiteral (cs : List Char) : List Char :=
  cs.dropWhile (· != '"')

/-- White space is no quote. -/
theorem ne_quote_of_isWhite (h : isWhite c = true) : c ≠ '"' := by
  rintro rfl
  exact absurd h (by decide)

/-- A character that is no quote belongs to the plain front. -/
theorem plainFront_cons (hc : c ≠ '"') : plainFront (c :: cs) = c :: plainFront cs ∧
    fromLiteral (c :: cs) = fromLiteral cs := by
  simp [plainFront, fromLiteral, hc]

/-- Text without quotes belongs to the plain front. -/
theorem plainFront_append (ha : ∀ c ∈ a, c ≠ '"') : plainFront (a ++ cs) = a ++ plainFront cs ∧
    fromLiteral (a ++ cs) = fromLiteral cs := by
  have ha' : ∀ c ∈ a, (c != '"') = true := fun c hc => bne_iff_ne.mpr (ha c hc)
  exact ⟨List.takeWhile_append_of_pos ha', List.dropWhile_append_of_pos ha'⟩

/-- The plain front begins as the text does, if it does not begin with a quote. -/
theorem head?_plainFront {p : Char → Bool} (h : cs.head?.any p = false) :
    (plainFront cs).head?.any p = false := by
  cases cs with
  | nil => rfl
  | cons c cs =>
      by_cases hc : c = '"'
      · simp [plainFront, hc]
      · rwa [(plainFront_cons hc).1]

/-- A literal hides nothing of the next word. -/
theorem nextWord_plainFront (cs : List Char) : nextWord (plainFront cs) = nextWord cs := by
  have hwhite : (plainFront cs).dropWhile isWhite = plainFront (cs.dropWhile isWhite) := by
    induction cs with
    | nil => rfl
    | cons c cs ih =>
        by_cases hc : isWhite c = true
        · rw [(plainFront_cons (ne_quote_of_isWhite hc)).1, List.dropWhile_cons_of_pos hc, ih,
            List.dropWhile_cons_of_pos hc]
        · rw [List.dropWhile_cons_of_neg hc]
          exact dropWhile_eq_self (head?_plainFront (by simpa using hc))
  have hword : (fun c => decide (isWordChar c = true ∧ (c != '"') = true)) = isWordChar := by
    funext c
    cases hc : isWordChar c with
    | true => simpa using ne_quote_of_isWordChar hc
    | false => simp
  rw [nextWord, hwhite, plainFront, List.takeWhile_takeWhile, hword, nextWord]

/-- The plain front of a tidy text is tidy. -/
theorem Tidy.plainFront (h : Tidy cs) : Tidy (plainFront cs) := by
  induction h with
  | nil => exact .nil
  | word hne hw hhead hfits _ ih =>
      rw [(plainFront_append fun c hc => ne_quote_of_isWordChar (hw c hc)).1]
      exact .word hne hw (head?_plainFront hhead) (by rwa [nextWord_plainFront]) ih
  | blank hhead _ ih =>
      rw [(plainFront_cons (by decide)).1]
      exact .blank (head?_plainFront hhead) ih
  | mark hc _ ih =>
      rw [(plainFront_cons (isMark_spec hc).2.2.2).1]
      exact .mark hc ih
  | literal => exact .nil

/-- What follows the first literal of a tidy text is tidy. -/
theorem Tidy.behindLiteral (h : Tidy cs) {ds : List Char} (hds : fromLiteral cs = '"' :: ds) :
    Tidy (cutLiteral ds).2 := by
  induction h with
  | nil => cases hds
  | word _ hw _ _ _ ih =>
      rw [(plainFront_append fun c hc => ne_quote_of_isWordChar (hw c hc)).2] at hds
      exact ih hds
  | blank _ _ ih =>
      rw [(plainFront_cons (by decide)).2] at hds
      exact ih hds
  | mark hc _ ih =>
      rw [(plainFront_cons (isMark_spec hc).2.2.2).2] at hds
      exact ih hds
  | @literal body cs hbody hcs _ =>
      obtain rfl : body ++ cs = ds := (List.cons.inj hds).2
      rw [hbody cs]
      exact hcs

/-- What follows the plain front of a text is nothing or a literal. -/
theorem fromLiteral_cases (cs : List Char) :
    fromLiteral cs = [] ∨ ∃ ds, fromLiteral cs = '"' :: ds := by
  cases hcs : fromLiteral cs with
  | nil => exact .inl rfl
  | cons c ds =>
      have hhead := List.head?_dropWhile_not (· != '"') cs
      rw [← fromLiteral, hcs] at hhead
      have hc : c = '"' := by simpa using hhead
      exact .inr ⟨ds, by rw [hc]⟩

/-- The first plain stretch of a text is its plain front, and the others are those behind its first
literal. -/
theorem eq_plainFront_or_mem {p : List Char} (h : .plain p ∈ segments cs) :
    p = plainFront cs ∨
      ∃ ds, fromLiteral cs = '"' :: ds ∧ .plain p ∈ segments (cutLiteral ds).2 := by
  have hsplit : plainFront cs ++ fromLiteral cs = cs := List.takeWhile_append_dropWhile
  have hfront : ∀ c ∈ plainFront cs, c ≠ '"' := by
    intro c hc
    simpa using List.mem_takeWhile_imp hc
  have hbehind : .plain p ∈ segments (fromLiteral cs) →
      ∃ ds, fromLiteral cs = '"' :: ds ∧ .plain p ∈ segments (cutLiteral ds).2 := by
    intro hmem
    rcases fromLiteral_cases cs with hnil | ⟨ds, hds⟩
    · rw [hnil, segments] at hmem
      cases hmem
    · rw [hds, segments, if_pos rfl] at hmem
      exact ⟨ds, hds, by simpa using hmem⟩
  -- the front is not followed by more plain text, so that it is a segment of its own
  have hhead : (segments (fromLiteral cs)).head?.any Segment.isPlain = false := by
    rcases fromLiteral_cases cs with hnil | ⟨ds, hds⟩
    · rw [hnil, segments]
      rfl
    · rw [hds, segments, if_pos rfl]
      rfl
  by_cases hne : plainFront cs = []
  · rw [hne, List.nil_append] at hsplit
    exact .inr (hbehind (by rwa [hsplit]))
  · rw [← hsplit, segments_plain_append hne hfront hhead, List.mem_cons] at h
    rcases h with h | h
    · exact .inl (Segment.plain.inj h)
    · exact .inr (hbehind h)

/-- The plain stretches of tidy text are tidy. -/
theorem Tidy.of_mem_segments {p : List Char} (h : Tidy cs) (hp : .plain p ∈ segments cs) :
    Tidy p := by
  induction hn : cs.length using Nat.strongRecOn generalizing cs with
  | ind n ih =>
      rcases eq_plainFront_or_mem hp with rfl | ⟨ds, hds, hmem⟩
      · exact h.plainFront
      · have hlength : (cutLiteral ds).2.length < n := by
          have hcut := length_cutLiteral_le ds
          have hdrop := (List.dropWhile_sublist (· != '"') (l := cs)).length_le
          rw [← fromLiteral, hds, List.length_cons] at hdrop
          omega
        exact ih _ hlength (h.behindLiteral hds) hmem rfl

/-! ## Words that fit everywhere -/

/-- Wherever a word begins in a text, it fits the next one. -/
def FitsEverywhere : Option Char → List Char → Prop
  | _, [] => True
  | before, c :: cs =>
    (before.any isWordChar = false → isWordChar c = true →
      Fits ((c :: cs).takeWhile isWordChar) (nextWord ((c :: cs).dropWhile isWordChar))) ∧
      FitsEverywhere (some c) cs

namespace FitsEverywhere

/-- The end of a text whose words fit has words that fit. -/
theorem of_append (h : FitsEverywhere before (a ++ cs)) :
    FitsEverywhere (a.getLast?.or before) cs := by
  induction a generalizing before with
  | nil => exact h
  | cons c a ih =>
      rw [getLast?_cons_or]
      exact ih h.2

/-- No word begins inside another. -/
theorem inside_append (hbefore : before.any isWordChar = true)
    (hw : ∀ c ∈ w, isWordChar c = true)
    (h : ∀ before, FitsEverywhere before cs) : FitsEverywhere before (w ++ cs) := by
  induction w generalizing before with
  | nil => exact h before
  | cons c w ih =>
      rw [List.forall_mem_cons] at hw
      refine ⟨fun hopens => ?_, ih hw.1 hw.2⟩
      rw [hbefore] at hopens
      cases hopens

/-- A word that fits what follows it may stand in front. -/
theorem word_append (hw : ∀ c ∈ w, isWordChar c = true) (hcs : cs.head?.any isWordChar = false)
    (hfits : Fits w (nextWord cs)) (h : ∀ before, FitsEverywhere before cs) :
    FitsEverywhere before (w ++ cs) := by
  rcases takeWhile_word_append hw hcs with ⟨htake, hdrop⟩
  cases w with
  | nil => exact h before
  | cons c w =>
      have hc := hw c List.mem_cons_self
      have hfits : Fits ((c :: w ++ cs).takeWhile isWordChar)
          (nextWord ((c :: w ++ cs).dropWhile isWordChar)) := by rwa [htake, hdrop]
      exact ⟨fun _ _ => hfits, inside_append hc (fun d hd => hw d (List.mem_cons_of_mem c hd)) h⟩

/-- A word at an edge fits the next one. -/
theorem fits (h : FitsEverywhere before (w ++ cs)) (hbefore : before.any isWordChar = false)
    (hne : w ≠ []) (hw : ∀ c ∈ w, isWordChar c = true) (hcs : cs.head?.any isWordChar = false) :
    Fits w (nextWord cs) := by
  rcases takeWhile_word_append hw hcs with ⟨htake, hdrop⟩
  obtain ⟨c, w, rfl⟩ := List.exists_cons_of_ne_nil hne
  have hfits : Fits ((c :: w ++ cs).takeWhile isWordChar)
      (nextWord ((c :: w ++ cs).dropWhile isWordChar)) := h.1 hbefore (hw c List.mem_cons_self)
  rwa [htake, hdrop] at hfits

end FitsEverywhere

/-- The words of a tidy text without quotes fit. -/
theorem Tidy.fitsEverywhere (h : Tidy cs) (hquote : ∀ c ∈ cs, c ≠ '"') (before : Option Char) :
    FitsEverywhere before cs := by
  induction h generalizing before with
  | nil => trivial
  | word _ hw hhead hfits _ ih =>
      rw [List.forall_mem_append] at hquote
      exact .word_append hw hhead hfits (ih hquote.2)
  | blank _ _ ih =>
      rw [List.forall_mem_cons] at hquote
      refine ⟨fun _ hc => ?_, ih hquote.2 _⟩
      exact absurd hc (by decide)
  | mark hc _ ih =>
      rw [List.forall_mem_cons] at hquote
      refine ⟨fun _ hword => ?_, ih hquote.2 _⟩
      rw [(isMark_spec hc).1] at hword
      cases hword
  | literal => exact absurd rfl (hquote '"' List.mem_cons_self)

/-- A tidy text without quotes has single blanks between words. -/
theorem Tidy.evenlySpaced (h : Tidy cs) (hquote : ∀ c ∈ cs, c ≠ '"') : EvenlySpaced cs := by
  induction h with
  | nil => trivial
  | word _ hw _ _ _ ih =>
      rw [List.forall_mem_append] at hquote
      exact (ih hquote.2).word_append hw
  | blank hhead _ ih =>
      rw [List.forall_mem_cons] at hquote
      exact ⟨fun _ => ⟨rfl, hhead⟩, ih hquote.2⟩
  | mark hc _ ih =>
      rw [List.forall_mem_cons] at hquote
      refine ⟨fun hwhite => ?_, ih hquote.2⟩
      rw [(isMark_spec hc).2.1] at hwhite
      cases hwhite
  | literal => exact absurd rfl (hquote '"' List.mem_cons_self)

/-- A tidy text without quotes has no apostrophe. -/
theorem Tidy.isApostrophe (h : Tidy cs) (hquote : ∀ c ∈ cs, c ≠ '"') :
    ∀ c ∈ cs, isApostrophe c = false := by
  induction h with
  | nil => exact List.forall_mem_nil _
  | word _ hw _ _ _ ih =>
      rw [List.forall_mem_append] at hquote ⊢
      exact ⟨fun c hc => isApostrophe_of_isWordChar (hw c hc), ih hquote.2⟩
  | blank _ _ ih =>
      rw [List.forall_mem_cons] at hquote ⊢
      exact ⟨by decide, ih hquote.2⟩
  | mark hc _ ih =>
      rw [List.forall_mem_cons] at hquote ⊢
      exact ⟨(isMark_spec hc).2.2.1, ih hquote.2⟩
  | literal => exact absurd rfl (hquote '"' List.mem_cons_self)

/-! ## Phrases in text whose words fit -/

/-- Whether two neighbours of a phrase may not stand next to each other. -/
def hasClash : List (List Char) → Bool
  | x :: y :: ws => clash (x.map foldChar) (y.map foldChar) || hasClash (y :: ws)
  | _ => false

/-- The first word of a spelling, and what follows it. -/
theorem exists_of_spelled {phrase : List (List Char)} {v taken : List Char}
    (h : Spelled (v :: phrase) taken) :
    ∃ b t, taken = b ++ t ∧ b.map foldChar = v.map foldChar ∧
      (t = [] ∨ t.head?.any isWhite = true) := by
  cases h with
  | last hmap => exact ⟨taken, [], by simp, hmap, .inl rfl⟩
  | @cons _ _ a gap taken _ hmap hne hwhite _ =>
      obtain ⟨c, gap, rfl⟩ := List.exists_cons_of_ne_nil hne
      exact ⟨a, c :: gap ++ taken, rfl, hmap, .inr (hwhite c List.mem_cons_self)⟩

/-- White space and a word make up the next word. -/
theorem nextWord_white_append {gap : List Char} (hgap : ∀ c ∈ gap, isWhite c = true)
    (hne : w ≠ []) (hw : ∀ c ∈ w, isWordChar c = true) (hcs : cs.head?.any isWordChar = false) :
    nextWord (gap ++ (w ++ cs)) = w := by
  have hink : (w ++ cs).head?.any isWhite = false := by
    obtain ⟨c, w, rfl⟩ := List.exists_cons_of_ne_nil hne
    exact isWhite_of_isWordChar (hw c List.mem_cons_self)
  rw [nextWord, List.dropWhile_append_of_pos hgap, dropWhile_eq_self hink,
    (takeWhile_word_append hw hcs).1]

/-- Behind white space the words fit as well, and there is an edge. -/
theorem FitsEverywhere.behind_white {gap : List Char} (h : FitsEverywhere before (a ++ (gap ++ cs)))
    (hne : gap ≠ []) (hgap : ∀ c ∈ gap, isWhite c = true) :
    ∃ before', before'.any isWordChar = false ∧ FitsEverywhere before' cs :=
  ⟨_, getLast?_or_white hgap fun hnil => absurd hnil hne, h.of_append.of_append⟩

/-- No phrase with a clash is spelled where all words fit. -/
theorem FitsEverywhere.hasClash_eq_false {phrase : List (List Char)} {taken : List Char}
    (h : FitsEverywhere before (taken ++ rest)) (hspelled : Spelled phrase taken)
    (hphrase : IsLetterPhrase phrase) (hbefore : before.any isWordChar = false)
    (hrest : rest.head?.any isWordChar = false) : hasClash phrase = false := by
  induction hspelled generalizing before with
  | nil => rfl
  | last => rfl
  | @cons w v a gap taken vs hmap hne hwhite htail ih =>
      rcases List.forall_mem_cons.mp hphrase.2 with ⟨hw, hvs⟩
      rcases isWord_of_map_foldChar hw hmap with ⟨hane, ha⟩
      rw [List.append_assoc, List.append_assoc] at h
      -- the next word is the second of the phrase
      obtain ⟨b, t, rfl, hb, ht⟩ := exists_of_spelled htail
      rcases isWord_of_map_foldChar (hvs v List.mem_cons_self) hb with ⟨hbne, hbword⟩
      have htrest : (t ++ rest).head?.any isWordChar = false := by
        rcases ht with rfl | ht
        · exact hrest
        · cases t with
          | nil => cases ht
          | cons d t => exact isWordChar_of_isWhite ht
      have hfits := h.fits hbefore hane ha (head?_any_white_append hne hwhite _)
      rw [List.append_assoc, nextWord_white_append hwhite hbne hbword htrest] at hfits
      have hclash := hfits.clash_eq_false
      rw [hmap, hb] at hclash
      obtain ⟨before', hbefore', htailFits⟩ := h.behind_white hne hwhite
      rw [hasClash, hclash, Bool.false_or]
      exact ih htailFits ⟨List.cons_ne_nil v vs, hvs⟩ hbefore'

/-- Neither a determiner nor an operator of several words stands where all words fit. -/
theorem FitsEverywhere.not_stands (h : FitsEverywhere before cs) :
    ¬ Stands searchedPhrases before cs := by
  rintro ⟨phrase, hphrase, taken, rest, rfl, hspelled, hbefore, hrest⟩
  have hletters := isLetterPhrase_of_mem_searchedPhrases phrase hphrase
  rcases List.mem_append.mp hphrase with hoperator | hdeterminer
  · have hall : ∀ phrase ∈ operatorPhrases, hasClash phrase = true := by decide
    have hclash := h.hasClash_eq_false hspelled hletters hbefore hrest
    rw [hall phrase hoperator] at hclash
    cases hclash
  · obtain ⟨w, hw, rfl⟩ := List.mem_map.mp hdeterminer
    have hlower : ∀ w ∈ determiners, w.map foldChar = w := by decide
    have hword := hspelled.isWordChar_of_single hletters
    have hfits := h.fits hbefore (hspelled.ne_nil hletters.isPhrase) hword hrest
    cases hspelled with
    | last hmap =>
        apply hfits.determiner
        rwa [hmap, hlower w hw]

/-- No searched phrase stands where all words fit. -/
theorem FitsEverywhere.standsNowhere (h : FitsEverywhere before cs) :
    StandsNowhere searchedPhrases before cs := by
  induction cs generalizing before with
  | nil => trivial
  | cons c cs ih => exact ⟨h.not_stands, ih h.2⟩

/-! ## The rules for subjects -/

/-- A rule that finds nothing where all words fit applies nowhere in such a text. -/
theorem FitsEverywhere.appliesNowhere {rule : Rule}
    (hrule : ∀ before cs, FitsEverywhere before cs → rule before cs = none)
    (h : FitsEverywhere before cs) : AppliesNowhere rule before cs := by
  induction cs generalizing before with
  | nil => trivial
  | cons c cs ih => exact ⟨hrule _ _ h, ih h.2⟩

/-- Behind `of` there is neither `the` nor a subject with a fixed part. -/
theorem FitsEverywhere.takeOwned?_eq_none (h : FitsEverywhere before cs) :
    takeOwned? cs = none := by
  cases howned : takeOwned? cs with
  | none => rfl
  | some r =>
      simp only [takeOwned?, Option.bind_eq_bind, Option.bind_eq_some_iff, Prod.exists] at howned
      obtain ⟨word, cs₁, hword, cs₂, hof, name, rest, hname, subject, hsubject, -⟩ := howned
      obtain ⟨rfl, -⟩ := takeRun?_eq_some.mp hword
      obtain ⟨gap, link, gap', behind, rfl, hne, hwhite, hlink, hne', hwhite', hbehind⟩ :=
        exists_of_takeOf? hof
      obtain ⟨rfl, hnameNe, hnameWord, hrest⟩ := takeRun?_eq_some.mp hname
      obtain ⟨before', hbefore', hfits⟩ := h.behind_white hne hwhite
      rcases isWord_of_map_foldChar (by decide) hlink with ⟨hlinkNe, hlinkWord⟩
      have hfits := hfits.fits hbefore' hlinkNe hlinkWord (head?_any_white_append hne' hwhite' _)
      -- what stands between the word and its owner is `of`, which neither `the` nor an owner may
      -- follow
      have hclash : ∀ w ∈ "the".toList :: ownerWords,
          clash ("of".toList.map foldChar) (w.map foldChar) = true := by decide
      rcases hbehind with rfl | ⟨article, gap'', rfl, hthe, hne'', hwhite''⟩
      · rw [nextWord_white_append hwhite' hnameNe hnameWord hrest] at hfits
        obtain ⟨hany, -⟩ := Option.ite_none_right_eq_some.mp hsubject
        obtain ⟨w, hw, hsame⟩ := List.any_eq_true.mp hany
        have hmap : w.map foldChar = name.map foldChar := by simpa [sameFolded] using hsame
        have hno := hfits.clash_eq_false
        rw [hlink, ← hmap, hclash w (List.mem_cons_of_mem _ hw)] at hno
        cases hno
      · rcases isWord_of_map_foldChar (by decide) hthe with ⟨harticleNe, harticleWord⟩
        rw [nextWord_white_append hwhite' harticleNe harticleWord
          (head?_any_white_append hne'' hwhite'' _)] at hfits
        have hno := hfits.clash_eq_false
        rw [hlink, hthe, hclash _ List.mem_cons_self] at hno
        cases hno

/-- Nothing is owned where all words fit. -/
theorem FitsEverywhere.owned_eq_none (h : FitsEverywhere before cs) : owned before cs = none := by
  refine owned_eq_none_of_takeOwned? fun taken rest hcs => ?_
  rw [hcs] at h
  exact h.of_append.takeOwned?_eq_none

/-- Behind the white space of a gap there is an underscore, unless the gap is over. -/
theorem exists_of_dropWhile_gap {gap : List Char} (hgap : ∀ c ∈ gap, isSceneGap c = true)
    (hc : isWhite c = false) (cs : List Char) :
    ∃ d ds, (gap ++ c :: cs).dropWhile isWhite = d :: ds ∧ (d = '_' ∨ d = c) := by
  induction gap with
  | nil => exact ⟨c, cs, List.dropWhile_cons_of_neg (by simp [hc]), .inr rfl⟩
  | cons d gap ih =>
      rw [List.forall_mem_cons] at hgap
      by_cases hd : isWhite d = true
      · rw [List.cons_append, List.dropWhile_cons_of_pos hd]
        exact ih hgap.2
      · have hunderscore : d = '_' := by simpa [isSceneGap, hd] using hgap.1
        exact ⟨d, gap ++ c :: cs, List.dropWhile_cons_of_neg hd, .inl hunderscore⟩

/-- The word `current`, with underscores at its end or without, has no `scene` behind it, nor a word
that begins with an underscore. -/
theorem not_fits_current {d : Char} {next : List Char}
    (ha : a.map foldChar = "current".toList.map foldChar) (hd : d = '_' ∨ foldChar d = 's') :
    ¬ Fits (a ++ w) (d :: next) := by
  intro hfits
  have hfollowers : ∀ f ∈ followers,
      f.head?.any (fun d => d == '_' || foldChar d == 's') = false := by decide
  have hleaders : ∀ l ∈ leaders, (l.map foldChar).take 7 ≠ "current".toList.map foldChar := by
    decide
  rcases hfits.next with hnil | hfollower | ⟨hleader, -⟩
  · cases hnil
  · have hhead : (d == '_' || foldChar d == 's') = false := hfollowers _ hfollower
    simp at hhead
    rcases hd with rfl | hd
    · exact hhead.1 rfl
    · exact hhead.2 hd
  · have hlength : a.length = 7 := by simpa using congrArg List.length ha
    apply hleaders _ hleader
    rw [List.map_append, List.take_left' (by simpa using hlength), ha]

/-- The underscores that a gap begins with, and the white space behind them if there is any. -/
theorem exists_of_gap {gap : List Char} (hgap : ∀ c ∈ gap, isSceneGap c = true) :
    ∃ u gap', gap = u ++ gap' ∧ (∀ c ∈ u, c = '_') ∧
      (gap' = [] ∨ ∃ c ds, gap' = c :: ds ∧ isWhite c = true) := by
  refine ⟨gap.takeWhile (· == '_'), gap.dropWhile (· == '_'),
    List.takeWhile_append_dropWhile.symm, ?_, ?_⟩
  · intro c hc
    simpa using List.mem_takeWhile_imp hc
  · cases hdrop : gap.dropWhile (· == '_') with
    | nil => exact .inl rfl
    | cons c ds =>
        have hhead := List.head?_dropWhile_not (· == '_') gap
        rw [hdrop] at hhead
        have hmem : c ∈ gap := (List.dropWhile_sublist _).subset (hdrop ▸ List.mem_cons_self)
        have hc : isWhite c = true := by
          simpa [isSceneGap, show c ≠ '_' by simpa using hhead] using hgap c hmem
        exact .inr ⟨c, ds, rfl, hc⟩

/-- `current`, underscores and `scene` make a scene word, in any case. -/
theorem isSceneWord_append {u s : List Char}
    (ha : a.map foldChar = "current".toList.map foldChar) (hne : u ≠ [])
    (hu : ∀ c ∈ u, c = '_') (hs : s.map foldChar = "scene".toList.map foldChar) :
    IsSceneWord (a ++ (u ++ s)) := by
  have hlength : u.length - 1 + 1 = u.length := Nat.sub_add_cancel (List.length_pos_iff.mpr hne)
  have hrun : u.map foldChar = List.replicate u.length '_' := by
    conv_lhs => rw [List.eq_replicate_of_mem hu, List.map_replicate]
    rfl
  refine ⟨u.length - 1, ?_⟩
  rw [List.map_append, List.map_append, ha, hs, hrun, hlength]
  rfl

/-- No current scene stands where all words fit. -/
theorem FitsEverywhere.currentScene_eq_none (h : FitsEverywhere before cs) :
    currentScene before cs = none := by
  cases hscene : currentScene before cs with
  | none => rfl
  | some r =>
      obtain ⟨text, rest⟩ := r
      obtain ⟨a, gap, s, rfl, ha, hne, hgap, hs, hbefore, hrest, -⟩ :=
        currentScene_eq_some_iff.mp hscene
      rcases isWord_of_map_foldChar (by decide) ha with ⟨hane, haword⟩
      rcases isWord_of_map_foldChar (by decide) hs with ⟨hsne, hsword⟩
      -- `current` and the underscores behind it are the first word
      obtain ⟨u, gap', rfl, hu, hgap'⟩ := exists_of_gap hgap
      have huword : ∀ c ∈ u, isWordChar c = true := by
        intro c hc
        rw [hu c hc]
        decide
      rcases hgap' with rfl | ⟨c, gap', rfl, hc⟩
      · rw [List.append_nil] at h hne
        have hword : ∀ c ∈ a ++ (u ++ s), isWordChar c = true := by
          simp only [List.forall_mem_append]
          exact ⟨haword, huword, hsword⟩
        have hfits : Fits (a ++ (u ++ s)) (nextWord rest) := by
          refine FitsEverywhere.fits ?_ hbefore (by simp [hane]) hword hrest
          simpa only [List.append_assoc] using h
        exact absurd (isSceneWord_append ha hne hu hs) hfits.scene
      · have hword : ∀ c ∈ a ++ u, isWordChar c = true :=
          List.forall_mem_append.mpr ⟨haword, huword⟩
        have hnext : (c :: gap' ++ (s ++ rest)).head?.any isWordChar = false :=
          isWordChar_of_isWhite hc
        have hfits : Fits (a ++ u) (nextWord (c :: gap' ++ (s ++ rest))) := by
          refine FitsEverywhere.fits ?_ hbefore (by simp [hane]) hword hnext
          simpa only [List.append_assoc] using h
        obtain ⟨d, s, rfl⟩ := List.exists_cons_of_ne_nil hsne
        have hdword := hsword d List.mem_cons_self
        obtain ⟨e, es, hdrop, he⟩ := exists_of_dropWhile_gap
          (fun x hx => hgap x (List.mem_append_right u hx)) (isWhite_of_isWordChar hdword)
          (s ++ rest)
        have heword : isWordChar e = true := by
          rcases he with rfl | rfl
          · decide
          · exact hdword
        have hsmall : e = '_' ∨ foldChar e = 's' := by
          rcases he with rfl | rfl
          · exact .inl rfl
          · exact .inr (List.cons.inj hs).1
        have hdrop : (c :: gap' ++ (d :: s ++ rest)).dropWhile isWhite = e :: es := hdrop
        rw [nextWord, hdrop, List.takeWhile_cons_of_pos heword] at hfits
        exact absurd hfits (not_fits_current ha hsmall)

/-! ## Tidy text is canonical -/

/-- A plain stretch of tidy text is in normal form, and its subjects are settled. -/
theorem Tidy.isNormal (h : Tidy cs) (hquote : ∀ c ∈ cs, c ≠ '"') :
    IsNormal cs ∧ SubjectsAreSettled cs := by
  have hfits := h.fitsEverywhere hquote none
  constructor
  · exact ⟨hfits.standsNowhere, h.evenlySpaced hquote⟩
  · exact ⟨hfits.appliesNowhere fun _ _ hfits => hfits.currentScene_eq_none,
      appliesNowhere_possessive (h.isApostrophe hquote),
      hfits.appliesNowhere fun _ _ hfits => hfits.owned_eq_none⟩

/-- Tidy text without white space at its ends is canonical. -/
theorem Tidy.ofText (h : Tidy cs) (hhead : cs.head?.any isWhite = false)
    (hlast : cs.getLast?.any isWhite = false) : ofText Vocabulary.empty cs = cs := by
  have htrim : trim cs = cs := by
    have hnone : ∀ c ∈ ([] : List Char), isWhite c = true := List.forall_mem_nil _
    simpa using trim_white_append hnone hnone hhead hlast
  have hplain : ∀ p, .plain p ∈ segments cs → IsNormal p ∧ SubjectsAreSettled p := fun p hp =>
    (h.of_mem_segments hp).isNormal ((wellCut_segments cs).noQuote_plain p hp).2
  rw [Canonical.ofText, htrim]
  split
  · rfl
  · exact (trim_rewritePlain_eq_self_iff htrim fun p hp => (hplain p hp).1).mpr
      fun p hp => (hplain p hp).2

end GameCondition.Canonical
