import GameCondition.Proofs.Canonical.Tidy
import GameCondition.Proofs.Condition.Reprinting

/-! # Printed conditions are canonical

The text of a condition is put together from pieces (`IsPiece`), each of which is tidy together with
what may stand behind any word. Which words stand next to each other is decided by the grammar:
behind a name comes a comparison or a word that joins, and only such a word has a name behind it. So
a condition that was read is printed as canonical text (`canonicalize_text_of_read`), unless one of
its names is rewritten by itself or together with an `is` in front of it.
-/

namespace GameCondition

/-! ## The names of a condition -/

/-- The name of an operand that is one. -/
def Operand.identifier? : Operand → Option String
  | element id => some id
  | _ => none

namespace Condition

/-- The names that the text of a condition has without quotes. -/
def identifiers : Condition → List String
  | and l r _ => l.identifiers ++ r.identifiers
  | or l r _ => l.identifiers ++ r.identifiers
  | not c _ => c.identifiers
  | relation r =>
    r.subject.id.toList ++ r.operand.identifier?.toList ++ r.attr.toList ++ r.property.toList
  | visits v => v.subject.id.toList ++ (if isPlainIdentifier v.scene then [v.scene] else [])
  | distance d => d.origin.id.toList ++ d.goal.id.toList

end Condition

/-! ## Ordinary names -/

/-- The current scene as one word with a number of underscores in it. -/
def sceneSpelling (underscores : Nat) : String :=
  "current" ++ String.ofList (List.replicate underscores '_') ++ "scene"

/-- A spelling of the current scene has its underscores between the two words. -/
theorem toList_sceneSpelling (n : Nat) : (sceneSpelling n).toList =
    "current".toList ++ (List.replicate n '_' ++ "scene".toList) := by
  simp [sceneSpelling]

/-- These spellings are in lower case. -/
theorem map_toLower_sceneSpelling (n : Nat) :
    (sceneSpelling n).toList.map Char.toLower = (sceneSpelling n).toList := by
  rw [toList_sceneSpelling, List.map_append, List.map_append, List.map_replicate]
  rfl

/-- Whether a name is in ASCII and none that is rewritten: a determiner, what makes up an operator
with `is`, or the current scene. -/
structure IsOrdinary (name : String) : Prop where
  ascii : ∀ c ∈ name.toList, c.toNat < 128
  reserved : ∀ word ∈ ["the", "an", "in", "empty"], sameAscii name word = false
  scene : ∀ n, sameAscii name (sceneSpelling (n + 1)) = false

/-- A name that does not even begin as the current scene does. -/
theorem IsOrdinary.of_take {name : String} (hascii : ∀ c ∈ name.toList, c.toNat < 128)
    (hreserved : ∀ word ∈ ["the", "an", "in", "empty"], sameAscii name word = false)
    (htake : (name.toList.map Char.toLower).take 8 ≠ "current_".toList) : IsOrdinary name := by
  refine ⟨hascii, hreserved, fun n => ?_⟩
  rw [Bool.eq_false_iff, Ne, sameAscii_iff, map_toLower_sceneSpelling, toList_sceneSpelling,
    List.replicate_succ]
  intro hsame
  rw [hsame] at htake
  exact htake rfl

namespace Canonical

/-! ## Words that are left alone -/

/-- Whether a word is left alone where nothing is behind it. -/
structure IsLeftAlone (w : List Char) : Prop where
  ne_nil : w ≠ []
  word : ∀ c ∈ w, isWordChar c = true
  determiner : w.map foldChar ∉ determiners
  scene : ¬ IsSceneWord w

variable {w cs : List Char} {c : Char}

/-- A word that does not even begin with `current_` is not the current scene. -/
theorem not_isSceneWord_of_take (h : (w.map foldChar).take 8 ≠ "current_".toList) :
    ¬ IsSceneWord w := by
  rintro ⟨n, hn⟩
  apply h
  rw [hn, List.replicate_succ]
  rfl

/-- The words of the language, and those for numbers that are not finite. -/
def fixedWords : List (List Char) :=
  leaders ++ SubjectKind.all.map (·.word.toList) ++
    ["true", "false", "inf", "NaN"].map String.toList

/-- The words of the language are left alone. -/
theorem isLeftAlone_fixed (h : w ∈ fixedWords) : IsLeftAlone w := by
  have hall : (fixedWords.all fun w => !w.isEmpty && w.all isWordChar &&
      !determiners.contains (w.map foldChar) &&
      (w.map foldChar).take 8 != "current_".toList) = true := by decide
  have hw := List.all_eq_true.mp hall w h
  simp only [Bool.and_eq_true, Bool.not_eq_true', List.isEmpty_eq_false_iff, List.all_eq_true,
    List.contains_eq_mem, decide_eq_false_iff_not, bne_iff_ne] at hw
  rcases hw with ⟨⟨⟨hne, hword⟩, hdeterminer⟩, htake⟩
  exact ⟨hne, hword, hdeterminer, not_isSceneWord_of_take htake⟩

/-- A word that others may stand behind is left alone. -/
theorem isLeftAlone_leader (h : w ∈ leaders) : IsLeftAlone w :=
  isLeftAlone_fixed (List.mem_append_left _ (List.mem_append_left _ h))

theorem mem_leaders_of_follower (h : w ∈ followers) : w ∈ leaders := by
  have hall : ∀ w ∈ followers, w ∈ leaders := by decide
  exact hall w h

/-- A digit belongs to a word and has no case. -/
theorem isDigit_spec (h : c.isDigit = true) : isWordChar c = true ∧ foldChar c = c := by
  have hascii : c.toNat < 128 := by
    simp only [Char.isDigit, Bool.and_eq_true, decide_eq_true_eq] at h
    have hle : c.val.toNat ≤ 57 := UInt32.le_iff_toNat_le.mp h.2
    exact Nat.lt_of_le_of_lt hle (by decide)
  constructor
  · exact forall_ascii (P := fun c => c.isDigit = true → isWordChar c = true)
      (by decide +kernel) hascii h
  · exact forall_ascii (P := fun c => c.isDigit = true → foldChar c = c) (by decide +kernel)
      hascii h

/-- Digits make up none of some words that are not made up of digits. -/
theorem digits_notMem {ws : List (List Char)} (hws : ∀ d ∈ ws, d.all Char.isDigit = false)
    (hw : ∀ c ∈ w, c.isDigit = true) : w.map foldChar ∉ ws := by
  have hfold : w.map foldChar = w := by
    conv_rhs => rw [← List.map_id w]
    exact List.map_congr_left fun c hc => (isDigit_spec (hw c hc)).2
  intro hmem
  rw [← List.all_eq_true, ← hfold, hws _ hmem] at hw
  cases hw

/-- Digits are left alone. -/
theorem isLeftAlone_digits (hne : w ≠ []) (hw : ∀ c ∈ w, c.isDigit = true) : IsLeftAlone w := by
  refine ⟨hne, fun c hc => (isDigit_spec (hw c hc)).1, digits_notMem (by decide) hw, ?_⟩
  rintro ⟨n, hn⟩
  have hnone : w.map foldChar ∉ [w.map foldChar] := by
    refine digits_notMem (List.forall_mem_singleton.mpr ?_) hw
    rw [hn]
    rfl
  exact hnone (List.mem_singleton.mpr rfl)

end Canonical

/-! ## Ordinary names are left alone -/

/-- An identifier is made of identifier characters. -/
theorem isIdentifierChar_of_isWord {name : String} (h : isWord name = true) :
    name.toList ≠ [] ∧ ∀ c ∈ name.toList, isIdentifierChar c = true := by
  unfold isWord at h
  cases hname : name.toList with
  | nil => simp [hname] at h
  | cons c cs =>
      simp only [hname, Bool.and_eq_true, List.all_eq_true] at h
      have hc : isIdentifierChar c = true := by
        have hstart := h.1
        simp only [isIdentifierStart, Bool.or_eq_true] at hstart
        rcases hstart with hc | hc <;> simp [isIdentifierChar, isAlphanumeric, hc]
      exact ⟨List.cons_ne_nil c cs, List.forall_mem_cons.mpr ⟨hc, h.2⟩⟩

/-- A plain identifier is no reserved word. -/
theorem ofWord?_of_isPlainIdentifier {name : String} (h : isPlainIdentifier name = true) :
    Keyword.ofWord? name = none := by
  unfold isPlainIdentifier at h
  split at h
  · cases h
  · simp only [Bool.and_eq_true, Option.isNone_iff_eq_none] at h
    exact h.2

namespace IsOrdinary

open Canonical

variable {name : String} (h : IsOrdinary name)
include h

/-- On ASCII folding is lowering. -/
theorem map_foldChar : name.toList.map foldChar = name.toList.map Char.toLower :=
  List.map_congr_left fun c hc => if_pos (h.ascii c hc)

/-- An ordinary name that is not a word ignoring case does not fold to it. -/
theorem map_foldChar_ne {word : String} (hlower : word.toList.map Char.toLower = word.toList)
    (hword : sameAscii name word = false) : name.toList.map foldChar ≠ word.toList := by
  intro heq
  rw [h.map_foldChar, ← hlower, ← sameAscii_iff, hword] at heq
  cases heq

/-- An ordinary identifier is left alone. -/
theorem isLeftAlone (hword : isWord name = true) : IsLeftAlone name.toList := by
  rcases isIdentifierChar_of_isWord hword with ⟨hne, hchar⟩
  have hlower : ∀ word ∈ ["the", "an", "in", "empty"],
      word.toList.map Char.toLower = word.toList := by decide
  refine ⟨hne, ?_, ?_, ?_⟩
  · intro c hc
    exact forall_ascii (P := fun c => isIdentifierChar c = true → isWordChar c = true) (by decide)
      (h.ascii c hc) (hchar c hc)
  · have hdeterminers : ∀ d ∈ determiners,
        ∃ word ∈ ["the", "an", "in", "empty"], d = word.toList := by decide
    intro hmem
    rcases hdeterminers _ hmem with ⟨word, hmemWord, heq⟩
    exact h.map_foldChar_ne (hlower word hmemWord) (h.reserved word hmemWord) heq
  · rintro ⟨n, hn⟩
    rw [← toList_sceneSpelling] at hn
    exact h.map_foldChar_ne (map_toLower_sceneSpelling _) (h.scene n) hn

/-- An ordinary identifier makes up no operator with `is`. -/
theorem not_joinedToIs (hplain : isPlainIdentifier name = true) :
    name.toList.map foldChar ∉ joinedToIs := by
  -- `not` is reserved, so it needs no mention among what names are not
  have hnot : sameAscii name "not" = false := by
    have hreserved := ofWord?_of_isPlainIdentifier hplain
    simp only [Keyword.ofWord?, Option.map_eq_none_iff, List.find?_eq_none] at hreserved
    have hnone := hreserved ("not", .not) (by decide)
    rwa [sameAscii_iff, eq_comm, ← sameAscii_iff, Bool.not_eq_true] at hnone
  have hjoined : ∀ w ∈ joinedToIs, ∃ word ∈ ["not", "empty", "in"], w = word.toList := by decide
  have hlower : ∀ word ∈ ["not", "empty", "in"], word.toList.map Char.toLower = word.toList := by
    decide
  intro hmem
  rcases hjoined _ hmem with ⟨word, hmemWord, heq⟩
  refine h.map_foldChar_ne (hlower word hmemWord) ?_ heq
  simp only [List.mem_cons, List.not_mem_nil, or_false] at hmemWord
  rcases hmemWord with rfl | rfl | rfl
  · exact hnot
  · exact h.reserved "empty" (by simp)
  · exact h.reserved "in" (by simp)

end IsOrdinary

/-! ## Pieces -/

namespace Canonical

variable {w f l t a b cs ds : List Char} {c : Char}

/-- Whether a text may stand behind any word. -/
structure Trails (cs : List Char) : Prop where
  tidy : Tidy cs
  head : cs.head?.any isWordChar = false
  next : nextWord cs = [] ∨ nextWord cs ∈ followers

/-- A blank ends a word. -/
theorem isWordChar_blank : isWordChar ' ' = false := by
  decide

theorem trails_nil : Trails [] :=
  ⟨.nil, rfl, .inl rfl⟩

/-- A mark may stand behind any word. -/
theorem trails_mark (hc : isMark c = true) (hcs : Tidy cs) : Trails (c :: cs) := by
  rcases isMark_spec hc with ⟨hword, hwhite, -, -⟩
  exact ⟨.mark hc hcs, hword, .inl (nextWord_of_ink hwhite hword)⟩

/-- Whether a text is tidy together with what stands behind it, where that may stand behind any
word. It begins and ends with ink, so a blank may stand on either side. -/
structure IsPiece (t : List Char) : Prop where
  ne_nil : t ≠ []
  head : t.head?.any isWhite = false
  last : t.getLast?.any isWhite = false
  tidy : ∀ cs, Trails cs → Tidy (t ++ cs)

/-- Whether a text does not begin with a word that makes up an operator with `is`. -/
def SparesIs (t : List Char) : Prop :=
  ∀ cs, cs.head?.any isWordChar = false →
    ((t ++ cs).takeWhile isWordChar).map foldChar ∉ joinedToIs

/-- A text that begins without a sort of characters does so with any text behind it that does. -/
theorem head?_any_append {p : Char → Bool} (ht : t.head?.any p = false)
    (hcs : cs.head?.any p = false) : (t ++ cs).head?.any p = false := by
  cases t with
  | nil => exact hcs
  | cons c t => exact ht

/-- The word that a text begins with decides whether it spares `is`. -/
theorem sparesIs_append (hw : ∀ c ∈ w, isWordChar c = true) (ht : t.head?.any isWordChar = false)
    (hjoined : w.map foldChar ∉ joinedToIs) : SparesIs (w ++ t) := by
  intro cs hcs
  rwa [List.append_assoc, (takeWhile_word_append hw (head?_any_append ht hcs)).1]

/-- What begins with no word spares `is`. -/
theorem sparesIs_cons (hc : isWordChar c = false) (t : List Char) : SparesIs (c :: t) :=
  sparesIs_append (List.forall_mem_nil _) hc (by decide)

namespace IsLeftAlone

theorem head (h : IsLeftAlone w) : w.head?.any isWhite = false := by
  obtain ⟨c, w, rfl⟩ := List.exists_cons_of_ne_nil h.ne_nil
  exact isWhite_of_isWordChar (h.word c List.mem_cons_self)

theorem last (h : IsLeftAlone w) : w.getLast?.any isWhite = false := by
  rw [List.getLast?_eq_some_getLast h.ne_nil]
  exact isWhite_of_isWordChar (h.word _ (List.getLast_mem h.ne_nil))

/-- A word that is left alone is a piece. -/
theorem isPiece (h : IsLeftAlone w) : IsPiece w :=
  ⟨h.ne_nil, h.head, h.last, fun _ hcs =>
    .word h.ne_nil h.word hcs.head ⟨h.determiner, h.scene, hcs.next.imp_right .inl⟩ hcs.tidy⟩

/-- A word that makes up no operator with `is` spares it, whatever stands behind it. -/
theorem sparesIs (h : IsLeftAlone w) (hjoined : w.map foldChar ∉ joinedToIs) : SparesIs w := by
  have hspares : SparesIs (w ++ []) := sparesIs_append h.word rfl hjoined
  rwa [List.append_nil] at hspares

end IsLeftAlone

theorem IsPiece.head?_append (h : IsPiece t) (cs : List Char) :
    (t ++ cs).head?.any isWhite = false := by
  rw [List.head?_append_of_ne_nil _ h.ne_nil]
  exact h.head

/-- A word that others may stand behind has a piece behind it. -/
theorem isPiece_leader (hl : l ∈ leaders) (ht : IsPiece t)
    (his : l.map foldChar = "is".toList → SparesIs t) : IsPiece (l ++ ' ' :: t) := by
  have hword := isLeftAlone_leader hl
  refine ⟨by simp [hword.ne_nil], ?_, ?_, fun cs hcs => ?_⟩
  · rw [List.head?_append_of_ne_nil _ hword.ne_nil]
    exact hword.head
  · rw [List.append_cons, List.getLast?_append_of_ne_nil _ ht.ne_nil]
    exact ht.last
  · have hhead := ht.head?_append cs
    have hnext : l.map foldChar = "is".toList →
        (nextWord (' ' :: (t ++ cs))).map foldChar ∉ joinedToIs := by
      rw [nextWord_blank hhead]
      exact fun heq => his heq cs hcs.head
    have hfits : Fits l (nextWord (' ' :: (t ++ cs))) :=
      ⟨hword.determiner, hword.scene, .inr (.inr ⟨hl, hnext⟩)⟩
    have htidy : Tidy (l ++ ' ' :: (t ++ cs)) :=
      .word hword.ne_nil hword.word isWordChar_blank hfits (.blank hhead (ht.tidy cs hcs))
    simpa using htidy

namespace IsPiece

/-- A text that may stand behind any word follows a piece. -/
theorem append (ha : IsPiece a) (hb : b ≠ []) (hlast : b.getLast?.any isWhite = false)
    (htrails : ∀ cs, Trails cs → Trails (b ++ cs)) : IsPiece (a ++ b) := by
  refine ⟨by simp [ha.ne_nil], ha.head?_append b, ?_, fun cs hcs => ?_⟩
  · rw [List.getLast?_append_of_ne_nil _ hb]
    exact hlast
  · rw [List.append_assoc]
    exact ha.tidy _ (htrails cs hcs)

/-- A word that may stand behind any other follows a piece. -/
theorem follower (ha : IsPiece a) (hf : f ∈ followers) (ht : t.head?.any isWordChar = false)
    (hft : IsPiece (f ++ t)) : IsPiece (a ++ ' ' :: (f ++ t)) := by
  have hword := isLeftAlone_leader (mem_leaders_of_follower hf)
  refine ha.append (List.cons_ne_nil _ _) ?_ fun cs hcs => ?_
  · rw [List.getLast?_cons_of_ne_nil hft.ne_nil]
    exact hft.last
  · have hhead := hft.head?_append cs
    have hnext : nextWord (' ' :: (f ++ t ++ cs)) = f := by
      rw [nextWord_blank hhead, List.append_assoc]
      exact (takeWhile_word_append hword.word (head?_any_append ht hcs.head)).1
    exact ⟨.blank hhead (hft.tidy cs hcs), isWordChar_blank, .inr (hnext.symm ▸ hf)⟩

/-- A word between two pieces that may stand there. -/
theorem join (ha : IsPiece a) (hf : f ∈ followers) (ht : IsPiece t)
    (his : f.map foldChar = "is".toList → SparesIs t) : IsPiece (a ++ ' ' :: (f ++ ' ' :: t)) :=
  ha.follower hf isWordChar_blank (isPiece_leader (mem_leaders_of_follower hf) ht his)

/-- A word between any two pieces. -/
theorem joined (ha : IsPiece a) (hf : f ∈ followers ∧ f.map foldChar ≠ "is".toList)
    (ht : IsPiece t) : IsPiece (a ++ ' ' :: (f ++ ' ' :: t)) :=
  ha.join hf.1 ht fun his => absurd his hf.2

/-- A mark in front of a piece makes a piece. -/
theorem cons_mark (hc : isMark c = true) (ht : IsPiece t) : IsPiece (c :: t) := by
  refine ⟨List.cons_ne_nil _ _, (isMark_spec hc).2.1, ?_, fun cs hcs => .mark hc (ht.tidy cs hcs)⟩
  rw [List.getLast?_cons_of_ne_nil ht.ne_nil]
  exact ht.last

/-- A point stands between two pieces. -/
theorem point (ha : IsPiece a) (hb : IsPiece b) : IsPiece (a ++ '.' :: b) := by
  have hdot : isMark '.' = true := by decide
  have hmarked := hb.cons_mark hdot
  exact ha.append hmarked.ne_nil hmarked.last fun cs hcs => trails_mark hdot (hb.tidy cs hcs)

/-- A piece in parentheses is a piece. -/
theorem parenthesized (ht : IsPiece t) (needed : Bool) :
    IsPiece (Condition.parenthesized needed t) := by
  have hclose : isMark ')' = true := by decide
  cases needed with
  | false => exact ht
  | true =>
      have hclosed : IsPiece (t ++ [')']) :=
        ht.append (List.cons_ne_nil _ _) (by decide) fun cs hcs => trails_mark hclose hcs.tidy
      exact hclosed.cons_mark (by decide)

end IsPiece

/-! ## Literals and numbers -/

/-- Escaped text and a quote behind it end a literal. -/
theorem isClosed_escaped (cs : List Char) :
    IsClosed (cs.flatMap (fun c => if c = '"' ∨ c = '\\' then ['\\', c] else [c]) ++ ['"']) := by
  intro rest
  induction cs with
  | nil => rfl
  | cons c cs ih =>
      by_cases hc : c = '"' ∨ c = '\\'
      · simp only [List.flatMap_cons, if_pos hc, List.cons_append, List.nil_append, cutLiteral, ih]
      · rw [not_or] at hc
        simp only [List.flatMap_cons, hc, or_self, if_false, List.cons_append, List.nil_append]
        rw [cutLiteral, ih]
        · exact hc.1
        · exact fun _ _ h => absurd h hc.2

/-- A literal is a piece, since nothing is rewritten in it. -/
theorem isPiece_quoteText (cs : List Char) : IsPiece (quoteText cs) := by
  have hquote : isWhite '"' = false := by decide
  refine ⟨List.cons_ne_nil _ _, hquote, ?_, fun ds hds => ?_⟩
  · rw [quoteText, ← List.cons_append, List.getLast?_concat]
    exact hquote
  · exact .literal (isClosed_escaped cs) hds.tidy

/-- Whether a text is a piece also where `is` stands in front of it. -/
structure IsValue (t : List Char) : Prop extends IsPiece t where
  sparesIs : SparesIs t

/-- A literal may stand as an operand. -/
theorem isValue_quoteText (cs : List Char) : IsValue (quoteText cs) :=
  ⟨isPiece_quoteText cs, sparesIs_cons (by decide) _⟩

/-- A row of digits may stand as an operand. -/
theorem isValue_digits (hne : w ≠ []) (hw : ∀ c ∈ w, c.isDigit = true) : IsValue w :=
  have hword := isLeftAlone_digits hne hw
  ⟨hword.isPiece, hword.sparesIs (digits_notMem (by decide) hw)⟩

/-- A plain decimal may stand as an operand. -/
theorem isValue_plainDecimal {whole part : List Char} (h : IsPlainDecimal cs whole part) :
    IsValue cs := by
  have hwhole := isValue_digits h.whole_ne_nil h.whole_digits
  rw [h.text, pointed]
  split
  · rwa [List.append_nil]
  · next hpart =>
    have hne : part ≠ [] := by simpa using hpart
    have hpart := isValue_digits hne h.part_digits
    refine ⟨hwhole.toIsPiece.point hpart.toIsPiece, ?_⟩
    have hdot : isWordChar '.' = false := by decide
    exact sparesIs_append (fun c hc => (isDigit_spec (h.whole_digits c hc)).1) hdot
      (digits_notMem (by decide) h.whole_digits)

/-- A minus sign may stand in front. -/
theorem IsValue.signed (h : IsValue t) (negative : Prop) [Decidable negative] :
    IsValue ((if negative then ['-'] else []) ++ t) := by
  split
  · exact ⟨h.toIsPiece.cons_mark (by decide), sparesIs_cons (by decide) t⟩
  · exact h

theorem isValue_integerText (i : Int) : IsValue (integerText i) :=
  (isValue_digits Nat.toDigits_ne_nil fun _ hc => isDigit_toDigits hc).signed (i < 0)

/-- The words for values are none that make up an operator with `is`. -/
theorem isValue_fixed (h : w ∈ ["true", "false", "inf", "NaN"].map String.toList) : IsValue w := by
  have hall : ∀ w ∈ ["true", "false", "inf", "NaN"].map String.toList,
      w.map foldChar ∉ joinedToIs := by decide
  have hword : IsLeftAlone w := isLeftAlone_fixed (List.mem_append_right _ h)
  exact ⟨hword.isPiece, hword.sparesIs (hall w h)⟩

/-- The text of any number may stand as an operand. -/
theorem isValue_number (n : Number) : IsValue n.text := by
  rcases n with negative | negative | ⟨negative, rank⟩
  · exact isValue_fixed (w := "NaN".toList) (by decide)
  · have hinf : IsValue "inf".toList := isValue_fixed (by decide)
    cases negative with
    | false => exact hinf
    | true => exact hinf.signed True
  · rcases exists_plainDecimal negative rank with ⟨whole, part, hdecimal, -⟩
    exact (isValue_plainDecimal hdecimal).signed (negative = true)

end Canonical

/-! ## Conditions -/

open Canonical

/-- An ordinary identifier may stand as an operand. -/
theorem IsOrdinary.isValue {name : String} (h : IsOrdinary name)
    (hplain : isPlainIdentifier name = true) : IsValue name.toList :=
  have hword := h.isLeftAlone (isPlainIdentifier_iff.mp hplain).1
  ⟨hword.isPiece, hword.sparesIs (h.not_joinedToIs hplain)⟩

/-- The text of a subject with an ordinary id is a piece. -/
theorem Subject.isPiece_toString {s : Subject} (hs : s.IsWritable)
    (hnames : ∀ name ∈ s.id.toList, IsOrdinary name) : IsPiece s.toString.toList := by
  have hkind := s.kind.mem_all
  unfold Subject.toString
  cases hid : s.id with
  | none =>
      have hfixed : ∀ k ∈ SubjectKind.all, k.word.toList ∈ fixedWords := by decide
      exact (isLeftAlone_fixed (hfixed _ hkind)).isPiece
  | some id =>
      have hleader : ∀ k ∈ SubjectKind.all, k.requiresId = true →
          k.word.toList ∈ leaders ∧ k.word.toList.map foldChar ≠ "is".toList := by decide
      have hrequires : s.kind.requiresId = true := by simpa [isWellFormed, hid] using hs.wellFormed
      rcases hleader _ hkind hrequires with ⟨hmem, hne⟩
      have hpiece := ((hnames id (by simp [hid])).isValue (hs.id id hid)).toIsPiece
      have hsplit : (s.kind.word ++ " " ++ id).toList = s.kind.word.toList ++ ' ' :: id.toList := by
        simp
      rw [hsplit]
      exact isPiece_leader hmem hpiece fun his => absurd his hne

/-- A comparison may stand behind any word. -/
theorem Comparison.mem_followers (c : Comparison) : c.word.toList ∈ followers := by
  cases c <;> decide

namespace Condition

/-- A piece goes on with a comparison and a whole number. -/
theorem isPiece_tailText {a : List Char} (ha : IsPiece a) (c : Comparison) (value : Int) :
    IsPiece (a ++ tailText c value) :=
  have hvalue := isValue_integerText value
  ha.join c.mem_followers hvalue.toIsPiece fun _ => hvalue.sparesIs

/-- The name of a scene is a piece, written as an identifier or as a literal. -/
theorem isPiece_nameText {scene : String}
    (hname : isPlainIdentifier scene = true → IsOrdinary scene) : IsPiece (nameText scene) := by
  unfold nameText
  split
  · next hplain => exact ((hname hplain).isValue hplain).toIsPiece
  · exact isPiece_quoteText _

/-- A count is a piece. -/
theorem isPiece_visitsText {v : VisitCount} (hv : v.IsWritable)
    (hnames : ∀ name ∈ (visits v).identifiers, IsOrdinary name) : IsPiece (visitsText v) := by
  simp only [identifiers, List.forall_mem_append] at hnames
  have hscene : IsPiece (nameText v.scene) := by
    refine isPiece_nameText fun hplain => hnames.2 _ ?_
    simp [hplain]
  have hsubject := Subject.isPiece_toString hv.subject hnames.1
  have hsplit : visitsText v = v.subject.toString.toList ++ ' ' :: ("visits".toList ++
      ' ' :: nameText v.scene) ++ tailText v.comparison v.value := by
    simp [visitsText]
  rw [hsplit]
  have hfront := hsubject.joined (f := "visits".toList) (by decide) hscene
  exact isPiece_tailText hfront _ _

/-- A distance is a piece. -/
theorem isPiece_distanceText {d : Distance} (hd : d.IsWritable)
    (hnames : ∀ name ∈ (distance d).identifiers, IsOrdinary name) : IsPiece (distanceText d) := by
  simp only [identifiers, List.forall_mem_append] at hnames
  have horigin := Subject.isPiece_toString hd.origin hnames.1
  have hgoal := Subject.isPiece_toString hd.goal hnames.2
  have hsplit : distanceText d = d.origin.toString.toList ++ ' ' :: ("distance_from".toList ++
      ' ' :: d.goal.toString.toList) ++ tailText d.comparison d.value := by
    simp [distanceText]
  rw [hsplit]
  have hfront := horigin.joined (f := "distance_from".toList) (by decide) hgoal
  exact isPiece_tailText hfront _ _

/-- The fields of a relation follow its subject. -/
theorem isPiece_fieldsText {r : Relation} (hr : r.IsWritable) {a : List Char} (ha : IsPiece a)
    (hattr : ∀ name ∈ r.attr.toList, IsOrdinary name)
    (hproperty : ∀ name ∈ r.property.toList, IsOrdinary name) : IsPiece (a ++ fieldsText r) := by
  have hnamed : ∀ name ∈ r.attr.toList, IsPiece (a ++ '.' :: ("attribute".toList ++
      ' ' :: name.toList)) := by
    intro name hname
    have hvalue := (hattr name hname).isValue (hr.attr name (by simpa using hname))
    exact ha.point (isPiece_leader (by decide) hvalue.toIsPiece fun his => absurd his (by decide))
  have hfield : ∀ b name, IsPiece b → name ∈ r.property.toList →
      IsPiece (b ++ '.' :: name.toList) := by
    intro b name hb hname
    have hword := (hproperty name hname).isLeftAlone
      (hr.property name (by simpa using hname)).isWord
    exact hb.point hword.isPiece
  unfold fieldsText
  cases ha' : r.attr with
  | none =>
      cases hp : r.property with
      | none => simpa using ha
      | some name => simpa using hfield a name ha (by simp [hp])
  | some attr =>
      have hfront := hnamed attr (by simp [ha'])
      cases hp : r.property with
      | none => simpa using hfront
      | some name => simpa using hfield _ name hfront (by simp [hp])

theorem isValue_value {x : Operand} (hx : ∀ id, x = .element id → isPlainIdentifier id = true)
    (hnames : ∀ name ∈ x.identifier?.toList, IsOrdinary name) (htext : ∀ s, x ≠ .text s) :
    IsValue x.value.toList := by
  cases x with
  | element id => exact (hnames id (by simp [Operand.identifier?])).isValue (hx id rfl)
  | bool b => cases b <;> exact isValue_fixed (by decide)
  | number n =>
      have hvalue : (toString n).toList = n.text := by simp [toString]
      rw [Operand.value, hvalue]
      exact isValue_number n
  | text s => exact absurd rfl (htext s)

/-- A comparison with its operand follows what is compared. -/
theorem isPiece_operandText {a : List Char} (ha : IsPiece a) (c : Comparison) {x : Operand}
    (hx : ∀ id, x = .element id → isPlainIdentifier id = true)
    (hnames : ∀ name ∈ x.identifier?.toList, IsOrdinary name) :
    IsPiece (a ++ ' ' :: (c.word.toList ++ operandText c x)) := by
  have hjoin : ∀ t, IsValue t → IsPiece (a ++ ' ' :: (c.word.toList ++ ' ' :: t)) := fun t ht =>
    ha.join c.mem_followers ht.toIsPiece fun _ => ht.sparesIs
  cases x with
  | text s =>
      by_cases hempty : (s.isEmpty && c == .isEmpty) = true
      · have hword := isLeftAlone_leader (mem_leaders_of_follower c.mem_followers)
        simp only [operandText, if_pos hempty]
        exact ha.follower c.mem_followers rfl (by simpa using hword.isPiece)
      · simp only [operandText, if_neg hempty]
        exact hjoin _ (isValue_quoteText _)
  | _ => exact hjoin _ (isValue_value hx hnames (by simp))

/-- A relation is a piece. -/
theorem isPiece_relationText {r : Relation} (hr : r.IsWritable)
    (hnames : ∀ name ∈ (relation r).identifiers, IsOrdinary name) : IsPiece (relationText r) := by
  simp only [identifiers, List.forall_mem_append] at hnames
  rcases hnames with ⟨⟨⟨hid, hoperand⟩, hattr⟩, hproperty⟩
  have hsubject := Subject.isPiece_toString hr.subject hid
  unfold relationText
  dsimp only
  split
  · next hhas =>
    rcases hr.has hhas with ⟨-, -, id, helement⟩
    have hvalue := isValue_value hr.operand hoperand (by simp [helement])
    have hpiece := hsubject.joined (f := "has".toList) (by decide) hvalue.toIsPiece
    simpa using hpiece
  · have hfront := isPiece_fieldsText hr hsubject hattr hproperty
    exact isPiece_operandText hfront r.comparison hr.operand hoperand

/-- The text of a condition with ordinary names is a piece, wherever it stands. -/
theorem isPiece_textAt {c : Condition} (hc : c.IsWritable)
    (hnames : ∀ name ∈ c.identifiers, IsOrdinary name) (place : Binding) :
    IsPiece (c.textAt place) := by
  -- `and`, `or` and `not` stand between pieces, with parentheses or without them
  induction c generalizing place with
  | or l r span ihl ihr =>
      rw [identifiers, List.forall_mem_append] at hnames
      have hpiece := (ihl hc.1 hnames.1 .any).joined (f := "or".toList) (by decide)
        (ihr hc.2 hnames.2 .andChain)
      simpa [textAt] using hpiece.parenthesized (place != .any)
  | and l r span ihl ihr =>
      rw [identifiers, List.forall_mem_append] at hnames
      have hpiece := (ihl hc.1 hnames.1 .andChain).joined (f := "and".toList) (by decide)
        (ihr hc.2 hnames.2 .unary)
      simpa [textAt] using hpiece.parenthesized (place == .unary)
  | not c span ih =>
      exact isPiece_leader (l := "not".toList) (by decide) (ih hc hnames .unary)
        fun his => absurd his (by decide)
  | relation r => exact isPiece_relationText hc hnames
  | visits v => exact isPiece_visitsText hc hnames
  | distance d => exact isPiece_distanceText hc hnames

/-- The text of a condition that was read is canonical if its names are ordinary. -/
theorem canonicalize_text_of_read {limit : Nat} {source : String} {c : Condition}
    (h : read limit source = .ok c) (hnames : ∀ name ∈ c.identifiers, IsOrdinary name) :
    Vocabulary.empty.canonicalize c.text = c.text := by
  have hpiece := isPiece_textAt (isWritable_of_read h) hnames .any
  have htidy := hpiece.tidy [] trails_nil
  rw [List.append_nil] at htidy
  rw [Vocabulary.canonicalize, text, String.toList_ofList, htidy.ofText hpiece.head hpiece.last]

/-- That the dog of a person is not hers, and that the player is in the hall. -/
def dogOrPlace : Condition :=
  .not (.or
    (.relation ⟨⟨.npc, some "ann"⟩, .is, .element "rex", none, some "dog", ⟨5, 23, 1, 6⟩⟩)
    (.relation ⟨.simple .player, .isNot, .text "in the Hall", none, some "place",
      ⟨27, 60, 1, 28⟩⟩) ⟨5, 60, 1, 6⟩) ⟨0, 60, 1, 1⟩

/-- A condition with an id, a field, parentheses and a literal. -/
theorem canonicalize_text_of_read_dogOrPlace :
    read 64 "not (npc ann.dog is rex or player.place is_not \"in the Hall\")" = .ok dogOrPlace ∧
      (∀ name ∈ dogOrPlace.identifiers, IsOrdinary name) ∧
      Vocabulary.empty.canonicalize dogOrPlace.text = dogOrPlace.text := by
  have hread : read 64 "not (npc ann.dog is rex or player.place is_not \"in the Hall\")" =
      .ok dogOrPlace := by
    decide +kernel
  have hchecked : (dogOrPlace.identifiers.all fun name =>
      name.toList.all (fun c => decide (c.toNat < 128)) &&
        ["the", "an", "in", "empty"].all (fun word => !sameAscii name word) &&
        (name.toList.map Char.toLower).take 8 != "current_".toList) = true := by
    decide
  have hnames : ∀ name ∈ dogOrPlace.identifiers, IsOrdinary name := by
    intro name hname
    have hname := List.all_eq_true.mp hchecked name hname
    simp only [Bool.and_eq_true, List.all_eq_true, decide_eq_true_eq, Bool.not_eq_true',
      bne_iff_ne] at hname
    exact .of_take hname.1.1 hname.1.2 hname.2
  exact ⟨hread, hnames, canonicalize_text_of_read hread hnames⟩

end Condition

end GameCondition
