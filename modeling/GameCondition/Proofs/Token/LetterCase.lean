import GameCondition.Proofs.Number.LetterCase
import GameCondition.Proofs.Text.Segments
import GameCondition.Proofs.Token.Literals
import GameCondition.Proofs.Token.Terminals

/-! # Tokens in lower case

A text with the letters outside its string literals in lower case has the same terminals, but for
the names, which are in lower case as well (`terminals_lowerOutside`): no letter begins or ends a
token by its case, and reserved words are recognised in any.
-/

namespace GameCondition

/-! ## Lower case outside literals -/

/-- A text with each letter outside string literals in lower case. -/
def lowerOutside (cs : List Char) : List Char :=
  rewritePlain (List.map lowerPartner) cs

/-- The empty text in lower case is empty. -/
@[simp] theorem lowerOutside_nil : lowerOutside [] = [] :=
  rewritePlain_map_nil lowerPartner

/-- A literal is left as it is. -/
theorem lowerOutside_quote (cs : List Char) :
    lowerOutside ('"' :: cs) = '"' :: ((cutLiteral cs).1 ++ lowerOutside (cutLiteral cs).2) :=
  rewritePlain_map_quote lowerPartner cs

/-- A character outside literals is put in lower case. -/
theorem lowerOutside_cons {c : Char} (hc : c ≠ '"') (cs : List Char) :
    lowerOutside (c :: cs) = lowerPartner c :: lowerOutside cs :=
  rewritePlain_map_cons lowerPartner hc cs

section Runs

variable {p : Char → Bool} (hp : ∀ c, p (lowerPartner c) = p c) (hquote : p '"' = false)

include hp hquote

/-- A run of characters that case does not change is the same run in lower case. -/
theorem takeWhile_lowerOutside (cs : List Char) :
    (lowerOutside cs).takeWhile p = (cs.takeWhile p).map lowerPartner :=
  (takeWhile_dropWhile_rewritePlain_map hp hquote cs).1

/-- Behind such a run stands the same text in lower case. -/
theorem dropWhile_lowerOutside (cs : List Char) :
    (lowerOutside cs).dropWhile p = lowerOutside (cs.dropWhile p) :=
  (takeWhile_dropWhile_rewritePlain_map hp hquote cs).2

end Runs

/-! ## Tokens -/

/-- What a token is, a name in lower case. -/
def Token.Kind.lowerName : Token.Kind → Token.Kind
  | identifier name => identifier (GameCondition.lowerName name)
  | kind => kind

/-- The terminal of a token, a name in lower case. -/
def Terminal.lowerName : Terminal → Terminal
  | has => has
  | kind k => kind k.lowerName

/-- A token with what is outside of literals in lower case. -/
def Lexeme.lowerNames (l : Lexeme) : Lexeme :=
  ⟨l.kind.lowerName, l.taken.map lowerPartner, lowerOutside l.rest⟩

/-- Case does not tell which keyword a word is. -/
@[simp] theorem Keyword.ofWord?_lowerName (word : String) :
    ofWord? (lowerName word) = ofWord? word := by
  rw [ofWord?, ofWord?, find?_sameAscii_lowerName (by decide)]

/-- Case does not tell whether a character goes on a name. -/
theorem isIdentifierChar_lowerPartner (c : Char) :
    isIdentifierChar (lowerPartner c) = isIdentifierChar c :=
  apply_lowerPartner (v := true) (fun c hc => by simp [isIdentifierChar, isAlphanumeric, hc]) c

namespace Lexeme

/-- Case does not tell whether a text begins with a digit. -/
theorem startsWithDigit_lowerOutside (cs : List Char) :
    startsWithDigit (lowerOutside cs) = startsWithDigit cs := by
  cases cs with
  | nil => simp
  | cons c cs =>
    by_cases hc : c = '"'
    · subst hc
      rw [lowerOutside_quote]
      rfl
    · rw [lowerOutside_cons hc, startsWithDigit, startsWithDigit, isDigit_lowerPartner]

/-- Digits have no case. -/
theorem map_lowerPartner_takeWhile_isDigit (cs : List Char) :
    (cs.takeWhile Char.isDigit).map lowerPartner = cs.takeWhile Char.isDigit :=
  Number.map_lowerPartner_of_isDigit (List.all_eq_true.mp List.all_takeWhile)

/-- The digits at the front of a text are the same in lower case. -/
theorem takeWhile_isDigit_lowerOutside (cs : List Char) :
    (lowerOutside cs).takeWhile Char.isDigit = cs.takeWhile Char.isDigit := by
  rw [takeWhile_lowerOutside isDigit_lowerPartner rfl, map_lowerPartner_takeWhile_isDigit]

/-- Behind them stands the same text in lower case. -/
theorem dropWhile_isDigit_lowerOutside (cs : List Char) :
    (lowerOutside cs).dropWhile Char.isDigit = lowerOutside (cs.dropWhile Char.isDigit) :=
  dropWhile_lowerOutside isDigit_lowerPartner rfl cs

/-- A fraction is a dot with digits behind it. -/
theorem fraction_cons (c : Char) (cs : List Char) :
    fraction (c :: cs) =
      if c = '.' ∧ startsWithDigit cs = true then
        (cs.takeWhile Char.isDigit, cs.dropWhile Char.isDigit)
      else ([], c :: cs) := by
  by_cases hdot : c = '.'
  · subst hdot
    cases cs with
    | nil => simp [fraction, startsWithDigit]
    | cons d cs => cases hd : d.isDigit <;> simp [fraction, startsWithDigit, hd]
  · simp [fraction, hdot]

/-- The digits of a fraction have no case. -/
theorem map_lowerPartner_fraction (cs : List Char) :
    (fraction cs).1.map lowerPartner = (fraction cs).1 := by
  cases cs with
  | nil => rfl
  | cons c cs =>
    rw [fraction_cons]
    split
    · exact map_lowerPartner_takeWhile_isDigit cs
    · rfl

/-- A text in lower case begins with the same fraction. -/
theorem fraction_lowerOutside (cs : List Char) :
    fraction (lowerOutside cs) = ((fraction cs).1, lowerOutside (fraction cs).2) := by
  cases cs with
  | nil => simp [fraction]
  | cons c cs =>
    by_cases hc : c = '"'
    · subst hc
      simp [lowerOutside_quote, fraction_cons]
    · have hdot : lowerPartner c = '.' ↔ c = '.' := lowerPartner_eq_iff rfl
      rw [lowerOutside_cons hc, fraction_cons, fraction_cons, startsWithDigit_lowerOutside,
        takeWhile_isDigit_lowerOutside, dropWhile_isDigit_lowerOutside]
      simp only [hdot]
      split
      · rfl
      · rw [lowerOutside_cons hc]

/-- A number is the same token before a text in lower case. -/
theorem number_lowerOutside (negative : Bool) (first cs : List Char) :
    number negative first (lowerOutside cs) = (number negative first cs).lowerNames := by
  have hdot : lowerPartner '.' = '.' := (lowerPartner_eq_iff rfl).mpr rfl
  simp only [number, takeWhile_isDigit_lowerOutside, dropWhile_isDigit_lowerOutside,
    fraction_lowerOutside, lowerNames, List.map_append, map_lowerPartner_takeWhile_isDigit]
  cases hpart : (fraction (cs.dropWhile Char.isDigit)).1 with
  | nil => rfl
  | cons d ds =>
    have hdigits := map_lowerPartner_fraction (cs.dropWhile Char.isDigit)
    rw [hpart] at hdigits
    simp only [List.isEmpty_cons, Bool.false_eq_true, if_false, List.map_cons, hdot] at hdigits ⊢
    rw [hdigits]
    rfl

/-- A word is the same token, or a name in lower case. -/
theorem word_lowerOutside (c : Char) (cs : List Char) :
    word (lowerPartner c) (lowerOutside cs) = (word c cs).lowerNames := by
  have htake := takeWhile_lowerOutside isIdentifierChar_lowerPartner rfl cs
  have hdrop := dropWhile_lowerOutside isIdentifierChar_lowerPartner rfl cs
  have hname : String.ofList (lowerPartner c :: (cs.takeWhile isIdentifierChar).map lowerPartner) =
      lowerName (String.ofList (c :: cs.takeWhile isIdentifierChar)) := by
    simp [lowerName]
  simp only [word, htake, hdrop, hname, Keyword.ofWord?_lowerName, lowerNames]
  cases Keyword.ofWord? (String.ofList (c :: cs.takeWhile isIdentifierChar)) <;> rfl

/-- A token outside of literals is the same in lower case. -/
theorem ofText_lowerOutside {c : Char} (hquote : c ≠ '"') (cs : List Char) :
    ofText (lowerPartner c) (lowerOutside cs) = (ofText c cs).lowerNames := by
  rcases lowerPartner_eq_self_or c with hself | ⟨hc, hpartner⟩
  · have hword := word_lowerOutside c cs
    rw [hself] at hword ⊢
    simp only [ofText, startsWithDigit_lowerOutside, if_neg hquote]
    repeat' split
    all_goals first | rfl | exact number_lowerOutside _ _ _ | exact hword
  · have hstart : ∀ d, isAlphabetic d = true → isIdentifierStart d = true := by
      intro d hd
      rw [isIdentifierStart, hd, Bool.true_or]
    rw [ofText_word _ (hstart _ hc), ofText_word _ (hstart _ hpartner), word_lowerOutside]

/-- A literal is the same whatever the case of what follows it. -/
theorem ofText_quote_lowerOutside (cs : List Char) :
    ofText '"' ((cutLiteral cs).1 ++ lowerOutside (cutLiteral cs).2) =
      ⟨(ofText '"' cs).kind, (cutLiteral cs).1, lowerOutside (ofText '"' cs).rest⟩ := by
  rw [ofText_quote_append fun h => by rw [h, lowerOutside_nil], rest_ofText_quote]

end Lexeme

/-- The terminal of a token in lower case is its terminal in lower case. -/
theorem terminalOf_lowerName (kind : Token.Kind) (text : List Char) :
    terminalOf kind.lowerName (text.map lowerPartner) = (terminalOf kind text).lowerName := by
  have hspelled : sameAscii (String.ofList (text.map lowerPartner)) "has" =
      sameAscii (String.ofList text) "has" := by
    rw [← sameAscii_lowerName (s := String.ofList text) (by decide), lowerName,
      String.toList_ofList]
  cases kind with
  | keyword word =>
    have hterminal : ∀ cs, terminalOf (.keyword word) cs =
        if word = .isIn ∧ sameAscii (String.ofList cs) "has" = true then .has else .word word := by
      simp [terminalOf, Token.terminal, Token.isSpelled]
    rw [Token.Kind.lowerName.eq_def, hterminal, hterminal, hspelled]
    split <;> rfl
  | _ => rfl

/-- No case tells literals apart, nor what they are written as. -/
theorem lowerName_terminalOf_quote (cs text : List Char) :
    (terminalOf (Lexeme.ofText '"' cs).kind text).lowerName =
      terminalOf (Lexeme.ofText '"' cs).kind text := by
  rw [Lexeme.ofText_quote, Lexeme.string]
  cases (Lexeme.literal cs).value <;> rfl

/-- In lower case a text has the same terminals with the names in lower case. -/
theorem terminals_lowerOutside (cs : List Char) :
    terminals (lowerOutside cs) = (terminals cs).map Terminal.lowerName := by
  -- by induction on the length, since a token may take any number of characters
  induction hn : cs.length using Nat.strong_induction_on generalizing cs with
  | _ n ih =>
    have hwhite := dropWhile_lowerOutside isWhite_lowerPartner rfl cs
    cases hdrop : cs.dropWhile isWhite with
    | nil =>
      rw [hdrop, lowerOutside_nil] at hwhite
      rw [terminals_of_white hwhite, terminals_of_white hdrop]
      rfl
    | cons c ds =>
      have hlength := (cs.dropWhile_suffix isWhite).length_le
      have hrest := Lexeme.rest_length_le c ds
      rw [hdrop, List.length_cons] at hlength
      have htail := ih _ (by omega) (Lexeme.ofText c ds).rest rfl
      rw [terminals_of_text hdrop, List.map_cons, ← htail]
      rw [hdrop] at hwhite
      -- a literal is left as it is, any other token is scanned in lower case
      by_cases hc : c = '"'
      · subst hc
        rw [lowerOutside_quote] at hwhite
        rw [terminals_of_text hwhite, Lexeme.ofText_quote_lowerOutside,
          lowerName_terminalOf_quote, Lexeme.taken_ofText_quote]
      · rw [lowerOutside_cons hc] at hwhite
        rw [terminals_of_text hwhite, Lexeme.ofText_lowerOutside hc, ← terminalOf_lowerName]
        rfl

end GameCondition
