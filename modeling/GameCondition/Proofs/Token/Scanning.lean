import GameCondition.Condition.Printing
import GameCondition.Condition.Reading
import GameCondition.Proofs.Token.Tiling

/-! # Strings and numbers are scanned back

A string in quotes is one token with the value that was quoted, which covers what was written for it
and no more, whatever stands around it (`Cursor.next?_quoteText`). So it is one terminal
(`terminals_quoteText`), and the text of a finite number is one terminal with that number
(`terminals_number`), whatever follows that does not go on with a digit or a point.
-/

namespace GameCondition

/-! ## Strings -/

/-- Escaping is undone up to the closing quote. -/
theorem Lexeme.literal_escaped (s rest : List Char) :
    Lexeme.literal (s.flatMap (fun c => if c = '"' ∨ c = '\\' then ['\\', c] else [c]) ++
        '"' :: rest) =
      ⟨some s, s.flatMap (fun c => if c = '"' ∨ c = '\\' then ['\\', c] else [c]) ++ ['"'],
        rest⟩ := by
  induction s with
  | nil => simp [Lexeme.literal]
  | cons c s ih =>
      rw [List.flatMap_cons]
      -- a quote and a backslash are written with a backslash, anything else as it is
      by_cases hquote : c = '"'
      · subst hquote
        simp [Lexeme.literal, ih, Lexeme.Literal.cons]
      · by_cases hslash : c = '\\'
        · subst hslash
          simp [Lexeme.literal, ih, Lexeme.Literal.cons]
        · simp [Lexeme.literal, ih, Lexeme.Literal.cons, hquote, hslash]

/-- A string in quotes is taken up to its closing quote, whatever follows it. -/
theorem Lexeme.ofText_quoteText (s following : List Char) :
    ∃ taken, quoteText s = '"' :: taken ∧
      ofText '"' (taken ++ following) = ⟨.string (String.ofList s), taken, following⟩ := by
  refine ⟨_, rfl, ?_⟩
  rw [List.append_assoc, List.singleton_append]
  simp [ofText, string, literal_escaped]

theorem terminals_quoteText (s rest : List Char) :
    terminals (quoteText s ++ rest) = .kind (.string (String.ofList s)) :: terminals rest := by
  have hwhite : isWhite '"' = false := rfl
  obtain ⟨taken, hquote, htoken⟩ := Lexeme.ofText_quoteText s rest
  rw [hquote, List.cons_append, terminals_cons hwhite, htoken]
  rfl

namespace Cursor

/-- The place behind a beginning of a text. Behind nothing it is where the text starts. -/
def behind (before rest : List Char) : Cursor :=
  ⟨Position.start.after before, rest⟩

/-- A string in quotes is the next token wherever it stands and whatever follows it. The token has
the value that was quoted and covers what was written for it, and the scan goes on behind that. -/
theorem next?_quoteText (before : List Char) (s : String) (following : List Char) :
    ∃ t, (behind before (quoteText s.toList ++ following)).next? =
        some (t, behind (before ++ quoteText s.toList) following) ∧
      (behind before (quoteText s.toList ++ following)).tokens =
        t :: (behind (before ++ quoteText s.toList) following).tokens ∧
      t.kind = .string s ∧ t.text = quoteText s.toList ∧ t.LiesBehind before ∧
      t.span.textIn (before ++ (quoteText s.toList ++ following)) = quoteText s.toList := by
  obtain ⟨taken, hquote, htoken⟩ := Lexeme.ofText_quoteText s.toList following
  rw [String.ofList_toList] at htoken
  have hnext : (behind before (quoteText s.toList ++ following)).next? =
      some (⟨.string s, quoteText s.toList, .between (Position.start.after before)
        (Position.start.after (before ++ quoteText s.toList))⟩,
        behind (before ++ quoteText s.toList) following) := by
    rw [behind, behind, Position.after_append, hquote, List.cons_append]
    -- no white space stands in front of the quote
    show some (Token.mk _ _ _, Cursor.mk _ _) = _
    rw [htoken]
    rfl
  refine ⟨_, hnext, tokens_of_next?_some hnext, rfl, rfl, ?_, Span.textIn_between _ _ _⟩
  rw [Token.LiesBehind, Position.after_start, Position.after_start]
  rfl

end Cursor

/-! ## Numbers -/

/-- What would go on with a number. -/
def isNumberChar (c : Char) : Bool :=
  c.isDigit || c == '.'

theorem StopsAt.digit {cs : List Char} (h : StopsAt isNumberChar cs) : StopsAt Char.isDigit cs := by
  intro c ds hcs
  have := h c ds hcs
  simp only [isNumberChar, Bool.or_eq_false_iff] at this
  exact this.1

theorem Lexeme.fraction_pointed {part rest : List Char} (hpart : ∀ c ∈ part, c.isDigit = true)
    (hrest : StopsAt isNumberChar rest) :
    Lexeme.fraction (pointed part ++ rest) = (part, rest) := by
  cases part with
  | nil =>
      cases rest with
      | nil => rfl
      | cons c ds =>
          have hdot : c ≠ '.' := by
            rintro rfl
            simp [isNumberChar, StopsAt] at hrest
          simp [pointed, Lexeme.fraction, hdot]
  | cons d ds =>
      have hd := hpart d List.mem_cons_self
      have hds : ∀ c ∈ ds, c.isDigit = true := fun c hc => hpart c (List.mem_cons_of_mem _ hc)
      rcases takeWhile_append_of_stopsAt hds hrest.digit with ⟨htake, hdrop⟩
      simp [pointed, Lexeme.fraction, hd, htake, hdrop]

theorem Lexeme.number_plain (negative : Bool) (first : List Char) {whole part rest : List Char}
    (hwhole : ∀ c ∈ whole, c.isDigit = true) (hpart : ∀ c ∈ part, c.isDigit = true)
    (hrest : StopsAt isNumberChar rest) :
    Lexeme.number negative first (whole ++ (pointed part ++ rest)) =
      ⟨.number (.ofScientific negative (digitsValue (first ++ whole ++ part)) (-part.length)),
        whole ++ pointed part, rest⟩ := by
  have hstop : StopsAt Char.isDigit (pointed part ++ rest) := by
    cases part with
    | nil => exact hrest.digit
    | cons d ds => exact stopsAt_cons _ rfl
  rcases takeWhile_append_of_stopsAt hwhole hstop with ⟨htake, hdrop⟩
  -- the digits before the point stop at it, or where the number ends
  simp only [Lexeme.number, htake, hdrop, Lexeme.fraction_pointed hpart hrest]
  rfl

/-- A digit begins a number. -/
theorem Lexeme.ofText_digit {c : Char} (cs : List Char) (hc : c.isDigit = true) :
    Lexeme.ofText c cs = Lexeme.number false [c] cs := by
  have hne : ∀ d : Char, d.isDigit = false → c ≠ d := by
    rintro d hd rfl
    simp [hc] at hd
  unfold Lexeme.ofText
  rw [if_neg (hne _ rfl), if_neg (hne _ rfl), if_neg (hne _ rfl), if_neg (hne _ rfl), if_pos hc]

theorem isWhite_of_isDigit {c : Char} (hc : c.isDigit = true) : isWhite c = false := by
  have hsmall : c.toNat < 128 := lt_of_le_of_lt (Char.isDigit_iff_toNat.mp hc).2 (by decide)
  exact (ascii_classes hsmall).2 hc

/-- Digits with a sign and a point, if there are any, are scanned as the number nearest to them. -/
theorem terminals_decimal {whole part rest : List Char} (negative : Bool) (hne : whole ≠ [])
    (hwhole : ∀ c ∈ whole, c.isDigit = true) (hpart : ∀ c ∈ part, c.isDigit = true)
    (hrest : StopsAt isNumberChar rest) :
    terminals ((if negative then ['-'] else []) ++ (whole ++ pointed part) ++ rest) =
      .kind (.number (.ofScientific negative (digitsValue (whole ++ part)) (-part.length))) ::
        terminals rest := by
  have hminus : isWhite '-' = false := rfl
  cases hw : whole with
  | nil => exact absurd hw hne
  | cons c ds =>
      have hc : c.isDigit = true := hwhole c (hw ▸ List.mem_cons_self)
      cases negative with
      | true =>
          have hnumber := Lexeme.number_plain true [] hwhole hpart hrest
          have hof : Lexeme.ofText '-' (whole ++ (pointed part ++ rest)) =
              Lexeme.number true [] (whole ++ (pointed part ++ rest)) := by
            simp [Lexeme.ofText, Lexeme.startsWithDigit, hw, hc]
          rw [hw] at hof hnumber
          rw [if_pos rfl, List.singleton_append, List.cons_append, List.append_assoc,
            terminals_cons hminus, hof, hnumber]
          rfl
      | false =>
          have hds : ∀ d ∈ ds, d.isDigit = true :=
            fun d hd => hwhole d (hw ▸ List.mem_cons_of_mem _ hd)
          have hnumber := Lexeme.number_plain false [c] hds hpart hrest
          rw [if_neg (by simp), List.nil_append, List.append_assoc, List.cons_append,
            terminals_cons (isWhite_of_isDigit hc), Lexeme.ofText_digit _ hc, hnumber]
          rfl

/-- A plain decimal with its sign is scanned as the number nearest to it. -/
theorem terminals_plainDecimal {cs whole part rest : List Char} (negative : Bool)
    (h : IsPlainDecimal cs whole part) (hrest : StopsAt isNumberChar rest) :
    terminals ((if negative then ['-'] else []) ++ cs ++ rest) =
      .kind (.number (.ofScientific negative (digitsValue (whole ++ part)) (-part.length))) ::
        terminals rest := by
  rw [h.text]
  exact terminals_decimal negative h.whole_ne_nil h.whole_digits h.part_digits hrest

/-- Whether a number is neither infinite nor NaN. -/
def Number.isFinite : Number → Bool
  | finite _ _ => true
  | _ => false

/-- The text of a finite number is scanned as the number. -/
theorem terminals_number {n : Number} {rest : List Char} (hn : n.isFinite = true)
    (hrest : StopsAt isNumberChar rest) :
    terminals (n.text ++ rest) = .kind (.number n) :: terminals rest := by
  cases n with
  | nan negative => cases hn
  | infinite negative => cases hn
  | finite negative rank =>
      rcases exists_plainDecimal negative rank with ⟨whole, part, hplain, hread⟩
      rw [Number.text, terminals_plainDecimal negative hplain hrest, hread]

/-- The number that the digits of a whole number are scanned as. -/
def wholeNumber (i : Int) : Number :=
  .ofScientific (decide (i < 0)) i.natAbs 0

/-- Small whole numbers are exact. -/
theorem toInt?_wholeNumber {i : Int} (hi : i.natAbs < Condition.integerLimit) :
    (wholeNumber i).toInt? = some i :=
  toInt?_ofScientific (lt_trans hi (by decide))

theorem terminals_integerText (i : Int) {rest : List Char} (hrest : StopsAt isNumberChar rest) :
    terminals (integerText i ++ rest) = .kind (.number (wholeNumber i)) :: terminals rest := by
  have hplain : IsPlainDecimal (Nat.toDigits 10 i.natAbs) (Nat.toDigits 10 i.natAbs) [] :=
    ⟨by simp [pointed], Nat.toDigits_ne_nil, fun c hc => isDigit_toDigits hc, by simp, by simp⟩
  have h := terminals_plainDecimal (decide (i < 0)) hplain hrest
  simpa [integerText, wholeNumber] using h

end GameCondition
