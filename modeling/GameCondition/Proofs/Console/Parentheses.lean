import GameCondition.Console.Input
import GameCondition.Proofs.Token.Quoted

/-! # Counting parentheses

A console asks how many parentheses are open before it cuts an input into tokens. It looks for
string literals in its own way, and comes to the same: the parentheses outside of its literals are
the parentheses among the tokens (`Cursor.plainBalance_rest`), and what it adds up with its two flags
are the parentheses outside of literals (`ParenScan.gain_plain`).

Its counter has 32 bits. It shows what 32 bits hold of the number (`openParens_eq_bmod`), and the
number itself as long as fewer than `2 ^ 31` parentheses are typed, where it does not overflow
either (`scan_eq_parenBalance`). An input that opens more can count as closed
(`openParens_neg`). A counter that stops at an overflow shows nothing but the number itself
(`ParenScan.depth_of_foldlM_step?`).
-/

namespace GameCondition

/-! ## Outside of literals -/

/-- What a segment adds to the number of open parentheses. -/
def Segment.parenWeight : Segment → Int
  | plain cs => cs.foldr (fun c n => (GameCondition.parenWeight c).toInt + n) 0
  | quoted _ => 0

/-- The number of parentheses that a text opens outside of its literals, less those that it closes
there. -/
def plainBalance (cs : List Char) : Int :=
  (segments cs).foldr (fun s n => s.parenWeight + n) 0

theorem plainBalance_nil : plainBalance [] = 0 := by
  rw [plainBalance, segments]
  rfl

/-- A literal does not count, up to where it is cut off. -/
theorem plainBalance_quote (cs : List Char) :
    plainBalance ('"' :: cs) = plainBalance (cutLiteral cs).2 := by
  rw [plainBalance, segments, if_pos rfl, List.foldr_cons]
  exact Int.zero_add _

/-- Outside of literals each character counts. -/
theorem plainBalance_cons {c : Char} (hc : c ≠ '"') (cs : List Char) :
    plainBalance (c :: cs) = (parenWeight c).toInt + plainBalance cs := by
  -- the character joins the segment behind it, or is one of its own
  have hplain : ∀ ss : List Segment, (consPlain c ss).foldr (fun s n => s.parenWeight + n) 0 =
      (parenWeight c).toInt + ss.foldr (fun s n => s.parenWeight + n) 0 := by
    intro ss
    unfold consPlain
    split <;> simp [Segment.parenWeight, Int.add_assoc]
  rw [plainBalance, segments, if_neg hc, hplain, plainBalance]

/-- Text without quotes and parentheses does not count. -/
theorem plainBalance_append {a : List Char} (ha : ∀ c ∈ a, c ≠ '"' ∧ parenWeight c = 0)
    (cs : List Char) : plainBalance (a ++ cs) = plainBalance cs := by
  induction a with
  | nil => rfl
  | cons c a ih =>
    rw [List.forall_mem_cons] at ha
    rw [List.cons_append, plainBalance_cons ha.1.1, ha.1.2, ih ha.2]
    exact Int.zero_add _

/-! ## Among the tokens -/

/-- Whether a character is a parenthesis. -/
def isParen (c : Char) : Bool :=
  c == '(' || c == ')'

/-- What a token adds to the number of open parentheses. -/
def Token.Kind.parenWeight : Token.Kind → Int
  | openParen => 1
  | closeParen => -1
  | _ => 0

/-- The number of opening parentheses among some tokens, less that of the closing ones. -/
def parenBalance (ts : List Token) : Int :=
  ts.countP (·.kind = .openParen) - ts.countP (·.kind = .closeParen)

/-- A token in front adds what it counts. -/
theorem parenBalance_cons (t : Token) (ts : List Token) :
    parenBalance (t :: ts) = t.kind.parenWeight + parenBalance ts := by
  rw [parenBalance, parenBalance, List.countP_cons, List.countP_cons]
  cases t.kind <;> simp [Token.Kind.parenWeight] <;> omega

/-- White space does not count. -/
theorem parenWeight_of_isWhite {c : Char} (h : isWhite c = true) : parenWeight c = 0 := by
  unfold parenWeight
  split
  · next heq => exact absurd (heq ▸ h) (by decide)
  · split
    · next heq => exact absurd (heq ▸ h) (by decide)
    · rfl

namespace Lexeme

/-- What a token goes on with does not count. -/
theorem parenWeight_of_isInnerChar {c : Char} (h : isInnerChar c = true) :
    c ≠ '"' ∧ GameCondition.parenWeight c = 0 := by
  have hne : ∀ d, isInnerChar d = false → c ≠ d := by
    rintro d hd rfl
    exact absurd (hd.symm.trans h) (by decide)
  refine ⟨hne _ (by decide), ?_⟩
  rw [GameCondition.parenWeight, if_neg (hne _ (by decide)), if_neg (hne _ (by decide))]

/-- No word counts. -/
theorem parenWeight_kind_word (c : Char) (cs : List Char) : (word c cs).kind.parenWeight = 0 := by
  unfold word
  dsimp only
  split <;> rfl

/-- A token that is no string counts like its first character. -/
theorem parenWeight_kind_ofText {c : Char} (hc : c ≠ '"') (cs : List Char) :
    (ofText c cs).kind.parenWeight = (GameCondition.parenWeight c).toInt := by
  unfold ofText GameCondition.parenWeight
  by_cases hopen : c = '('
  · rw [if_pos hopen, if_pos hopen]
    rfl
  rw [if_neg hopen, if_neg hopen]
  by_cases hclose : c = ')'
  · rw [if_pos hclose, if_pos hclose]
    rfl
  rw [if_neg hclose, if_neg hclose]
  repeat' split
  · rfl
  · rfl
  · rfl
  · exact parenWeight_kind_word c cs
  · rfl

/-- No string counts, nor what a quote without an end makes. -/
theorem parenWeight_kind_quote (cs : List Char) : (ofText '"' cs).kind.parenWeight = 0 := by
  rcases kind_ofText_quote cs with ⟨value, h⟩ | h <;> rw [h] <;> rfl

/-- A token takes up what it counts. -/
theorem plainBalance_ofText (c : Char) (cs : List Char) : plainBalance (c :: cs) =
    (ofText c cs).kind.parenWeight + plainBalance (ofText c cs).rest := by
  by_cases hc : c = '"'
  · subst hc
    rw [plainBalance_quote, parenWeight_kind_quote, rest_ofText_quote, Int.zero_add]
  · have hinner : ∀ d ∈ (ofText c cs).taken, d ≠ '"' ∧ GameCondition.parenWeight d = 0 :=
      fun d hd => parenWeight_of_isInnerChar (inner_ofText hc cs d hd)
    rw [plainBalance_cons hc, parenWeight_kind_ofText hc]
    conv_lhs => rw [← taken_append_rest c cs, plainBalance_append hinner]

end Lexeme

/-- White space in front does not count. -/
theorem plainBalance_gap {gap : List Char} (h : ∀ c ∈ gap, isWhite c = true) (cs : List Char) :
    plainBalance (gap ++ cs) = plainBalance cs :=
  plainBalance_append (fun c hc => ⟨ne_quote_of_isWhite (h c hc), parenWeight_of_isWhite (h c hc)⟩) cs

/-- The parentheses that are open in what follows a place are those among the tokens there. -/
theorem Cursor.plainBalance_rest (k : Cursor) {before : List Char} (hk : k.StandsBehind before) :
    plainBalance k.rest = parenBalance k.tokens := by
  induction k using Cursor.tokens.induct generalizing before with
  | case1 k hnone =>
    have hgap := plainBalance_gap (rest_white_of_next?_none hnone) []
    rw [List.append_nil, plainBalance_nil] at hgap
    rw [tokens_of_next?_none hnone, hgap]
    rfl
  | case2 k t k' hsome ih =>
    obtain ⟨gap, c, cs, hgap, hrest, hkind, -, -, hrest', hk'⟩ := next?_eq_some hk hsome
    rw [tokens_of_next?_some hsome, parenBalance_cons, hrest, plainBalance_gap hgap,
      Lexeme.plainBalance_ofText, hkind, ← hrest', ih hk']

/-! ## One character after the other -/

namespace ParenScan

/-- What a character adds to the number of open parentheses. -/
def weight (s : ParenScan) (c : Char) : Int :=
  if s.escaping ∨ s.inLiteral then 0 else (parenWeight c).toInt

/-- What a text adds to the number of open parentheses. -/
def gain (s : ParenScan) : List Char → Int
  | [] => 0
  | c :: cs => s.weight c + (s.step c).gain cs

/-- A parenthesis counts for one, and other characters do not count. -/
theorem natAbs_toInt_parenWeight (c : Char) :
    (parenWeight c).toInt.natAbs = [c].countP isParen := by
  rw [List.countP_singleton]
  unfold parenWeight isParen
  by_cases hopen : c = '('
  · simp [hopen]
  · by_cases hclose : c = ')' <;> simp [hopen, hclose]

/-- No character adds more than one, and none but parentheses adds anything. -/
theorem natAbs_weight_le (s : ParenScan) (c : Char) :
    (s.weight c).natAbs ≤ [c].countP isParen := by
  unfold weight
  split
  · exact Nat.zero_le _
  · exact (natAbs_toInt_parenWeight c).le

/-! ### Flags -/

variable (d : Int32)

/-- The character behind a backslash is taken along. -/
theorem step_escaped (inLiteral : Bool) (c : Char) :
    step ⟨d, inLiteral, true⟩ c = ⟨d, inLiteral, false⟩ := rfl

/-- A backslash in a literal takes the next character along. -/
theorem step_backslash : step ⟨d, true, false⟩ '\\' = ⟨d, true, true⟩ := rfl

/-- A quote begins a literal or ends it. -/
theorem step_quote (inLiteral : Bool) :
    step ⟨d, inLiteral, false⟩ '"' = ⟨d, !inLiteral, false⟩ := by
  cases inLiteral <;> rfl

/-- Other characters of a literal change nothing. -/
theorem step_literal {c : Char} (hquote : c ≠ '"') (hbackslash : c ≠ '\\') :
    step ⟨d, true, false⟩ c = ⟨d, true, false⟩ := by
  simp [step, hquote, hbackslash]

/-- Outside of literals the counter is moved. -/
theorem step_plain {c : Char} (hquote : c ≠ '"') :
    step ⟨d, false, false⟩ c = ⟨d + parenWeight c, false, false⟩ := by
  simp [step, hquote]

/-- A literal is passed over, to where it is cut off. -/
theorem gain_literal (cs : List Char) :
    gain ⟨d, true, false⟩ cs = gain ⟨d, false, false⟩ (cutLiteral cs).2 := by
  have hskip : ∀ c, weight ⟨d, true, false⟩ c = 0 := fun c => rfl
  fun_induction cutLiteral cs with
  | case1 => rfl
  | case2 cs => rw [gain, hskip, step_quote, Int.zero_add, Bool.not_true]
  | case3 c cs ih =>
    have hescaped : weight ⟨d, true, true⟩ c = 0 := rfl
    rw [gain, gain, hskip, step_backslash, hescaped, step_escaped, ih, Int.zero_add, Int.zero_add]
  | case4 c cs hquote hescape ih =>
    by_cases hbackslash : c = '\\'
    · -- a backslash with nothing after it ends the text
      cases cs with
      | nil => subst hbackslash; rfl
      | cons e es => exact absurd rfl (hescape e es hbackslash)
    · rw [gain, hskip, step_literal d hquote hbackslash, ih, Int.zero_add]

/-- From the outside of literals on, what is added are the parentheses outside of literals. -/
theorem gain_plain (cs : List Char) : gain ⟨d, false, false⟩ cs = plainBalance cs := by
  fun_induction segments cs generalizing d with
  | case1 => rw [plainBalance_nil]; rfl
  | case2 cs ih =>
    have hquote : weight ⟨d, false, false⟩ '"' = 0 := rfl
    rw [gain, hquote, step_quote, Bool.not_false, gain_literal, ih, plainBalance_quote,
      Int.zero_add]
  | case3 c cs hc ih =>
    rw [gain, step_plain d hc, ih, plainBalance_cons hc]
    rfl

/-! ### The counter -/

/-- The counter is moved by what the character adds. -/
theorem depth_step (s : ParenScan) (c : Char) :
    (s.step c).depth = s.depth + Int32.ofInt (s.weight c) := by
  obtain ⟨depth, inLiteral, escaping⟩ := s
  have hstays : depth = depth + Int32.ofInt 0 := (Int32.add_zero depth).symm
  cases escaping with
  | true =>
    cases inLiteral <;> exact hstays
  | false =>
    cases inLiteral with
    | true =>
      -- whatever comes of the flags in a literal, the counter stays
      have hkeeps : (step ⟨depth, true, false⟩ c).depth = depth := by
        by_cases hbackslash : c = '\\'
        · simp [step, hbackslash]
        · by_cases hquote : c = '"' <;> simp [step, hbackslash, hquote]
      rw [hkeeps]
      exact hstays
    | false =>
      by_cases hquote : c = '"'
      · subst hquote
        exact hstays
      · have hweight : weight ⟨depth, false, false⟩ c = (parenWeight c).toInt := rfl
        rw [step_plain depth hquote, hweight, Int32.ofInt_toInt]

/-- A counter that goes round shows what 32 bits hold of the sum. -/
theorem depth_foldl_step (s : ParenScan) (cs : List Char) :
    (cs.foldl step s).depth = s.depth + Int32.ofInt (s.gain cs) := by
  induction cs generalizing s with
  | nil => exact (Int32.add_zero s.depth).symm
  | cons c cs ih =>
    rw [List.foldl_cons, ih, depth_step, gain, Int32.ofInt_add, Int32.add_assoc]

/-- One step of a counter that goes round. -/
theorem toInt_depth_step (s : ParenScan) (c : Char) :
    (s.step c).depth.toInt = (s.depth.toInt + s.weight c).bmod (2 ^ 32) := by
  have hsize : Int32.size = 2 ^ 32 := rfl
  rw [depth_step, Int32.toInt_add, Int32.toInt_ofInt, hsize, Int.add_bmod_bmod]

/-- A counter that stops at an overflow goes on where it shows the sum. -/
theorem step?_eq_some_iff {s s' : ParenScan} {c : Char} : s.step? c = some s' ↔
    s' = s.step c ∧ (s.step c).depth.toInt = s.depth.toInt + s.weight c := by
  have hweight : (s.weight c).natAbs ≤ 1 :=
    (s.natAbs_weight_le c).trans List.countP_le_length
  -- numbers that 32 bits do not tell apart differ by more than two
  have hround : (2 ^ 32 : Int) ∣ (s.step c).depth.toInt - (s.depth.toInt + s.weight c) := by
    rw [toInt_depth_step]
    exact Int.dvd_bmod_sub_self
  unfold step?
  constructor
  · intro h
    split at h
    · exact ⟨(Option.some.inj h).symm, by omega⟩
    · cases h
  · rintro ⟨rfl, hexact⟩
    rw [if_pos (by omega)]

/-- Where a counter that stops at an overflow gets through, it shows the sum. -/
theorem depth_of_foldlM_step? {s s' : ParenScan} {cs : List Char}
    (h : cs.foldlM step? s = some s') : s'.depth.toInt = s.depth.toInt + s.gain cs := by
  induction cs generalizing s with
  | nil =>
    obtain rfl : s = s' := Option.some.inj h
    exact (Int.add_zero _).symm
  | cons c cs ih =>
    rw [List.foldlM_cons, Option.bind_eq_bind, Option.bind_eq_some_iff] at h
    obtain ⟨t, hstep, h⟩ := h
    obtain ⟨rfl, hexact⟩ := step?_eq_some_iff.mp hstep
    rw [ih h, hexact, gain, Int.add_assoc]

/-- The counter does not overflow while fewer than `2 ^ 31` parentheses are typed. -/
theorem foldlM_step? (s : ParenScan) {cs : List Char}
    (h : s.depth.toInt.natAbs + cs.countP isParen < 2 ^ 31) :
    cs.foldlM step? s = some (cs.foldl step s) := by
  induction cs generalizing s with
  | nil => rfl
  | cons c cs ih =>
    have hweight := s.natAbs_weight_le c
    have hcount : ([c] ++ cs).countP isParen = [c].countP isParen + cs.countP isParen :=
      List.countP_append
    rw [List.singleton_append] at hcount
    have hexact : (s.step c).depth.toInt = s.depth.toInt + s.weight c := by
      rw [toInt_depth_step]
      exact Int.bmod_eq_of_le (by omega) (by omega)
    rw [List.foldlM_cons, step?_eq_some_iff.mpr ⟨rfl, hexact⟩, Option.bind_eq_bind,
      Option.bind_some, List.foldl_cons]
    exact ih (s.step c) (by omega)

end ParenScan

/-- The open parentheses of an input are those among its tokens, opening less closing, as 32 bits
hold their number. -/
theorem openParens_eq_bmod (source : List Char) :
    openParens source = (parenBalance (tokenize source)).bmod (2 ^ 32) := by
  have hparens := (Cursor.start source).plainBalance_rest (Cursor.standsBehind_start source)
  have hsize : Int32.size = 2 ^ 32 := rfl
  rw [openParens, ParenScan.depth_foldl_step, ParenScan.start, ParenScan.gain_plain, Int32.zero_add,
    Int32.toInt_ofInt, hsize]
  exact congrArg (Int.bmod · (2 ^ 32)) hparens

/-- An input that leaves `2 ^ 31` parentheses open, and fewer than `2 ^ 32`, counts as closed. -/
theorem openParens_neg {source : List Char} (hlow : 2 ^ 31 ≤ parenBalance (tokenize source))
    (hhigh : parenBalance (tokenize source) < 2 ^ 32) : openParens source < 0 := by
  have hround : (parenBalance (tokenize source)).bmod (2 ^ 32) =
      parenBalance (tokenize source) - 2 ^ 32 :=
    (Int.bmod_eq_iff (by decide)).mpr ⟨by omega, by omega, by omega⟩
  rw [openParens_eq_bmod, hround]
  omega

/-- The open parentheses of an input are those among its tokens, opening less closing. With fewer
than `2 ^ 31` parentheses in the input an editor comes to the same number, one character after the
other and without an overflow of its counter. -/
theorem scan_eq_parenBalance {source : List Char} (h : source.countP isParen < 2 ^ 31) :
    openParens source = parenBalance (tokenize source) ∧
      (source.foldlM ParenScan.step? .start).map (·.depth.toInt) =
        some (parenBalance (tokenize source)) := by
  have hparens := (Cursor.start source).plainBalance_rest (Cursor.standsBehind_start source)
  have hscan : source.foldlM ParenScan.step? .start = some (source.foldl ParenScan.step .start) :=
    ParenScan.foldlM_step? .start (by simpa [ParenScan.start] using h)
  have hdepth : openParens source = parenBalance (tokenize source) := by
    rw [openParens, ParenScan.depth_of_foldlM_step? hscan, ParenScan.start, ParenScan.gain_plain]
    exact (Int.zero_add _).trans hparens
  refine ⟨hdepth, ?_⟩
  rw [hscan, Option.map_some]
  exact congrArg some hdepth

/-- An input that goes on: its closing parenthesis stands in a literal, behind an escaped quote. -/
def openInput : List Char :=
  "(sign.text is \"\\\")\"".toList

theorem scan_eq_parenBalance_openInput : openInput.countP isParen < 2 ^ 31 ∧
    openParens openInput = 1 ∧ parenBalance (tokenize openInput) = 1 := by
  have hcount : openInput.countP isParen < 2 ^ 31 := by decide
  have hopen : openParens openInput = 1 := by decide
  obtain ⟨hparens, -⟩ := scan_eq_parenBalance hcount
  exact ⟨hcount, hopen, hparens.symm.trans hopen⟩

end GameCondition
