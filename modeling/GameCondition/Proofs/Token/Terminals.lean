import GameCondition.Proofs.Number.Text
import GameCondition.Proofs.Text.CharClass
import GameCondition.Token.Scanner

/-! # Terminals

What the grammar sees of a text: the kinds of its tokens, with `has` apart from `is_in`. Where a
token stands does not matter to it (`map_tokens_congr`), so the terminals of a text are those of
its first token and then those of what follows it (`terminals_cons`). From this come the terminals
of each thing that is written: marks, words, strings and numbers.
-/

namespace GameCondition

/-- What the grammar sees of a token. -/
inductive Terminal where
  | has
  | kind (kind : Token.Kind)
  deriving DecidableEq, Repr

namespace Terminal

/-- The terminal of a name. -/
abbrev name (word : String) : Terminal := kind (.identifier word)

/-- The terminal of a reserved word; `is_in` is the one that is not spelled `has`. -/
abbrev word (k : Keyword) : Terminal := kind (.keyword k)

/-- The terminal that ends a text. -/
abbrev last : Terminal := kind .endOfInput

end Terminal

/-- The terminal of a token. -/
def Token.terminal (t : Token) : Terminal :=
  if t.kind = .keyword .isIn ∧ t.isSpelled "has" = true then .has else .kind t.kind

/-- The terminals of a text, the last one being the end. -/
def terminals (cs : List Char) : List Terminal :=
  (tokenize cs).map Token.terminal

/-- Only the end of a text is taken up as the end. -/
theorem Lexeme.kind_ofText_ne_endOfInput (c : Char) (cs : List Char) :
    (Lexeme.ofText c cs).kind ≠ .endOfInput := by
  unfold ofText
  repeat' split
  · simp
  · simp
  · simp
  · unfold string
    dsimp only
    split <;> simp
  · simp [number]
  · simp [number]
  · unfold word
    dsimp only
    split <;> simp
  · simp

/-! ## Places do not matter -/

namespace Cursor

/-- In white space there is no next token. -/
theorem next?_of_white {k : Cursor} (h : k.rest.dropWhile isWhite = []) : k.next? = none := by
  simp [next?, h]

/-- Behind white space the next token is the lexeme that begins there. -/
theorem next?_of_text {k : Cursor} {c : Char} {cs : List Char}
    (h : k.rest.dropWhile isWhite = c :: cs) :
    ∃ span p, k.next? = some (⟨(Lexeme.ofText c cs).kind, c :: (Lexeme.ofText c cs).taken, span⟩,
      ⟨p, (Lexeme.ofText c cs).rest⟩) := by
  simp [next?, h]

/-- Without a next token there is only the token at the end. -/
theorem tokens_of_next?_none {k : Cursor} (h : k.next? = none) : k.tokens = [.atEnd k.place] := by
  rw [tokens]
  split
  · rfl
  · next heq => simp [h] at heq

/-- The next token comes first, and those behind it follow. -/
theorem tokens_of_next?_some {k k' : Cursor} {t : Token} (h : k.next? = some (t, k')) :
    k.tokens = t :: k'.tokens := by
  rw [tokens]
  split
  · next heq => simp [h] at heq
  · next heq =>
    rw [h] at heq
    simp only [Option.some.injEq, Prod.mk.injEq] at heq
    rw [heq.1, heq.2]

/-- What is read off the tokens without their places depends on the text alone. -/
theorem map_tokens_congr {α : Type} (f : Token → α)
    (hf : ∀ kind text span span', f ⟨kind, text, span⟩ = f ⟨kind, text, span'⟩) (k k' : Cursor)
    (hrest : k.rest = k'.rest) : k.tokens.map f = k'.tokens.map f := by
  -- by induction on the text that is left: each token takes a character of it at least
  induction hn : k.rest.length using Nat.strong_induction_on generalizing k k' with
  | _ n ih =>
      cases hdrop : k.rest.dropWhile isWhite with
      | nil =>
          rw [tokens_of_next?_none (next?_of_white hdrop),
            tokens_of_next?_none (next?_of_white (hrest ▸ hdrop))]
          exact congrArg (fun t => [t]) (hf _ _ _ _)
      | cons c cs =>
          rcases next?_of_text hdrop with ⟨span, p, h⟩
          rcases next?_of_text (hrest ▸ hdrop) with ⟨span', p', h'⟩
          have hlt := length_rest_lt_of_next? h
          have htail := ih _ (hn ▸ hlt) ⟨p, (Lexeme.ofText c cs).rest⟩
            ⟨p', (Lexeme.ofText c cs).rest⟩ rfl rfl
          rw [tokens_of_next?_some h, tokens_of_next?_some h', List.map_cons, List.map_cons,
            hf _ _ span span', htail]

end Cursor

/-- The terminals after any place are those of the text that follows it. -/
theorem map_terminal_tokens (k : Cursor) : k.tokens.map Token.terminal = terminals k.rest :=
  k.map_tokens_congr _ (fun _ _ _ _ => rfl) (.start k.rest) rfl

/-- The terminal of a token with the given kind and text. -/
def terminalOf (kind : Token.Kind) (text : List Char) : Terminal :=
  Token.terminal ⟨kind, text, .atStart⟩

/-- White space has no terminals but the last. -/
theorem terminals_of_white {cs : List Char} (h : cs.dropWhile isWhite = []) :
    terminals cs = [.last] := by
  rw [terminals, tokenize, Cursor.tokens_of_next?_none (Cursor.next?_of_white h)]
  rfl

/-- The terminals of a text are that of its first lexeme and those behind it. -/
theorem terminals_of_text {cs ds : List Char} {c : Char} (h : cs.dropWhile isWhite = c :: ds) :
    terminals cs = terminalOf (Lexeme.ofText c ds).kind (c :: (Lexeme.ofText c ds).taken)
      :: terminals (Lexeme.ofText c ds).rest := by
  rcases Cursor.next?_of_text (k := .start cs) h with ⟨span, p, hnext⟩
  rw [terminals, tokenize, Cursor.tokens_of_next?_some hnext, List.map_cons, map_terminal_tokens]
  rfl

@[simp] theorem terminals_nil : terminals [] = [.last] :=
  terminals_of_white rfl

/-- White space in front of a text goes unseen. -/
theorem terminals_white {c : Char} {cs : List Char} (hc : isWhite c = true) :
    terminals (c :: cs) = terminals cs := by
  have hdrop : (c :: cs).dropWhile isWhite = cs.dropWhile isWhite := by simp [hc]
  cases h : cs.dropWhile isWhite with
  | nil => rw [terminals_of_white h, terminals_of_white (hdrop.trans h)]
  | cons d ds => rw [terminals_of_text h, terminals_of_text (hdrop.trans h)]

@[simp] theorem terminals_blank (cs : List Char) : terminals (' ' :: cs) = terminals cs :=
  terminals_white rfl

/-- The terminals of a text that begins with ink. -/
theorem terminals_cons {c : Char} {cs : List Char} (hc : isWhite c = false) :
    terminals (c :: cs) = terminalOf (Lexeme.ofText c cs).kind (c :: (Lexeme.ofText c cs).taken)
      :: terminals (Lexeme.ofText c cs).rest :=
  terminals_of_text (by simp [hc])

/-- The terminals of a text are put together from the end, one token after the other. -/
theorem terminals_induction {motive : List Terminal → Prop} (last : motive [.last])
    (cons : ∀ c cs ts, motive ts →
      motive (terminalOf (Lexeme.ofText c cs).kind (c :: (Lexeme.ofText c cs).taken) :: ts))
    (cs : List Char) : motive (terminals cs) := by
  induction hn : cs.length using Nat.strong_induction_on generalizing cs with
  | _ n ih =>
      -- white space in front of a token goes with it
      cases hdrop : cs.dropWhile isWhite with
      | nil =>
          rw [terminals_of_white hdrop]
          exact last
      | cons c ds =>
          have hrest := Lexeme.rest_length_le c ds
          have hsuffix := (cs.dropWhile_suffix isWhite).length_le
          rw [hdrop, List.length_cons] at hsuffix
          rw [terminals_of_text hdrop]
          exact cons c ds _ (ih _ (by omega) _ rfl)

/-! ## Marks -/

@[simp] theorem terminals_openParen (cs : List Char) :
    terminals ('(' :: cs) = .kind .openParen :: terminals cs :=
  terminals_cons rfl

@[simp] theorem terminals_closeParen (cs : List Char) :
    terminals (')' :: cs) = .kind .closeParen :: terminals cs :=
  terminals_cons rfl

@[simp] theorem terminals_dot (cs : List Char) :
    terminals ('.' :: cs) = .kind .dot :: terminals cs :=
  terminals_cons rfl

/-! ## Words -/

/-- Whether a text does not go on with a character of the given sort. -/
def StopsAt (p : Char → Bool) (cs : List Char) : Prop :=
  ∀ c ds, cs = c :: ds → p c = false

theorem stopsAt_nil (p : Char → Bool) : StopsAt p [] := by
  intro c ds h
  cases h

/-- A character that is not of a sort stops it. -/
theorem stopsAt_cons {p : Char → Bool} {c : Char} (cs : List Char) (hc : p c = false) :
    StopsAt p (c :: cs) := by
  intro d ds h
  cases h
  exact hc

/-- A row of a sort is taken to its end where the sort stops. -/
theorem takeWhile_append_of_stopsAt {p : Char → Bool} {w cs : List Char}
    (hw : ∀ c ∈ w, p c = true) (hcs : StopsAt p cs) :
    (w ++ cs).takeWhile p = w ∧ (w ++ cs).dropWhile p = cs := by
  rw [List.takeWhile_append_of_pos hw, List.dropWhile_append_of_pos hw]
  cases cs with
  | nil => simp
  | cons c ds => simp [hcs c ds rfl]

/-- Among the ASCII characters, what begins a word is no digit, and neither of them is white. -/
theorem ascii_classes {c : Char} (hc : c.toNat < 128) :
    (isIdentifierStart c = true → isWhite c = false ∧ c.isDigit = false) ∧
      (c.isDigit = true → isWhite c = false) := by
  have hall : ∀ n < 128, (isIdentifierStart (Char.ofNat n) = true →
      isWhite (Char.ofNat n) = false ∧ (Char.ofNat n).isDigit = false) ∧
      ((Char.ofNat n).isDigit = true → isWhite (Char.ofNat n) = false) := by
    decide
  rw [← c.ofNat_toNat]
  exact hall _ hc

/-- No identifier begins with white space. -/
theorem isWhite_of_isIdentifierStart {c : Char} (h : isIdentifierStart c = true) :
    isWhite c = false := by
  by_contra hwhite
  rw [Bool.not_eq_false] at hwhite
  rcases Bool.or_eq_true _ _ ▸ h with h | h
  · rw [isAlphabetic_of_isWhite hwhite] at h
    cases h
  · rw [beq_iff_eq] at h
    subst h
    exact absurd hwhite (by decide)

/-- No white space stands in an identifier. -/
theorem isWhite_of_isIdentifierChar {c : Char} (h : isIdentifierChar c = true) :
    isWhite c = false := by
  by_contra hwhite
  rw [Bool.not_eq_false] at hwhite
  rw [isIdentifierChar, isAlphanumeric, isAlphabetic_of_isWhite hwhite,
    isNumeric_of_isWhite hwhite, Bool.or_self, Bool.false_or, beq_iff_eq] at h
  subst h
  exact absurd hwhite (by decide)

/-- No identifier begins with a digit. -/
theorem isDigit_of_isIdentifierStart {c : Char} (h : isIdentifierStart c = true) :
    c.isDigit = false := by
  by_contra hdigit
  rw [Bool.not_eq_false] at hdigit
  have hsmall : c.toNat < 128 := lt_of_le_of_lt (Char.isDigit_iff_toNat.mp hdigit).2 (by decide)
  have hno : c.isDigit = false := ((ascii_classes hsmall).1 h).2
  exact absurd (hno.symm.trans hdigit) (by simp)

/-- A letter begins a word. -/
theorem Lexeme.ofText_word {c : Char} (cs : List Char) (hc : isIdentifierStart c = true) :
    Lexeme.ofText c cs = Lexeme.word c cs := by
  have hne : ∀ d, isIdentifierStart d = false → c ≠ d := by
    rintro d hd rfl
    simp [hc] at hd
  unfold Lexeme.ofText
  rw [if_neg (hne _ rfl), if_neg (hne _ rfl), if_neg (hne _ rfl), if_neg (hne _ rfl),
    isDigit_of_isIdentifierStart hc, if_neg (by simp), if_neg (fun h => hne _ rfl h.1), if_pos hc]

/-- No other character begins a word, so the token of any other is not a name. -/
theorem Lexeme.isIdentifierStart_of_kind {c : Char} {cs : List Char} {name : String}
    (h : (Lexeme.ofText c cs).kind = .identifier name) : isIdentifierStart c = true := by
  by_contra hstart
  refine absurd h ?_
  unfold ofText
  repeat' split
  · simp
  · simp
  · simp
  · unfold string
    dsimp only
    split <;> simp
  · simp [number]
  · simp [number]
  · simp

/-- The terminal of a word. -/
def wordTerminal (w : String) : Terminal :=
  match Keyword.ofWord? w with
  | some k => if k = .isIn ∧ sameAscii w "has" = true then .has else .word k
  | none => .name w

/-- Whether a text is one word, reserved or not. -/
def isWord (w : String) : Bool :=
  match w.toList with
  | [] => false
  | c :: cs => isIdentifierStart c && cs.all isIdentifierChar

/-- A word is scanned as a whole where it does not go on. -/
theorem terminals_word {w : String} {cs : List Char} (hw : isWord w = true)
    (hcs : StopsAt isIdentifierChar cs) :
    terminals (w.toList ++ cs) = wordTerminal w :: terminals cs := by
  unfold isWord at hw
  cases hlist : w.toList with
  | nil => simp [hlist] at hw
  | cons c ds =>
      simp only [hlist, Bool.and_eq_true, List.all_eq_true] at hw
      have hofList : String.ofList (c :: ds) = w := by rw [← hlist, String.ofList_toList]
      rcases takeWhile_append_of_stopsAt hw.2 hcs with ⟨htake, hdrop⟩
      rw [List.cons_append, terminals_cons (isWhite_of_isIdentifierStart hw.1),
        Lexeme.ofText_word _ hw.1]
      simp only [Lexeme.word, htake, hdrop, hofList]
      congr 1
      unfold terminalOf wordTerminal Token.terminal Token.isSpelled
      cases Keyword.ofWord? w with
      | none => simp
      | some k => simp [hofList]

/-- The spellings of the reserved words are words, and each has its own terminal. -/
theorem spellings_terminal : ∀ entry ∈ Keyword.spellings, isWord entry.1 = true ∧
    wordTerminal entry.1 = if entry.1 = "has" then .has else .word entry.2 := by
  decide

/-- A reserved word is scanned as a whole where it does not go on. -/
theorem terminals_reserved {w : String} {k : Keyword} {cs : List Char}
    (hw : (w, k) ∈ Keyword.spellings) (hhas : w ≠ "has") (hcs : StopsAt isIdentifierChar cs) :
    terminals (w.toList ++ cs) = .word k :: terminals cs := by
  rcases spellings_terminal _ hw with ⟨hword, hterminal⟩
  rw [terminals_word hword hcs, hterminal, if_neg hhas]

/-- A plain identifier is a word that is not reserved. -/
theorem isPlainIdentifier_iff {w : String} :
    isPlainIdentifier w = true ↔ isWord w = true ∧ wordTerminal w = .name w := by
  unfold isPlainIdentifier isWord wordTerminal
  cases w.toList with
  | nil => simp
  | cons c cs =>
      cases Keyword.ofWord? w with
      | none => simp
      | some k =>
          simp only [Option.isNone_some, Bool.and_false, Bool.false_eq_true, false_iff]
          rintro ⟨-, h⟩
          split at h <;> simp at h

/-- A plain identifier has no white space in it. -/
theorem isWhite_of_isPlainIdentifier {w : String} (h : isPlainIdentifier w = true) :
    ∀ c ∈ w.toList, isWhite c = false := by
  unfold isPlainIdentifier at h
  cases hw : w.toList with
  | nil => exact List.forall_mem_nil _
  | cons c cs =>
    rw [hw] at h
    simp only [Bool.and_eq_true, List.all_eq_true] at h
    rw [List.forall_mem_cons]
    exact ⟨isWhite_of_isIdentifierStart h.1.1, fun d hd => isWhite_of_isIdentifierChar (h.1.2 d hd)⟩

/-- An identifier is scanned as its name where it ends. -/
theorem terminals_identifier {name : String} {cs : List Char}
    (hname : isPlainIdentifier name = true) (hcs : StopsAt isIdentifierChar cs) :
    terminals (name.toList ++ cs) = .name name :: terminals cs := by
  rcases isPlainIdentifier_iff.mp hname with ⟨hword, hterminal⟩
  rw [terminals_word hword hcs, hterminal]

end GameCondition
