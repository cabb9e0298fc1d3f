import GameCondition.Proofs.Text.Segments
import GameCondition.Proofs.Token.Literals
import GameCondition.Proofs.Token.Tiling
import Mathlib.Data.List.Chain

/-! # Literals of a text and its tokens

A text is looked through for string literals twice: when it is cut into segments, and when it is
cut into tokens. Both find the same ones at the same places (`segments_agree_tokenize`): no token
but a string has a quote in it, so the tokens of a plain stretch end where that ends, and of a
literal both ways take up the same characters.
-/

namespace GameCondition

/-! ## Where literals lie -/

/-- The stretches of the literals among some segments, the first of which begins at byte `n`. -/
def quotedStretches : Nat → List Segment → List (Nat × Nat)
  | _, [] => []
  | n, .plain cs :: ss => quotedStretches (n + byteLength cs) ss
  | n, .quoted cs :: ss => (n, n + byteLength cs) :: quotedStretches (n + byteLength cs) ss

theorem quotedStretches_consPlain (n : Nat) (c : Char) (ss : List Segment) :
    quotedStretches n (consPlain c ss) = quotedStretches (n + c.utf8Size) ss := by
  unfold consPlain
  split
  · rw [quotedStretches, quotedStretches, byteLength_cons, Nat.add_assoc]
  · rw [quotedStretches, byteLength_cons, byteLength_nil, Nat.add_zero]

/-- Text without quotes has no literals, wherever the text around it is cut. -/
theorem quotedStretches_append {a : List Char} (ha : ∀ c ∈ a, c ≠ '"') (n : Nat)
    (cs : List Char) : quotedStretches n (segments (a ++ cs)) =
      quotedStretches (n + byteLength a) (segments cs) := by
  induction a generalizing n with
  | nil => rfl
  | cons c a ih =>
    rw [List.forall_mem_cons] at ha
    rw [List.cons_append, segments, if_neg ha.1, quotedStretches_consPlain, ih ha.2,
      byteLength_cons, Nat.add_assoc]

/-! ## Tokens with a quote in front -/

namespace Lexeme

/-- What words and numbers go on with. -/
def isInnerChar (c : Char) : Bool :=
  c.isDigit || c == '.' || isIdentifierChar c

theorem isInnerChar_of_isDigit {c : Char} (h : c.isDigit = true) : isInnerChar c = true := by
  simp [isInnerChar, h]

theorem inner_fraction (cs : List Char) : ∀ c ∈ (fraction cs).1, isInnerChar c = true := by
  unfold fraction
  split
  · split
    · rename_i hd
      intro c hc
      rcases List.mem_cons.mp hc with rfl | hc
      · exact isInnerChar_of_isDigit hd
      · exact isInnerChar_of_isDigit (List.mem_takeWhile_imp hc)
    · exact List.forall_mem_nil _
  · exact List.forall_mem_nil _

theorem inner_number (negative : Bool) (first cs : List Char) :
    ∀ c ∈ (number negative first cs).taken, isInnerChar c = true := by
  unfold number
  intro c hc
  rcases List.mem_append.mp hc with hc | hc
  · exact isInnerChar_of_isDigit (List.mem_takeWhile_imp hc)
  · split at hc
    · cases hc
    · rcases List.mem_cons.mp hc with rfl | hc
      · decide
      · exact inner_fraction _ c hc

theorem inner_word (c : Char) (cs : List Char) :
    ∀ d ∈ (word c cs).taken, isInnerChar d = true := by
  intro d hd
  have hchar : isIdentifierChar d = true := List.mem_takeWhile_imp hd
  simp [isInnerChar, hchar]

/-- A token that does not begin with a quote goes on like a word or a number. -/
theorem inner_ofText {c : Char} (hc : c ≠ '"') (cs : List Char) :
    ∀ d ∈ (ofText c cs).taken, isInnerChar d = true := by
  unfold ofText
  split
  · exact List.forall_mem_nil _
  split
  · exact List.forall_mem_nil _
  split
  · exact List.forall_mem_nil _
  split
  · exact inner_number _ _ _
  split
  · exact inner_number _ _ _
  split
  · exact inner_word c cs
  · exact List.forall_mem_nil _

/-- A token that does not begin with a quote has none in it, and is no string. -/
theorem noQuote_ofText {c : Char} (hc : c ≠ '"') (cs : List Char) :
    (∀ d ∈ (ofText c cs).taken, d ≠ '"') ∧ (∀ value, (ofText c cs).kind ≠ .string value) ∧
      (ofText c cs).kind ≠ .unknown .unterminatedString := by
  have hword : (∀ value, (word c cs).kind ≠ .string value) ∧
      (word c cs).kind ≠ .unknown .unterminatedString := by
    unfold word
    dsimp only
    split <;> simp
  refine ⟨?_, ?_⟩
  · rintro d hd rfl
    exact absurd (inner_ofText hc cs _ hd) (by decide)
  -- only the branch of the quote gives a literal
  unfold ofText
  split
  · simp
  split
  · simp
  split
  · simp
  split
  · simp [number]
  split
  · simp [number]
  split
  · exact hword
  · simp

/-- A token that begins with a quote is a string, or what is left of one that is never closed. -/
theorem kind_ofText_quote (cs : List Char) :
    (∃ value, (ofText '"' cs).kind = .string value) ∨
      (ofText '"' cs).kind = .unknown .unterminatedString := by
  rw [ofText_quote, string]
  cases (literal cs).value with
  | none => exact .inr rfl
  | some value => exact .inl ⟨_, rfl⟩

end Lexeme

namespace Token

/-- Whether the text that a token covers begins with a quote. -/
def opensQuote (source : List Char) (t : Token) : Bool :=
  (t.span.textIn source).head? == some '"'

/-- Whether a token is a string, closed or not. -/
def IsLiteral (t : Token) : Prop :=
  (∃ value, t.kind = .string value) ∨ t.kind = .unknown .unterminatedString

end Token

/-! ## Both ways to look for literals -/

theorem ne_quote_of_isWhite {c : Char} (h : isWhite c = true) : c ≠ '"' := by
  rintro rfl
  exact absurd h (by decide)

namespace Cursor

/-- The tokens with a quote in front lie where the literals of the text do. -/
theorem quotedStretches_eq (k : Cursor) {before : List Char} (hk : k.StandsBehind before) :
    quotedStretches (byteLength before) (segments k.rest) =
      (k.tokens.filter fun t => t.text.head? == some '"').map
        fun t => (t.span.start, t.span.stop) := by
  induction k using Cursor.tokens.induct generalizing before with
  | case1 k hnone =>
    have hgap : ∀ c ∈ k.rest, c ≠ '"' := by
      intro c hc
      exact ne_quote_of_isWhite (rest_white_of_next?_none hnone c hc)
    have hskip := quotedStretches_append hgap (byteLength before) []
    rw [List.append_nil] at hskip
    rw [tokens_of_next?_none hnone, hskip, segments]
    rfl
  | case2 k t k' hsome ih =>
    obtain ⟨gap, c, cs, hgap, hrest, -, htext, hspan, hrest', hk'⟩ := next?_eq_some hk hsome
    have hskip : ∀ d ∈ gap, d ≠ '"' := fun d hd => ne_quote_of_isWhite (hgap d hd)
    rw [tokens_of_next?_some hsome, hrest, quotedStretches_append hskip, ← byteLength_append]
    by_cases hc : c = '"'
    · -- the token is the literal that begins here
      subst hc
      have hhead : (t.text.head? == some '"') = true := by
        rw [htext]
        rfl
      rw [Lexeme.taken_ofText_quote] at htext
      rw [Lexeme.rest_ofText_quote] at hrest'
      rw [List.filter_cons, if_pos hhead, List.map_cons, ← ih hk', hspan, Span.start_between,
        Span.stop_between, segments, if_pos rfl, quotedStretches, ← htext, hrest',
        byteLength_append (before ++ gap)]
    · -- the token ends where the next literal begins at the latest
      have hhead : ¬ (t.text.head? == some '"') = true := by
        rw [htext]
        simpa using hc
      have hquotes : ∀ d ∈ t.text, d ≠ '"' := by
        rw [htext]
        exact List.forall_mem_cons.mpr ⟨hc, (Lexeme.noQuote_ofText hc cs).1⟩
      have hwhole : c :: cs = t.text ++ k'.rest := by
        rw [htext, hrest', List.cons_append, Lexeme.taken_append_rest]
      rw [List.filter_cons, if_neg hhead, ← ih hk', hwhole, quotedStretches_append hquotes,
        ← byteLength_append]

/-- The tokens with a quote in front are the strings. -/
theorem head?_eq_quote_iff (k : Cursor) {before : List Char} (hk : k.StandsBehind before) :
    ∀ t ∈ k.tokens, t.text.head? = some '"' ↔ t.IsLiteral := by
  induction k using Cursor.tokens.induct generalizing before with
  | case1 k hnone =>
    intro t ht
    rw [tokens_of_next?_none hnone, List.mem_singleton] at ht
    subst ht
    simp [Token.IsLiteral, Token.atEnd]
  | case2 k t k' hsome ih =>
    obtain ⟨gap, c, cs, -, -, hkind, htext, -, -, hk'⟩ := next?_eq_some hk hsome
    intro u hu
    rw [tokens_of_next?_some hsome] at hu
    rcases List.mem_cons.mp hu with rfl | hu
    · rw [htext, Token.IsLiteral, hkind]
      by_cases hc : c = '"'
      · subst hc
        exact iff_of_true rfl (Lexeme.kind_ofText_quote cs)
      · obtain ⟨-, hstring, hunterminated⟩ := Lexeme.noQuote_ofText hc cs
        refine iff_of_false (by simpa using hc) ?_
        rintro (⟨value, hvalue⟩ | hunclosed)
        · exact hstring value hvalue
        · exact hunterminated hunclosed
    · exact ih hk' u hu

end Cursor

/-! ## Segments -/

namespace WellCut

variable {ss : List Segment}

theorem noQuote_plain (h : WellCut ss) : ∀ cs, .plain cs ∈ ss → cs ≠ [] ∧ ∀ c ∈ cs, c ≠ '"' := by
  induction h with
  | nil => exact fun cs hcs => nomatch hcs
  | @plain text ss hne hquote _ _ ih =>
    intro cs hcs
    rcases List.mem_cons.mp hcs with heq | hcs
    · obtain rfl := Segment.plain.inj heq
      exact ⟨hne, hquote⟩
    · exact ih cs hcs
  | closed _ _ ih =>
    intro cs hcs
    exact ih cs (by simpa using hcs)
  | unclosed =>
    intro cs hcs
    simp at hcs

/-- No two plain stretches are neighbours. -/
theorem isChain (h : WellCut ss) :
    ss.IsChain fun s u => ¬ (s.isPlain = true ∧ u.isPlain = true) := by
  induction h with
  | nil => exact .nil
  | @plain text ss _ _ hnext _ ih =>
    refine List.isChain_cons.mpr ⟨?_, ih⟩
    rintro u hu ⟨-, hplain⟩
    rw [hu] at hnext
    exact absurd hplain (Bool.eq_false_iff.mp hnext)
  | closed _ _ ih =>
    refine List.isChain_cons.mpr ⟨?_, ih⟩
    rintro u - ⟨hquoted, -⟩
    cases hquoted
  | unclosed => exact List.isChain_singleton _

end WellCut

/-- The segments of a text make it up, its plain stretches are whole and without quotes, and its
literals are its string tokens, at the same places. -/
theorem segments_agree_tokenize (source : List Char) :
    (segments source).flatMap Segment.text = source ∧
      (∀ cs, .plain cs ∈ segments source → cs ≠ [] ∧ ∀ c ∈ cs, c ≠ '"') ∧
      (segments source).IsChain (fun s u => ¬ (s.isPlain = true ∧ u.isPlain = true)) ∧
      quotedStretches 0 (segments source) =
        ((tokenize source).filter (Token.opensQuote source)).map
          (fun t => (t.span.start, t.span.stop)) ∧
      ∀ t ∈ tokenize source, t.opensQuote source = true ↔ t.IsLiteral := by
  have hcut := wellCut_segments source
  have hstart := Cursor.standsBehind_start source
  have hopens : ∀ t ∈ tokenize source, t.opensQuote source = (t.text.head? == some '"') := by
    intro t ht
    obtain ⟨a, b, hsource, hspan⟩ := (tiling_tokenize source).exists_split t ht
    have htext : t.span.textIn source = t.text := by
      rw [List.nil_append] at hsource
      rw [hspan, hsource, Span.textIn_between]
    rw [Token.opensQuote, htext]
  refine ⟨flatMap_text_segments source, hcut.noQuote_plain, hcut.isChain, ?_, ?_⟩
  · rw [List.filter_congr hopens]
    exact (Cursor.start source).quotedStretches_eq hstart
  · intro t ht
    rw [hopens t ht, beq_iff_eq]
    exact (Cursor.start source).head?_eq_quote_iff hstart t ht

end GameCondition
