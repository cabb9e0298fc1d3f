import GameCondition.Proofs.Token.Excerpts
import GameCondition.Proofs.Token.Quoted
import GameCondition.Proofs.Token.Scanning

/-! # White space between tokens

A text may be spaced in another way (`IsRespaced`): each white space between two of its tokens may
be any other, and there may be some where there was none. Its terminals stay the same
(`IsRespaced.terminals_eq`). For where white space comes behind a token, the text of the token tells
by itself where it ends (`Lexeme.ofText_append_white`), and where none comes, what stands behind it
is what stood there before. Only a string that is never closed takes up the white space behind it,
and it is no other token for that.
-/

namespace GameCondition

/-! ## Texts that go on with white space -/

/-- A run of characters ends where white space begins, if there is no white space in it. -/
theorem run_append_white {p : Char → Bool} (hp : ∀ c, isWhite c = true → p c = false)
    {gap : List Char} (hgap : gap.head?.all isWhite = true) (cs : List Char) :
    (cs ++ gap).takeWhile p = cs.takeWhile p ∧ (cs ++ gap).dropWhile p = cs.dropWhile p ++ gap := by
  induction cs with
  | nil =>
    cases gap with
    | nil => exact ⟨rfl, rfl⟩
    | cons d gap =>
      have hd : p d = false := hp d hgap
      simp [hd]
  | cons c cs ih =>
    cases hc : p c with
    | true => simp [hc, ih.1, ih.2]
    | false => simp [hc]

theorem isDigit_of_isWhite {c : Char} (h : isWhite c = true) : c.isDigit = false := by
  by_contra hdigit
  rw [Bool.not_eq_false] at hdigit
  rw [isWhite_of_isDigit hdigit] at h
  cases h

theorem isIdentifierChar_of_isWhite {c : Char} (h : isWhite c = true) :
    isIdentifierChar c = false := by
  by_contra hchar
  rw [Bool.not_eq_false] at hchar
  rw [isWhite_of_isIdentifierChar hchar] at h
  cases h

namespace Lexeme

variable {gap : List Char}

/-- A point with white space behind it begins no fraction. -/
theorem fraction_append_white (hgap : gap.head?.all isWhite = true) (cs : List Char) :
    fraction (cs ++ gap) = ((fraction cs).1, (fraction cs).2 ++ gap) := by
  fun_cases fraction cs with
  | case1 d cs hd =>
    obtain ⟨htake, hdrop⟩ := run_append_white (fun _ => isDigit_of_isWhite) hgap cs
    rw [List.cons_append, List.cons_append, fraction, if_pos hd, htake, hdrop]
  | case2 d cs hd =>
    rw [List.cons_append, List.cons_append, fraction, if_neg hd]
  | case3 cs hno =>
    cases gap with
    | nil => rw [List.append_nil, fraction.eq_2 cs hno]
    | cons e gap =>
      have he : isWhite e = true := hgap
      -- a point at the end has no digit behind it, with or without the gap
      by_cases hpoint : cs = ['.']
      · subst hpoint
        have hdigit : ¬ e.isDigit = true := Bool.eq_false_iff.mp (isDigit_of_isWhite he)
        show fraction ('.' :: e :: gap) = ([], '.' :: e :: gap)
        rw [fraction, if_neg hdigit]
      · refine fraction.eq_2 _ ?_
        intro d ds heq
        cases cs with
        | nil =>
          rw [List.nil_append, List.cons.injEq] at heq
          rw [heq.1] at he
          revert he
          decide
        | cons c cs =>
          rw [List.cons_append, List.cons.injEq] at heq
          obtain ⟨rfl, heq⟩ := heq
          cases cs with
          | nil => exact hpoint rfl
          | cons c' cs => exact hno c' cs rfl

theorem number_append_white (negative : Bool) (first : List Char)
    (hgap : gap.head?.all isWhite = true) (cs : List Char) :
    number negative first (cs ++ gap) =
      ⟨(number negative first cs).kind, (number negative first cs).taken,
        (number negative first cs).rest ++ gap⟩ := by
  obtain ⟨htake, hdrop⟩ := run_append_white (fun _ => isDigit_of_isWhite) hgap cs
  simp only [number, htake, hdrop, fraction_append_white hgap]

theorem word_append_white (c : Char) (hgap : gap.head?.all isWhite = true) (cs : List Char) :
    word c (cs ++ gap) = ⟨(word c cs).kind, (word c cs).taken, (word c cs).rest ++ gap⟩ := by
  obtain ⟨htake, hdrop⟩ := run_append_white (fun _ => isIdentifierChar_of_isWhite) hgap cs
  simp only [word, htake, hdrop]

/-- A character that begins no escape begins none when the text goes on, if it does so with neither
a quote nor a backslash. -/
theorem noEscape_append {c : Char} {cs : List Char} (rest : List Char)
    (hescaped : ∀ ds, c = '\\' → cs = '"' :: ds → False)
    (hbackslash : ∀ ds, c = '\\' → cs = '\\' :: ds → False)
    (hrest : cs = [] → ∀ d ∈ rest, d ≠ '"' ∧ d ≠ '\\') :
    ∀ d ds, c = '\\' → cs ++ rest = d :: ds → d ≠ '"' ∧ d ≠ '\\' := by
  intro d ds hc heq
  cases cs with
  | nil =>
    rw [List.nil_append] at heq
    exact hrest rfl d (heq ▸ List.mem_cons_self)
  | cons e es =>
    rw [List.cons_append, List.cons.injEq] at heq
    rw [← heq.1]
    constructor
    · rintro rfl
      exact hescaped es hc rfl
    · rintro rfl
      exact hbackslash es hc rfl

/-- What follows a literal that is closed has no part in it. -/
theorem literal_append_of_closed {cs : List Char} (hclosed : (literal cs).value ≠ none)
    (rest : List Char) :
    literal (cs ++ rest) =
      ⟨(literal cs).value, (literal cs).taken, (literal cs).rest ++ rest⟩ := by
  fun_induction literal cs with
  | case1 => exact absurd rfl hclosed
  | case2 cs => rfl
  | case3 cs ih =>
    exact congrArg (Literal.cons '"' ['\\', '"']) (ih fun h => hclosed (by simp [Literal.cons, h]))
  | case4 cs ih =>
    exact congrArg (Literal.cons '\\' ['\\', '\\'])
      (ih fun h => hclosed (by simp [Literal.cons, h]))
  | case5 c cs hquote hescaped hbackslash ih =>
    have hclosed' : (literal cs).value ≠ none := fun h => hclosed (by simp [Literal.cons, h])
    have hescape := noEscape_append rest hescaped hbackslash fun hcs =>
      absurd (congrArg (fun ds => (literal ds).value) hcs) hclosed'
    exact (literal_cons hquote hescape).trans (congrArg (Literal.cons c [c]) (ih hclosed'))

/-- White space closes no literal. -/
theorem literal_append_of_unclosed {cs : List Char} (hunclosed : (literal cs).value = none)
    (hgap : ∀ c ∈ gap, isWhite c = true) : literal (cs ++ gap) = ⟨none, cs ++ gap, []⟩ := by
  have hmarks : ∀ c ∈ gap, c ≠ '"' ∧ c ≠ '\\' := by
    intro c hc
    constructor
    · rintro rfl
      exact absurd (hgap _ hc) (by decide)
    · rintro rfl
      exact absurd (hgap _ hc) (by decide)
  -- by the literal's own cases; at its end comes the gap, which has neither quotes nor escapes
  fun_induction literal cs with
  | case1 =>
    clear hgap hunclosed
    induction gap with
    | nil => rfl
    | cons c gap ih =>
      rw [List.forall_mem_cons] at hmarks
      have hescape : ∀ d ds, c = '\\' → gap = d :: ds → d ≠ '"' ∧ d ≠ '\\' :=
        fun _ _ hc => absurd hc hmarks.1.2
      rw [List.nil_append] at ih ⊢
      rw [literal_cons hmarks.1.1 hescape, ih hmarks.2]
      rfl
  | case2 cs => cases hunclosed
  | case3 cs ih =>
    have hrest : (literal cs).value = none := by simpa [Literal.cons] using hunclosed
    exact congrArg (Literal.cons '"' ['\\', '"']) (ih hrest)
  | case4 cs ih =>
    have hrest : (literal cs).value = none := by simpa [Literal.cons] using hunclosed
    exact congrArg (Literal.cons '\\' ['\\', '\\']) (ih hrest)
  | case5 c cs hquote hescaped hbackslash ih =>
    have hrest : (literal cs).value = none := by simpa [Literal.cons] using hunclosed
    have hescape := noEscape_append gap hescaped hbackslash fun _ => hmarks
    exact (literal_cons hquote hescape).trans (congrArg (Literal.cons c [c]) (ih hrest))

/-- A text that goes on with white space begins with the same token, unless that is a string that is
never closed. -/
theorem ofText_append_white {c : Char} {cs : List Char}
    (hkind : (ofText c cs).kind ≠ .unknown .unterminatedString)
    (hgap : gap.head?.all isWhite = true) :
    ofText c (cs ++ gap) =
      ⟨(ofText c cs).kind, (ofText c cs).taken, (ofText c cs).rest ++ gap⟩ := by
  -- white space is no digit, so a minus sign at the end stays what it is
  have hstarts : startsWithDigit (cs ++ gap) = startsWithDigit cs := by
    cases cs with
    | cons d cs => rfl
    | nil =>
      cases gap with
      | nil => rfl
      | cons d gap => exact isDigit_of_isWhite hgap
  unfold ofText at hkind ⊢
  rw [hstarts]
  split
  · rfl
  split
  · rfl
  split
  · rfl
  rw [if_neg ‹_›, if_neg ‹_›, if_neg ‹_›] at hkind
  split
  · rw [if_pos ‹_›, string] at hkind
    have hclosed : (literal cs).value ≠ none := by
      intro hnone
      rw [hnone] at hkind
      exact hkind rfl
    rw [string, string, literal_append_of_closed hclosed]
  split
  · exact number_append_white false [c] hgap cs
  split
  · exact number_append_white true [] hgap cs
  split
  · exact word_append_white c hgap cs
  · rfl

/-- A string that is never closed takes up the white space behind it. -/
theorem ofText_append_of_unclosed {c : Char} {cs : List Char}
    (hkind : (ofText c cs).kind = .unknown .unterminatedString)
    (hgap : ∀ c ∈ gap, isWhite c = true) :
    ofText c (cs ++ gap) = ⟨.unknown .unterminatedString, cs ++ gap, []⟩ := by
  by_cases hc : c = '"'
  · subst hc
    rw [ofText_quote, string] at hkind
    have hunclosed : (literal cs).value = none := by
      cases hvalue : (literal cs).value with
      | none => rfl
      | some value =>
        rw [hvalue] at hkind
        cases hkind
    rw [ofText_quote, string, literal_append_of_unclosed hunclosed hgap]
  · exact absurd hkind (noQuote_ofText hc cs).2.2

end Lexeme

/-! ## Other white space -/

/-- The texts of some tokens with white space behind each of them, in two ways. Between two tokens
the second way may have any white space, but has some where the first way does. -/
inductive Respaced : List (List Char) → List Char → List Char → Prop where
  | nil : Respaced [] [] []
  | cons {text cs ds : List Char} {texts : List (List Char)} (gap gap' : List Char) :
      (∀ c ∈ gap, isWhite c = true) → (∀ c ∈ gap', isWhite c = true) →
      (texts ≠ [] → gap ≠ [] → gap' ≠ []) → Respaced texts cs ds →
      Respaced (text :: texts) (text ++ (gap ++ cs)) (text ++ (gap' ++ ds))

/-- The texts of some tokens, without that at the end. -/
def inkTexts (ts : List Token) : List (List Char) :=
  (ts.map Token.text).dropLast

/-- The same tokens with other white space: each white space between two of them is replaced by any
other, and there may be some where there was none, as well as before and behind them all. -/
def IsRespaced (source other : List Char) : Prop :=
  ∃ lead lead' cs ds, source = lead ++ cs ∧ other = lead' ++ ds ∧
    (∀ c ∈ lead, isWhite c = true) ∧ (∀ c ∈ lead', isWhite c = true) ∧
    Respaced (inkTexts (tokenize source)) cs ds

namespace Respaced

variable {texts : List (List Char)} {cs ds gap gap' : List Char}

/-- Up to the first white space of the second way, or its end, both ways are the same. -/
theorem exists_common (h : Respaced texts cs ds) (hgap' : ∀ c ∈ gap', isWhite c = true)
    (hkept : texts ≠ [] → gap ≠ [] → gap' ≠ []) :
    ∃ x z z', gap ++ cs = x ++ z ∧ gap' ++ ds = x ++ z' ∧ z'.head?.all isWhite = true := by
  induction h generalizing gap gap' with
  | nil =>
    refine ⟨[], gap, gap', by simp, by simp, ?_⟩
    cases gap' with
    | nil => rfl
    | cons c gap' => exact hgap' c List.mem_cons_self
  | @cons text cs ds texts gap₁ gap₁' _ hwhite hkept₁ _ ih =>
    cases gap' with
    | cons c gap' =>
      exact ⟨[], gap ++ (text ++ (gap₁ ++ cs)), c :: gap' ++ (text ++ (gap₁' ++ ds)), rfl, rfl,
        hgap' c List.mem_cons_self⟩
    | nil =>
      -- no white space here, so there was none, and both go on with the text of the token
      have hnil : gap = [] := by
        by_contra hne
        exact hkept (List.cons_ne_nil text texts) hne rfl
      obtain ⟨x, z, z', hcs, hds, hz'⟩ := ih hwhite hkept₁
      refine ⟨text ++ x, z, z', ?_, ?_, hz'⟩
      · rw [hnil, List.nil_append, hcs, List.append_assoc]
      · rw [List.nil_append, hds, List.append_assoc]

end Respaced

namespace Cursor

theorem tokens_ne_nil (k : Cursor) : k.tokens ≠ [] := by
  rw [tokens]
  split <;> simp

theorem inkTexts_cons (t : Token) (k : Cursor) :
    inkTexts (t :: k.tokens) = t.text :: inkTexts k.tokens := by
  have hne : k.tokens.map Token.text ≠ [] := by
    rw [Ne, List.map_eq_nil_iff]
    exact k.tokens_ne_nil
  rw [inkTexts, List.map_cons, List.dropLast_cons_of_ne_nil hne]
  rfl

/-- White space ends where something else begins. -/
theorem dropWhile_gap {gap cs : List Char} {c : Char} (hgap : ∀ d ∈ gap, isWhite d = true)
    (hc : isWhite c = false) : (gap ++ c :: cs).dropWhile isWhite = c :: cs := by
  rw [List.dropWhile_append_of_pos hgap, List.dropWhile_cons, hc, if_neg Bool.false_ne_true]

/-- The tokens behind a place have the same terminals in any other spacing. -/
theorem terminals_respaced (k : Cursor) {before lead cs ds : List Char} (hk : k.StandsBehind before)
    (hlead : ∀ c ∈ lead, isWhite c = true) (hrest : k.rest = lead ++ cs)
    (h : Respaced (inkTexts k.tokens) cs ds) :
    terminals ds = k.tokens.map Token.terminal := by
  induction k using Cursor.tokens.induct generalizing before lead cs ds with
  | case1 k hnone =>
    rw [tokens_of_next?_none hnone] at h ⊢
    cases h
    exact terminals_nil
  | case2 k t k' hsome ih =>
    obtain ⟨gap₀, c, cs₀, hgap₀, hrest₀, hkind, htext, -, hrest', hk'⟩ := next?_eq_some hk hsome
    rw [tokens_of_next?_some hsome, inkTexts_cons] at h
    cases h with
    | @cons _ cs₁ ds₁ _ gap gap' hgap hgap' hkept htail =>
      have hc : isWhite c = false := isWhite_of_next?_eq_some hsome htext
      -- the text behind the token is the same, however its beginning was found
      have hbehind : (Lexeme.ofText c cs₀).rest = gap ++ cs₁ := by
        have hwhole : lead ++ c :: ((Lexeme.ofText c cs₀).taken ++ (gap ++ cs₁)) =
            gap₀ ++ c :: cs₀ := by
          rw [← hrest₀, hrest, htext, List.cons_append]
        have hdrop := congrArg (List.dropWhile isWhite) hwhole
        rw [dropWhile_gap hlead hc, dropWhile_gap hgap₀ hc, List.cons.injEq] at hdrop
        have htaken := hdrop.2.trans (Lexeme.taken_append_rest c cs₀).symm
        exact (List.append_cancel_left htaken).symm
      have hlater : terminals ds₁ = k'.tokens.map Token.terminal :=
        ih hk' hgap (hrest'.trans hbehind) htail
      rw [tokens_of_next?_some hsome, List.map_cons, ← hlater, htext, List.cons_append,
        terminals_cons hc]
      by_cases hunclosed : (Lexeme.ofText c cs₀).kind = .unknown .unterminatedString
      · -- nothing is behind such a token, and it takes up the white space that is put there
        have hself := Lexeme.ofText_append_of_unclosed hunclosed (List.forall_mem_nil _)
        rw [List.append_nil] at hself
        have hend : k'.next? = none := next?_of_white (by rw [hrest', hself]; rfl)
        rw [tokens_of_next?_none hend] at htail
        cases htail
        rw [List.append_nil, hself, Lexeme.ofText_append_of_unclosed hunclosed hgap',
          ← terminalOf_eq, hkind, hunclosed]
        rfl
      · obtain ⟨x, z, z', hx, hx', hz'⟩ := htail.exists_common hgap' hkept
        have hcut := Lexeme.ofText_cut (hbehind.trans hx)
        have hlonger : Lexeme.ofText c ((Lexeme.ofText c cs₀).taken ++ x ++ z') = _ :=
          Lexeme.ofText_append_white (by rwa [hcut]) hz'
        rw [hcut, List.append_assoc, ← hx'] at hlonger
        rw [hlonger, terminals_gap hgap', ← terminalOf_eq, hkind, htext]

end Cursor

/-- The text behind a place is made up of the tokens there and the white space behind each. -/
theorem Cursor.exists_respaced (k : Cursor) {before : List Char} (hk : k.StandsBehind before) :
    ∃ lead cs, (∀ c ∈ lead, isWhite c = true) ∧ k.rest = lead ++ cs ∧
      Respaced (inkTexts k.tokens) cs cs := by
  induction k using Cursor.tokens.induct generalizing before with
  | case1 k hnone =>
    refine ⟨k.rest, [], k.rest_white_of_next?_none hnone, (List.append_nil _).symm, ?_⟩
    rw [tokens_of_next?_none hnone]
    exact .nil
  | case2 k t k' hsome ih =>
    obtain ⟨gap, c, cs, hgap, hrest, -, htext, -, hrest', hk'⟩ := next?_eq_some hk hsome
    obtain ⟨lead, ds, hlead, hwhole, htail⟩ := ih hk'
    refine ⟨gap, t.text ++ (lead ++ ds), hgap, ?_, ?_⟩
    · rw [hrest, ← hwhole, hrest', htext, List.cons_append, Lexeme.taken_append_rest]
    · rw [tokens_of_next?_some hsome, inkTexts_cons]
      exact .cons lead lead hlead hlead (fun _ hne => hne) htail

/-- Every text is spaced in the way that it is. -/
theorem IsRespaced.refl (source : List Char) : IsRespaced source source := by
  obtain ⟨lead, cs, hlead, hsource, htexts⟩ :=
    (Cursor.start source).exists_respaced (Cursor.standsBehind_start source)
  exact ⟨lead, lead, cs, cs, hsource, hsource, hlead, hlead, htexts⟩

/-- Other white space changes no terminal. -/
theorem IsRespaced.terminals_eq {source other : List Char} (h : IsRespaced source other) :
    terminals other = terminals source := by
  obtain ⟨lead, lead', cs, ds, hsource, rfl, hlead, hlead', htexts⟩ := h
  rw [terminals_gap hlead']
  exact (Cursor.start source).terminals_respaced (Cursor.standsBehind_start source) hlead hsource
    htexts

end GameCondition
