import GameCondition.Proofs.Token.Literals
import GameCondition.Proofs.Token.Tiling

/-! # Excerpts of a text

How a token is taken up does not depend on what stands further behind it: a text that is cut short
somewhere behind its first token begins with the same one (`Lexeme.ofText_cut`). So the text from
the beginning of a token to the end of a later one has just the terminals of these and of the tokens
between them (`exists_excerpt`).
-/

namespace GameCondition

/-! ## Texts cut short -/

/-- A run of characters ends in the same place when what is behind it is cut short. -/
theorem takeWhile_cut {p : Char → Bool} {cs x z : List Char} (h : cs.dropWhile p = x ++ z) :
    (cs.takeWhile p ++ x).takeWhile p = cs.takeWhile p ∧
      (cs.takeWhile p ++ x).dropWhile p = x := by
  apply takeWhile_append_of_stopsAt
  · intro c hc
    exact List.mem_takeWhile_imp hc
  · intro c ds hx
    have hhead := List.head?_dropWhile_not p cs
    rw [h, hx] at hhead
    simpa using hhead

namespace Lexeme

theorem fraction_cut {cs x z : List Char} (h : (fraction cs).2 = x ++ z) :
    fraction (pointed (fraction cs).1 ++ x) = ((fraction cs).1, x) := by
  fun_cases fraction cs with
  | case1 d cs hd =>
    rw [fraction, if_pos hd] at h
    obtain ⟨htake, hdrop⟩ := takeWhile_cut h
    show fraction ('.' :: d :: (cs.takeWhile Char.isDigit ++ x)) = _
    rw [fraction, if_pos hd, htake, hdrop]
  | case2 d cs hd =>
    -- the point is left, and so it is in what remains of the text
    rw [fraction, if_neg hd] at h
    show fraction x = ([], x)
    match x, h with
    | [], _ => rfl
    | [_], _ => rw [fraction]; simp
    | c :: e :: ds, h =>
      rw [List.cons_append, List.cons_append, List.cons.injEq, List.cons.injEq] at h
      obtain ⟨rfl, rfl, -⟩ := h
      rw [fraction, if_neg hd]
  | case3 cs hno =>
    rw [fraction.eq_2 cs hno] at h
    show fraction x = ([], x)
    refine fraction.eq_2 x ?_
    rintro d ds rfl
    exact hno d (ds ++ z) h

theorem number_cut (negative : Bool) (first : List Char) {cs x z : List Char}
    (h : (number negative first cs).rest = x ++ z) :
    number negative first ((number negative first cs).taken ++ x) =
      ⟨(number negative first cs).kind, (number negative first cs).taken, x⟩ := by
  have hrest : (fraction (cs.dropWhile Char.isDigit)).2 = x ++ z := h
  have hdigits : cs.dropWhile Char.isDigit =
      (pointed (fraction (cs.dropWhile Char.isDigit)).1 ++ x) ++ z := by
    rw [List.append_assoc, ← hrest]
    exact (fraction_append _).symm
  obtain ⟨htake, hdrop⟩ := takeWhile_cut hdigits
  have htaken : (number negative first cs).taken ++ x = cs.takeWhile Char.isDigit ++
      (pointed (fraction (cs.dropWhile Char.isDigit)).1 ++ x) :=
    List.append_assoc _ _ _
  rw [htaken]
  simp only [number, htake, hdrop, fraction_cut hrest]

theorem string_cut {cs x z : List Char} (h : (string cs).rest = x ++ z) :
    string ((string cs).taken ++ x) = ⟨(string cs).kind, (string cs).taken, x⟩ := by
  have hrest : (literal cs).rest = [] → x = [] := by
    intro hnil
    exact (List.append_eq_nil_iff.mp (h.symm.trans hnil)).1
  have htaken : (string cs).taken = (literal cs).taken := rfl
  rw [htaken, string, literal_append hrest]
  rfl

theorem word_cut (c : Char) {cs x z : List Char} (h : (word c cs).rest = x ++ z) :
    word c ((word c cs).taken ++ x) = ⟨(word c cs).kind, (word c cs).taken, x⟩ := by
  obtain ⟨htake, hdrop⟩ := takeWhile_cut (p := isIdentifierChar) h
  have htaken : (word c cs).taken = cs.takeWhile isIdentifierChar := rfl
  rw [htaken]
  simp only [word, htake, hdrop]

/-- A minus sign is one of a number or stands alone, whatever is cut behind it. -/
theorem startsWithDigit_cut {u z : List Char} (hu : u ≠ []) :
    startsWithDigit (u ++ z) = startsWithDigit u := by
  cases u with
  | nil => exact absurd rfl hu
  | cons c ds => rfl

theorem taken_number_ne_nil {negative : Bool} {first cs : List Char}
    (h : startsWithDigit cs = true) : (number negative first cs).taken ≠ [] := by
  cases cs with
  | nil => cases h
  | cons c ds =>
    have hc : c.isDigit = true := h
    simp [number, hc]

/-- A text that is cut short behind its first token begins with the same token. -/
theorem ofText_cut {c : Char} {cs x z : List Char} (h : (ofText c cs).rest = x ++ z) :
    ofText c ((ofText c cs).taken ++ x) = ⟨(ofText c cs).kind, (ofText c cs).taken, x⟩ := by
  -- each kind of token is told by its first character, and a minus sign by the next as well
  by_cases hopen : c = '('
  · subst hopen
    rfl
  by_cases hclose : c = ')'
  · subst hclose
    rfl
  by_cases hdot : c = '.'
  · subst hdot
    rfl
  by_cases hquote : c = '"'
  · subst hquote
    rw [ofText_quote] at h ⊢
    rw [ofText_quote]
    exact string_cut h
  have hof : ∀ ds, ofText c ds = if c.isDigit then number false [c] ds
      else if c = '-' ∧ startsWithDigit ds then number true [] ds
      else if isIdentifierStart c then word c ds
      else ⟨.unknown (.unexpectedChar c), [], ds⟩ := by
    intro ds
    rw [ofText, if_neg hopen, if_neg hclose, if_neg hdot, if_neg hquote]
  by_cases hdigit : c.isDigit = true
  · simp only [hof, if_pos hdigit] at h ⊢
    exact number_cut false [c] h
  simp only [hof, if_neg hdigit] at h ⊢
  by_cases hminus : c = '-' ∧ startsWithDigit cs = true
  · rw [if_pos hminus] at h ⊢
    have hwhole : cs = ((number true [] cs).taken ++ x) ++ z := by
      rw [List.append_assoc, ← h, number_taken_append_rest]
    have hstarts : startsWithDigit ((number true [] cs).taken ++ x) = true := by
      rw [← startsWithDigit_cut (z := z), ← hwhole]
      · exact hminus.2
      · intro hnil
        exact taken_number_ne_nil hminus.2 (List.append_eq_nil_iff.mp hnil).1
    rw [if_pos ⟨hminus.1, hstarts⟩]
    exact number_cut true [] h
  rw [if_neg hminus] at h ⊢
  by_cases hword : isIdentifierStart c = true
  · have hno : ¬ (c = '-' ∧ startsWithDigit ((word c cs).taken ++ x) = true) := by
      rintro ⟨rfl, -⟩
      cases hword
    simp only [if_pos hword, if_neg hno] at h ⊢
    exact word_cut c h
  · have hno : ¬ (c = '-' ∧ startsWithDigit x = true) := by
      rintro ⟨hc, hstarts⟩
      simp only [if_neg hword] at h
      cases x with
      | nil => cases hstarts
      | cons d ds => exact hminus ⟨hc, h ▸ hstarts⟩
    simp only [if_neg hword, List.nil_append, if_neg hno]

end Lexeme

/-! ## Consecutive tokens -/

/-- White space in front of a text goes unseen. -/
theorem terminals_gap {gap : List Char} (hgap : ∀ c ∈ gap, isWhite c = true) (cs : List Char) :
    terminals (gap ++ cs) = terminals cs := by
  induction gap with
  | nil => rfl
  | cons c gap ih =>
    rw [List.forall_mem_cons] at hgap
    rw [List.cons_append, terminals_white hgap.1, ih hgap.2]

theorem terminalOf_eq (t : Token) : terminalOf t.kind t.text = t.terminal := rfl

/-- A stretch goes on up to where another one ends. -/
theorem through_between (p q : Position) {q' : Position} {s : Span} (h : s.stop = q'.offset) :
    (Span.between p q).through s = .between p q' := by
  rw [Span.through, h]
  rfl

namespace Cursor

variable {k k' : Cursor} {before : List Char} {t : Token}

/-- No token begins with white space. -/
theorem isWhite_of_next?_eq_some (h : k.next? = some (t, k')) {c : Char} {cs : List Char}
    (htext : t.text = c :: cs) : isWhite c = false := by
  unfold next? at h
  split at h
  · cases h
  · rename_i d ds hdrop
    simp only [Option.some.injEq, Prod.mk.injEq] at h
    rw [← h.1, List.cons.injEq] at htext
    obtain ⟨rfl, -⟩ := htext
    have hhead := List.head?_dropWhile_not isWhite k.rest
    rw [hdrop] at hhead
    simpa using hhead

/-- Behind a token comes the rest of the terminals, even if the text is cut short. -/
theorem terminals_of_next?_eq_some (hk : k.StandsBehind before) (h : k.next? = some (t, k'))
    {x z : List Char} (hrest : k'.rest = x ++ z) :
    terminals (t.text ++ x) = t.terminal :: terminals x := by
  obtain ⟨gap, c, cs, -, -, hkind, htext, -, hrest', -⟩ := next?_eq_some hk h
  have hcut := Lexeme.ofText_cut (hrest'.symm.trans hrest)
  rw [htext, List.cons_append, terminals_cons (isWhite_of_next?_eq_some h htext), hcut, ← hkind,
    ← htext, terminalOf_eq]

/-- The tokens that come first have an excerpt of the text to themselves. -/
theorem exists_excerpt_of_first {ts us : List Token} (hk : k.StandsBehind before)
    (htokens : k.tokens = t :: (ts ++ us)) (hus : us ≠ []) :
    ∃ gap piece after, (∀ c ∈ gap, isWhite c = true) ∧ k.rest = gap ++ (piece ++ after) ∧
      t.span.through ((t :: ts).getLast (List.cons_ne_nil t ts)).span =
        .between (Position.start.after (before ++ gap))
          (Position.start.after (before ++ gap ++ piece)) ∧
      terminals piece = (t :: ts).map Token.terminal ++ [.last] := by
  induction ts generalizing k before t with
  | nil =>
    cases hnext : k.next? with
    | none =>
      rw [tokens_of_next?_none hnext, List.nil_append, List.cons.injEq] at htokens
      exact absurd htokens.2.symm hus
    | some step =>
      obtain ⟨t', k'⟩ := step
      rw [tokens_of_next?_some hnext, List.cons.injEq] at htokens
      obtain ⟨rfl, -⟩ := htokens
      obtain ⟨gap, c, cs, hgap, hrest, -, htext, hspan, hrest', -⟩ := next?_eq_some hk hnext
      have hterminals := terminals_of_next?_eq_some hk hnext (x := []) (z := k'.rest) rfl
      refine ⟨gap, t'.text, k'.rest, hgap, ?_, ?_, ?_⟩
      · rw [hrest, htext, hrest', List.cons_append, Lexeme.taken_append_rest]
      · exact hspan
      · rw [List.append_nil, terminals_nil] at hterminals
        exact hterminals
  | cons u ts ih =>
    cases hnext : k.next? with
    | none =>
      rw [tokens_of_next?_none hnext, List.cons.injEq] at htokens
      cases htokens.2
    | some step =>
      obtain ⟨t', k'⟩ := step
      rw [tokens_of_next?_some hnext, List.cons.injEq] at htokens
      obtain ⟨rfl, htokens⟩ := htokens
      obtain ⟨gap, c, cs, hgap, hrest, -, htext, hspan, hrest', hk'⟩ := next?_eq_some hk hnext
      obtain ⟨gap', piece, after, hgap', hwhole, hthrough, hterminals⟩ := ih hk' htokens
      -- the excerpt goes on behind the first token
      refine ⟨gap, t'.text ++ (gap' ++ piece), after, hgap, ?_, ?_, ?_⟩
      · rw [hrest, List.append_assoc, List.append_assoc, ← hwhole, htext, hrest', List.cons_append,
          Lexeme.taken_append_rest]
      · rw [List.getLast_cons (List.cons_ne_nil u ts)]
        have hstop := congrArg Span.stop hthrough
        rw [Span.stop_between, Span.through] at hstop
        rw [hspan]
        refine through_between _ _ ?_
        rw [Position.offset_after_start]
        simpa only [List.append_assoc] using hstop
      · have hcut : k'.rest = (gap' ++ piece) ++ after := by rw [hwhole, List.append_assoc]
        rw [terminals_of_next?_eq_some hk hnext hcut, terminals_gap hgap', hterminals]
        rfl

/-- Consecutive tokens have an excerpt of the text to themselves. -/
theorem exists_excerpt {init ts us : List Token} (hk : k.StandsBehind before)
    (htokens : k.tokens = init ++ t :: (ts ++ us)) (hus : us ≠ []) :
    ∃ a piece b, before ++ k.rest = a ++ (piece ++ b) ∧
      t.span.through ((t :: ts).getLast (List.cons_ne_nil t ts)).span =
        .between (Position.start.after a) (Position.start.after (a ++ piece)) ∧
      terminals piece = (t :: ts).map Token.terminal ++ [.last] := by
  -- by induction on the tokens before; the cursor moves past each of them
  induction init generalizing k before with
  | nil =>
    obtain ⟨gap, piece, after, -, hrest, hspan, hterminals⟩ :=
      exists_excerpt_of_first hk htokens hus
    refine ⟨before ++ gap, piece, after, ?_, hspan, hterminals⟩
    rw [hrest, List.append_assoc]
  | cons u init ih =>
    cases hnext : k.next? with
    | none =>
      rw [tokens_of_next?_none hnext, List.cons_append, List.cons.injEq] at htokens
      exact absurd htokens.2.symm (List.append_ne_nil_of_right_ne_nil init (List.cons_ne_nil t _))
    | some step =>
      obtain ⟨u', k'⟩ := step
      rw [tokens_of_next?_some hnext, List.cons_append, List.cons.injEq] at htokens
      obtain ⟨gap, c, cs, -, hrest, -, htext, -, hrest', hk'⟩ := next?_eq_some hk hnext
      obtain ⟨a, piece, b, hwhole, hexcerpt⟩ := ih hk' htokens.2
      refine ⟨a, piece, b, ?_, hexcerpt⟩
      rw [← hwhole, hrest, htext, hrest', List.append_assoc, List.append_assoc, List.cons_append,
        Lexeme.taken_append_rest]

end Cursor

/-- Some consecutive tokens of a text, without that at the end, stretch over a piece of it with just
their terminals. -/
theorem exists_excerpt {source : List Char} {t : Token} {init ts us : List Token}
    (htokens : tokenize source = init ++ t :: (ts ++ us)) (hus : us ≠ []) :
    ∃ a piece b, source = a ++ (piece ++ b) ∧
      t.span.through ((t :: ts).getLast (List.cons_ne_nil t ts)).span =
        .between (Position.start.after a) (Position.start.after (a ++ piece)) ∧
      terminals piece = (t :: ts).map Token.terminal ++ [.last] :=
  Cursor.exists_excerpt (Cursor.standsBehind_start source) htokens hus

/-- The text of a token is all that makes it what it is. -/
theorem Token.terminals_own_text {source : List Char} {t : Token} (ht : t ∈ tokenize source)
    (htext : t.text ≠ []) : terminals t.text = [t.terminal, .last] := by
  have hall : ∀ (k : Cursor) (before : List Char), k.StandsBehind before → t ∈ k.tokens →
      terminals t.text = [t.terminal, .last] := by
    intro k
    induction k using Cursor.tokens.induct with
    | case1 k hnone =>
      intro before _ ht
      rw [Cursor.tokens_of_next?_none hnone, List.mem_singleton] at ht
      exact absurd (congrArg Token.text ht) htext
    | case2 k u k' hsome ih =>
      intro before hk ht
      obtain ⟨gap, _, _, -, -, -, -, -, -, hk'⟩ := Cursor.next?_eq_some hk hsome
      rw [Cursor.tokens_of_next?_some hsome, List.mem_cons] at ht
      rcases ht with rfl | ht
      · have hfirst := Cursor.terminals_of_next?_eq_some hk hsome (x := []) (z := k'.rest) rfl
        rwa [List.append_nil, terminals_nil] at hfirst
      · exact ih _ hk' ht
  exact hall _ _ (Cursor.standsBehind_start source) ht

end GameCondition
