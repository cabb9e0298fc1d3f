import GameCondition.Proofs.Text.Span
import GameCondition.Proofs.Token.Terminals

/-! # Tokens tile a text

Behind each place the scanner passes over white space, takes up a token and stands behind it
(`Cursor.next?_eq_some`), so the tokens of a text and the white space between them make it up
(`Cursor.tiling_tokens`). Hence their stretches lie in the text, in order and apart, and leave out
nothing but white space; each begins where it says it does. Behind the end the scanner stays at the
end (`tokenize_tiles`).

Lines and columns go round at `2 ^ 32`. Behind fewer characters they are exact, except that the token
at the end of `2 ^ 32 - 1` characters can have line or column 0 (`tokenize_blanks_goes_round`).
-/

namespace GameCondition

/-! ## One step -/

namespace Cursor

/-- The scanner stands behind a beginning of the text. -/
def StandsBehind (k : Cursor) (before : List Char) : Prop :=
  k.position = Position.start.after before

theorem standsBehind_start (source : List Char) : (start source).StandsBehind [] := rfl

variable {k k' : Cursor} {before : List Char} {t : Token}

theorem StandsBehind.place (h : k.StandsBehind before) :
    k.place = Position.start.after (before ++ k.rest.takeWhile isWhite) := by
  rw [Cursor.place, h, Position.after_append]

theorem rest_white_of_next?_none (h : k.next? = none) : ∀ c ∈ k.rest, isWhite c = true := by
  unfold next? at h
  split at h
  · rename_i hdrop
    exact List.dropWhile_eq_nil_iff.mp hdrop
  · cases h

/-- What one step does: it passes over white space and takes up the token that begins there. -/
theorem next?_eq_some (hk : k.StandsBehind before) (h : k.next? = some (t, k')) :
    ∃ gap c cs, (∀ d ∈ gap, isWhite d = true) ∧ k.rest = gap ++ c :: cs ∧
      t.kind = (Lexeme.ofText c cs).kind ∧ t.text = c :: (Lexeme.ofText c cs).taken ∧
      t.span = .between (Position.start.after (before ++ gap))
        (Position.start.after (before ++ gap ++ t.text)) ∧
      k'.rest = (Lexeme.ofText c cs).rest ∧ k'.StandsBehind (before ++ gap ++ t.text) := by
  have hplace := hk.place
  unfold next? at h
  split at h
  · cases h
  · rename_i c cs hdrop
    simp only [Option.some.injEq, Prod.mk.injEq] at h
    obtain ⟨rfl, rfl⟩ := h
    refine ⟨k.rest.takeWhile isWhite, c, cs, ?_, ?_, rfl, rfl, ?_, rfl, ?_⟩
    · intro d hd
      exact List.mem_takeWhile_imp hd
    · rw [← hdrop, List.takeWhile_append_dropWhile]
    · rw [hplace, ← Position.after_append]
    · show k.place.after _ = _
      rw [hplace, ← Position.after_append]

end Cursor

/-! ## A whole run -/

/-- Behind `before`, tokens with white space between them make up a text, and the token at the end
comes last. -/
inductive Tiling : List Char → List Char → List Token → Prop where
  | atEnd {before gap : List Char} : (∀ c ∈ gap, isWhite c = true) →
      Tiling before gap [.atEnd (Position.start.after (before ++ gap))]
  | token {before gap rest : List Char} {t : Token} {ts : List Token} :
      (∀ c ∈ gap, isWhite c = true) → t.text ≠ [] → t.kind ≠ .endOfInput →
      t.span = .between (Position.start.after (before ++ gap))
        (Position.start.after (before ++ gap ++ t.text)) →
      Tiling (before ++ gap ++ t.text) rest ts →
      Tiling before (gap ++ (t.text ++ rest)) (t :: ts)

/-- The tokens behind a place tile the text behind it. -/
theorem Cursor.tiling_tokens (k : Cursor) {before : List Char} (hk : k.StandsBehind before) :
    Tiling before k.rest k.tokens := by
  induction k using Cursor.tokens.induct generalizing before with
  | case1 k hnone =>
    have hwhite := rest_white_of_next?_none hnone
    have hgap : k.rest.takeWhile isWhite = k.rest := List.takeWhile_eq_self_iff.mpr hwhite
    rw [tokens_of_next?_none hnone, hk.place, hgap]
    exact .atEnd hwhite
  | case2 k t k' hsome ih =>
    obtain ⟨gap, c, cs, hgap, hrest, hkind, htext, hspan, hrest', hk'⟩ := next?_eq_some hk hsome
    have hwhole : k.rest = gap ++ (t.text ++ k'.rest) := by
      rw [hrest, htext, hrest', List.cons_append, Lexeme.taken_append_rest]
    rw [tokens_of_next?_some hsome, hwhole]
    refine .token hgap ?_ ?_ hspan (ih hk')
    · rw [htext]
      exact List.cons_ne_nil c _
    · rw [hkind]
      exact Lexeme.kind_ofText_ne_endOfInput c cs

theorem tiling_tokenize (source : List Char) : Tiling [] source (tokenize source) :=
  (Cursor.start source).tiling_tokens (Cursor.standsBehind_start source)

/-! ## What a tiling says about stretches -/

/-- A character of two texts is one of the first or of the second. -/
theorem exists_of_append_eq {α : Type} {x y a b : List α} {c : α} (h : x ++ y = a ++ c :: b) :
    (∃ d, x = a ++ c :: d ∧ b = d ++ y) ∨ ∃ d, a = x ++ d ∧ y = d ++ c :: b := by
  rcases List.append_eq_append_iff.mp h with ⟨d, ha, hy⟩ | ⟨d, hx, hcb⟩
  · exact .inr ⟨d, ha, hy⟩
  · cases d with
    | nil => exact .inr ⟨[], by simpa using hx.symm, hcb.symm⟩
    | cons e d =>
      obtain ⟨rfl, hb⟩ := List.cons.inj hcb
      exact .inl ⟨d, hx, hb⟩

namespace Tiling

variable {before rest : List Char} {ts : List Token}

/-- Each token covers its text, behind a beginning of the whole. -/
theorem exists_split (h : Tiling before rest ts) : ∀ t ∈ ts, ∃ a b,
    before ++ rest = a ++ (t.text ++ b) ∧
      t.span = .between (Position.start.after a) (Position.start.after (a ++ t.text)) := by
  induction h with
  | @atEnd before gap _ =>
    intro t ht
    obtain rfl := List.mem_singleton.mp ht
    refine ⟨before ++ gap, [], by simp [Token.atEnd], ?_⟩
    show Span.between _ _ = Span.between _ (Position.start.after (before ++ gap ++ []))
    rw [List.append_nil]
  | @token before gap rest u ts _ _ _ hspan _ ih =>
    intro t ht
    rcases List.mem_cons.mp ht with rfl | ht
    · exact ⟨before ++ gap, rest, by simp only [List.append_assoc], hspan⟩
    · obtain ⟨a, b, heq, hspan⟩ := ih t ht
      refine ⟨a, b, ?_, hspan⟩
      rw [← heq]
      simp only [List.append_assoc]

/-- No token begins before the text that is tiled. -/
theorem byteLength_le_start (h : Tiling before rest ts) :
    ∀ t ∈ ts, byteLength before ≤ t.span.start := by
  induction h with
  | @atEnd before gap _ =>
    intro t ht
    obtain rfl := List.mem_singleton.mp ht
    show _ ≤ (Span.between _ _).start
    rw [Span.start_between, byteLength_append]
    omega
  | @token before gap rest u ts _ _ _ hspan _ ih =>
    intro t ht
    rcases List.mem_cons.mp ht with rfl | ht
    · rw [hspan, Span.start_between, byteLength_append]
      omega
    · have hle := ih t ht
      rw [byteLength_append, byteLength_append] at hle
      omega

/-- Tokens follow each other. -/
theorem pairwise (h : Tiling before rest ts) :
    ts.Pairwise fun t u => t.span.stop ≤ u.span.start := by
  induction h with
  | atEnd => exact List.pairwise_singleton _ _
  | @token before gap rest t ts _ _ _ hspan htail ih =>
    refine List.pairwise_cons.mpr ⟨?_, ih⟩
    intro u hu
    rw [hspan, Span.stop_between]
    exact htail.byteLength_le_start u hu

/-- A character is white space or covered by a token. -/
theorem isWhite_or_covered (h : Tiling before rest ts) {a b : List Char} {c : Char}
    (hrest : rest = a ++ c :: b) : isWhite c = true ∨ ∃ t ∈ ts,
      t.span.start ≤ byteLength (before ++ a) ∧ byteLength (before ++ a) < t.span.stop := by
  induction h generalizing a with
  | atEnd hgap =>
    left
    apply hgap
    rw [hrest]
    exact List.mem_append_right a List.mem_cons_self
  | @token before gap rest t ts hgap _ _ hspan _ ih =>
    rcases exists_of_append_eq hrest with ⟨d, rfl, -⟩ | ⟨d, rfl, hd⟩
    · left
      apply hgap
      exact List.mem_append_right a List.mem_cons_self
    · rcases exists_of_append_eq hd with ⟨e, htext, -⟩ | ⟨e, rfl, he⟩
      · -- inside the token
        right
        refine ⟨t, List.mem_cons_self, ?_⟩
        have hc := c.utf8Size_pos
        rw [hspan, Span.start_between, Span.stop_between, htext]
        simp only [byteLength_append, byteLength_cons]
        omega
      · -- behind the token
        rcases ih he with hwhite | ⟨u, hu, hcovered⟩
        · exact .inl hwhite
        · right
          refine ⟨u, List.mem_cons_of_mem t hu, ?_⟩
          simpa only [List.append_assoc] using hcovered

/-- The last token, and no other, is that at the end. -/
theorem exists_init (h : Tiling before rest ts) : ∃ init,
    ts = init ++ [.atEnd (Position.start.after (before ++ rest))] ∧
      ∀ t ∈ init, t.kind ≠ .endOfInput ∧ t.span.start < t.span.stop := by
  induction h with
  | atEnd => exact ⟨[], rfl, List.forall_mem_nil _⟩
  | @token before gap rest t ts _ htext hkind hspan _ ih =>
    obtain ⟨init, hts, hinit⟩ := ih
    refine ⟨t :: init, ?_, ?_⟩
    · rw [hts]
      simp only [List.append_assoc, List.cons_append]
    · intro u hu
      rcases List.mem_cons.mp hu with rfl | hu
      · refine ⟨hkind, ?_⟩
        have hpos := byteLength_pos htext
        rw [hspan, Span.start_between, Span.stop_between]
        simp only [byteLength_append]
        omega
      · exact hinit u hu

end Tiling

/-! ## Tokens and their places -/

/-- The place of a token in a text: it covers its own text, behind `before`, and tells the line and
the column at which that begins, as 32 bits hold them. -/
def Token.LiesBehind (t : Token) (before : List Char) : Prop :=
  t.span = ⟨byteLength before, byteLength (before ++ t.text), lineBehind before,
    columnBehind before⟩

/-- Tokens that make up a text, but for white space. -/
structure Tiles (source : List Char) (ts : List Token) : Prop where
  placed : ∀ t ∈ ts, ∃ before after, source = before ++ (t.text ++ after) ∧ t.LiesBehind before
  ordered : ts.Pairwise fun t u => t.span.stop ≤ u.span.start
  /-- What no token covers is white space. -/
  uncovered : ∀ before c after, source = before ++ c :: after → isWhite c = true ∨ ∃ t ∈ ts,
    t.span.start ≤ byteLength before ∧ byteLength before < t.span.stop
  /-- The token at the end is the last, and the only one of its kind and without text. -/
  ended : ∃ init, ts = init ++ [.atEnd (Position.start.after source)] ∧
    ∀ t ∈ init, t.kind ≠ .endOfInput ∧ t.span.start < t.span.stop

/-- In a text of fewer than `2 ^ 32` characters a token tells the line and the column at which it
begins, but for the exceptions at the end. -/
theorem Tiles.tells {source : List Char} {ts : List Token} (h : Tiles source ts)
    (hlength : source.length < 2 ^ 32) : ∀ t ∈ ts, ∃ before after,
      source = before ++ (t.text ++ after) ∧ t.LiesBehind before ∧
        t.span.Tells source (lineBehind before) (columnBehind before) := by
  intro t ht
  obtain ⟨before, after, hsource, hspan⟩ := h.placed t ht
  refine ⟨before, after, hsource, hspan, ?_⟩
  rw [hspan]
  exact Span.tells_of_length_lt hsource hlength _

theorem tiles_tokenize (source : List Char) : Tiles source (tokenize source) := by
  have h := tiling_tokenize source
  constructor
  · intro t ht
    obtain ⟨a, b, hsource, hspan⟩ := h.exists_split t ht
    refine ⟨a, b, hsource, ?_⟩
    rw [Token.LiesBehind, hspan, Position.after_start, Position.after_start]
    rfl
  · exact h.pairwise
  · intro before c after hsource
    exact h.isWhite_or_covered hsource
  · exact h.exists_init

/-! ## Behind the end -/

namespace Cursor

/-- The token that is taken up after `n` others. -/
def call (k : Cursor) : Nat → Token
  | 0 => k.next.1
  | n + 1 => k.next.2.call n

/-- At the end of a text there is the token at the end, again and again. -/
theorem call_of_rest_nil {k : Cursor} (h : k.rest = []) (n : Nat) :
    k.call n = .atEnd k.position := by
  have hplace : k.place = k.position := by
    rw [place, h]
    rfl
  have hnone : k.next? = none := next?_of_white (by rw [h]; rfl)
  induction n generalizing k with
  | zero =>
    rw [call, next, hnone, hplace]
    rfl
  | succ n ih =>
    rw [call, next, hnone, hplace]
    exact ih rfl rfl rfl

/-- One call after the other gives the tokens, and then the one at the end. -/
theorem call_eq (k : Cursor) {before : List Char} (hk : k.StandsBehind before) (n : Nat) :
    k.call n = k.tokens[n]?.getD (.atEnd (Position.start.after (before ++ k.rest))) := by
  -- by induction on the tokens that are left, whichever call is asked for
  induction k using Cursor.tokens.induct generalizing before n with
  | case1 k hnone =>
    have hgap : k.rest.takeWhile isWhite = k.rest :=
      List.takeWhile_eq_self_iff.mpr (rest_white_of_next?_none hnone)
    have hplace := hk.place
    rw [hgap] at hplace
    rw [tokens_of_next?_none hnone, ← hplace]
    cases n with
    | zero =>
      rw [call, next, hnone]
      rfl
    | succ n =>
      rw [call, next, hnone]
      exact call_of_rest_nil rfl n
  | case2 k t k' hsome ih =>
    rw [tokens_of_next?_some hsome]
    cases n with
    | zero =>
      rw [call, next, hsome]
      rfl
    | succ n =>
      -- the rest of the calls are made behind the first token
      obtain ⟨gap, c, cs, -, hrest, -, htext, -, hrest', hk'⟩ := next?_eq_some hk hsome
      have hwhole : before ++ gap ++ t.text ++ k'.rest = before ++ k.rest := by
        rw [hrest, htext, hrest', List.append_assoc, List.cons_append, Lexeme.taken_append_rest,
          List.append_assoc]
      rw [call, next, hsome]
      show k'.call n = _
      rw [ih hk' n, hwhole, List.getElem?_cons_succ]

end Cursor

/-- The tokens of a text tile it, and a scanner that has come to the end gives the token there again
with every further call. In a text of fewer than `2 ^ 32` characters each token tells the line and
the column at which it begins, but for the exceptions at the end. -/
theorem tokenize_tiles {source : List Char} (hlength : source.length < 2 ^ 32) :
    Tiles source (tokenize source) ∧
    (∀ t ∈ tokenize source, ∃ before after, source = before ++ (t.text ++ after) ∧
      t.LiesBehind before ∧ t.span.Tells source (lineBehind before) (columnBehind before)) ∧
    ∀ n, (Cursor.start source).call n =
      (tokenize source)[n]?.getD (.atEnd (Position.start.after source)) := by
  have htiles := tiles_tokenize source
  refine ⟨htiles, htiles.tells hlength, ?_⟩
  intro n
  exact (Cursor.start source).call_eq (Cursor.standsBehind_start source) n

/-- A word behind a line feed, and then two blanks. -/
theorem tokenize_tiles_twoLines : "\nab  ".toList.length < 2 ^ 32 ∧
    tokenize "\nab  ".toList =
      [⟨.identifier "ab", ['a', 'b'], ⟨1, 3, 2, 1⟩⟩, .atEnd ⟨5, 2, 5⟩] ∧
    (Cursor.start "\nab  ".toList).call 7 = .atEnd ⟨5, 2, 5⟩ := by
  have htokens : tokenize "\nab  ".toList =
      [⟨.identifier "ab", ['a', 'b'], ⟨1, 3, 2, 1⟩⟩, .atEnd ⟨5, 2, 5⟩] := by decide +kernel
  have hlength : "\nab  ".toList.length < 2 ^ 32 := by decide
  obtain ⟨-, -, hcall⟩ := tokenize_tiles hlength
  refine ⟨hlength, htokens, ?_⟩
  rw [hcall 7, htokens]
  rfl

/-- In blanks there is only the token at the end, as many columns further. -/
theorem tokenize_blanks (n : Nat) :
    tokenize (List.replicate n ' ') = [.atEnd ⟨n, 1, (n + 1 : Nat)⟩] := by
  have hblank : ∀ c ∈ List.replicate n ' ', c = ' ' := fun c hc => List.eq_of_mem_replicate hc
  have hgap : (List.replicate n ' ').takeWhile isWhite = List.replicate n ' ' :=
    List.takeWhile_eq_self_iff.mpr fun c hc => hblank c hc ▸ rfl
  have hnone : (Cursor.start (List.replicate n ' ')).next? = none :=
    Cursor.next?_of_white (List.dropWhile_eq_nil_iff.mpr fun c hc => hblank c hc ▸ rfl)
  have hbytes : byteLength (List.replicate n ' ') = n :=
    (byteLength_replicate n ' ').trans (Nat.mul_one n)
  have hline : lineBehind (List.replicate n ' ') = 1 := by
    rw [lineBehind, List.count_replicate, if_neg (by decide)]
  have hcolumn : columnBehind (List.replicate n ' ') = n + 1 := by
    rw [columnBehind, List.rtakeWhile_eq_self_iff.mpr, List.length_replicate]
    intro c hc
    rw [hblank c hc]
    rfl
  rw [tokenize, Cursor.tokens_of_next?_none hnone]
  show [Token.atEnd (Position.start.after ((List.replicate n ' ').takeWhile isWhite))] = _
  rw [hgap, Position.after_start, hbytes, hline, hcolumn]
  rfl

/-- The column behind `2 ^ 32 - 1` blanks is one that 32 bits do not hold. -/
theorem tokenize_blanks_goes_round :
    (List.replicate (2 ^ 32 - 1) ' ').length < 2 ^ 32 ∧
    tokenize (List.replicate (2 ^ 32 - 1) ' ') = [.atEnd ⟨2 ^ 32 - 1, 1, 0⟩] ∧
    ¬ ∀ t ∈ tokenize (List.replicate (2 ^ 32 - 1) ' '), ∃ before after,
      List.replicate (2 ^ 32 - 1) ' ' = before ++ (t.text ++ after) ∧
        t.span.start = byteLength before ∧ (t.span.column : Nat) = columnBehind before := by
  have htokens : tokenize (List.replicate (2 ^ 32 - 1) ' ') = [.atEnd ⟨2 ^ 32 - 1, 1, 0⟩] :=
    tokenize_blanks (2 ^ 32 - 1)
  refine ⟨?_, htokens, ?_⟩
  · rw [List.length_replicate]
    decide
  · intro h
    rw [htokens] at h
    -- the column that is told is 0, and none is
    obtain ⟨before, -, -, -, hcolumn⟩ := h _ List.mem_cons_self
    exact absurd hcolumn.symm (Nat.succ_ne_zero _)

end GameCondition
