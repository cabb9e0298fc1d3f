import GameCondition.Proofs.Condition.Likeness
import GameCondition.Proofs.Text.Lines
import GameCondition.Proofs.Token.Tiling

/-! # Where a text is refused

A reader that is in step with itself on the tokens of a text fails at one of them
(`Likeness.exists_token_of_readAll`), and each token knows its line and column. So the error that is
made of a diagnostic later, with the line that is found around the offset, shows the place that the
reader meant (`Condition.read_error_place`), as long as 32 bits hold the line and the column
(`Condition.read_blanks_goes_round`).
-/

namespace GameCondition

namespace Likeness

/-- Texts that do not differ, with all tokens among the given ones. -/
def among (ts : List Token) : Likeness where
  token t t' := t = t' ∧ t ∈ ts
  name := Eq
  place := Eq
  kind h := same.kind h.1
  has h := same.has h.1
  span h := same.span h.1
  through := same.through
  refl := same.refl
  ascii := same.ascii

theorem Failures.exists_token {ts : List Token} {e e' : Failure} (h : (among ts).Failures e e') :
    ∃ t ∈ ts, (∃ cause, e = .misfit cause t.span) ∨ e = .tooDeep t.span := by
  cases h with
  | misfit h =>
    cases h with
    | misfit cause cause' h => exact ⟨_, h.2, .inl ⟨cause, rfl⟩⟩
  | tooDeep h => exact ⟨_, h.2, .inr rfl⟩

/-- A reader of a text fails at a token of the text. -/
theorem exists_token_of_readAll {levels : Nat} {cs : List Char} {e : Failure}
    (h : Condition.readAll levels (.ofText cs) = .error e) :
    ∃ t ∈ tokenize cs, (∃ cause, e = .misfit cause t.span) ∨ e = .tooDeep t.span := by
  have htokens : List.Forall₂ (among (tokenize cs)).token (tokenize cs) (tokenize cs) :=
    List.forall₂_same.mpr fun t ht => ⟨rfl, ht⟩
  have hself := (streams_ofText htokens).readAll levels
  rw [h] at hself
  cases hself with
  | error hfails => exact hfails.exists_token

end Likeness

namespace Condition

/-- A text that is refused is refused at one of its tokens. The error that says so either is about
the limit or shows the line of that token, its number, and how many characters stand before the
token in it. In a text of fewer than `2 ^ 32` characters the number and the column are exact, but
for the exceptions at the end. -/
theorem read_error_place {limit : Nat} {source : String} {d : Diagnostic}
    (hlength : source.toList.length < 2 ^ 32) (h : read limit source = .error d) :
    (∃ t ∈ tokenize source.toList, d.span = t.span) ∧
    (d.code = .nestingLimit limit ∨ d.code = .grammar ∧ ∃ line number column,
      d.toError source = ⟨.malformed d.message d.span.line d.span.column (String.ofList line),
        some ⟨some source, some d.span.start⟩⟩ ∧
      StandsInLine source.toList d.span.start number column line ∧
      d.span.Tells source.toList number column) := by
  obtain ⟨e, hread, rfl⟩ : ∃ e, readAll limit (.ofText source.toList) = .error e ∧
      d = e.diagnostic limit := by
    unfold read at h
    cases hall : readAll limit (.ofText source.toList) with
    | ok c => simp [hall, Except.mapError] at h
    | error e => exact ⟨e, rfl, by simpa [hall, Except.mapError] using h.symm⟩
  obtain ⟨t, ht, hfails⟩ := Likeness.exists_token_of_readAll hread
  have hspan : (e.diagnostic limit).span = t.span := by
    rcases hfails with ⟨cause, rfl⟩ | rfl <;> rfl
  refine ⟨⟨t, ht, hspan⟩, ?_⟩
  rcases hfails with ⟨cause, rfl⟩ | rfl
  · -- the error is made of the line around the place of the token
    right
    obtain ⟨before, after, hsource, hplace, htells⟩ :=
      (tiles_tokenize source.toList).tells hlength t ht
    have hstart : t.span.start = byteLength before := by rw [hplace]
    refine ⟨rfl, lineAt source.toList t.span.start, lineBehind before, columnBehind before, rfl,
      ?_, hspan ▸ htells⟩
    rw [hspan, hstart, hsource]
    exact standsInLine_lineAt before (t.text ++ after)
  · exact .inl rfl

/-- The second operand is missing behind a string that goes on in another line. -/
theorem read_error_place_behind_lines :
    "a is \"é\nü\" or".toList.length < 2 ^ 32 ∧
    read 64 "a is \"é\nü\" or" = .error
      (.misfit "expected a subject, found end of input" ⟨15, 15, 2, 6⟩) ∧
    (∃ t ∈ tokenize "a is \"é\nü\" or".toList, (⟨15, 15, 2, 6⟩ : Span) = t.span) ∧
    ∃ line number column, StandsInLine "a is \"é\nü\" or".toList 15 number column line ∧
      (⟨15, 15, 2, 6⟩ : Span).Tells "a is \"é\nü\" or".toList number column := by
  have hlength : "a is \"é\nü\" or".toList.length < 2 ^ 32 := by decide
  have hread : read 64 "a is \"é\nü\" or" = .error
      (.misfit "expected a subject, found end of input" ⟨15, 15, 2, 6⟩) := by
    have hall : readAll 64 (.ofText "a is \"é\nü\" or".toList) = .error
        (.misfit (.expectedSubject (.atEnd ⟨15, 2, 6⟩)) ⟨15, 15, 2, 6⟩) := by decide +kernel
    rw [read, hall]
    rfl
  obtain ⟨htoken, hcode | ⟨-, line, number, column, -, hline, htells⟩⟩ :=
    read_error_place hlength hread
  · cases hcode
  · exact ⟨hlength, hread, htoken, line, number, column, hline, htells⟩

/-- At the end of a text a subject is missing. -/
theorem readAll_atEnd (levels : Nat) (p : Position) (previous : Span) :
    readAll levels ⟨.atEnd p, [], previous⟩ =
      .error (.misfit (.expectedSubject (.atEnd p)) (.between p p)) := by
  rw [readAll, readOr, readAnd]
  unfold readUnary
  rfl

/-- A text of `2 ^ 32 - 1` blanks is refused at its end, with a column that counts no characters. -/
theorem read_blanks_goes_round :
    (String.ofList (List.replicate (2 ^ 32 - 1) ' ')).toList.length < 2 ^ 32 ∧
    ∃ d, read 64 (String.ofList (List.replicate (2 ^ 32 - 1) ' ')) = .error d ∧
      d.code = .grammar ∧ d.span = ⟨2 ^ 32 - 1, 2 ^ 32 - 1, 1, 0⟩ ∧
      ¬ ∃ line, StandsInLine (List.replicate (2 ^ 32 - 1) ' ') d.span.start d.span.line
        d.span.column line := by
  rw [String.toList_ofList]
  have hround : ((2 ^ 32 - 1 + 1 : Nat) : UInt32) = 0 := rfl
  have hread : read 64 (String.ofList (List.replicate (2 ^ 32 - 1) ' ')) = .error
      ((Failure.misfit (.expectedSubject (.atEnd ⟨2 ^ 32 - 1, 1, 0⟩))
        (.between ⟨2 ^ 32 - 1, 1, 0⟩ ⟨2 ^ 32 - 1, 1, 0⟩)).diagnostic 64) := by
    rw [read, String.toList_ofList, Stream.ofText, tokenize_blanks, hround]
    simp only [readAll_atEnd]
    rfl
  refine ⟨?_, _, hread, rfl, rfl, ?_⟩
  · rw [List.length_replicate]
    decide
  · rintro ⟨line, hline⟩
    -- columns are counted from one
    exact absurd hline.column_pos (by decide)

end Condition

end GameCondition
