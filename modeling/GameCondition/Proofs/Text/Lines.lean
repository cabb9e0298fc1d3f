import GameCondition.Proofs.Text.Span

/-! # Places by line and column

The lines of a text are the pieces between its line feeds. The place behind a beginning of a text
stands in the line with its number, behind one character less than its column (`StandsInLine`), and
the line that `lineAt` finds around its offset is that one (`standsInLine_lineAt`).
-/

namespace GameCondition

/-- A place in a text, by its offset, and by the numbers of its line and its column: the line with
that number has at least one character less than the column before the place. -/
structure StandsInLine (source : List Char) (offset number column : Nat) (line : List Char) :
    Prop where
  number_pos : 1 ≤ number
  column_pos : 1 ≤ column
  isLine : (source.splitOn '\n')[number - 1]? = some line
  inLine : column - 1 ≤ line.length
  /-- The bytes before the place are those of the lines before it, with their line feeds, and those
  of the characters before it. -/
  offset_eq : offset =
    byteLength (((source.splitOn '\n').take (number - 1)).flatMap (· ++ ['\n'])) +
      byteLength (line.take (column - 1))

theorem splitOn_lineFeed_append (a b : List Char) :
    (a ++ '\n' :: b).splitOn '\n' = a.splitOn '\n' ++ b.splitOn '\n' := by
  rw [List.splitOn_eq_splitOnP, List.splitOn_eq_splitOnP, List.splitOn_eq_splitOnP]
  exact List.splitOnP_append_cons a b rfl

theorem splitOn_of_noLineFeed {a : List Char} (h : ∀ c ∈ a, c ≠ '\n') : a.splitOn '\n' = [a] := by
  rw [List.splitOn_eq_splitOnP]
  refine List.splitOnP_eq_singleton ?_
  intro c hc
  exact beq_eq_false_iff_ne.mpr (h c hc)

/-- The first line of a text goes up to its first line feed. -/
theorem exists_splitOn_eq (a : List Char) :
    ∃ more, a.splitOn '\n' = a.takeWhile (· ≠ '\n') :: more := by
  have hfirst : ∀ c ∈ a.takeWhile (· ≠ '\n'), c ≠ '\n' := by
    intro c hc
    simpa using List.mem_takeWhile_imp hc
  cases hdrop : a.dropWhile (· ≠ '\n') with
  | nil =>
    have hall : a.takeWhile (· ≠ '\n') = a := by
      have happend := List.takeWhile_append_dropWhile (p := (· ≠ '\n')) (l := a)
      rwa [hdrop, List.append_nil] at happend
    rw [hall] at hfirst
    exact ⟨[], by rw [hall, splitOn_of_noLineFeed hfirst]⟩
  | cons c b =>
    obtain rfl : c = '\n' := by
      have hhead := List.head?_dropWhile_not (· ≠ '\n') a
      rw [hdrop] at hhead
      simpa using hhead
    refine ⟨b.splitOn '\n', ?_⟩
    conv_lhs => rw [← List.takeWhile_append_dropWhile (p := (· ≠ '\n')) (l := a), hdrop]
    rw [splitOn_lineFeed_append, splitOn_of_noLineFeed hfirst, List.singleton_append]

/-- There is one line more than there are line feeds, and with a line feed behind each the lines are
the text and a line feed. -/
theorem splitOn_lineFeed_spec (a : List Char) :
    (a.splitOn '\n').length = a.count '\n' + 1 ∧
      (a.splitOn '\n').flatMap (· ++ ['\n']) = a ++ ['\n'] := by
  rw [List.splitOn_eq_splitOnP]
  induction a with
  | nil => exact ⟨rfl, rfl⟩
  | cons c a ih =>
    rw [List.splitOnP_cons_eq_if_modifyHead]
    obtain ⟨hlength, hjoined⟩ := ih
    by_cases hc : c = '\n'
    · subst hc
      simp [hlength, hjoined]
    · -- the character goes in front of the first line
      obtain ⟨line, lines, hlines⟩ := List.exists_cons_of_ne_nil
        (List.splitOnP_ne_nil (fun d => d == '\n') a)
      rw [hlines] at hlength hjoined
      rw [hlines, if_neg (by simpa using hc), List.modifyHead_cons]
      refine ⟨by simpa [hc] using hlength, ?_⟩
      rw [List.flatMap_cons] at hjoined ⊢
      rw [List.cons_append, List.cons_append, hjoined, List.cons_append]

/-- A beginning of a text is a row of lines, each with its line feed, and a beginning of the line
that goes on behind it. -/
theorem exists_lines (before : List Char) :
    ∃ lines : List (List Char), lines.length = before.count '\n' ∧
      before = lines.flatMap (· ++ ['\n']) ++ before.rtakeWhile (· ≠ '\n') ∧
      ∀ after : List Char, ∃ more, (before ++ after).splitOn '\n' =
        lines ++ (before.rtakeWhile (· ≠ '\n') ++ after.takeWhile (· ≠ '\n')) :: more := by
  have hsplit := List.rdropWhile_append_rtakeWhile (p := (· ≠ '\n')) (l := before)
  have hline : ∀ c ∈ before.rtakeWhile (· ≠ '\n'), c ≠ '\n' := by
    intro c hc
    simpa using List.mem_rtakeWhile_imp hc
  have hlast := List.rdropWhile_last_not (· ≠ '\n') before
  generalize before.rtakeWhile (· ≠ '\n') = line at *
  generalize before.rdropWhile (· ≠ '\n') = front at *
  have hcount : line.count '\n' = 0 := List.count_eq_zero.mpr fun hc => hline _ hc rfl
  have hgoes : ∀ after : List Char, ∃ more, (line ++ after).splitOn '\n' =
      (line ++ after.takeWhile (· ≠ '\n')) :: more := by
    intro after
    obtain ⟨more, hmore⟩ := exists_splitOn_eq (line ++ after)
    rw [List.takeWhile_append_of_pos (by simpa using hline)] at hmore
    exact ⟨more, hmore⟩
  rcases List.eq_nil_or_concat' front with rfl | ⟨a, c, rfl⟩
  · -- no line feed before the place
    rw [List.nil_append] at hsplit
    subst hsplit
    exact ⟨[], hcount.symm, rfl, hgoes⟩
  · obtain rfl : c = '\n' := by simpa using hlast
    obtain ⟨hlength, hjoined⟩ := splitOn_lineFeed_spec a
    refine ⟨a.splitOn '\n', ?_, by rw [hjoined, hsplit], ?_⟩
    · rw [← hsplit, List.count_append, List.count_append, hcount, hlength]
      rfl
    · intro after
      obtain ⟨more, hmore⟩ := hgoes after
      refine ⟨more, ?_⟩
      rw [← hsplit, List.append_assoc, List.append_assoc, List.singleton_append,
        splitOn_lineFeed_append, hmore]

/-- The line around an offset is the piece between the line feeds next to it. -/
theorem lineAt_byteLength (before after : List Char) :
    lineAt (before ++ after) (byteLength before) =
      before.rtakeWhile (· ≠ '\n') ++ after.takeWhile (· ≠ '\n') := by
  have hmin : min (byteLength before) (byteLength (before ++ after)) = byteLength before := by
    rw [byteLength_append]
    omega
  unfold lineAt
  rw [hmin, cutAt_byteLength]
  rfl

/-- A place stands in the line that is found around its offset. -/
theorem standsInLine_lineAt (before after : List Char) :
    StandsInLine (before ++ after) (byteLength before) (lineBehind before) (columnBehind before)
      (lineAt (before ++ after) (byteLength before)) := by
  obtain ⟨lines, hlength, hbefore, hlines⟩ := exists_lines before
  obtain ⟨more, hmore⟩ := hlines after
  rw [lineAt_byteLength, lineBehind, columnBehind]
  constructor
  · exact Nat.le_add_left 1 _
  · exact Nat.le_add_left 1 _
  · rw [hmore, Nat.add_sub_cancel, ← hlength, List.getElem?_append_right (Nat.le_refl _),
      Nat.sub_self, List.getElem?_cons_zero]
  · rw [Nat.add_sub_cancel, List.length_append]
    exact Nat.le_add_right _ _
  · rw [hmore, Nat.add_sub_cancel, Nat.add_sub_cancel, ← hlength, List.take_left,
      List.take_left, ← byteLength_append, ← hbefore]

end GameCondition
