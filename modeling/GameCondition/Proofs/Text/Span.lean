import GameCondition.Text.Span
import Mathlib.Algebra.Group.Nat.Defs
import Mathlib.Data.List.DropRight

/-! # Places and stretches of a text

The place behind a text is told by the text alone: its offset counts the bytes, its line the line
feeds, its column the characters since the last of them (`Position.after_start`), as far as 32 bits
hold these numbers. They do in a text of fewer than `2 ^ 32` characters, with an exception at the
end of `2 ^ 32 - 1` of them (`Span.tells_of_length_lt`). A stretch between the ends of two beginnings
of a text covers what the second has more (`Span.textIn_between`).
-/

namespace GameCondition

/-! ## Bytes -/

@[simp] theorem byteLength_nil : byteLength [] = 0 := rfl

@[simp] theorem byteLength_cons (c : Char) (cs : List Char) :
    byteLength (c :: cs) = c.utf8Size + byteLength cs := rfl

@[simp] theorem byteLength_append (a b : List Char) :
    byteLength (a ++ b) = byteLength a + byteLength b := by
  induction a with
  | nil => simp
  | cons c a ih => simp [ih, Nat.add_assoc]

theorem byteLength_replicate (n : Nat) (c : Char) :
    byteLength (List.replicate n c) = n * c.utf8Size := by
  induction n with
  | zero => rw [List.replicate_zero, byteLength_nil, Nat.zero_mul]
  | succ n ih => rw [List.replicate_succ, byteLength_cons, ih, Nat.succ_mul, Nat.add_comm]

theorem byteLength_pos {cs : List Char} (h : cs ≠ []) : 0 < byteLength cs := by
  cases cs with
  | nil => exact absurd rfl h
  | cons c cs =>
    have hc := c.utf8Size_pos
    rw [byteLength_cons]
    omega

/-- A text is cut behind one of its beginnings. -/
theorem cutAt_byteLength (a b : List Char) : cutAt (byteLength a) (a ++ b) = some (a, b) := by
  induction a with
  | nil =>
    show cutAt 0 b = some ([], b)
    rw [cutAt]
  | cons c a ih =>
    obtain ⟨n, hn⟩ := Nat.exists_eq_add_of_le' c.utf8Size_pos
    have hlength : byteLength (c :: a) = n + byteLength a + 1 := by
      rw [byteLength_cons, hn]
      omega
    have hbehind : n + byteLength a + 1 - c.utf8Size = byteLength a := by omega
    rw [hlength, List.cons_append, cutAt, if_pos (by omega), hbehind, ih]
    rfl

/-- The piece of a text behind one of its beginnings. -/
theorem slice_append (a b c : List Char) :
    slice (byteLength a) (byteLength (a ++ b)) (a ++ (b ++ c)) = some b := by
  have hlength : byteLength (a ++ b) - byteLength a = byteLength b := by
    rw [byteLength_append]
    omega
  have horder : ¬ byteLength (a ++ b) < byteLength a := by
    rw [byteLength_append]
    omega
  rw [slice, if_neg horder, cutAt_byteLength, hlength]
  show (cutAt (byteLength b) (b ++ c)).bind _ = some b
  rw [cutAt_byteLength]
  rfl

/-! ## Lines and columns -/

/-- The number of the line behind a text: one more than its line feeds. -/
def lineBehind (before : List Char) : Nat :=
  before.count '\n' + 1

/-- The number of the column behind a text: one more than the characters since its last line
feed. -/
def columnBehind (before : List Char) : Nat :=
  (before.rtakeWhile (· ≠ '\n')).length + 1

/-- A line feed ends a line. -/
theorem lineBehind_concat_lineFeed (cs : List Char) :
    lineBehind (cs ++ ['\n']) = lineBehind cs + 1 := by
  simp [lineBehind, List.count_append]

/-- Behind a line feed there is nothing of the line yet. -/
theorem columnBehind_concat_lineFeed (cs : List Char) : columnBehind (cs ++ ['\n']) = 1 := by
  simp [columnBehind, List.rtakeWhile_concat_neg]

/-- Another character leaves the line as it is. -/
theorem lineBehind_concat {c : Char} (hc : c ≠ '\n') (cs : List Char) :
    lineBehind (cs ++ [c]) = lineBehind cs := by
  simp [lineBehind, List.count_append, hc]

/-- Another character is one column further. -/
theorem columnBehind_concat {c : Char} (hc : c ≠ '\n') (cs : List Char) :
    columnBehind (cs ++ [c]) = columnBehind cs + 1 := by
  simp [columnBehind, List.rtakeWhile_concat_pos, hc]

/-- A text has at most one line more than characters, and just as many if it is all line feeds. -/
theorem lineBehind_le (before : List Char) : lineBehind before ≤ before.length + 1 ∧
    (lineBehind before = before.length + 1 → before = List.replicate before.length '\n') := by
  refine ⟨Nat.succ_le_succ List.count_le_length, ?_⟩
  intro h
  have hall := List.count_eq_length.mp (Nat.succ.inj h)
  exact List.eq_replicate_of_mem fun c hc => (hall c hc).symm

/-- A column is at most one more than the characters of a text, and just that if none of them is a
line feed. -/
theorem columnBehind_le (before : List Char) : columnBehind before ≤ before.length + 1 ∧
    (columnBehind before = before.length + 1 → '\n' ∉ before) := by
  have hsuffix := before.rtakeWhile_suffix (· ≠ '\n')
  refine ⟨Nat.succ_le_succ hsuffix.length_le, ?_⟩
  intro h
  have hall : before.rtakeWhile (· ≠ '\n') = before := hsuffix.eq_of_length (Nat.succ.inj h)
  rw [← hall]
  intro hmem
  simpa using List.mem_rtakeWhile_imp hmem

/-! ## Places -/

namespace Position

@[simp] theorem after_nil (p : Position) : p.after [] = p := rfl

theorem after_append (p : Position) (a b : List Char) : p.after (a ++ b) = (p.after a).after b :=
  List.foldl_append

/-- The place behind a text: its bytes, and what 32 bits hold of the numbers of its line and of its
column. -/
theorem after_start (cs : List Char) :
    start.after cs = ⟨byteLength cs, lineBehind cs, columnBehind cs⟩ := by
  induction cs using List.reverseRecOn with
  | nil => rfl
  | append_singleton cs c ih =>
    rw [after_append, ih]
    show next _ c = _
    by_cases hc : c = '\n'
    · -- a line feed begins a line
      subst hc
      simp [next, lineBehind_concat_lineFeed, columnBehind_concat_lineFeed, UInt32.ofNat_add]
    · simp [next, hc, lineBehind_concat hc, columnBehind_concat hc, UInt32.ofNat_add]

theorem offset_after_start (cs : List Char) : (start.after cs).offset = byteLength cs := by
  rw [after_start]

end Position

/-! ## Stretches -/

namespace Span

/-- The line and the column that a stretch of a text tells are the given ones. There is an exception
at the end of `2 ^ 32 - 1` characters: the line comes out as 0 behind as many line feeds, and the
column behind as many other characters. -/
structure Tells (place : Span) (source : List Char) (line column : Nat) : Prop where
  line : (place.line : Nat) = line ∨ place.line = 0 ∧ line = 2 ^ 32 ∧
    place.start = byteLength source ∧ source = List.replicate (2 ^ 32 - 1) '\n'
  column : (place.column : Nat) = column ∨ place.column = 0 ∧ column = 2 ^ 32 ∧
    place.start = byteLength source ∧ source.length = 2 ^ 32 - 1 ∧ '\n' ∉ source

/-- 32 bits hold the numbers below `2 ^ 32`, and 0 for the first that is too large. -/
theorem holds_or_goes_round {n : Nat} (h : n ≤ 2 ^ 32) :
    ((n : UInt32) : Nat) = n ∨ (n : UInt32) = 0 ∧ n = 2 ^ 32 := by
  rcases Nat.lt_or_eq_of_le h with hlt | rfl
  · exact .inl (UInt32.toNat_ofNat_of_lt hlt)
  · exact .inr ⟨rfl, rfl⟩

/-- In a text of fewer than `2 ^ 32` characters 32 bits hold the lines and the columns, but for the
exceptions. -/
theorem tells_of_length_lt {source before after : List Char} (hsource : source = before ++ after)
    (hlength : source.length < 2 ^ 32) (stop : Nat) :
    (⟨byteLength before, stop, lineBehind before, columnBehind before⟩ : Span).Tells source
      (lineBehind before) (columnBehind before) := by
  have hsum : source.length = before.length + after.length := by
    rw [hsource, List.length_append]
  obtain ⟨hline, hfeeds⟩ := lineBehind_le before
  obtain ⟨hcolumn, hnone⟩ := columnBehind_le before
  -- a number too large is that behind the whole text
  have hwhole : before.length = 2 ^ 32 - 1 → source = before := by
    intro hbefore
    have hafter : after = [] := List.length_eq_zero_iff.mp (by omega)
    rw [hsource, hafter, List.append_nil]
  constructor
  · rcases holds_or_goes_round (n := lineBehind before) (by omega) with hexact | ⟨hzero, heq⟩
    · exact .inl hexact
    · have hbefore : before.length = 2 ^ 32 - 1 := by omega
      refine .inr ⟨hzero, heq, by rw [hwhole hbefore], ?_⟩
      rw [hwhole hbefore, ← hbefore]
      exact hfeeds (by omega)
  · rcases holds_or_goes_round (n := columnBehind before) (by omega) with hexact | ⟨hzero, heq⟩
    · exact .inl hexact
    · have hbefore : before.length = 2 ^ 32 - 1 := by omega
      rw [hwhole hbefore]
      exact .inr ⟨hzero, heq, rfl, hbefore, hnone (by omega)⟩

theorem start_between (a b : List Char) :
    (between (Position.start.after a) (Position.start.after b)).start = byteLength a :=
  Position.offset_after_start a

theorem stop_between (a b : List Char) :
    (between (Position.start.after a) (Position.start.after b)).stop = byteLength b :=
  Position.offset_after_start b

/-- What is covered between the ends of two beginnings of a text. -/
theorem textIn_between (a b c : List Char) :
    (between (Position.start.after a) (Position.start.after (a ++ b))).textIn (a ++ (b ++ c)) =
      b := by
  rw [textIn, start_between, stop_between, slice_append]
  rfl

end Span

end GameCondition
