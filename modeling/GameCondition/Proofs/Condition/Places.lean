import GameCondition.Proofs.Condition.Readings
import GameCondition.Proofs.Token.Excerpts

/-! # Places of conditions

Every part of a condition that was read has its own piece of the text, which holds the pieces of its
parts one behind the other (`IsPlacedIn`). So the pieces of the leaves are apart and in their order
(`IsPlacedIn.leaves_ordered`). The piece of a leaf has just the terminals of the phrase that was read
there, and is read as the same leaf again: what stood around it did not matter (`read_places`).
-/

namespace GameCondition

/-! ## Stretches of a text -/

namespace Span

/-- A stretch covers a piece of a text that is not empty, and has the line and the column where it
begins. -/
def LiesIn (s : Span) (source : List Char) : Prop :=
  ∃ before piece after, source = before ++ (piece ++ after) ∧ piece ≠ [] ∧
    s = .between (Position.start.after before) (Position.start.after (before ++ piece))

/-- One stretch is part of another. -/
structure Contains (outer inner : Span) : Prop where
  start_le : outer.start ≤ inner.start
  stop_le : inner.stop ≤ outer.stop

variable {a b d : Span} {source : List Char}

theorem Contains.refl (a : Span) : a.Contains a :=
  ⟨Nat.le_refl _, Nat.le_refl _⟩

theorem Contains.trans (hab : a.Contains b) (hbd : b.Contains d) : a.Contains d :=
  ⟨hab.start_le.trans hbd.start_le, hbd.stop_le.trans hab.stop_le⟩

/-- What lies in a text takes some of it. -/
theorem LiesIn.start_lt_stop (h : a.LiesIn source) : a.start < a.stop := by
  obtain ⟨before, piece, after, -, hpiece, rfl⟩ := h
  have hpos := byteLength_pos hpiece
  rw [start_between, stop_between, byteLength_append]
  omega

/-- Of two beginnings of a text the one with fewer bytes is a beginning of the other. -/
theorem exists_append_of_byteLength_le {x y x' y' : List Char} (h : x ++ y = x' ++ y')
    (hle : byteLength x ≤ byteLength x') : ∃ m, x' = x ++ m ∧ y = m ++ y' := by
  rcases List.append_eq_append_iff.mp h with ⟨m, hx', hy⟩ | ⟨m, hx, hy'⟩
  · exact ⟨m, hx', hy⟩
  · -- the other way round nothing is between them
    have hm : m = [] := by
      by_contra hne
      have hpos := byteLength_pos hne
      rw [hx, byteLength_append] at hle
      omega
    subst hm
    exact ⟨[], by rw [hx, List.append_nil, List.append_nil], hy'.symm⟩

/-- From one piece to a later one the text is a piece. -/
theorem LiesIn.through (ha : a.LiesIn source) (hb : b.LiesIn source) (hle : a.stop ≤ b.start) :
    (a.through b).LiesIn source := by
  obtain ⟨x, p, y, hsource, hp, rfl⟩ := ha
  obtain ⟨x', p', y', hsource', hp', rfl⟩ := hb
  rw [stop_between, start_between] at hle
  have hwhole : (x ++ p) ++ y = x' ++ (p' ++ y') := by
    rw [List.append_assoc, ← hsource, hsource']
  obtain ⟨m, rfl, rfl⟩ := exists_append_of_byteLength_le hwhole hle
  refine ⟨x, p ++ (m ++ p'), y', ?_, ?_, ?_⟩
  · rw [hsource]
    simp only [List.append_assoc]
  · exact List.append_ne_nil_of_left_ne_nil hp _
  · rw [← List.append_assoc x, ← List.append_assoc (x ++ p)]
    rfl

/-- Two spans in order are contained in the one from the first through the second. -/
theorem contains_through (ha : a.start < a.stop) (hb : b.start < b.stop)
    (hle : a.stop ≤ b.start) : (a.through b).Contains a ∧ (a.through b).Contains b := by
  constructor
  · exact ⟨Nat.le_refl _, by show a.stop ≤ b.stop; omega⟩
  · exact ⟨by show a.start ≤ b.start; omega, Nat.le_refl _⟩

end Span

/-! ## Placed conditions -/

namespace Condition

/-- Every part of a condition has its piece of a text, in which its own parts have theirs, one
behind the other. -/
def IsPlacedIn (source : List Char) : Condition → Prop
  | and l r s => s.LiesIn source ∧ s.Contains l.span ∧ s.Contains r.span ∧
      l.span.stop ≤ r.span.start ∧ l.IsPlacedIn source ∧ r.IsPlacedIn source
  | or l r s => s.LiesIn source ∧ s.Contains l.span ∧ s.Contains r.span ∧
      l.span.stop ≤ r.span.start ∧ l.IsPlacedIn source ∧ r.IsPlacedIn source
  | not c s => s.LiesIn source ∧ s.Contains c.span ∧ c.IsPlacedIn source
  | leaf => leaf.span.LiesIn source

namespace IsPlacedIn

variable {source : List Char} {c l r : Condition}

/-- A placed condition lies in its source. -/
theorem liesIn (h : c.IsPlacedIn source) : c.span.LiesIn source := by
  cases c with
  | and l r s => exact h.1
  | or l r s => exact h.1
  | not c s => exact h.1
  | _ => exact h

/-- Two conditions that stand one behind the other may be joined. -/
theorem join (hl : l.IsPlacedIn source) (hr : r.IsPlacedIn source)
    (hle : l.span.stop ≤ r.span.start) :
    (both l r).IsPlacedIn source ∧ (either l r).IsPlacedIn source := by
  have hspan := hl.liesIn.through hr.liesIn hle
  obtain ⟨hleft, hright⟩ := Span.contains_through hl.liesIn.start_lt_stop
    hr.liesIn.start_lt_stop hle
  exact ⟨⟨hspan, hleft, hright, hle, hl, hr⟩, ⟨hspan, hleft, hright, hle, hl, hr⟩⟩

/-- The leaves of a condition are inside of it. -/
theorem contains_leaf (h : c.IsPlacedIn source) : ∀ leaf ∈ c.leaves, c.span.Contains leaf.span := by
  induction c with
  | and l r s ihl ihr =>
    obtain ⟨-, hleft, hright, -, hl, hr⟩ := h
    intro leaf hleaf
    rcases List.mem_append.mp hleaf with hleaf | hleaf
    · exact hleft.trans (ihl hl leaf hleaf)
    · exact hright.trans (ihr hr leaf hleaf)
  | or l r s ihl ihr =>
    obtain ⟨-, hleft, hright, -, hl, hr⟩ := h
    intro leaf hleaf
    rcases List.mem_append.mp hleaf with hleaf | hleaf
    · exact hleft.trans (ihl hl leaf hleaf)
    · exact hright.trans (ihr hr leaf hleaf)
  | not c s ih =>
    intro leaf hleaf
    exact h.2.1.trans (ih h.2.2 leaf hleaf)
  | _ =>
    intro leaf hleaf
    obtain rfl := List.mem_singleton.mp hleaf
    exact .refl _

/-- The leaves of two operands in order are in order. -/
theorem leaves_ordered_append (hl : l.IsPlacedIn source) (hr : r.IsPlacedIn source)
    (hle : l.span.stop ≤ r.span.start)
    (hleft : l.leaves.Pairwise fun a b => a.span.stop ≤ b.span.start)
    (hright : r.leaves.Pairwise fun a b => a.span.stop ≤ b.span.start) :
    (l.leaves ++ r.leaves).Pairwise fun a b => a.span.stop ≤ b.span.start := by
  refine List.pairwise_append.mpr ⟨hleft, hright, ?_⟩
  intro a ha b hb
  have hstop := (hl.contains_leaf a ha).stop_le
  have hstart := (hr.contains_leaf b hb).start_le
  omega

/-- The leaves of a condition are apart and in their order. -/
theorem leaves_ordered (h : c.IsPlacedIn source) :
    c.leaves.Pairwise fun a b => a.span.stop ≤ b.span.start := by
  induction c with
  | and l r s ihl ihr =>
    obtain ⟨-, -, -, hle, hl, hr⟩ := h
    exact leaves_ordered_append hl hr hle (ihl hl) (ihr hr)
  | or l r s ihl ihr =>
    obtain ⟨-, -, -, hle, hl, hr⟩ := h
    exact leaves_ordered_append hl hr hle (ihl hl) (ihr hr)
  | not c s ih => exact ih h.2.2
  | _ => exact List.pairwise_singleton _ _

end IsPlacedIn

end Condition

/-! ## Streams in a text -/

/-- A stream stands somewhere among the tokens of a text. -/
structure Stream.IsIn (source : List Char) (s : Stream) : Prop where
  closed : s.Closed
  tokens : ∃ init, tokenize source = init ++ s.tokens

namespace Stream

variable {source : List Char} {s s' : Stream} {us : List Token}

/-- The stream of a source is in it. -/
theorem isIn_ofText (source : List Char) : (ofText source).IsIn source :=
  ⟨closed_ofText source, [], (tokens_ofText source).symm⟩

namespace IsIn

/-- What a stream leaves of a source is in it. -/
theorem passed (h : s.IsIn source) (hs' : s'.Closed) (htokens : s.tokens = us ++ s'.tokens) :
    s'.IsIn source := by
  obtain ⟨init, hinit⟩ := h.tokens
  exact ⟨hs', init ++ us, by rw [hinit, htokens, List.append_assoc]⟩

/-- Tokens that were passed end before the next one begins. -/
theorem stop_le (h : s.IsIn source) (htokens : s.tokens = us ++ s'.tokens) :
    ∀ t ∈ us, t.span.stop ≤ s'.current.span.start := by
  obtain ⟨init, hinit⟩ := h.tokens
  have hordered := (tiles_tokenize source).ordered
  rw [hinit, htokens, List.pairwise_append] at hordered
  have hpassed := List.pairwise_append.mp hordered.2.1
  intro t ht
  exact hpassed.2.2 t ht s'.current List.mem_cons_self

/-- Tokens that were passed have a piece of the text with their terminals and no others. -/
theorem exists_piece (h : s.IsIn source) (htokens : s.tokens = s.current :: us ++ s'.tokens) :
    ∃ before piece after, source = before ++ (piece ++ after) ∧ piece ≠ [] ∧
      s.current.span.through ((s.current :: us).getLast (List.cons_ne_nil _ us)).span =
        .between (Position.start.after before) (Position.start.after (before ++ piece)) ∧
      terminals piece = (s.current :: us).map Token.terminal ++ [.last] := by
  obtain ⟨init, hinit⟩ := h.tokens
  rw [htokens] at hinit
  obtain ⟨before, piece, after, hsource, hspan, hterminals⟩ :=
    exists_excerpt hinit (List.cons_ne_nil _ _)
  refine ⟨before, piece, after, hsource, ?_, hspan, hterminals⟩
  rintro rfl
  simp at hterminals

/-- A token that is not the last lies in the source. -/
theorem liesIn (h : s.IsIn source) (hlater : s.later ≠ []) : s.current.span.LiesIn source := by
  obtain ⟨before, piece, after, hsource, hpiece, hspan, -⟩ :=
    h.exists_piece (tokens_advance hlater)
  exact ⟨before, piece, after, hsource, hpiece, hspan⟩

theorem advance (h : s.IsIn source) (hlater : s.later ≠ []) : s.advance.IsIn source :=
  h.passed h.closed.advance (tokens_advance hlater)

/-- A token ends before the next one starts. -/
theorem stop_le_advance (h : s.IsIn source) (hlater : s.later ≠ []) :
    s.current.span.stop ≤ s.advance.current.span.start :=
  h.stop_le (tokens_advance hlater) _ List.mem_cons_self

end IsIn

end Stream

namespace Condition

open Grammar

/-! ## Leaves -/

/-- What means the leaf of a phrase has no leaf but itself. -/
theorem leaves_of_phrase {c : Condition} {p : Phrase} (h : c.unplaced = p.leaf) :
    c.leaves = [c] := by
  cases c with
  | and l r s => cases p <;> cases h
  | or l r s => cases p <;> cases h
  | not c s => cases p <;> cases h
  | _ => rfl

/-- A phrase is placed when its whole text lies in the source. -/
theorem isPlacedIn_of_phrase {source : List Char} {c : Condition} {p : Phrase}
    (h : c.unplaced = p.leaf) (hspan : c.span.LiesIn source) : c.IsPlacedIn source := by
  cases c with
  | and l r s => cases p <;> cases h
  | or l r s => cases p <;> cases h
  | not c s => cases p <;> cases h
  | _ => exact hspan

/-- A text of a phrase and nothing else is read as its leaf under any limit. -/
theorem read_phrase (limit : Nat) {cs : List Char} {p : Phrase}
    (h : terminals cs = p.terminals ++ [.last]) :
    ∃ c, read limit (String.ofList cs) = .ok c ∧ c.unplaced = p.leaf := by
  refine read_iff.mpr ⟨.or (.and (.phrase p) .andEnd) .orEnd, ?_, rfl, Nat.zero_le limit⟩
  rw [String.toList_ofList, h]
  simp [Derivation.terminals]

/-- A leaf is read again from the piece of the text that it was read from. -/
theorem read_textIn_of_readRelation {source : List Char} {s s' : Stream} {leaf : Condition}
    (hs : s.IsIn source) (h : readRelation s = .ok (leaf, s')) (limit : Nat) :
    ∃ leaf', read limit (String.ofList (leaf.span.textIn source)) = .ok leaf' ∧
      leaf'.unplaced = leaf.unplaced := by
  obtain ⟨p, us, hleaf, -, htokens, hphrase, hspan⟩ := exists_tokens_of_readRelation hs.closed h
  obtain ⟨before, piece, after, hsource, -, hbetween, hterminals⟩ := hs.exists_piece htokens
  rw [hphrase] at hterminals
  have htext : leaf.span.textIn source = piece := by
    rw [hspan, hbetween, hsource, Span.textIn_between]
  rw [htext, hleaf]
  exact read_phrase limit hterminals

/-! ## Expressions -/

/-- A condition has its place in a text, from the current token of one stream on and not beyond that
of another, and each of its leaves was read there. -/
structure StandsBetween (source : List Char) (s : Stream) (c : Condition) (s' : Stream) : Prop where
  stream : s'.IsIn source
  placed : c.IsPlacedIn source
  start_le : s.current.span.start ≤ c.span.start
  le_stop : c.span.stop ≤ s'.current.span.start
  leaves : ∀ leaf ∈ c.leaves, ∃ s₁ s₂, s₁.IsIn source ∧ readRelation s₁ = .ok (leaf, s₂)

/-- A relation that was read stands between the streams around it. -/
theorem standsBetween_of_readRelation {source : List Char} {s s' : Stream} {c : Condition}
    (hs : s.IsIn source) (h : readRelation s = .ok (c, s')) : StandsBetween source s c s' := by
  obtain ⟨p, us, hleaf, hs', htokens, -, hspan⟩ := exists_tokens_of_readRelation hs.closed h
  obtain ⟨before, piece, after, hsource, hpiece, hbetween, -⟩ := hs.exists_piece htokens
  constructor
  · exact hs.passed hs' htokens
  · exact isPlacedIn_of_phrase hleaf ⟨before, piece, after, hsource, hpiece, hspan.trans hbetween⟩
  · rw [hspan]
    exact Nat.le_refl _
  · rw [hspan]
    exact hs.stop_le htokens _ (List.getLast_mem _)
  · intro leaf hmem
    rw [leaves_of_phrase hleaf] at hmem
    obtain rfl := List.mem_singleton.mp hmem
    exact ⟨s, s', hs, h⟩

/-- An operator stands between its operands. -/
theorem StandsBetween.join {source : List Char} {s s₁ s' : Stream} {l r : Condition}
    (hl : StandsBetween source s l s₁) (hend : s₁.kind ≠ .endOfInput)
    (hr : StandsBetween source s₁.advance r s') :
    StandsBetween source s (both l r) s' ∧ StandsBetween source s (either l r) s' := by
  have hlater := hl.stream.closed.later_ne_nil hend
  have hoperator := (hl.stream.liesIn hlater).start_lt_stop
  have hnext := hl.stream.stop_le_advance hlater
  have hle : l.span.stop ≤ r.span.start := by
    have := hl.le_stop
    have := hr.start_le
    omega
  obtain ⟨hboth, heither⟩ := hl.placed.join hr.placed hle
  have hleaves : ∀ leaf ∈ l.leaves ++ r.leaves,
      ∃ s₁ s₂, s₁.IsIn source ∧ readRelation s₁ = .ok (leaf, s₂) := by
    intro leaf hleaf
    rcases List.mem_append.mp hleaf with hleaf | hleaf
    · exact hl.leaves leaf hleaf
    · exact hr.leaves leaf hleaf
  exact ⟨⟨hr.stream, hboth, hl.start_le, hr.le_stop, hleaves⟩,
    ⟨hr.stream, heither, hl.start_le, hr.le_stop, hleaves⟩⟩

/-- A condition that was read stands between the streams around it. -/
theorem Reading.standsBetween {source : List Char} {s s' : Stream} {c : Condition}
    (h : Reading s c s') (hs : s.IsIn source) : StandsBetween source s c s' := by
  induction h with
  | leaf hread => exact standsBetween_of_readRelation hs hread
  | @not s s' c hkind _ ih =>
    have hlater := hs.closed.later_ne_nil (by simp [hkind])
    have hword := hs.liesIn hlater
    have hinner := ih (hs.advance hlater)
    have hle : s.current.span.stop ≤ c.span.start :=
      (hs.stop_le_advance hlater).trans hinner.start_le
    have hlies := hinner.placed.liesIn
    have hcontains := (Span.contains_through hword.start_lt_stop hlies.start_lt_stop hle).2
    exact ⟨hinner.stream, ⟨hword.through hlies hle, hcontains, hinner.placed⟩, Nat.le_refl _,
      hinner.le_stop, hinner.leaves⟩
  | @group s s' c hkind _ hclose ih =>
    have hlater := hs.closed.later_ne_nil (by simp [hkind])
    have hinner := ih (hs.advance hlater)
    have hlater' := hinner.stream.closed.later_ne_nil (by simp [hclose])
    -- the parentheses are around the place and no part of it
    refine ⟨hinner.stream.advance hlater', hinner.placed, ?_, ?_, hinner.leaves⟩
    · have hopen := (hs.liesIn hlater).start_lt_stop
      have hnext := hs.stop_le_advance hlater
      have hstart := hinner.start_le
      omega
    · have hclosed := (hinner.stream.liesIn hlater').start_lt_stop
      have hnext := hinner.stream.stop_le_advance hlater'
      have hstop := hinner.le_stop
      omega
  | @both s s₁ s' l r _ hkind _ ihl ihr =>
    have hl := ihl hs
    have hend : s₁.kind ≠ .endOfInput := by simp [hkind]
    exact (hl.join hend (ihr (hl.stream.advance (hl.stream.closed.later_ne_nil hend)))).1
  | @either s s₁ s' l r _ hkind _ ihl ihr =>
    have hl := ihl hs
    have hend : s₁.kind ≠ .endOfInput := by simp [hkind]
    exact (hl.join hend (ihr (hl.stream.advance (hl.stream.closed.later_ne_nil hend)))).2

/-- All parts of a condition that was read have their places in the text; those of the leaves are
apart and in order, and from the text at its place each leaf is read again. -/
theorem read_places {limit : Nat} {source : String} {c : Condition}
    (h : read limit source = .ok c) :
    c.IsPlacedIn source.toList ∧
    (c.leaves.Pairwise fun a b => a.span.stop ≤ b.span.start) ∧
    ∀ leaf ∈ c.leaves, ∀ limit', ∃ leaf',
      read limit' (String.ofList (leaf.span.textIn source.toList)) = .ok leaf' ∧
      leaf'.unplaced = leaf.unplaced := by
  obtain ⟨s', hreading, -⟩ := Reading.of_readAll (read_eq_ok_iff.mp h)
  have hstands := hreading.standsBetween (Stream.isIn_ofText source.toList)
  refine ⟨hstands.placed, hstands.placed.leaves_ordered, ?_⟩
  intro leaf hleaf limit'
  obtain ⟨s₁, s₂, hs₁, hread⟩ := hstands.leaves leaf hleaf
  exact read_textIn_of_readRelation hs₁ hread limit'

/-- That something holds something else, or a third thing is no door. -/
def holdsOrNoDoor : Condition :=
  .or (.relation ⟨.item "a", .has, .element "b", none, none, ⟨1, 8, 1, 2⟩⟩)
    (.not (.relation ⟨.item "é", .is, .element "door", none, none, ⟨17, 32, 2, 5⟩⟩) ⟨13, 32, 2, 1⟩)
    ⟨1, 32, 1, 2⟩

set_option maxRecDepth 2000 in
/-- The places of a disjunction over two lines, with a letter of two bytes. -/
theorem read_places_holdsOrNoDoor :
    read 64 "(a has b) or\nnot é is item door" = .ok holdsOrNoDoor ∧
    holdsOrNoDoor.IsPlacedIn "(a has b) or\nnot é is item door".toList ∧
    ∃ leaf, read 0 "é is item door" = .ok leaf ∧
      leaf.unplaced = .relation ⟨.item "é", .is, .element "door", none, none, .atStart⟩ := by
  have hread : read 64 "(a has b) or\nnot é is item door" = .ok holdsOrNoDoor := by decide +kernel
  obtain ⟨hplaced, -, hagain⟩ := read_places hread
  have htext : String.ofList (Span.textIn ⟨17, 32, 2, 5⟩
      "(a has b) or\nnot é is item door".toList) = "é is item door" := by decide
  obtain ⟨leaf, hleaf, hsame⟩ := hagain
    (.relation ⟨.item "é", .is, .element "door", none, none, ⟨17, 32, 2, 5⟩⟩)
    (List.mem_cons_of_mem _ List.mem_cons_self) 0
  rw [span, htext] at hleaf
  exact ⟨hread, hplaced, leaf, hleaf, hsame⟩

end Condition

end GameCondition
