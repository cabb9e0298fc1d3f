import GameCondition.Condition.Checking
import GameCondition.Proofs.Condition.Reprinting

/-! # What is warned of

The check of a condition carries a place along that is set anew with every node. At a leaf it is the
place of that leaf, so the warnings about a condition are those about its leaves one by one, in
their order and each at its leaf (`warnings_eq`). Of an item the check warns exactly where a leaf is
about it and its id is no known element's (`mem_warnings_item`).
-/

namespace GameCondition

/-- What a walk meets of a leaf itself; other nodes have nothing of their own. -/
def Condition.parts : Condition → List Visit
  | relation r => r.walk
  | visits v => [.visits v, .subject v.subject, .scene v.scene v.span]
  | distance d => [.distance d, .subject d.origin, .subject d.goal]
  | _ => []

/-- What a leaf is about. -/
def Condition.subjects : Condition → List Subject
  | relation r => [r.subject]
  | visits v => [v.subject]
  | distance d => [d.origin, d.goal]
  | _ => []

theorem Condition.mem_parts_of_mem_subjects {l : Condition} {s : Subject} (h : s ∈ l.subjects) :
    .subject s ∈ l.parts := by
  cases l <;> simp_all [subjects, parts, Relation.walk]

/-- The parts of a leaf are no nodes. -/
theorem Condition.ne_enter_of_mem_parts {l node : Condition} {v : Visit} (h : v ∈ l.parts) :
    v ≠ .enter node := by
  rintro rfl
  cases l <;> simp [parts, Relation.walk] at h

namespace KnownNames

variable (k : KnownNames)

/-! ## One step -/

/-- The warnings about something met at a place. -/
def warningsAt (span : Span) (v : Visit) : List Diagnostic :=
  (k.note ⟨span, []⟩ v).warnings

theorem warnUnless_eq (s : CheckState) (known : Bool) (code : DiagnosticCode) (message : String) :
    s.warnUnless known code message =
      ⟨s.span, s.warnings ++ (CheckState.warnUnless ⟨s.span, []⟩ known code message).warnings⟩ := by
  cases known <;> simp [CheckState.warnUnless]

/-- Whatever is met but a node leaves the place alone and adds its warnings. -/
theorem note_eq (s : CheckState) {v : Visit} (hv : ∀ node, v ≠ .enter node) :
    k.note s v = ⟨s.span, s.warnings ++ k.warningsAt s.span v⟩ := by
  unfold warningsAt note
  split
  · next node => exact absurd rfl (hv node)
  all_goals
    first
    | exact warnUnless_eq _ _ _ _
    | simp

theorem foldl_note_eq (s : CheckState) {vs : List Visit} (hvs : ∀ v ∈ vs, ∀ node, v ≠ .enter node) :
    vs.foldl k.note s = ⟨s.span, s.warnings ++ vs.flatMap (k.warningsAt s.span)⟩ := by
  induction vs generalizing s with
  | nil => simp
  | cons v vs ih =>
    rw [List.forall_mem_cons] at hvs
    rw [List.foldl_cons, note_eq k s hvs.1, ih _ hvs.2, List.flatMap_cons, List.append_assoc]

/-! ## The whole walk -/

/-- The warnings about a leaf, at its place. -/
def leafWarnings (l : Condition) : List Diagnostic :=
  l.parts.flatMap (k.warningsAt l.span)

/-- A node sets the place for what is met inside, and leaving it changes nothing. -/
theorem foldl_walk_node (s : CheckState) (c : Condition) {inside : List Visit}
    (hwalk : c.walk = .enter c :: (inside ++ [.leave c])) :
    c.walk.foldl k.note s = inside.foldl k.note ⟨c.span, s.warnings⟩ := by
  rw [hwalk, List.foldl_cons, List.foldl_append]
  rfl

theorem warnings_foldl_leaf (s : CheckState) {l : Condition}
    (hwalk : l.walk = .enter l :: (l.parts ++ [.leave l])) :
    (l.walk.foldl k.note s).warnings = s.warnings ++ k.leafWarnings l := by
  rw [foldl_walk_node k s l hwalk, foldl_note_eq k _ fun v hv node => l.ne_enter_of_mem_parts hv]
  rfl

/-- Wherever a walk begins, it adds the warnings about the leaves that it comes to. -/
theorem warnings_foldl_walk (c : Condition) (s : CheckState) :
    (c.walk.foldl k.note s).warnings = s.warnings ++ c.leaves.flatMap k.leafWarnings := by
  -- the place that a subtree leaves behind is of no account: the next node sets it anew
  induction c generalizing s with
  | and l r span ihl ihr =>
    rw [foldl_walk_node k s _ rfl, List.foldl_append, ihr, ihl, Condition.leaves,
      List.flatMap_append, List.append_assoc]
  | or l r span ihl ihr =>
    rw [foldl_walk_node k s _ rfl, List.foldl_append, ihr, ihl, Condition.leaves,
      List.flatMap_append, List.append_assoc]
  | not c span ih => rw [foldl_walk_node k s _ rfl, ih, Condition.leaves]
  | relation r =>
    rw [Condition.leaves.eq_def, List.flatMap_singleton]
    exact k.warnings_foldl_leaf s rfl
  | visits v =>
    rw [Condition.leaves.eq_def, List.flatMap_singleton]
    exact k.warnings_foldl_leaf s rfl
  | distance d =>
    rw [Condition.leaves.eq_def, List.flatMap_singleton]
    exact k.warnings_foldl_leaf s rfl

/-- The warnings about a condition are those about its leaves. -/
theorem warnings_eq (c : Condition) : k.warnings c = c.leaves.flatMap k.leafWarnings := by
  rw [warnings, warnings_foldl_walk, List.nil_append]

theorem mem_warnings_iff {c : Condition} {d : Diagnostic} : d ∈ k.warnings c ↔
    ∃ l ∈ c.leaves, ∃ v ∈ l.parts, d ∈ k.warningsAt l.span v := by
  simp only [warnings_eq, leafWarnings, List.mem_flatMap]

/-! ## Items -/

/-- The warning that an element is not known. -/
def unknownElement (id : String) (span : Span) : Diagnostic :=
  .warning .unknownElement ("unknown element '" ++ id ++ "'") span

theorem unknownElement_injective {id id' : String} {span span' : Span}
    (h : unknownElement id span = unknownElement id' span') : id = id' := by
  have hmessage := congrArg (fun d => d.message.toList) h
  simp only [unknownElement, Diagnostic.warning, String.toList_append] at hmessage
  exact String.toList_injective (List.append_cancel_left (List.append_cancel_right hmessage))

/-- What an element is warned of for is not known, be it met as a subject or as an operand. -/
theorem not_contains_of_mem_warningsAt {id : String} {span span' : Span} {v : Visit}
    (h : unknownElement id span ∈ k.warningsAt span' v) : k.elements.contains id = false := by
  have hcode : ∀ {known code message}, unknownElement id span ∈
      (CheckState.warnUnless ⟨span', []⟩ known code message).warnings →
      known = false ∧ unknownElement id span = .warning code message span' := by
    intro known code message hmem
    cases known <;> simp_all [CheckState.warnUnless]
  unfold warningsAt note at h
  split at h
  · cases h
  · cases (hcode h).2
  · rcases hcode h with ⟨hunknown, hsame⟩
    rwa [unknownElement_injective hsame]
  · rcases hcode h with ⟨hunknown, hsame⟩
    -- an operand that is refused is no element either
    rw [acceptsOperand, Bool.or_eq_false_iff] at hunknown
    rw [unknownElement_injective hsame]
    exact hunknown.2
  · cases (hcode h).2
  · cases (hcode h).2
  · cases h

/-- Of an item that a leaf is about the check warns at the leaf exactly if its id is not known. -/
theorem mem_warnings_item {c l : Condition} (hl : l ∈ c.leaves) {id : String}
    (hid : .item id ∈ l.subjects) :
    unknownElement id l.span ∈ k.warnings c ↔ k.elements.contains id = false := by
  rw [mem_warnings_iff]
  constructor
  · rintro ⟨l', -, v, -, hwarned⟩
    exact k.not_contains_of_mem_warningsAt hwarned
  · intro hunknown
    refine ⟨l, hl, .subject (.item id), Condition.mem_parts_of_mem_subjects hid, ?_⟩
    simp [warningsAt, note, Subject.item, CheckState.element, CheckState.warnUnless, hunknown,
      unknownElement]

end KnownNames

end GameCondition
