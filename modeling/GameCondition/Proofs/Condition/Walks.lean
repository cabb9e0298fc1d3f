import GameCondition.Condition.Walk
import Mathlib.Data.List.Perm.Basic

/-! # What a walk meets

A walk through a condition enters it, walks through its operands one after the other, and leaves it
again (`Condition.nested_walk`); so every node is entered once and left once, with the nodes inside
it in between. What is kept along a walk follows from that alone: a depth gauge is never taken below
zero, is back at the end where it began and has been as deep as the condition is high, and the
counts are those of the nodes (`Condition.walk_measures`).
-/

namespace GameCondition

namespace Condition

/-- What a condition is built from; a leaf is built from nothing. -/
def operands : Condition → List Condition
  | and l r _ => [l, r]
  | or l r _ => [l, r]
  | not c _ => [c]
  | _ => []

/-- All nodes of a condition, each before those inside it. -/
def nodes : Condition → List Condition
  | and l r s => and l r s :: (l.nodes ++ r.nodes)
  | or l r s => or l r s :: (l.nodes ++ r.nodes)
  | not c s => not c s :: c.nodes
  | relation r => [relation r]
  | visits v => [visits v]
  | distance d => [distance d]

/-- The nodes of a condition are itself and those of its operands. -/
theorem nodes_eq (c : Condition) : c.nodes = c :: c.operands.flatMap nodes := by
  cases c <;> simp [nodes, operands]

/-- A condition has as many nodes as its size. -/
theorem length_nodes (c : Condition) : c.nodes.length = c.size := by
  induction c with
  | and l r s ihl ihr =>
    rw [nodes, size, List.length_cons, List.length_append, ihl, ihr]
    omega
  | or l r s ihl ihr =>
    rw [nodes, size, List.length_cons, List.length_append, ihl, ihr]
    omega
  | not c s ih =>
    rw [nodes, size, List.length_cons, ih]
    omega
  | _ => rfl

end Condition

namespace Visit

/-- The node that is entered. -/
def entered? : Visit → Option Condition
  | enter node => some node
  | _ => none

/-- The node that is left. -/
def left? : Visit → Option Condition
  | leave node => some node
  | _ => none

/-- Whether a node is entered or left. -/
def isBoundary : Visit → Bool
  | enter _ | leave _ => true
  | _ => false

/-- The visit of a part neither enters nor leaves a condition. -/
theorem entered?_and_left?_eq_none {v : Visit} (h : v.isBoundary = false) :
    v.entered? = none ∧ v.left? = none := by
  cases v with
  | enter node => cases h
  | leave node => cases h
  | _ => exact ⟨rfl, rfl⟩

end Visit

/-! ## Nested pairs -/

/-- Visits that enter and leave some conditions, and no others, one after the other, and between
the two of each its operands in the same way. -/
inductive Nested : List Condition → List Visit → Prop where
  | nil : Nested [] []
  | part {cs : List Condition} {v : Visit} {vs : List Visit} :
      v.isBoundary = false → Nested cs vs → Nested cs (v :: vs)
  | node {c : Condition} {cs : List Condition} {inside after : List Visit} :
      Nested c.operands inside → Nested cs after →
      Nested (c :: cs) (.enter c :: (inside ++ .leave c :: after))

namespace Nested

variable {cs ds : List Condition} {vs ws : List Visit}

/-- Nested visits may follow one another. -/
theorem append (h : Nested cs vs) (h' : Nested ds ws) : Nested (cs ++ ds) (vs ++ ws) := by
  induction h with
  | nil => exact h'
  | part hv _ ih => exact .part hv ih
  | node hinside _ _ ih =>
    simp only [List.cons_append, List.append_assoc]
    exact .node hinside ih

/-- The visits of a condition's operands nest in its own. -/
theorem single {c : Condition} (h : Nested c.operands vs) :
    Nested [c] (.enter c :: (vs ++ [.leave c])) :=
  .node h .nil

/-- Visits of parts only nest nothing. -/
theorem of_parts (h : ∀ v ∈ vs, v.isBoundary = false) : Nested [] vs := by
  induction vs with
  | nil => exact .nil
  | cons v vs ih =>
    rw [List.forall_mem_cons] at h
    exact .part h.1 (ih h.2)

/-- Every node is entered, each before those inside it. -/
theorem entered_eq (h : Nested cs vs) :
    vs.filterMap Visit.entered? = cs.flatMap Condition.nodes := by
  induction h with
  | nil => rfl
  | part hv _ ih => rw [List.filterMap_cons_none (Visit.entered?_and_left?_eq_none hv).1, ih]
  | @node c cs inside after _ _ ihinside ih =>
    rw [List.flatMap_cons, Condition.nodes_eq, List.filterMap_cons, List.filterMap_append,
      List.filterMap_cons, ihinside, ih]
    rfl

/-- Every node is left, each after those inside it. -/
theorem left_perm (h : Nested cs vs) :
    (vs.filterMap Visit.left?).Perm (cs.flatMap Condition.nodes) := by
  induction h with
  | nil => exact .nil
  | part hv _ ih => rwa [List.filterMap_cons_none (Visit.entered?_and_left?_eq_none hv).2]
  | @node c cs inside after _ _ ihinside ih =>
    have hsplit : (Visit.enter c :: (inside ++ .leave c :: after)).filterMap Visit.left? =
        inside.filterMap Visit.left? ++ c :: after.filterMap Visit.left? := by
      rw [List.filterMap_cons, List.filterMap_append, List.filterMap_cons]
      rfl
    -- a node is left behind those inside it, and listed before them
    rw [hsplit, List.flatMap_cons, Condition.nodes_eq, List.cons_append]
    exact List.perm_middle.trans ((ihinside.append ih).cons c)

end Nested

namespace Condition

/-- A walk enters a condition, walks through its operands and leaves it. -/
theorem nested_walk (c : Condition) : Nested [c] c.walk := by
  induction c with
  | and l r s ihl ihr => exact .single (ihl.append ihr)
  | or l r s ihl ihr => exact .single (ihl.append ihr)
  | not c s ih => exact .single ih
  | relation r =>
    refine .single (.of_parts ?_)
    cases hattr : r.attr <;> simp [Relation.walk, hattr, Visit.isBoundary]
  | visits v => exact .single (.of_parts (by simp [Visit.isBoundary]))
  | distance d => exact .single (.of_parts (by simp [Visit.isBoundary]))

end Condition

/-! ## The depth of a walk -/

namespace DepthGauge

/-- Notes something met on a walk, unless that would take the gauge below zero. -/
def note? (g : DepthGauge) : Visit → Option DepthGauge
  | .leave node => if g.current = 0 then none else some (g.note (.leave node))
  | v => some (g.note v)

/-- The gauge does not move at a part. -/
theorem note?_part (g : DepthGauge) {v : Visit} (hv : v.isBoundary = false) :
    g.note? v = some g := by
  cases v with
  | enter node => cases hv
  | leave node => cases hv
  | _ => rfl

theorem note?_enter (g : DepthGauge) (c : Condition) :
    g.note? (.enter c) = some ⟨g.current + 1, max g.deepest (g.current + 1)⟩ := rfl

theorem note?_leave (level deepest : Nat) (c : Condition) :
    note? ⟨level + 1, deepest⟩ (.leave c) = some ⟨level, deepest⟩ := rfl

/-- Where the partial gauge does not fail, the gauge does the same. -/
theorem note_of_note? {g g' : DepthGauge} {v : Visit} (h : g.note? v = some g') :
    g.note v = g' := by
  cases v with
  | leave node =>
    rw [note?, Option.ite_none_left_eq_some] at h
    exact Option.some.inj h.2
  | _ => exact Option.some.inj h

/-- A gauge that is never taken below zero may as well not look out for it. -/
theorem foldl_note_of_foldlM {vs : List Visit} {g g' : DepthGauge}
    (h : vs.foldlM note? g = some g') : vs.foldl note g = g' := by
  induction vs generalizing g with
  | nil => exact Option.some.inj h
  | cons v vs ih =>
    rw [List.foldlM_cons, Option.bind_eq_bind, Option.bind_eq_some_iff] at h
    obtain ⟨g₁, hfirst, hrest⟩ := h
    rw [List.foldl_cons, note_of_note? hfirst, ih hrest]

end DepthGauge

/-- Below a level a condition is as deep as its operands one level further down, or just that. -/
theorem Condition.max_depth (c : Condition) (level deepest : Nat) :
    c.operands.foldl (fun m d => max m (level + 1 + d.depth)) (max deepest (level + 1)) =
      max deepest (level + c.depth) := by
  cases c <;> simp only [operands, depth, List.foldl_cons, List.foldl_nil] <;> omega

/-- Nested visits do not take a gauge below zero, and leave it on the level where it was. It has
then been as deep as the conditions are high. -/
theorem Nested.foldlM_note? {cs : List Condition} {vs : List Visit} (h : Nested cs vs)
    (g : DepthGauge) : vs.foldlM DepthGauge.note? g =
      some ⟨g.current, cs.foldl (fun m c => max m (g.current + c.depth)) g.deepest⟩ := by
  -- inside a node the gauge is one level deeper, so leaving it is always possible
  induction h generalizing g with
  | nil => rfl
  | part hv _ ih =>
    rw [List.foldlM_cons, g.note?_part hv, Option.bind_eq_bind, Option.bind_some, ih]
  | @node c cs inside after _ _ ihinside ih =>
    rw [List.foldlM_cons, g.note?_enter, Option.bind_eq_bind, Option.bind_some,
      List.foldlM_append, ihinside, Option.bind_eq_bind, Option.bind_some, List.foldlM_cons,
      DepthGauge.note?_leave, Option.bind_eq_bind, Option.bind_some, ih, c.max_depth,
      List.foldl_cons]

/-! ## The numbers of nodes -/

namespace NodeCounts

/-- The numbers of nodes of each kind in a list. -/
def ofNodes (cs : List Condition) : NodeCounts :=
  let number (tag : String) := cs.countP (·.tag == tag)
  ⟨number "AND", number "OR", number "NOT", number "RELATION", number "COUNT",
    number "DISTANCE"⟩

/-- The counts of two walks together. -/
instance : Add NodeCounts :=
  ⟨fun m n => ⟨m.ands + n.ands, m.ors + n.ors, m.nots + n.nots, m.relations + n.relations,
    m.visits + n.visits, m.distances + n.distances⟩⟩

theorem add_ofNodes_cons (n : NodeCounts) (c : Condition) (cs : List Condition) :
    n + ofNodes (c :: cs) = n.note (.enter c) + ofNodes cs := by
  show NodeCounts.mk _ _ _ _ _ _ = .mk _ _ _ _ _ _
  simp only [ofNodes, List.countP_cons]
  cases c <;> simp [Condition.tag, note, Nat.add_assoc, Nat.add_comm]

/-- A walk adds the nodes that it enters. -/
theorem foldl_note_eq (n : NodeCounts) (vs : List Visit) :
    vs.foldl note n = n + ofNodes (vs.filterMap Visit.entered?) := by
  induction vs generalizing n with
  | nil => rfl
  | cons v vs ih =>
    rw [List.foldl_cons, ih]
    cases v with
    | enter c => exact (n.add_ofNodes_cons c _).symm
    | _ => rfl

/-- Counts are added with their totals. -/
theorem total_add (m n : NodeCounts) : (m + n).total = m.total + n.total := by
  show NodeCounts.total (.mk _ _ _ _ _ _) = _
  simp only [total]
  omega

/-- Each condition entered is counted once. -/
theorem total_note_enter (n : NodeCounts) (c : Condition) :
    (n.note (.enter c)).total = n.total + 1 := by
  cases c <;> simp only [note, total] <;> omega

/-- Every node is of one of the kinds. -/
theorem total_ofNodes (cs : List Condition) : (ofNodes cs).total = cs.length := by
  induction cs with
  | nil => rfl
  | cons c cs ih =>
    have hadd := congrArg total (zero.add_ofNodes_cons c cs)
    rw [total_add, total_add, total_note_enter, ih] at hadd
    rw [List.length_cons]
    omega

end NodeCounts

namespace Condition

/-- A walk enters and leaves every node once, the operands of a node one after the other between
the two. A depth gauge is never taken below zero on it, comes back to the level where it began,
and has been as deep as the condition is high; and the counts are those of the nodes of each kind,
together as many as there are nodes. -/
theorem walk_measures (c : Condition) :
    (Nested [c] c.walk ∧ c.walk.filterMap Visit.entered? = c.nodes ∧
      (c.walk.filterMap Visit.left?).Perm c.nodes) ∧
    (∀ g : DepthGauge,
      c.walk.foldl DepthGauge.note g = ⟨g.current, max g.deepest (g.current + c.depth)⟩ ∧
        c.walk.foldlM DepthGauge.note? g = some (c.walk.foldl DepthGauge.note g)) ∧
    c.walkedDepth = c.depth ∧
    c.counts = .ofNodes c.nodes ∧ c.counts.total = c.size ∧ c.nodes.length = c.size := by
  have hnested := c.nested_walk
  have hentered : c.walk.filterMap Visit.entered? = c.nodes := by
    rw [hnested.entered_eq, List.flatMap_singleton]
  have hleft : (c.walk.filterMap Visit.left?).Perm c.nodes := by
    simpa using hnested.left_perm
  -- that the visits nest is enough for the gauge, from any state of it
  have hgauge : ∀ g : DepthGauge, c.walk.foldlM DepthGauge.note? g =
      some ⟨g.current, max g.deepest (g.current + c.depth)⟩ := hnested.foldlM_note?
  have hcounts : c.counts = .ofNodes c.nodes := by
    -- conditions are counted as they are entered
    rw [counts, NodeCounts.foldl_note_eq, hentered]
    show NodeCounts.mk _ _ _ _ _ _ = _
    simp [NodeCounts.zero, NodeCounts.ofNodes]
  refine ⟨⟨hnested, hentered, hleft⟩, ?_, ?_, hcounts, ?_, c.length_nodes⟩
  · intro g
    have hplain := DepthGauge.foldl_note_of_foldlM (hgauge g)
    exact ⟨hplain, hplain ▸ hgauge g⟩
  · rw [walkedDepth, DepthGauge.foldl_note_of_foldlM (hgauge .zero)]
    show max 0 (0 + c.depth) = c.depth
    omega
  · rw [hcounts, NodeCounts.total_ofNodes, c.length_nodes]

end Condition

end GameCondition
