import GameCondition.Condition.Basic
import GameCondition.Dict

/-! # Walking through a condition

A walk through a condition is the list of what is met on the way: every node when it is entered
and when it is left, and at the leaves their parts. What one wants to know of a condition is then a
fold over its walk: the names it refers to, its height, how many nodes of each kind it has.
-/

namespace GameCondition

/-- What is met on a walk. -/
inductive Visit where
  | enter (node : Condition)
  | leave (node : Condition)
  | relation (r : Relation)
  | visits (v : VisitCount)
  | distance (d : Distance)
  | subject (s : Subject)
  | attr (name : String) (span : Span)
  | operand (o : Operand) (comparison : Comparison) (span : Span)
  | scene (name : String) (span : Span)
  deriving DecidableEq, Repr

/-- The parts of a relation, the attribute between subject and operand. -/
def Relation.walk (r : Relation) : List Visit :=
  [.relation r, .subject r.subject]
    ++ (r.attr.map fun name => Visit.attr name r.span).toList
    ++ [.operand r.operand r.comparison r.span]

/-- What is met inside a condition, operands from left to right. -/
def Condition.walk (c : Condition) : List Visit :=
  .enter c :: (match c with
    | and l r _ => l.walk ++ r.walk
    | or l r _ => l.walk ++ r.walk
    | not inner _ => inner.walk
    | relation r => r.walk
    | visits v => [.visits v, .subject v.subject, .scene v.scene v.span]
    | distance d => [.distance d, .subject d.origin, .subject d.goal])
  ++ [.leave c]

/-! ## References -/

/-- The names that a condition refers to, each once and in ascending order. -/
structure References where
  elements : Dict Unit
  scenes : Dict Unit
  attributes : Dict Unit
  deriving DecidableEq, Repr

namespace References

/-- No names. -/
def none : References :=
  ⟨.empty, .empty, .empty⟩

/-- Notes the name in something met on a walk. Subjects with a fixed part name nothing, and an
operand names an element only beside `has` and `is_in`. -/
def note (refs : References) : Visit → References
  | .subject ⟨.scene, some id⟩ => { refs with scenes := refs.scenes.insert id () }
  | .subject ⟨_, some id⟩ => { refs with elements := refs.elements.insert id () }
  | .operand (.element id) comparison _ =>
    if (comparison = .has ∨ comparison = .isIn) ∧ SubjectKind.ofWord? id = Option.none then
      { refs with elements := refs.elements.insert id () }
    else refs
  | .attr name _ => { refs with attributes := refs.attributes.insert name () }
  | .scene name _ => { refs with scenes := refs.scenes.insert name () }
  | _ => refs

end References

/-- The names that a condition refers to. -/
def Condition.references (c : Condition) : References :=
  c.walk.foldl References.note .none

/-! ## Measures -/

/-- How deep a walk is and has been. -/
structure DepthGauge where
  current : Nat
  deepest : Nat
  deriving DecidableEq, Repr

namespace DepthGauge

/-- A gauge that has met nothing. -/
def zero : DepthGauge :=
  ⟨0, 0⟩

/-- Goes down a level with every node that is entered, and up again when it is left. -/
def note (g : DepthGauge) : Visit → DepthGauge
  | .enter _ => ⟨g.current + 1, max g.deepest (g.current + 1)⟩
  | .leave _ => ⟨g.current - 1, g.deepest⟩
  | _ => g

end DepthGauge

/-- The depth of the walk through a condition. -/
def Condition.walkedDepth (c : Condition) : Nat :=
  (c.walk.foldl DepthGauge.note .zero).deepest

/-- The numbers of nodes of each kind. -/
structure NodeCounts where
  ands : Nat
  ors : Nat
  nots : Nat
  relations : Nat
  visits : Nat
  distances : Nat
  deriving DecidableEq, Repr

namespace NodeCounts

/-- No nodes. -/
def zero : NodeCounts :=
  ⟨0, 0, 0, 0, 0, 0⟩

/-- Counts a node when it is entered. -/
def note (n : NodeCounts) : Visit → NodeCounts
  | .enter (.and ..) => { n with ands := n.ands + 1 }
  | .enter (.or ..) => { n with ors := n.ors + 1 }
  | .enter (.not ..) => { n with nots := n.nots + 1 }
  | .enter (.relation _) => { n with relations := n.relations + 1 }
  | .enter (.visits _) => { n with visits := n.visits + 1 }
  | .enter (.distance _) => { n with distances := n.distances + 1 }
  | _ => n

/-- The number of all nodes. -/
def total (n : NodeCounts) : Nat :=
  n.ands + n.ors + n.nots + n.relations + n.visits + n.distances

end NodeCounts

/-- The numbers of nodes met on the walk through a condition. -/
def Condition.counts (c : Condition) : NodeCounts :=
  c.walk.foldl NodeCounts.note .zero

end GameCondition
