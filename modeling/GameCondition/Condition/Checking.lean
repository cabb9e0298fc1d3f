import GameCondition.Condition.Walk
import GameCondition.Diagnostic
import GameCondition.NameSet

/-! # Checking names

A condition may name elements, scenes and attributes that a game does not define. It still has a
meaning, so `KnownNames.warnings` only warns: once for each unknown name, in the order in which
they are met, at the leaf that names it. Names are known in any case.
-/

namespace GameCondition

/-- The names that a game defines. -/
structure KnownNames where
  elements : NameSet
  scenes : NameSet
  attributes : NameSet
  flags : NameSet
  states : NameSet
  deriving DecidableEq, Repr

/-- A check under way: where the node entered last stands, and the warnings so far. -/
structure CheckState where
  span : Span
  warnings : List Diagnostic
  deriving DecidableEq, Repr

namespace CheckState

/-- Adds a warning unless the name is known. -/
def warnUnless (s : CheckState) (known : Bool) (code : DiagnosticCode) (message : String) :
    CheckState :=
  if known then s else { s with warnings := s.warnings ++ [.warning code message s.span] }

/-- Warns of an unknown element. -/
def element (s : CheckState) (known : Bool) (id : String) : CheckState :=
  s.warnUnless known .unknownElement ("unknown element '" ++ id ++ "'")

/-- Warns of an unknown scene. -/
def scene (s : CheckState) (known : Bool) (name : String) : CheckState :=
  s.warnUnless known .unknownScene ("unknown scene '" ++ name ++ "'")

/-- Warns of an unknown attribute. -/
def attr (s : CheckState) (known : Bool) (name : String) : CheckState :=
  s.warnUnless known .unknownAttribute ("unknown attribute '" ++ name ++ "'")

end CheckState

namespace KnownNames

/-- Whether the operand of a relation may be so named: words for subjects, flags and states need
not be elements. -/
def acceptsOperand (k : KnownNames) (name : String) : Bool :=
  (SubjectKind.ofWord? name).isSome || k.flags.contains name || k.states.contains name
    || k.elements.contains name

/-- Checks the name in something met on a walk. A scene that is a subject may be any element. -/
def note (k : KnownNames) (s : CheckState) : Visit → CheckState
  | .enter node => { s with span := node.span }
  | .subject ⟨.scene, some id⟩ => s.scene (k.scenes.contains id || k.elements.contains id) id
  | .subject ⟨_, some id⟩ => s.element (k.elements.contains id) id
  | .operand (.element name) _ _ => s.element (k.acceptsOperand name) name
  | .attr name _ => s.attr (k.attributes.contains name) name
  | .scene name _ => s.scene (k.scenes.contains name) name
  | _ => s

/-- The warnings about a condition. -/
def warnings (k : KnownNames) (c : Condition) : List Diagnostic :=
  (c.walk.foldl k.note ⟨c.span, []⟩).warnings

end KnownNames

end GameCondition
