import GameCondition.Proofs.Condition.Warnings
import GameCondition.Proofs.Vocabulary.Table
import Mathlib.Data.List.Flatten

/-! # What a condition mentions

A leaf mentions the elements that it is about, an attribute, an operand or a scene, each by a name.
The check of a condition warns of what is mentioned by a name that is not known, leaf by leaf, in
the order of the mentions and at the leaf (`KnownNames.leafWarnings_eq`). So the warnings about a
condition are those about its parts one after the other, and where more names are known there are
fewer of them, in the same order (`KnownNames.warnings_compose`).
-/

namespace GameCondition

/-- Something that is mentioned by a name. -/
inductive Mention where
  /-- What a leaf is about. -/
  | element (id : String)
  /-- A scene that a leaf is about, which may be any element. -/
  | place (id : String)
  | attr (name : String)
  /-- An operand, which may be a word for a subject, a flag or a state. -/
  | operand (name : String)
  /-- A scene that is visited. -/
  | scene (name : String)
  deriving DecidableEq, Repr

namespace Mention

/-- What a warning about a mention is about. -/
def code : Mention → DiagnosticCode
  | element _ | operand _ => .unknownElement
  | place _ | scene _ => .unknownScene
  | attr _ => .unknownAttribute

/-- What a warning about a mention says. -/
def message : Mention → String
  | element name | operand name => "unknown element '" ++ name ++ "'"
  | place name | scene name => "unknown scene '" ++ name ++ "'"
  | attr name => "unknown attribute '" ++ name ++ "'"

/-- The warning that the name in a mention is not known. -/
def warning (m : Mention) (span : Span) : Diagnostic :=
  .warning m.code m.message span

end Mention

/-- What a subject mentions; only those with an id have a name. -/
def Subject.mentions (s : Subject) : List Mention :=
  s.id.toList.map (if s.kind = .scene then .place else .element)

/-- What an operand mentions; a literal has no name. -/
def Operand.mentions : Operand → List Mention
  | .element name => [.operand name]
  | _ => []

/-- What a leaf mentions; other nodes mention nothing of their own. -/
def Condition.mentions : Condition → List Mention
  | relation r => r.subject.mentions ++ r.attr.toList.map .attr ++ r.operand.mentions
  | visits v => v.subject.mentions ++ [.scene v.scene]
  | distance d => d.origin.mentions ++ d.goal.mentions
  | _ => []

/-! ## More names -/

namespace NameSet

/-- A set is part of another if the other has all its names. -/
instance : HasSubset NameSet :=
  ⟨fun s t => ∀ name, s.contains name = true → t.contains name = true⟩

theorem ofList_subset {xs ys : List String} (h : xs ⊆ ys) : ofList xs ⊆ ofList ys := by
  intro name hname
  obtain ⟨n, hn, hsame⟩ := contains_ofList.mp hname
  exact contains_ofList.mpr ⟨n, h hn, hsame⟩

end NameSet

namespace KnownNames

/-- Whether all names that are known are known elsewhere as well. -/
structure IsWithin (k k' : KnownNames) : Prop where
  elements : k.elements ⊆ k'.elements
  scenes : k.scenes ⊆ k'.scenes
  attributes : k.attributes ⊆ k'.attributes
  flags : k.flags ⊆ k'.flags
  states : k.states ⊆ k'.states

/-- Whether the name in a mention is known. -/
def knows (k : KnownNames) : Mention → Bool
  | .element id => k.elements.contains id
  | .place id => k.scenes.contains id || k.elements.contains id
  | .attr name => k.attributes.contains name
  | .operand name => k.acceptsOperand name
  | .scene name => k.scenes.contains name

theorem IsWithin.knows {k k' : KnownNames} (h : k.IsWithin k') {m : Mention}
    (hm : k.knows m = true) : k'.knows m = true := by
  cases m with
  | element id => exact h.elements id hm
  | attr name => exact h.attributes name hm
  | scene name => exact h.scenes name hm
  | place id =>
    rw [KnownNames.knows, Bool.or_eq_true] at hm ⊢
    exact hm.imp (h.scenes id) (h.elements id)
  | operand name =>
    -- a word for a subject is accepted whatever names are known
    simp only [KnownNames.knows, acceptsOperand, Bool.or_eq_true] at hm ⊢
    exact hm.imp (Or.imp (Or.imp_right (h.flags name)) (h.states name)) (h.elements name)

variable (k : KnownNames)

/-! ## The warnings about a leaf -/

/-- The warnings about those of some mentions that are not known, at a place. -/
def warningsOf (span : Span) (ms : List Mention) : List Diagnostic :=
  (ms.filter fun m => !k.knows m).map (·.warning span)

theorem warningsOf_append (span : Span) (ms ms' : List Mention) :
    k.warningsOf span (ms ++ ms') = k.warningsOf span ms ++ k.warningsOf span ms' := by
  simp [warningsOf]

theorem warnings_warnUnless (span : Span) (m : Mention) :
    (CheckState.warnUnless ⟨span, []⟩ (k.knows m) m.code m.message).warnings =
      k.warningsOf span [m] := by
  cases hknown : k.knows m <;> simp [CheckState.warnUnless, warningsOf, hknown, Mention.warning]

theorem warningsAt_subject (span : Span) (s : Subject) :
    k.warningsAt span (.subject s) = k.warningsOf span s.mentions := by
  obtain ⟨kind, id⟩ := s
  cases id with
  | none => cases kind <;> rfl
  | some id =>
    cases kind with
    | scene => exact k.warnings_warnUnless span (.place id)
    | _ => exact k.warnings_warnUnless span (.element id)

theorem warningsAt_operand (span : Span) (o : Operand) (c : Comparison) (s : Span) :
    k.warningsAt span (.operand o c s) = k.warningsOf span o.mentions := by
  cases o with
  | element name => exact k.warnings_warnUnless span (.operand name)
  | _ => rfl

theorem warningsAt_attr (span : Span) (name : String) (s : Span) :
    k.warningsAt span (.attr name s) = k.warningsOf span [.attr name] :=
  k.warnings_warnUnless span (.attr name)

theorem warningsAt_scene (span : Span) (name : String) (s : Span) :
    k.warningsAt span (.scene name s) = k.warningsOf span [.scene name] :=
  k.warnings_warnUnless span (.scene name)

/-- The warnings about a leaf are about what it mentions. -/
theorem leafWarnings_eq (l : Condition) :
    k.leafWarnings l = k.warningsOf l.span l.mentions := by
  have hrelation : ∀ span r, k.warningsAt span (.relation r) = [] := fun _ _ => rfl
  have hvisits : ∀ span v, k.warningsAt span (.visits v) = [] := fun _ _ => rfl
  have hdistance : ∀ span d, k.warningsAt span (.distance d) = [] := fun _ _ => rfl
  unfold leafWarnings
  cases l with
  | and l r s => rfl
  | or l r s => rfl
  | not c s => rfl
  | relation r =>
    cases hattr : r.attr <;>
      simp [Condition.parts, Condition.mentions, Relation.walk, hattr, hrelation,
        warningsAt_subject, warningsAt_attr, warningsAt_operand, ← warningsOf_append]
  | visits v =>
    simp [Condition.parts, Condition.mentions, hvisits, warningsAt_subject, warningsAt_scene,
      warningsOf_append]
  | distance d =>
    simp [Condition.parts, Condition.mentions, hdistance, warningsAt_subject, warningsOf_append]

theorem mem_warnings_iff_mention {c : Condition} {d : Diagnostic} : d ∈ k.warnings c ↔
    ∃ l ∈ c.leaves, ∃ m ∈ l.mentions, k.knows m = false ∧ d = m.warning l.span := by
  simp only [warnings_eq, List.mem_flatMap, leafWarnings_eq, warningsOf, List.mem_map,
    List.mem_filter, Bool.not_eq_true', and_assoc, eq_comm (a := d)]

/-- Where more names are known, there are fewer warnings about the same mentions. -/
theorem IsWithin.warningsOf_sublist {k k' : KnownNames} (h : k.IsWithin k') (span : Span)
    (ms : List Mention) : (k'.warningsOf span ms).Sublist (k.warningsOf span ms) := by
  refine List.Sublist.map _ (List.monotone_filter_right ms ?_)
  intro m hm
  simp only [Bool.not_eq_true'] at hm ⊢
  rw [← Bool.not_eq_true] at hm ⊢
  exact fun hknown => hm (h.knows hknown)

/-- The warnings about a condition are those about its parts, one part after the other. Each is
about something that a leaf mentions by a name that is not known, and stands at that leaf; and where
more names are known, some are left out and the others come in the same order. -/
theorem warnings_compose :
    (∀ l r s, k.warnings (.and l r s) = k.warnings l ++ k.warnings r) ∧
    (∀ l r s, k.warnings (.or l r s) = k.warnings l ++ k.warnings r) ∧
    (∀ c s, k.warnings (.not c s) = k.warnings c) ∧
    (∀ c d, d ∈ k.warnings c ↔
      ∃ l ∈ c.leaves, ∃ m ∈ l.mentions, k.knows m = false ∧ d = m.warning l.span) ∧
    (∀ c k', k.IsWithin k' → (k'.warnings c).Sublist (k.warnings c)) := by
  refine ⟨?_, ?_, ?_, fun c d => k.mem_warnings_iff_mention, ?_⟩
  · intro l r s
    simp only [warnings_eq, Condition.leaves, List.flatMap_append]
  · intro l r s
    simp only [warnings_eq, Condition.leaves, List.flatMap_append]
  · intro c s
    simp only [warnings_eq, Condition.leaves]
  · intro c k' h
    rw [warnings_eq, warnings_eq]
    refine List.Sublist.flatMap_right c.leaves fun l _ => ?_
    rw [leafWarnings_eq, leafWarnings_eq]
    exact h.warningsOf_sublist l.span l.mentions

/-- The names of a chest alone. -/
def chestNames : KnownNames :=
  ⟨.ofList ["chest"], .ofList [], .ofList [], .ofList [], .ofList ["open"]⟩

/-- The names of a chest and a lamp. -/
def lampNames : KnownNames :=
  ⟨.ofList ["chest", "Lamp"], .ofList [], .ofList [], .ofList ["lit"], .ofList ["open"]⟩

/-- The chest has the lamp, which is lit and not broken. -/
def lampIsSafe : Condition :=
  .both (.relation ⟨.item "chest", .has, .element "lamp", none, none, ⟨0, 14, 1, 1⟩⟩)
    (.both (.relation ⟨.item "lamp", .is, .element "lit", none, none, ⟨19, 30, 1, 20⟩⟩)
      (.not (.relation ⟨.item "lamp", .is, .element "broken", none, none, ⟨39, 53, 1, 40⟩⟩)
        ⟨35, 53, 1, 36⟩))

theorem warnings_compose_lampIsSafe :
    chestNames.IsWithin lampNames ∧
      (lampNames.warnings lampIsSafe).Sublist (chestNames.warnings lampIsSafe) ∧
      (lampNames.warnings lampIsSafe).map (·.span.start) = [39] ∧
      (chestNames.warnings lampIsSafe).map (·.span.start) = [0, 19, 19, 39, 39] := by
  have hwithin : chestNames.IsWithin lampNames := by
    constructor <;> exact NameSet.ofList_subset (by simp)
  obtain ⟨-, -, -, -, hfewer⟩ := chestNames.warnings_compose
  exact ⟨hwithin, hfewer lampIsSafe lampNames hwithin, by decide +kernel, by decide +kernel⟩

end KnownNames

end GameCondition
