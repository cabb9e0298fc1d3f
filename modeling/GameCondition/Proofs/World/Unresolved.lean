import GameCondition.Proofs.Number.LetterCase
import GameCondition.World.Judging

/-! # What does not resolve

A leaf with a subject that does not resolve never holds. An operand that stands for a part which
nothing plays is another matter: `is_in` and the numeric comparisons do not hold of it, but `is`,
`is_not` and `has` go on with its word as a mere name, and `is_not` holds unless that name fits
(`holdsIn_unresolved`).
-/

namespace GameCondition

namespace World

/-- Whether a word stands for a part that nothing plays. -/
def IsUnplayed (w : World) (word : String) : Prop :=
  ∃ kind, partOf? word = some kind ∧ w.resolve? (.simple kind) = none

/-- Whether what a relation is about fits a mere name. -/
def isCalled (w : World) (e : Element) (r : Relation) (name : String) : Bool :=
  if r.isBare then isAs e name
  else if asksFlag r then (e.flag? name).getD false
  else (w.subjectValue e r).looselyEquals (.text name)

/-- Whether something inside an element has a mere name as its id or its name. -/
def holdsCalled (w : World) (e : Element) (name : String) : Bool :=
  w.elements.any fun other =>
    other.isInside e.id && (sameName other.id name || sameName other.name name)

/-! ## Subjects -/

/-- No relation holds of a subject that does not resolve. -/
theorem relationHolds_of_unresolved {w : World} {r : Relation} (h : w.resolve? r.subject = none) :
    w.relationHolds r = false := by
  simp [relationHolds, h]

/-- No visits are counted for a subject that does not resolve. -/
theorem countHolds_of_unresolved {w : World} {v : VisitCount} (h : w.resolve? v.subject = none) :
    w.countHolds v = false := by
  simp [countHolds, visitCount?, h]

/-- There is no distance from or to a subject that does not resolve. -/
theorem distanceHolds_of_unresolved {w : World} {d : Distance}
    (h : w.resolve? d.origin = none ∨ w.resolve? d.goal = none) : w.distanceHolds d = false := by
  have hnone : w.distance? d.origin d.goal = none := by
    unfold distance?
    rcases h with h | h
    · simp [h]
    · cases w.resolve? d.origin <;> simp [h]
  simp [distanceHolds, hnone]

/-! ## Operands -/

/-- No word for a part spells a number. -/
theorem asNumber?_of_partOf? {word : String} {kind : SubjectKind} (h : partOf? word = some kind) :
    Value.asNumber? (.text word) = none := by
  have hall : ∀ entry ∈ SubjectKind.spellings, Value.asNumber? (.text entry.1) = none := by
    decide
  unfold partOf? SubjectKind.ofWord? at h
  rw [Option.filter_eq_some_iff, Option.map_eq_some_iff] at h
  rcases h with ⟨⟨entry, hentry, -⟩, -⟩
  have hsame := List.find?_some hentry
  rw [← Value.asNumber?_of_sameAscii hsame]
  exact hall entry (List.mem_of_find?_eq_some hentry)

namespace IsUnplayed

variable {w : World} {word : String} (h : w.IsUnplayed word)

include h

theorem namedElement? : w.namedElement? word = none := by
  rcases h with ⟨kind, hkind, hnone⟩
  simp [World.namedElement?, hkind, hnone]

theorem partElement? : w.partElement? word = none := by
  rcases h with ⟨kind, hkind, hnone⟩
  simp [World.partElement?, hkind, hnone]

/-- A word that names no element is its own text. -/
theorem operandValue : w.operandValue (.element word) = .text word := by
  simp [World.operandValue, h.namedElement?]

theorem asNumber? : Value.asNumber? (.text word) = none := by
  rcases h with ⟨kind, hkind, -⟩
  exact asNumber?_of_partOf? hkind

theorem hasOperand (e : Element) : w.hasOperand e (.element word) = w.holdsCalled e word := by
  simp [World.hasOperand, holdsNamed, holdsCalled, h.partElement?]

variable {r : Relation} (hoperand : r.operand = .element word)

include hoperand

theorem isEqual (e : Element) : w.isEqual e r = w.isCalled e r word := by
  simp [World.isEqual, isCalled, bareIs, hoperand, h.namedElement?, h.operandValue, Operand.value]

theorem isInOperand (e : Element) : w.isInOperand e r = false := by
  simp [World.isInOperand, hoperand, h.namedElement?]

theorem compares (e : Element) : w.compares e r = false := by
  have hnone : ∀ actual : Value, actual.compareNumeric? (.text word) = none := by
    intro actual
    unfold Value.compareNumeric?
    cases actual.asNumber? <;> simp [h.asNumber?]
  simp [World.compares, hoperand, h.operandValue, hnone]

/-- A word for a part that nothing plays is a mere name to `is`, `is_not` and `has`, and to the
other comparisons it is nothing at all. -/
theorem relates_iff (e : Element) (hcomparison : r.comparison ≠ .isEmpty) :
    w.relates e r = true ↔
      (r.comparison = .is ∧ w.isCalled e r word = true) ∨
      (r.comparison = .isNot ∧ w.isCalled e r word = false) ∨
      (r.comparison = .has ∧ w.holdsCalled e word = true) := by
  unfold relates
  cases hc : r.comparison with
  | isEmpty => exact absurd hc hcomparison
  | has => simp [hoperand, h.hasOperand]
  | is => simp [h.isEqual hoperand]
  | isNot => simp [h.isEqual hoperand]
  | isIn => simp [h.isInOperand hoperand]
  | lessThan => simp [h.compares hoperand]
  | greaterThan => simp [h.compares hoperand]
  | equalTo => simp [h.compares hoperand]
  | notEqualTo => simp [h.compares hoperand]

end IsUnplayed

end World

namespace Condition

open World

/-- A leaf one of whose subjects does not resolve does not hold. A relation with a part that nothing
plays as its operand holds only by the word for that part as a mere name: if what it is about is so
called for `is`, if it is not so called for `is_not`, and if something so called is inside for
`has`. -/
theorem holdsIn_unresolved (w : World) :
    (∀ r, w.resolve? r.subject = none → (relation r).holdsIn w = false) ∧
    (∀ v, w.resolve? v.subject = none → (visits v).holdsIn w = false) ∧
    (∀ d, w.resolve? d.origin = none ∨ w.resolve? d.goal = none →
      (distance d).holdsIn w = false) ∧
    (∀ r word, r.operand = .element word → w.IsUnplayed word → r.comparison ≠ .isEmpty →
      ((relation r).holdsIn w = true ↔ ∃ e, w.resolve? r.subject = some e ∧
        ((r.comparison = .is ∧ w.isCalled e r word = true) ∨
          (r.comparison = .isNot ∧ w.isCalled e r word = false) ∨
          (r.comparison = .has ∧ w.holdsCalled e word = true)))) := by
  refine ⟨fun r h => relationHolds_of_unresolved h, fun v h => countHolds_of_unresolved h,
    fun d h => distanceHolds_of_unresolved h, ?_⟩
  intro r word hoperand hunplayed hcomparison
  rw [holdsIn, relationHolds]
  cases hsubject : w.resolve? r.subject with
  | none => simp
  | some e =>
      rw [hunplayed.relates_iff hoperand e hcomparison]
      constructor
      · intro h
        exact ⟨e, rfl, h⟩
      · rintro ⟨e', he', h⟩
        cases he'
        exact h

/-- A world with a desk in which nothing is the target, in whatever state the desk is. -/
def deskAlone : World :=
  World.empty.addElement (.ofId "desk" .item)

/-- A relation between the desk and the target. -/
def deskToTarget (comparison : Comparison) : Relation :=
  ⟨.item "desk", comparison, .element "target", none, none, .atStart⟩

/-- A world with a desk only, asked about a log, a lamp and a hall. -/
theorem holdsIn_unresolved_deskAlone :
    (deskAlone.resolve? (.simple .log) = none ∧
      (relation ⟨.simple .log, .isEmpty, .text "", none, none, .atStart⟩).holdsIn deskAlone =
        false) ∧
    (deskAlone.resolve? (.item "lamp") = none ∧
      (visits ⟨.item "lamp", "hall", .is, 0, .atStart⟩).holdsIn deskAlone = false) ∧
    (deskAlone.resolve? (.simple .target) = none ∧
      (distance ⟨.item "desk", .simple .target, .isNot, 3, .atStart⟩).holdsIn deskAlone = false) ∧
    (deskAlone.IsUnplayed "target" ∧
      ((relation (deskToTarget .is)).holdsIn deskAlone = true ↔
        ∃ e, deskAlone.resolve? (.item "desk") = some e ∧
          ((Comparison.is = .is ∧ deskAlone.isCalled e (deskToTarget .is) "target" = true) ∨
            (Comparison.is = .isNot ∧ deskAlone.isCalled e (deskToTarget .is) "target" = false) ∨
            (Comparison.is = .has ∧ deskAlone.holdsCalled e "target" = true)))) := by
  rcases holdsIn_unresolved deskAlone with ⟨hrelation, hvisits, hdistance, hoperand⟩
  have hunplayed : deskAlone.IsUnplayed "target" := ⟨.target, by decide, rfl⟩
  exact ⟨⟨rfl, hrelation _ rfl⟩, ⟨rfl, hvisits _ rfl⟩, ⟨rfl, hdistance _ (.inr rfl)⟩, hunplayed,
    hoperand (deskToTarget .is) "target" rfl hunplayed (by decide)⟩

/-- Not every relation with a part that nothing plays fails: what is not the target because nothing
is, is not the target. -/
theorem not_holdsIn_of_unplayed :
    ¬ ∀ (w : World) (r : Relation) (word : String), r.operand = .element word →
      w.IsUnplayed word → r.comparison ≠ .isEmpty → (relation r).holdsIn w = false := by
  intro h
  have hunplayed : deskAlone.IsUnplayed "target" := ⟨.target, by decide, rfl⟩
  have hholds : (relation (deskToTarget .isNot)).holdsIn deskAlone = true := by decide
  have hfails := h deskAlone (deskToTarget .isNot) "target" rfl hunplayed (by decide)
  rw [hholds] at hfails
  cases hfails

end Condition

end GameCondition
