import GameCondition.Condition.Reading
import GameCondition.World.Judging

/-! # Shorthand

A relation may leave out the field it is about. By a name that means nothing else, `X is NAME` asks
for a field of that name to be true and `X is_not NAME` for it to be false; the name is a flag if
the subject has one and else a state, and a comparison of numbers is one of the state. All four are
looked up in ways of their own, and they agree in every world (`holdsIn_shorthand`).
-/

namespace GameCondition

/-- `X COMPARISON OPERAND`. -/
def Condition.bare (x : Subject) (c : Comparison) (o : Operand) (s : Span) : Condition :=
  .relation ⟨x, c, o, none, none, s⟩

/-- `X.FIELD COMPARISON OPERAND`. -/
def Condition.ofField (x : Subject) (field : String) (c : Comparison) (o : Operand) (s : Span) :
    Condition :=
  .relation ⟨x, c, o, none, some field, s⟩

namespace World

/-- Whether a name means nothing but a flag or a state of an element: it is the word of no kind of
subject, the id of no element, none of the fields that mean something of their own, and no
property of the element. -/
structure IsMereName (w : World) (e : Element) (name : String) : Prop where
  noKind : SubjectKind.ofWord? name = none
  noElement : ∀ other ∈ w.elements, sameName other.id name = false
  noField : ∀ field ∈ ["state", "inventory", "flag"], sameName name field = false
  noProperty : e.property? name = none

/-! ## A field and its name -/

/-- A field that is no property is true iff the subject is as it says. -/
theorem fieldValue_eq_isAs {e : Element} {name : String} (h : e.property? name = none) :
    fieldValue e name = .bool (isAs e name) := by
  rw [fieldValue, isAs, h]
  cases e.flag? name <;> rfl

theorem looselyEquals_bool (a b : Bool) : (Value.bool a).looselyEquals (.bool b) = (a == b) := rfl

/-- The state of an element equals a name iff that is the state it is in. -/
theorem looselyEquals_stateValue (e : Element) (name : String) :
    e.stateValue.looselyEquals (.text name) = e.isInState name := by
  rw [Element.stateValue, Element.isInState]
  cases e.state <;> rfl

/-- `.flag` asks for the flag of that name, which is all the name can mean if there is one. -/
theorem isEqual_flag (w : World) {e : Element} {name : String}
    (hflag : (e.flag? name).isSome = true) (x : Subject) (c : Comparison) (s : Span) :
    w.isEqual e ⟨x, c, .element name, none, some "flag", s⟩ = isAs e name := by
  obtain ⟨b, hb⟩ := Option.isSome_iff_exists.mp hflag
  have hasks : sameName "flag" "flag" = true := by decide
  simp [isEqual, Relation.isBare, asksFlag, hasks, Operand.value, isAs, hb]

namespace IsMereName

variable {w : World} {e : Element} {name : String} (h : w.IsMereName e name)

include h

theorem namedElement? : w.namedElement? name = none := by
  rw [World.namedElement?, partOf?, h.noKind, Option.filter_none, find?, List.find?_eq_none]
  simpa using h.noElement

theorem operandValue : w.operandValue (.element name) = .text name := by
  rw [World.operandValue, h.namedElement?]

theorem bareIs : w.bareIs e (.element name) = isAs e name := by
  rw [World.bareIs, h.namedElement?]

variable (x : Subject) (c : Comparison) (s : Span)

/-- By a mere name, `is` without a field asks what the subject is. -/
theorem isEqual_bare :
    w.isEqual e ⟨x, c, .element name, none, none, s⟩ = isAs e name :=
  h.bareIs

/-- A field by a mere name is compared with a truth value. -/
theorem isEqual_ofName (b : Bool) :
    w.isEqual e ⟨x, c, .bool b, none, some name, s⟩ = (isAs e name == b) := by
  obtain ⟨hstate, hinventory, hflag⟩ : sameName name "state" = false ∧
      sameName name "inventory" = false ∧ sameName name "flag" = false := by
    simpa using h.noField
  have hvalue : w.subjectValue e ⟨x, c, .bool b, none, some name, s⟩ = .bool (isAs e name) := by
    simp [subjectValue, hstate, hinventory, hflag, fieldValue_eq_isAs h.noProperty]
  simp [isEqual, Relation.isBare, asksFlag, hflag, hvalue, World.operandValue,
    looselyEquals_bool]

/-- `.state` asks for the state, which is all the name can mean if there is no such flag. -/
theorem isEqual_state (hflag : e.flag? name = none) :
    w.isEqual e ⟨x, c, .element name, none, some "state", s⟩ = isAs e name := by
  have hasks : sameName "state" "flag" = false := by decide
  have hstate : sameName "state" "state" = true := by decide
  simp [isEqual, Relation.isBare, asksFlag, hasks, subjectValue, hstate, h.operandValue,
    looselyEquals_stateValue, isAs, hflag]

end IsMereName

/-- The numeric comparisons take the state of a subject without a field. -/
theorem compares_bare (w : World) (e : Element) (x : Subject) (c : Comparison) (o : Operand)
    (s s' : Span) : w.compares e ⟨x, c, o, none, none, s⟩ =
      w.compares e ⟨x, c, o, none, some "state", s'⟩ := by
  have hstate : sameName "state" "state" = true := by decide
  simp [compares, Relation.isBare, subjectValue, hstate]

theorem relates_of_isNumeric {w : World} {e : Element} {r : Relation}
    (h : r.comparison.isNumeric = true) : w.relates e r = w.compares e r := by
  unfold relates
  cases hc : r.comparison with
  | lessThan | greaterThan | equalTo | notEqualTo => rfl
  | has | is | isNot | isIn | isEmpty => rw [hc] at h; cases h

theorem relationHolds_of_resolved {w : World} {r : Relation} {e : Element}
    (h : w.resolve? r.subject = some e) : w.relationHolds r = w.relates e r := by
  rw [relationHolds, h]

end World

namespace Condition

open World

/-- Shorthand means what its full form means, wherever either was read. -/
theorem holdsIn_shorthand {w : World} {x : Subject} {e : Element} (hx : w.resolve? x = some e)
    (s s' : Span) :
    (∀ name, w.IsMereName e name →
      (bare x .is (.element name) s).holdsIn w =
        (ofField x name .is (.bool true) s').holdsIn w ∧
      (bare x .isNot (.element name) s).holdsIn w =
        (ofField x name .is (.bool false) s').holdsIn w ∧
      ((e.flag? name).isSome = true → (bare x .is (.element name) s).holdsIn w =
        (ofField x "flag" .is (.element name) s').holdsIn w) ∧
      (e.flag? name = none → (bare x .is (.element name) s).holdsIn w =
        (ofField x "state" .is (.element name) s').holdsIn w)) ∧
    (∀ (o : Operand) (c : Comparison), c.isNumeric = true →
      (bare x c o s).holdsIn w = (ofField x "state" c o s').holdsIn w) := by
  -- the subject resolves to one element, which is asked for both phrasings
  have hholds : ∀ c o p s, (relation ⟨x, c, o, none, p, s⟩).holdsIn w =
      w.relates e ⟨x, c, o, none, p, s⟩ := fun _ _ _ _ => relationHolds_of_resolved hx
  simp only [bare, ofField, hholds]
  constructor
  · intro name hname
    simp only [relates, hname.isEqual_bare, hname.isEqual_ofName]
    refine ⟨?_, ?_, fun hflag => ?_, fun hflag => ?_⟩
    · rw [beq_true]
    · rw [beq_false]
    · rw [isEqual_flag w hflag]
    · rw [hname.isEqual_state x .is s' hflag]
  · intro o c hc
    rw [relates_of_isNumeric hc, relates_of_isNumeric hc]
    exact compares_bare w e x c o s s'

/-- A lamp that is dim and, by a flag, not lit. -/
def dimLamp : Element :=
  { Element.ofId "lamp" .item with defaultState := some "Dim" }.setFlag "LIT" false

/-- A world with such a lamp alone. -/
def lampRoom : World :=
  World.empty.addElement dimLamp

theorem holdsIn_shorthand_dimLamp :
    lampRoom.resolve? (.item "lamp") = some dimLamp ∧
      lampRoom.IsMereName dimLamp "lit" ∧ lampRoom.IsMereName dimLamp "dim" ∧
      (bare (.item "lamp") .isNot (.element "lit") .atStart).holdsIn lampRoom =
        (ofField (.item "lamp") "lit" .is (.bool false) .atStart).holdsIn lampRoom ∧
      ((dimLamp.flag? "lit").isSome = true ∧
        (bare (.item "lamp") .is (.element "lit") .atStart).holdsIn lampRoom =
          (ofField (.item "lamp") "flag" .is (.element "lit") .atStart).holdsIn lampRoom) ∧
      (dimLamp.flag? "dim" = none ∧
        (bare (.item "lamp") .is (.element "dim") .atStart).holdsIn lampRoom =
          (ofField (.item "lamp") "state" .is (.element "dim") .atStart).holdsIn lampRoom) ∧
      (Comparison.isNumeric .lessThan = true ∧
        (bare (.item "lamp") .lessThan (.element "lamp") .atStart).holdsIn lampRoom =
          (ofField (.item "lamp") "state" .lessThan (.element "lamp") .atStart).holdsIn
            lampRoom) := by
  have hlamp : lampRoom.resolve? (.item "lamp") = some dimLamp := rfl
  have hlit : lampRoom.IsMereName dimLamp "lit" :=
    ⟨by decide, by decide, by decide, by decide⟩
  have hdim : lampRoom.IsMereName dimLamp "dim" :=
    ⟨by decide, by decide, by decide, by decide⟩
  have hflag : (dimLamp.flag? "lit").isSome = true := by decide
  have hstate : dimLamp.flag? "dim" = none := by decide
  obtain ⟨hnames, hnumeric⟩ := holdsIn_shorthand hlamp .atStart .atStart
  obtain ⟨-, hfalse, hisFlag, -⟩ := hnames "lit" hlit
  obtain ⟨-, -, -, hisState⟩ := hnames "dim" hdim
  exact ⟨hlamp, hlit, hdim, hfalse, ⟨hflag, hisFlag hflag⟩, ⟨hstate, hisState hstate⟩, rfl,
    hnumeric _ _ rfl⟩

/-- Shorthand as it is read. -/
example : (read defaultLimit "lamp is_not lit").toOption =
    some (bare (.item "lamp") .isNot (.element "lit") ⟨0, 15, 1, 1⟩) := by decide +kernel

end Condition

end GameCondition
