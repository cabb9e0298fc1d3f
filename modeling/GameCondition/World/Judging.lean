import GameCondition.World.Basic

/-! # Judging conditions

`Condition.holdsIn` says whether a condition holds in a world. It never fails: where a subject, or
the operand that should contain something, cannot be resolved, the leaf does not hold.

A field of a subject is looked up where its name points:

- without a field, `is` compares identities if the operand names an element, else asks for a flag
  of that name, else for a state; the numeric comparisons look at the state; `is_in` and `is_empty`
  look at the subject itself and at what it contains;
- `.attribute NAME` is an attribute, whatever other field is named;
- `.state` is the state, `.inventory` the property of that name, else what is contained, and
  `.flag` is the flag that the operand names;
- any other field is a property, else a flag, else whether the state has that name.
-/

namespace GameCondition

/-- The state of an element as a value. -/
def Element.stateValue (e : Element) : Value :=
  match e.state with
  | some s => .text s
  | none => .nil

/-- Whether an element is in the named state. -/
def Element.isInState (e : Element) (name : String) : Bool :=
  match e.state with
  | some s => sameName s name
  | none => false

/-- Whether a comparison holds of two things in the given order. -/
def Comparison.admits : Comparison → Ordering → Bool
  | .lessThan, o => o == .lt
  | .greaterThan, o => o == .gt
  | .is, o => o == .eq
  | .equalTo, o => o == .eq
  | .isNot, o => o != .eq
  | .notEqualTo, o => o != .eq
  | .has, _ => false
  | .isIn, _ => false
  | .isEmpty, _ => false

namespace World

/-- What an element contains: its own list of it, else the elements inside it. -/
def inventory (w : World) (e : Element) : Value :=
  (e.property? "inventory").getD (.list ((w.contents e.id).map .element))

/-- The kind that a word stands for, if subjects of that kind have no id. -/
def partOf? (name : String) : Option SubjectKind :=
  (SubjectKind.ofWord? name).filter fun kind => !kind.requiresId

/-- The element that plays the part a word stands for. -/
def partElement? (w : World) (name : String) : Option Element :=
  (partOf? name).bind fun kind => w.resolve? (.simple kind)

/-- The element that an operand names: by the part it plays, if the word stands for one, else by
its id. -/
def namedElement? (w : World) (name : String) : Option Element :=
  match partOf? name with
  | some kind => w.resolve? (.simple kind)
  | none => w.find? name

/-- The value of an operand. A name that is no element's stands for itself. -/
def operandValue (w : World) : Operand → Value
  | .element name =>
    match w.namedElement? name with
    | some e => .element e.id
    | none => .text name
  | .bool b => .bool b
  | .number n => .number n
  | .text s => .text s

/-- The value of a property of an element, else of a flag, else of being in that state. -/
def fieldValue (e : Element) (field : String) : Value :=
  match e.property? field with
  | some v => v
  | none =>
    match e.flag? field with
    | some b => .bool b
    | none => .bool (e.isInState field)

/-- The value of what a relation is about. A subject without a field stands for what it
contains. -/
def subjectValue (w : World) (e : Element) (r : Relation) : Value :=
  match r.attr, r.property with
  | some attr, _ => (e.attribute? attr).getD .nil
  | none, none => w.inventory e
  | none, some field =>
    if sameName field "state" then e.stateValue
    else if sameName field "inventory" then w.inventory e
    else if sameName field "flag" then .nil
    else fieldValue e field

/-- Whether an element has a flag of that name that is set or, if it has no such flag, is in that
state. -/
def isAs (e : Element) (name : String) : Bool :=
  match e.flag? name with
  | some b => b
  | none => e.isInState name

/-- `is` for a subject without a field. -/
def bareIs (w : World) (e : Element) : Operand → Bool
  | .element name =>
    match w.namedElement? name with
    | some other => sameName e.id other.id
    | none => isAs e name
  | .text s => isAs e s
  | .bool b => e.state.isSome && e.stateValue.looselyEquals (.bool b)
  | .number n => e.state.isSome && e.stateValue.looselyEquals (.number n)

/-- Whether a relation is about the flag that its operand names. -/
def asksFlag (r : Relation) : Bool :=
  match r.attr, r.property with
  | none, some field => sameName field "flag"
  | _, _ => false

/-- `is`. -/
def isEqual (w : World) (e : Element) (r : Relation) : Bool :=
  if r.isBare then w.bareIs e r.operand
  else if asksFlag r then (e.flag? r.operand.value).getD false
  else (w.subjectValue e r).looselyEquals (w.operandValue r.operand)

/-- The numeric comparisons. A subject without a field is compared by its state. -/
def compares (w : World) (e : Element) (r : Relation) : Bool :=
  let actual := if r.isBare then e.stateValue else w.subjectValue e r
  match actual.compareNumeric? (w.operandValue r.operand) with
  | some order => r.comparison.admits order
  | none => false

/-- Whether something of that id or name is inside an element. -/
def holdsNamed (w : World) (e : Element) (name : String) : Bool :=
  let sought := match w.partElement? name with
    | some part => part.id
    | none => name
  w.elements.any fun other =>
    other.isInside e.id && (sameName other.id sought || sameName other.name sought)

/-- `has`. -/
def hasOperand (w : World) (e : Element) : Operand → Bool
  | .element name => w.holdsNamed e name
  | .text name => w.holdsNamed e name
  | _ => false

/-- `is_in`. A subject without a field is sought by its id and by its name. -/
def isInOperand (w : World) (e : Element) (r : Relation) : Bool :=
  match r.operand with
  | .element name =>
    match w.namedElement? name with
    | none => false
    | some container =>
      let inventory := w.inventory container
      if r.isBare then inventory.contains (.text e.id) || inventory.contains (.text e.name)
      else inventory.contains (w.subjectValue e r)
  | _ => false

/-- Whether a relation holds of an element. -/
def relates (w : World) (e : Element) (r : Relation) : Bool :=
  match r.comparison with
  | .has => w.hasOperand e r.operand
  | .isEmpty => (w.subjectValue e r).isEmpty
  | .isIn => w.isInOperand e r
  | .is => w.isEqual e r
  | .isNot => !w.isEqual e r
  | _ => w.compares e r

/-- Whether a relation holds. -/
def relationHolds (w : World) (r : Relation) : Bool :=
  match w.resolve? r.subject with
  | some e => w.relates e r
  | none => false

/-- Whether a count holds. -/
def countHolds (w : World) (v : VisitCount) : Bool :=
  match w.visitCount? v.subject v.scene with
  | some n => v.comparison.admits (compare n v.value)
  | none => false

/-- Whether a distance holds. -/
def distanceHolds (w : World) (d : Distance) : Bool :=
  match w.distance? d.origin d.goal with
  | some n => d.comparison.admits (compare n d.value)
  | none => false

end World

/-- Whether a condition holds in a world. -/
def Condition.holdsIn (w : World) : Condition → Bool
  | and l r _ => l.holdsIn w && r.holdsIn w
  | or l r _ => l.holdsIn w || r.holdsIn w
  | not c _ => !c.holdsIn w
  | relation r => w.relationHolds r
  | visits v => w.countHolds v
  | distance d => w.distanceHolds d

end GameCondition
