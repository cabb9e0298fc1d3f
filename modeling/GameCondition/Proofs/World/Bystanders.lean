import GameCondition.Proofs.World.LetterCase
import Mathlib.Data.List.Basic

/-! # Elements that nothing names

A condition asks a world for little: for the elements of the ids that it names, for those who play
a part, for what is inside an element, for visits and for distances. Worlds that agree on these
(`World.AgreesOn`) agree on the condition (`Condition.holdsIn_of_agreesOn`).

So an element that is not inside anything, and whose id is none that the condition or the world
refers to, does not matter: wherever it stands among the elements and whatever else there is about
it, the condition holds just if it does without it (`Condition.holdsIn_insertElement`).
-/

namespace GameCondition

/-- The name in an operand that is one. -/
def Operand.names : Operand → List String
  | .element name => [name]
  | _ => []

/-- The ids that a condition asks for: those of its subjects, and the names that are operands. -/
def Condition.namedIds : Condition → List String
  | and l r _ => l.namedIds ++ r.namedIds
  | or l r _ => l.namedIds ++ r.namedIds
  | not c _ => c.namedIds
  | relation r => r.subject.id.toList ++ r.operand.names
  | visits v => v.subject.id.toList
  | distance d => d.origin.id.toList ++ d.goal.id.toList

namespace World

/-! ## What a condition asks for -/

/-- Whether two worlds give the same elements for some ids and for every part, and agree on what is
inside of what, on visits and on distances. -/
structure AgreesOn (w w' : World) (ids : List String) : Prop where
  named : ∀ id ∈ ids, w.find? id = w'.find? id
  part : ∀ kind : SubjectKind, kind.requiresId = false →
    w.resolve? (.simple kind) = w'.resolve? (.simple kind)
  inside : ∀ id, (w.elements.filter fun e => e.isInside id) =
    w'.elements.filter fun e => e.isInside id
  visits : w.visits = w'.visits
  measures : w.measures = w'.measures

/-- Who plays a part does not depend on an id. -/
theorem resolve?_of_noId (w : World) {s : Subject} (h : s.kind.requiresId = false) :
    w.resolve? s = w.resolve? (.simple s.kind) := by
  obtain ⟨kind, id⟩ := s
  cases kind with
  | item | npc | scene | exit => cases h
  | _ => rfl

/-- Other subjects are found by their id. -/
theorem resolve?_of_id (w : World) {s : Subject} (h : s.kind.requiresId = true) :
    w.resolve? s = s.id.bind (w.element? s.kind) := by
  obtain ⟨kind, id⟩ := s
  cases kind with
  | item | npc | scene | exit => rfl
  | _ => cases h

/-- A word that stands for a part needs no id. -/
theorem requiresId_of_partOf? {name : String} {kind : SubjectKind}
    (h : partOf? name = some kind) : kind.requiresId = false := by
  simpa using (Option.filter_eq_some_iff.mp h).2

namespace AgreesOn

variable {w w' : World} {ids : List String} (h : w.AgreesOn w' ids)

include h

/-- A subject whose id is among the given ones stands for the same element in both worlds. -/
theorem resolve?_eq {s : Subject} (hs : s.id.toList ⊆ ids) : w.resolve? s = w'.resolve? s := by
  cases hkind : s.kind.requiresId with
  | false => rw [w.resolve?_of_noId hkind, w'.resolve?_of_noId hkind, h.part s.kind hkind]
  | true =>
    rw [w.resolve?_of_id hkind, w'.resolve?_of_id hkind]
    cases hsome : s.id with
    | none => rfl
    | some id =>
      have hmem : id ∈ ids := hs (by simp [hsome])
      simp only [Option.bind_some, element?, h.named id hmem]

/-- An operand whose name is among the given ones names the same element in both worlds. -/
theorem namedElement?_eq {name : String} (hname : name ∈ ids) :
    w.namedElement? name = w'.namedElement? name := by
  rw [namedElement?, namedElement?]
  cases hpart : partOf? name with
  | none => exact h.named name hname
  | some kind => exact h.part kind (requiresId_of_partOf? hpart)

/-- A word for a part names the same element in both worlds. -/
theorem partElement?_eq (name : String) : w.partElement? name = w'.partElement? name := by
  rw [partElement?, partElement?]
  cases hpart : partOf? name with
  | none => rfl
  | some kind => exact h.part kind (requiresId_of_partOf? hpart)

/-- An operand has the same value in both worlds. -/
theorem operandValue_eq {o : Operand} (ho : o.names ⊆ ids) :
    w.operandValue o = w'.operandValue o := by
  cases o with
  | element name =>
    have hname : name ∈ ids := ho List.mem_cons_self
    rw [operandValue, operandValue, h.namedElement?_eq hname]
  | _ => rfl

/-- An element holds the same in both worlds. -/
theorem inventory_eq (e : Element) : w.inventory e = w'.inventory e := by
  rw [inventory, inventory, contents, contents, h.inside]

/-- A subject has the same value in both worlds. -/
theorem subjectValue_eq (e : Element) (r : Relation) :
    w.subjectValue e r = w'.subjectValue e r := by
  unfold subjectValue
  rw [h.inventory_eq e]

theorem holdsNamed_eq (e : Element) (name : String) :
    w.holdsNamed e name = w'.holdsNamed e name := by
  simp only [holdsNamed, h.partElement?_eq name, ← List.any_filter, h.inside]

/-! ## Relations -/

theorem isEqual_eq (e : Element) {r : Relation} (hr : r.operand.names ⊆ ids) :
    w.isEqual e r = w'.isEqual e r := by
  have hbare : w.bareIs e r.operand = w'.bareIs e r.operand := by
    cases hoperand : r.operand with
    | element name =>
      have hname : name ∈ ids := hr (by simp [hoperand, Operand.names])
      rw [bareIs, bareIs, h.namedElement?_eq hname]
    | _ => rfl
  simp only [isEqual, hbare, h.subjectValue_eq, h.operandValue_eq hr]

theorem compares_eq (e : Element) {r : Relation} (hr : r.operand.names ⊆ ids) :
    w.compares e r = w'.compares e r := by
  simp only [compares, h.subjectValue_eq, h.operandValue_eq hr]

theorem hasOperand_eq (e : Element) (o : Operand) : w.hasOperand e o = w'.hasOperand e o := by
  cases o with
  | element name => exact h.holdsNamed_eq e name
  | text name => exact h.holdsNamed_eq e name
  | bool b => rfl
  | number n => rfl

theorem isInOperand_eq (e : Element) {r : Relation} (hr : r.operand.names ⊆ ids) :
    w.isInOperand e r = w'.isInOperand e r := by
  unfold isInOperand
  cases hoperand : r.operand with
  | element name =>
    have hname : name ∈ ids := hr (by simp [hoperand, Operand.names])
    simp only [h.namedElement?_eq hname, h.inventory_eq, h.subjectValue_eq]
  | _ => rfl

/-- An element stands in the same relations in both worlds. -/
theorem relates_eq (e : Element) {r : Relation} (hr : r.operand.names ⊆ ids) :
    w.relates e r = w'.relates e r := by
  unfold relates
  rw [h.hasOperand_eq, h.subjectValue_eq, h.isInOperand_eq e hr, h.isEqual_eq e hr,
    h.compares_eq e hr]

/-! ## Leaves -/

/-- A relation holds in both worlds or in neither. -/
theorem relationHolds_eq {r : Relation} (hs : r.subject.id.toList ⊆ ids)
    (hr : r.operand.names ⊆ ids) : w.relationHolds r = w'.relationHolds r := by
  rw [relationHolds, relationHolds, h.resolve?_eq hs]
  cases w'.resolve? r.subject with
  | none => rfl
  | some e => exact h.relates_eq e hr

/-- A count holds in both worlds or in neither. -/
theorem countHolds_eq {v : VisitCount} (hs : v.subject.id.toList ⊆ ids) :
    w.countHolds v = w'.countHolds v := by
  simp only [countHolds, visitCount?, h.resolve?_eq hs, h.visits]

/-- A distance holds in both worlds or in neither. -/
theorem distanceHolds_eq {d : Distance} (horigin : d.origin.id.toList ⊆ ids)
    (hgoal : d.goal.id.toList ⊆ ids) : w.distanceHolds d = w'.distanceHolds d := by
  simp only [distanceHolds, distance?, h.resolve?_eq horigin, h.resolve?_eq hgoal, h.measures]

end AgreesOn

end World

/-- A condition holds alike in worlds that agree on the ids that it names. -/
theorem Condition.holdsIn_of_agreesOn {w w' : World} {ids : List String} (h : w.AgreesOn w' ids)
    {c : Condition} (hc : c.namedIds ⊆ ids) : c.holdsIn w = c.holdsIn w' := by
  induction c with
  | and l r _ ihl ihr =>
    obtain ⟨hl, hr⟩ := List.append_subset.mp hc
    rw [holdsIn, holdsIn, ihl hl, ihr hr]
  | or l r _ ihl ihr =>
    obtain ⟨hl, hr⟩ := List.append_subset.mp hc
    rw [holdsIn, holdsIn, ihl hl, ihr hr]
  | not c _ ih => rw [holdsIn, holdsIn, ih hc]
  | relation r =>
    obtain ⟨hsubject, hoperand⟩ := List.append_subset.mp hc
    exact h.relationHolds_eq hsubject hoperand
  | visits v => exact h.countHolds_eq hc
  | distance d =>
    obtain ⟨horigin, hgoal⟩ := List.append_subset.mp hc
    exact h.distanceHolds_eq horigin hgoal

namespace World

/-! ## One more element -/

/-- Puts an element among the others, behind so many of them. -/
def insertElement (w : World) (place : Nat) (e : Element) : World :=
  { w with elements := w.elements.take place ++ e :: w.elements.drop place }

/-- The id of the element that plays a part. The location is whatever the player is inside. -/
def partId (w : World) : SubjectKind → Option String
  | .player => w.playerId
  | .target => w.targetId
  | .target2 => w.target2Id
  | .currentScene => w.currentSceneId
  | .session => w.sessionId
  | .log => w.logId
  | _ => none

/-- A subject without an id stands for the element that plays the part. -/
theorem resolve?_simple (w : World) {kind : SubjectKind} (h : kind.requiresId = false) :
    w.resolve? (.simple kind) =
      if kind = .location then w.location? else w.holder? (w.partId kind) := by
  cases kind with
  | item | npc | scene | exit => cases h
  | _ => rfl

/-- Whether an element is not inside anything, and its id is not one that the world refers to. -/
structure IsBystander (w : World) (e : Element) : Prop where
  outside : e.container = none
  noPart : ∀ kind, ∀ id ∈ w.partId kind, sameName e.id id = false
  noContainer : ∀ other ∈ w.elements, ∀ id ∈ other.container, sameName e.id id = false

section Insert

variable {w : World} {e : Element} (place : Nat)

/-- An element is not found by an id that is not its own. -/
theorem find?_insertElement {id : String} (h : sameName e.id id = false) :
    (w.insertElement place e).find? id = w.find? id := by
  rw [find?, insertElement, List.find?_append, List.find?_cons_of_neg (by simp [h]),
    ← List.find?_append, List.take_append_drop, find?]

/-- An element with another id is not found under an id. -/
theorem bind_find?_insertElement {id : Option String} (h : ∀ i ∈ id, sameName e.id i = false) :
    id.bind (w.insertElement place e).find? = id.bind w.find? := by
  cases id with
  | none => rfl
  | some id => exact find?_insertElement place (h id rfl)

namespace IsBystander

variable (h : w.IsBystander e)

include h

/-- An element with another id plays no part. -/
theorem holder?_eq (kind : SubjectKind) :
    (w.insertElement place e).holder? (w.partId kind) = w.holder? (w.partId kind) :=
  bind_find?_insertElement place (h.noPart kind)

/-- Whoever the player is, what the player is inside is found as before. -/
theorem location?_eq : (w.insertElement place e).location? = w.location? := by
  have hplayer : (w.insertElement place e).player? = w.player? := h.holder?_eq place .player
  have hscene : (w.insertElement place e).currentScene? = w.currentScene? :=
    h.holder?_eq place .currentScene
  rw [location?, location?, hplayer, hscene]
  cases hp : w.player? with
  | none => rfl
  | some p =>
    have hmem : p ∈ w.elements := mem_of_holder? hp
    rw [Option.bind_some, Option.bind_some, bind_find?_insertElement place (h.noContainer p hmem)]

theorem resolve?_simple_eq {kind : SubjectKind} (hkind : kind.requiresId = false) :
    (w.insertElement place e).resolve? (.simple kind) = w.resolve? (.simple kind) := by
  rw [resolve?_simple _ hkind, resolve?_simple _ hkind, h.location?_eq place]
  split
  · rfl
  · exact h.holder?_eq place kind

/-- An element that is in nothing is held by nobody. -/
theorem filter_isInside_eq (id : String) :
    ((w.insertElement place e).elements.filter fun other => other.isInside id) =
      w.elements.filter fun other => other.isInside id := by
  have hout : e.isInside id = false := by rw [Element.isInside, h.outside]
  rw [insertElement, List.filter_append, List.filter_cons_of_neg (by simp [hout]),
    ← List.filter_append, List.take_append_drop]

/-- With a bystander among its elements, a world is as before to whoever does not name it. -/
theorem agreesOn {ids : List String} (hids : ∀ id ∈ ids, sameName e.id id = false) :
    (w.insertElement place e).AgreesOn w ids where
  named id hid := find?_insertElement place (hids id hid)
  part _ hkind := h.resolve?_simple_eq place hkind
  inside := h.filter_isInside_eq place
  visits := rfl
  measures := rfl

end IsBystander

end Insert

end World

namespace Condition

open World

/-- An element that is not inside anything, and whose id neither the world refers to nor the
condition names, may be put anywhere among the elements: the condition holds just as before. Its
name, its flags, states, properties and attributes may be any, and so may the texts in the condition
and the ids of the other elements. -/
theorem holdsIn_insertElement {w : World} {e : Element} (h : w.IsBystander e) {c : Condition}
    (hc : ∀ id ∈ c.namedIds, sameName e.id id = false) (place : Nat) :
    c.holdsIn (w.insertElement place e) = c.holdsIn w :=
  holdsIn_of_agreesOn (h.agreesOn place hc) (List.Subset.refl _)

/-- A hall with the player inside, who has a lamp. -/
def hallWithPlayer : World :=
  { World.empty with
    elements := [.ofId "hall" .scene, { Element.ofId "ann" .npc with container := some "Hall" },
      { Element.ofId "lamp" .item with container := some "ann" }]
    playerId := some "ann" }

/-- A ghost that is called a lamp, and claims to have one. -/
def ghost : Element :=
  { Element.ofId "ghost" .npc with givenName := "lamp" }.setProperty "inventory"
    (.list [.text "lamp"])

/-- The location is the hall, and the player has a lamp. -/
def lampIsInHall : Condition :=
  both (.relation ⟨.simple .location, .is, .element "hall", none, none, .atStart⟩)
    (.relation ⟨.simple .player, .has, .element "lamp", none, none, .atStart⟩)

/-- A ghost is put in front of the elements of a hall. -/
theorem holdsIn_insertElement_ghost :
    hallWithPlayer.IsBystander ghost ∧
      (∀ id ∈ lampIsInHall.namedIds, sameName ghost.id id = false) ∧
      lampIsInHall.holdsIn (hallWithPlayer.insertElement 0 ghost) =
        lampIsInHall.holdsIn hallWithPlayer ∧
      lampIsInHall.holdsIn hallWithPlayer = true := by
  have hghost : hallWithPlayer.IsBystander ghost := by
    refine ⟨rfl, ?_, by decide⟩
    intro kind
    cases kind <;> decide
  have hnamed : ∀ id ∈ lampIsInHall.namedIds, sameName ghost.id id = false := by decide
  exact ⟨hghost, hnamed, holdsIn_insertElement hghost hnamed 0, by decide⟩

end Condition

end GameCondition
