import GameCondition.Proofs.World.LetterCase
import Mathlib.Data.List.Pairwise
import Mathlib.Data.List.Perm.Basic

/-! # The order of elements

The elements of a world come in no particular order. What is looked up is found in any order if no
two ids are the same ignoring case (`World.find?_reorder`), and what an element contains is told in
another order at most (`Value.Reorders`). That other order never shows: of a list only emptiness
and its items are asked for, and the list as a whole is compared with names and literals, or with
the items of an inventory. So no inventory may have a list among its items, and then a condition
holds in one order of the elements exactly when it holds in any other
(`Condition.holdsIn_reorder`).
-/

namespace GameCondition

/-! ## Lists in another order -/

/-- Where at most one item can be found, it is found in any order. -/
theorem find?_eq_of_perm {α : Type} {p : α → Bool} {xs ys : List α} (h : xs.Perm ys)
    (hunique : xs.Pairwise fun a b => ¬ (p a = true ∧ p b = true)) : xs.find? p = ys.find? p := by
  induction h with
  | nil => rfl
  | cons x _ ih =>
      rw [List.pairwise_cons] at hunique
      rw [List.find?_cons, List.find?_cons, ih hunique.2]
  | swap x y xs =>
      have hboth := (List.pairwise_cons.mp hunique).1 x List.mem_cons_self
      simp only [List.find?_cons]
      cases hx : p x <;> cases hy : p y <;> simp_all
  | trans hxy _ ihxy ihyz =>
      have hsymm : ∀ {a b}, ¬ (p a = true ∧ p b = true) → ¬ (p b = true ∧ p a = true) :=
        fun hab hba => hab hba.symm
      rw [ihxy hunique, ihyz ((hxy.pairwise_iff hsymm).mp hunique)]

namespace Value

/-- A value is another one up to the order of the items, if it is a list. -/
inductive Reorders : Value → Value → Prop where
  | same (v : Value) : Reorders v v
  | items {xs ys : List Value} : xs.Perm ys → Reorders (list xs) (list ys)

/-- Whether no list is among the items of a value. -/
def isFlat : Value → Bool
  | list items => items.all fun item => item.asList?.isNone
  | _ => true

/-- A list equals nothing but a list. -/
theorem looselyEquals_list_left {v : Value} (hv : v.asList? = none) (xs : List Value) :
    (list xs).looselyEquals v = false := by
  cases v with
  | list => cases hv
  | _ => rfl

/-- Nothing but a list equals a list. -/
theorem looselyEquals_list_right {v : Value} (hv : v.asList? = none) (xs : List Value) :
    v.looselyEquals (list xs) = false := by
  cases v with
  | list => cases hv
  | number n => simp [looselyEquals, sameNumber, asNumber?]
  | bool b => simp [looselyEquals, sameBool, asBool?]
  | _ => rfl

namespace Reorders

variable {v v' : Value} (h : v.Reorders v')

include h

/-- Values that differ by order are empty together. -/
theorem isEmpty_eq : v.isEmpty = v'.isEmpty := by
  cases h with
  | same => rfl
  | items hperm => exact hperm.isEmpty_eq

/-- No list is read as a number, in any order. -/
theorem compareNumeric?_eq (operand : Value) :
    v.compareNumeric? operand = v'.compareNumeric? operand := by
  cases h with
  | same => rfl
  | items => simp [compareNumeric?, asNumber?]

/-- Compared with what is no list, the order of a list does not show. -/
theorem looselyEquals_eq {operand : Value} (hoperand : operand.asList? = none) :
    v.looselyEquals operand = v'.looselyEquals operand := by
  cases h with
  | same => rfl
  | items => rw [looselyEquals_list_left hoperand, looselyEquals_list_left hoperand]

/-- A list has the same items in any order. -/
theorem contains_eq (sought : Value) : v.contains sought = v'.contains sought := by
  cases h with
  | same => rfl
  | items hperm => exact hperm.any_eq

/-- Sought among items that are no lists, a list is not found in any order. -/
theorem contains_sought_eq {inventory : Value} (hflat : inventory.isFlat = true) :
    inventory.contains v = inventory.contains v' := by
  cases h with
  | same => rfl
  | @items xs ys _ =>
      have hnone : ∀ sought : List Value, inventory.contains (.list sought) = false := by
        intro sought
        cases inventory with
        | list items =>
            rw [contains, asList?, List.any_eq_false]
            intro item hitem
            have hitem := Option.isNone_iff_eq_none.mp (List.all_eq_true.mp hflat item hitem)
            rw [looselyEquals_list_right hitem]
            exact Bool.false_ne_true
        | _ => rfl
      rw [hnone xs, hnone ys]

end Reorders

end Value

/-! ## What is looked up -/

namespace World

/-- No two elements have the same id ignoring case. -/
def IdsApart (w : World) : Prop :=
  w.elements.Pairwise fun a b => ¬ sameName a.id b.id = true

instance (w : World) : Decidable w.IdsApart :=
  inferInstanceAs (Decidable (w.elements.Pairwise fun a b => ¬ sameName a.id b.id = true))

/-- No `inventory` property is a list with a list among its items. -/
def InventoriesAreFlat (w : World) : Prop :=
  ∀ e ∈ w.elements, (e.property? "inventory").all Value.isFlat = true

instance (w : World) : Decidable w.InventoriesAreFlat :=
  inferInstanceAs
    (Decidable (∀ e ∈ w.elements, (e.property? "inventory").all Value.isFlat = true))

section Lookup

variable {w : World} {es : List Element} (hperm : es.Perm w.elements) (hids : w.IdsApart)

include hperm hids

/-- An id is found as before. -/
theorem find?_reorder (id : String) :
    World.find? { w with elements := es } id = w.find? id := by
  refine (find?_eq_of_perm hperm.symm ?_).symm
  refine hids.imp fun {a b} hapart hboth => hapart ?_
  -- both ids are the one sought, and so each other's
  simp only [sameName, beq_iff_eq] at hboth ⊢
  exact hboth.1.trans hboth.2.symm

/-- The element of an optional id is found as before. -/
theorem holder?_reorder (id : Option String) :
    World.holder? { w with elements := es } id = w.holder? id := by
  simp only [holder?, funext (find?_reorder hperm hids)]

/-- The location is the same. -/
theorem location?_reorder : World.location? { w with elements := es } = w.location? := by
  simp only [location?, player?, currentScene?, holder?_reorder hperm hids,
    funext (find?_reorder hperm hids)]

/-- A subject resolves to the same element. -/
theorem resolve?_reorder (s : Subject) :
    World.resolve? { w with elements := es } s = w.resolve? s := by
  have helement : ∀ kind, World.element? { w with elements := es } kind = w.element? kind := by
    intro kind
    funext id
    simp only [element?, find?_reorder hperm hids]
  simp only [resolve?, player?, currentScene?, helement, holder?_reorder hperm hids,
    location?_reorder hperm hids]

/-- A name resolves to the same element. -/
theorem namedElement?_reorder (name : String) :
    World.namedElement? { w with elements := es } name = w.namedElement? name := by
  simp only [namedElement?, resolve?_reorder hperm hids, find?_reorder hperm hids]

/-- A part resolves to the same element. -/
theorem partElement?_reorder (name : String) :
    World.partElement? { w with elements := es } name = w.partElement? name := by
  simp only [partElement?, resolve?_reorder hperm hids]

/-- An operand has the same value. -/
theorem operandValue_reorder (o : Operand) :
    World.operandValue { w with elements := es } o = w.operandValue o := by
  cases o with
  | element name => simp only [operandValue, namedElement?_reorder hperm hids]
  | _ => rfl

/-- A scene was visited as often. -/
theorem visitCount?_reorder (s : Subject) (scene : String) :
    World.visitCount? { w with elements := es } s scene = w.visitCount? s scene := by
  simp only [visitCount?, resolve?_reorder hperm hids]

/-- The distance between two subjects is the same. -/
theorem distance?_reorder (origin goal : Subject) :
    World.distance? { w with elements := es } origin goal = w.distance? origin goal := by
  simp only [distance?, resolve?_reorder hperm hids]

end Lookup

/-- An element that a name resolves to is one of the world. -/
theorem mem_of_namedElement? {w : World} {name : String} {e : Element}
    (h : w.namedElement? name = some e) : e ∈ w.elements := by
  unfold namedElement? at h
  split at h
  · exact mem_of_resolve? h
  · exact List.mem_of_find?_eq_some h

/-- No operand stands for a list. -/
theorem asList?_operandValue (w : World) (o : Operand) : (w.operandValue o).asList? = none := by
  cases o with
  | element name =>
      simp only [operandValue]
      split <;> rfl
  | _ => rfl

/-! ## What an element contains -/

/-- What an element contains is told in another order at most. -/
theorem inventory_reorders {w : World} {es : List Element} (hperm : es.Perm w.elements)
    (e : Element) : (inventory { w with elements := es } e).Reorders (w.inventory e) := by
  unfold inventory
  cases e.property? "inventory" with
  | some v => exact .same v
  | none => exact .items (((hperm.filter _).map _).map _)

/-- The value of a relation's subject differs at most in the order of what it holds. -/
theorem subjectValue_reorders {w : World} {es : List Element} (hperm : es.Perm w.elements)
    (e : Element) (r : Relation) :
    (subjectValue { w with elements := es } e r).Reorders (w.subjectValue e r) := by
  unfold subjectValue
  split
  · exact .same _
  · exact inventory_reorders hperm e
  · split
    · exact .same _
    · split
      · exact inventory_reorders hperm e
      · exact .same _

/-- Where the `inventory` properties are flat, so is everything that an element contains. -/
theorem InventoriesAreFlat.inventory {w : World} (hflat : w.InventoriesAreFlat) {e : Element}
    (he : e ∈ w.elements) : (w.inventory e).isFlat = true := by
  have hproperty := hflat e he
  unfold World.inventory
  cases hvalue : e.property? "inventory" with
  | some v =>
      rw [hvalue] at hproperty
      exact hproperty
  | none =>
      rw [Option.getD_none, Value.isFlat, List.all_map, List.all_eq_true]
      intro id _
      rfl

/-! ## Relations -/

section Relations

variable {w : World} {es : List Element} (hperm : es.Perm w.elements) (hids : w.IdsApart)

include hperm hids

/-- Equality holds as before. -/
theorem isEqual_reorder (e : Element) (r : Relation) :
    World.isEqual { w with elements := es } e r = w.isEqual e r := by
  have hbare : World.bareIs { w with elements := es } e r.operand = w.bareIs e r.operand := by
    cases r.operand with
    | element name => simp only [bareIs, namedElement?_reorder hperm hids]
    | _ => rfl
  have hvalue := (subjectValue_reorders hperm e r).looselyEquals_eq
    (w.asList?_operandValue r.operand)
  simp only [isEqual, hbare, operandValue_reorder hperm hids, hvalue]

/-- Comparisons of numbers hold as before. -/
theorem compares_reorder (e : Element) (r : Relation) :
    World.compares { w with elements := es } e r = w.compares e r := by
  have hvalue := (subjectValue_reorders hperm e r).compareNumeric?_eq (w.operandValue r.operand)
  simp only [compares, operandValue_reorder hperm hids]
  cases r.isBare with
  | true => rfl
  | false => simp only [Bool.false_eq_true, if_false, hvalue]

/-- What an element has is the same. -/
theorem hasOperand_reorder (e : Element) (o : Operand) :
    World.hasOperand { w with elements := es } e o = w.hasOperand e o := by
  have hholds : ∀ name,
      World.holdsNamed { w with elements := es } e name = w.holdsNamed e name := by
    intro name
    simp only [holdsNamed, partElement?_reorder hperm hids]
    exact hperm.any_eq
  cases o <;> simp only [hasOperand, hholds]

/-- What an element is in is the same, where inventories are flat. -/
theorem isInOperand_reorder (hflat : w.InventoriesAreFlat) (e : Element) (r : Relation) :
    World.isInOperand { w with elements := es } e r = w.isInOperand e r := by
  unfold isInOperand
  cases r.operand with
  | element name =>
      simp only [namedElement?_reorder hperm hids]
      cases hcontainer : w.namedElement? name with
      | none => rfl
      | some container =>
          have hinventory := (inventory_reorders hperm container).contains_eq
          have hsought := (subjectValue_reorders hperm e r).contains_sought_eq
            (hflat.inventory (mem_of_namedElement? hcontainer))
          simp only [hinventory, hsought]
  | _ => rfl

/-- A relation holds of an element as before, where inventories are flat. -/
theorem relates_reorder (hflat : w.InventoriesAreFlat) (e : Element) (r : Relation) :
    World.relates { w with elements := es } e r = w.relates e r := by
  have hempty := (subjectValue_reorders hperm e r).isEmpty_eq
  unfold relates
  rw [hasOperand_reorder hperm hids, hempty, isInOperand_reorder hperm hids hflat,
    isEqual_reorder hperm hids, compares_reorder hperm hids]

end Relations

end World

namespace Condition

open World

/-- Where no two ids are the same ignoring case and no inventory has lists among its items, the
order of the elements does not matter to any condition. -/
theorem holdsIn_reorder {w : World} {es : List Element} (hperm : es.Perm w.elements)
    (hids : w.IdsApart) (hflat : w.InventoriesAreFlat) (c : Condition) :
    c.holdsIn { w with elements := es } = c.holdsIn w := by
  induction c with
  | and l r _ ihl ihr => rw [holdsIn, holdsIn, ihl, ihr]
  | or l r _ ihl ihr => rw [holdsIn, holdsIn, ihl, ihr]
  | not c _ ih => rw [holdsIn, holdsIn, ih]
  | relation r =>
      simp only [holdsIn, relationHolds, resolve?_reorder hperm hids,
        relates_reorder hperm hids hflat]
  | visits v => simp only [holdsIn, countHolds, visitCount?_reorder hperm hids]
  | distance d => simp only [holdsIn, distanceHolds, distance?_reorder hperm hids]

/-- A world with a chest, a lamp inside it, and a purse that tells what it contains by itself. -/
def stockedRoom : World :=
  World.empty
    |>.addElement (.ofId "chest" .item)
    |>.addElement { Element.ofId "lamp" .item with container := some "Chest" }
    |>.addElement ((Element.ofId "purse" .item).setProperty "Inventory" (.list [.text "coin"]))

/-- The lamp is in the chest, and what the chest contains is, as a whole, not in the purse. -/
def lampIsStowed : Condition :=
  both (.relation ⟨.item "lamp", .isIn, .element "chest", none, none, .atStart⟩)
    (.not (.relation ⟨.item "chest", .isIn, .element "purse", none, some "inventory", .atStart⟩)
      .atStart)

/-- A lamp is found in a room whose elements are listed backwards. -/
theorem holdsIn_reorder_stockedRoom :
    stockedRoom.elements.reverse.Perm stockedRoom.elements ∧ stockedRoom.IdsApart ∧
      stockedRoom.InventoriesAreFlat ∧
      lampIsStowed.holdsIn { stockedRoom with elements := stockedRoom.elements.reverse } =
        lampIsStowed.holdsIn stockedRoom ∧
      lampIsStowed.holdsIn stockedRoom = true := by
  have hperm := stockedRoom.elements.reverse_perm
  have hids : stockedRoom.IdsApart := by decide
  have hflat : stockedRoom.InventoriesAreFlat := by decide
  exact ⟨hperm, hids, hflat, holdsIn_reorder hperm hids hflat lampIsStowed, by decide⟩

end Condition

end GameCondition
