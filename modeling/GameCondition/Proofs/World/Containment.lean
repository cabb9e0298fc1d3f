import GameCondition.Proofs.World.ElementOrder
import GameCondition.Proofs.World.Shorthand

/-! # Containment

What an element contains is asked for in three ways: `has` goes through the elements inside it and
looks for an id or a name, `is_in` lists the ids of these elements and looks for the subject's id or
name among them, and `is_empty` asks whether that list has no items. Where every name means one
element (`World.NamesAreClear`) and a container does not tell what it contains by an `inventory`
property, the three agree with each other and with the containers of the elements
(`Condition.holdsIn_containment`).
-/

namespace GameCondition

/-! ## Names of elements -/

namespace Element

/-- The names of an element: its id and its name. -/
def names (e : Element) : List String :=
  [e.id, e.name]

theorem id_mem_names (e : Element) : e.id ∈ e.names :=
  List.mem_cons_self

theorem name_mem_names (e : Element) : e.name ∈ e.names :=
  List.mem_cons_of_mem _ List.mem_cons_self

theorem mem_names_iff {e : Element} {x : String} : x ∈ e.names ↔ x = e.id ∨ x = e.name := by
  simp [names]

/-- Whether no name of one element is a name of another, ignoring case. -/
def Apart (a b : Element) : Prop :=
  ∀ x ∈ a.names, ∀ y ∈ b.names, sameName x y = false

instance (a b : Element) : Decidable (a.Apart b) :=
  inferInstanceAs (Decidable (∀ x ∈ a.names, ∀ y ∈ b.names, sameName x y = false))

instance : Std.Symm Apart where
  symm a b h y hy x hx := by
    rw [sameName_comm]
    exact h x hx y hy

end Element

namespace World

/-- Whether every name means one element: no two elements share a name ignoring case, and no name
is the word of a kind of subject. -/
structure NamesAreClear (w : World) : Prop where
  apart : w.elements.Pairwise Element.Apart
  noKind : ∀ e ∈ w.elements, ∀ name ∈ e.names, SubjectKind.ofWord? name = none

namespace NamesAreClear

variable {w : World} (h : w.NamesAreClear)

include h

/-- Elements that share a name are one. -/
theorem eq_of_sameName {a b : Element} (ha : a ∈ w.elements) (hb : b ∈ w.elements) {x y : String}
    (hx : x ∈ a.names) (hy : y ∈ b.names) (hsame : sameName x y = true) : a = b := by
  by_contra hne
  have hapart := h.apart.forall ha hb hne x hx y hy
  rw [hapart] at hsame
  cases hsame

variable {e : Element} (he : e ∈ w.elements)

include he

theorem partOf?_eq_none {name : String} (hname : name ∈ e.names) : partOf? name = none := by
  rw [partOf?, h.noKind e he name hname, Option.filter_none]

theorem find?_id : w.find? e.id = some e := by
  have hsome : (w.find? e.id).isSome = true :=
    List.find?_isSome.mpr ⟨e, he, sameName_self e.id⟩
  obtain ⟨found, hfound⟩ := Option.isSome_iff_exists.mp hsome
  have hmem := List.mem_of_find?_eq_some hfound
  have hsame := List.find?_some hfound
  rw [hfound, h.eq_of_sameName hmem he found.id_mem_names e.id_mem_names hsame]

theorem resolve?_item : w.resolve? (.item e.id) = some e := by
  show w.element? .item e.id = some e
  rw [element?, h.find?_id he]
  rfl

theorem namedElement?_id : w.namedElement? e.id = some e := by
  rw [namedElement?, h.partOf?_eq_none he e.id_mem_names, h.find?_id he]

end NamesAreClear

/-! ## What an element contains -/

section Inventory

variable (w : World) {c : Element} (hc : c.property? "inventory" = none)

include hc

theorem inventory_of_noProperty : w.inventory c = .list ((w.contents c.id).map .element) := by
  rw [inventory, hc, Option.getD_none]

/-- The list of what is inside an element has a name in it just if it is the id of something
inside. -/
theorem contains_inventory_iff {x : String} : (w.inventory c).contains (.text x) = true ↔
    ∃ e ∈ w.elements, e.isInside c.id = true ∧ sameName e.id x = true := by
  have hsame : ∀ id, (Value.element id).looselyEquals (.text x) = sameName id x := fun _ => rfl
  rw [w.inventory_of_noProperty hc]
  simp [Value.contains, Value.asList?, contents, hsame]

theorem isEmpty_inventory_iff : (w.inventory c).isEmpty = true ↔
    ∀ e ∈ w.elements, e.isInside c.id = false := by
  rw [w.inventory_of_noProperty hc]
  simp [Value.isEmpty, contents]

end Inventory

/-! ## The operators -/

namespace NamesAreClear

variable {w : World} (h : w.NamesAreClear) {c x : Element} (hx : x ∈ w.elements)

include h hx

/-- Something with a name of an element is inside just if that element is. -/
theorem holdsNamed_iff {name : String} (hname : name ∈ x.names) :
    w.holdsNamed c name = true ↔ x.isInside c.id = true := by
  have hpart : w.partElement? name = none := by
    rw [partElement?, h.partOf?_eq_none hx hname, Option.bind_none]
  simp only [holdsNamed, hpart, List.any_eq_true, Bool.and_eq_true, Bool.or_eq_true]
  constructor
  · -- whatever has the name is the element itself
    rintro ⟨e, he, hinside, hid | hcalled⟩
    · rwa [← h.eq_of_sameName he hx e.id_mem_names hname hid]
    · rwa [← h.eq_of_sameName he hx e.name_mem_names hname hcalled]
  · intro hinside
    refine ⟨x, hx, hinside, ?_⟩
    rcases Element.mem_names_iff.mp hname with rfl | rfl
    · exact .inl (sameName_self _)
    · exact .inr (sameName_self _)

/-- An element is listed in what is inside another, by its id or its name, just if it is inside. -/
theorem isInOperand_iff (hc : c ∈ w.elements) (hown : c.property? "inventory" = none)
    (y : Subject) (s : Span) :
    w.isInOperand x ⟨y, .isIn, .element c.id, none, none, s⟩ = true ↔
      x.isInside c.id = true := by
  simp only [isInOperand, h.namedElement?_id hc, Relation.isBare, Option.isNone_none, Bool.and_self,
    if_true, Bool.or_eq_true, w.contains_inventory_iff hown]
  constructor
  · -- only ids are listed, but one of them might be the name of something else
    rintro (⟨e, he, hinside, hid⟩ | ⟨e, he, hinside, hcalled⟩)
    · rwa [← h.eq_of_sameName he hx e.id_mem_names x.id_mem_names hid]
    · rwa [← h.eq_of_sameName he hx e.id_mem_names x.name_mem_names hcalled]
  · intro hinside
    exact .inl ⟨x, hx, hinside, sameName_self _⟩

end NamesAreClear

end World

namespace Condition

open World

/-- `has`, `is_in` and `is_empty` agree about an element without an `inventory` property: what it
has, by its id or its name, and what is in it is what has it as its container, and it is empty if
it has nothing. -/
theorem holdsIn_containment {w : World} (h : w.NamesAreClear) {c : Element} (hc : c ∈ w.elements)
    (hown : c.property? "inventory" = none) (s : Span) :
    (∀ x ∈ w.elements,
      (∀ name ∈ x.names, (bare (.item c.id) .has (.element name) s).holdsIn w = true ↔
        x.isInside c.id = true) ∧
      ((bare (.item x.id) .isIn (.element c.id) s).holdsIn w = true ↔
        x.isInside c.id = true)) ∧
    (∀ o : Operand, (bare (.item c.id) .isEmpty o s).holdsIn w = true ↔
      ∀ x ∈ w.elements, (bare (.item c.id) .has (.element x.id) s).holdsIn w = false) := by
  have hholds : ∀ {e : Element}, e ∈ w.elements → ∀ comparison o,
      (bare (.item e.id) comparison o s).holdsIn w =
        w.relates e ⟨.item e.id, comparison, o, none, none, s⟩ :=
    fun he _ _ => relationHolds_of_resolved (h.resolve?_item he)
  have hhas : ∀ x ∈ w.elements, ∀ name ∈ x.names,
      (bare (.item c.id) .has (.element name) s).holdsIn w = true ↔ x.isInside c.id = true := by
    intro x hx name hname
    rw [hholds hc]
    exact h.holdsNamed_iff hx hname
  refine ⟨fun x hx => ⟨hhas x hx, ?_⟩, fun o => ?_⟩
  · rw [hholds hx]
    exact h.isInOperand_iff hx hc hown _ _
  · rw [hholds hc]
    refine (w.isEmpty_inventory_iff hown).trans (forall₂_congr fun x hx => ?_)
    rw [← Bool.not_eq_true, ← Bool.not_eq_true, hhas x hx x.id x.id_mem_names]

/-- A lamp that is called a lantern, inside a chest. -/
def stowedLamp : Element :=
  { Element.ofId "lamp" .item with givenName := "Lantern", container := some "CHEST" }

/-- A world with a chest and such a lamp. -/
def chestWithLamp : World :=
  World.empty.addElement (.ofId "chest" .item) |>.addElement stowedLamp

theorem holdsIn_containment_chestWithLamp :
    chestWithLamp.NamesAreClear ∧ Element.ofId "chest" .item ∈ chestWithLamp.elements ∧
      (Element.ofId "chest" .item).property? "inventory" = none ∧
      stowedLamp ∈ chestWithLamp.elements ∧
      (bare (.item "chest") .has (.element "Lantern") .atStart).holdsIn chestWithLamp = true ∧
      (bare (.item "lamp") .isIn (.element "chest") .atStart).holdsIn chestWithLamp = true ∧
      (bare (.item "chest") .isEmpty (.text "") .atStart).holdsIn chestWithLamp = false := by
  have hclear : chestWithLamp.NamesAreClear := ⟨by decide, by decide⟩
  have hchest : Element.ofId "chest" .item ∈ chestWithLamp.elements := List.mem_cons_self
  have hlamp : stowedLamp ∈ chestWithLamp.elements :=
    List.mem_cons_of_mem _ List.mem_cons_self
  have hinside : stowedLamp.isInside "chest" = true := by decide
  obtain ⟨hcontained, hempty⟩ := holdsIn_containment hclear hchest rfl .atStart
  obtain ⟨hhas, hisIn⟩ := hcontained stowedLamp hlamp
  refine ⟨hclear, hchest, rfl, hlamp, ?_, hisIn.mpr hinside, ?_⟩
  · exact (hhas "Lantern" stowedLamp.name_mem_names).mpr hinside
  · rw [← Bool.not_eq_true]
    intro hholds
    have hlacks := (hempty (.text "")).mp hholds stowedLamp hlamp
    rw [(hhas stowedLamp.id stowedLamp.id_mem_names).mpr hinside] at hlacks
    cases hlacks

end Condition

end GameCondition
