import GameCondition.Proofs.Condition.LetterCase
import GameCondition.World.Judging

/-! # Judging in any case

A name means the same in lower case, but where an exact name goes before one that differs in case:
in the flags, properties and attributes of an element and among the scenes of a visitor. So where
no two names in one of these differ in case only, a condition holds with its names in lower case
exactly when it holds as it is written (`Condition.holdsIn_lowerNames`).
-/

namespace GameCondition

/-! ## Names apart -/

namespace Dict

variable {α : Type}

/-- Whether no two names of a dictionary differ in case only. -/
def NamesApart (d : Dict α) : Prop :=
  ∀ a ∈ d.keys, ∀ b ∈ d.keys, sameName a b = true → a = b

instance (d : Dict α) : Decidable d.NamesApart :=
  inferInstanceAs (Decidable (∀ a ∈ d.keys, ∀ b ∈ d.keys, sameName a b = true → a = b))

/-- Among names that differ in more than case, a name is found by case where it is found as it is.
-/
theorem map_find?_sameName {name : String} {value : α} {es : List (String × α)}
    (hapart : ∀ a ∈ es.map (·.1), ∀ b ∈ es.map (·.1), sameName a b = true → a = b)
    (h : es.lookup name = some value) :
    (es.find? fun e => sameName e.1 name).map (·.2) = some value := by
  -- by induction on the entries, of which the first by case must be the exact one
  induction es with
  | nil => cases h
  | cons e es ih =>
    rw [lookup_entry] at h
    split at h
    · next heq =>
      rw [List.find?_cons_of_pos (by simp [sameName, heq]), Option.map_some, h]
    · next hne =>
      have hmem : name ∈ es.map (·.1) := mem_map_fst_iff_lookup.mpr (by rw [h]; rfl)
      -- the first entry is not the one sought, and so differs from it in more than case
      have hother : ¬ sameName e.1 name = true := by
        intro hsame
        exact hne (hapart e.1 (by simp) name (List.mem_cons_of_mem _ hmem) hsame).symm
      rw [List.find?_cons, Bool.eq_false_iff.mpr hother]
      exact ih (fun a ha b hb => hapart a (List.mem_cons_of_mem _ ha) b
        (List.mem_cons_of_mem _ hb)) h

/-- Among names apart the exact one need not go first. -/
theorem NamesApart.lookup_eq {d : Dict α} (h : d.NamesApart) (name : String) :
    d.lookup name = (d.entries.find? fun e => sameName e.1 name).map (·.2) := by
  unfold lookup
  cases hget : d.get? name with
  | none => rfl
  | some value => exact (map_find?_sameName h hget).symm

/-- In a map whose names are apart a name is looked up in any case. -/
theorem NamesApart.lookup_lowerName {d : Dict α} (h : d.NamesApart) (name : String) :
    d.lookup (lowerName name) = d.lookup name := by
  simp only [h.lookup_eq, sameName_lowerName_right]

/-- What is looked up is in the map. -/
theorem exists_of_lookup {d : Dict α} {name : String} {value : α}
    (h : d.lookup name = some value) : ∃ e ∈ d.entries, e.2 = value := by
  unfold lookup at h
  -- the exact name goes first, else the first that differs in case only
  cases hget : d.get? name with
  | some v =>
    rw [hget] at h
    cases h
    obtain ⟨l₁, l₂, hsplit, -⟩ := List.lookup_eq_some_iff.mp hget
    exact ⟨(name, value), by rw [hsplit]; simp, rfl⟩
  | none =>
    rw [hget] at h
    obtain ⟨e, he, hvalue⟩ := Option.map_eq_some_iff.mp h
    exact ⟨e, List.mem_of_find?_eq_some he, hvalue⟩

end Dict

/-- Whether no two names of one element or one visitor differ in case only. -/
structure World.NamesApart (w : World) : Prop where
  flags : ∀ e ∈ w.elements, e.flags.NamesApart
  properties : ∀ e ∈ w.elements, e.properties.NamesApart
  attributes : ∀ e ∈ w.elements, e.attributes.NamesApart
  scenes : ∀ v ∈ w.visits.entries, v.2.NamesApart

/-! ## Values -/

namespace Value

/-- A text in lower case is read as the same truth value. -/
@[simp] theorem asBool?_lowerName (s : String) :
    asBool? (.text (lowerName s)) = asBool? (.text s) := by
  simp only [asBool?, sameAscii_lowerName (show lacksK "true" = true by decide),
    sameAscii_lowerName (show lacksK "false" = true by decide)]

/-- Loose equality does not see the case of a text. -/
@[simp] theorem looselyEquals_lowerName (v : Value) (s : String) :
    v.looselyEquals (.text (lowerName s)) = v.looselyEquals (.text s) := by
  cases v <;> simp [looselyEquals, sameNumber, sameBool]

/-- No number reads otherwise in lower case. -/
@[simp] theorem compareNumeric?_lowerName (v : Value) (s : String) :
    v.compareNumeric? (.text (lowerName s)) = v.compareNumeric? (.text s) := by
  simp [compareNumeric?]

end Value

/-! ## Names of elements -/

/-- An element is in a state in any case. -/
@[simp] theorem Element.isInState_lowerName (e : Element) (name : String) :
    e.isInState (lowerName name) = e.isInState name := by
  unfold isInState
  cases e.state <;> simp

namespace World

variable (w : World)

/-- Elements are found in any case. -/
@[simp] theorem find?_lowerName (id : String) : w.find? (lowerName id) = w.find? id := by
  simp [find?]

/-- An id names its element in lower case. -/
@[simp] theorem element?_lowerName (kind : SubjectKind) (id : String) :
    w.element? kind (lowerName id) = w.element? kind id := by
  simp [element?]

/-- A subject stands for one element, whatever its case. -/
@[simp] theorem resolve?_lowerNames (s : Subject) : w.resolve? s.lowerNames = w.resolve? s := by
  obtain ⟨kind, id⟩ := s
  -- only the kinds that require an id have a name to lower
  cases kind <;> simp [resolve?, Subject.lowerNames, Option.bind_map]

/-- A word stands for a part in any case. -/
@[simp] theorem partOf?_lowerName (name : String) : partOf? (lowerName name) = partOf? name := by
  simp [partOf?]

/-- A part names its element in lower case. -/
@[simp] theorem partElement?_lowerName (name : String) :
    w.partElement? (lowerName name) = w.partElement? name := by
  simp [partElement?]

/-- What an operand names is found in any case. -/
@[simp] theorem namedElement?_lowerName (name : String) :
    w.namedElement? (lowerName name) = w.namedElement? name := by
  simp [namedElement?]

/-- No value tells an operand from itself in lower case. -/
@[simp] theorem looselyEquals_operandValue (v : Value) (o : Operand) :
    v.looselyEquals (w.operandValue o.lowerNames) = v.looselyEquals (w.operandValue o) := by
  cases o with
  | element name =>
    simp only [Operand.lowerNames, operandValue, namedElement?_lowerName]
    cases w.namedElement? name <;> simp
  | _ => rfl

/-- No value compares otherwise with an operand in lower case. -/
@[simp] theorem compareNumeric?_operandValue (v : Value) (o : Operand) :
    v.compareNumeric? (w.operandValue o.lowerNames) = v.compareNumeric? (w.operandValue o) := by
  cases o with
  | element name =>
    simp only [Operand.lowerNames, operandValue, namedElement?_lowerName]
    cases w.namedElement? name <;> simp
  | _ => rfl

/-- A relation is bare in any case. -/
@[simp] theorem isBare_lowerNames (r : Relation) : r.lowerNames.isBare = r.isBare := by
  simp [Relation.isBare, Relation.lowerNames]

/-- Whether a relation asks for a flag does not depend on case. -/
@[simp] theorem asksFlag_lowerNames (r : Relation) : asksFlag r.lowerNames = asksFlag r := by
  unfold asksFlag Relation.lowerNames
  cases r.attr <;> cases r.property <;> simp

/-- What an element holds is named in any case. -/
@[simp] theorem holdsNamed_lowerName (e : Element) (name : String) :
    w.holdsNamed e (lowerName name) = w.holdsNamed e name := by
  unfold holdsNamed
  rw [partElement?_lowerName]
  cases w.partElement? name <;> simp

/-- An element has the same operands in lower case. -/
@[simp] theorem hasOperand_lowerNames (e : Element) (o : Operand) :
    w.hasOperand e o.lowerNames = w.hasOperand e o := by
  cases o <;> simp [hasOperand, Operand.lowerNames]

/-- An element that plays a part belongs to the world. -/
theorem mem_of_holder? {w : World} {id : Option String} {e : Element}
    (h : w.holder? id = some e) : e ∈ w.elements := by
  obtain ⟨id, -, hfind⟩ := Option.bind_eq_some_iff.mp h
  exact List.mem_of_find?_eq_some hfind

/-- The location is an element of the world. -/
theorem mem_of_location? {w : World} {e : Element} (h : w.location? = some e) :
    e ∈ w.elements := by
  -- the location is what the player is in, else the current scene
  unfold location? at h
  cases hinside : w.player?.bind fun p => p.container.bind w.find? with
  | some container =>
    rw [hinside] at h
    cases h
    obtain ⟨p, -, hcontainer⟩ := Option.bind_eq_some_iff.mp hinside
    exact mem_of_holder? hcontainer
  | none =>
    rw [hinside] at h
    exact mem_of_holder? h

/-- What a subject stands for belongs to the world. -/
theorem mem_of_resolve? {w : World} {s : Subject} {e : Element} (h : w.resolve? s = some e) :
    e ∈ w.elements := by
  unfold resolve? at h
  split at h
  -- the location and the named elements are looked up by themselves, the rest are parts
  case h_5 => exact mem_of_location? h
  case h_8 =>
    obtain ⟨id, -, helement⟩ := Option.bind_eq_some_iff.mp h
    exact List.mem_of_find?_eq_some (Option.filter_eq_some_iff.mp helement).1
  all_goals exact mem_of_holder? h

/-! ## Relations -/

/-- Visits are counted for a scene in any case. -/
theorem NamesApart.visitCount?_lowerNames {w : World} (hw : w.NamesApart) (s : Subject)
    (scene : String) : w.visitCount? s.lowerNames (lowerName scene) = w.visitCount? s scene := by
  have hscenes : ∀ id, ((w.visits.lookup id).bind fun scenes => scenes.lookup (lowerName scene)) =
      (w.visits.lookup id).bind fun scenes => scenes.lookup scene := by
    intro id
    -- the visitor is found first, and then the scene among its own
    cases hlookup : w.visits.lookup id with
    | none => rfl
    | some scenes =>
      obtain ⟨v, hv, rfl⟩ := Dict.exists_of_lookup hlookup
      exact (hw.scenes v hv).lookup_lowerName scene
  simp only [visitCount?, resolve?_lowerNames, hscenes]

namespace NamesApart

variable {w : World} (hw : w.NamesApart) {e : Element} (he : e ∈ w.elements)

include hw he

/-- A flag has its value in lower case. -/
theorem flag?_lowerName (name : String) : e.flag? (lowerName name) = e.flag? name :=
  (hw.flags e he).lookup_lowerName name

/-- A property has its value in lower case. -/
theorem property?_lowerName (name : String) : e.property? (lowerName name) = e.property? name :=
  (hw.properties e he).lookup_lowerName name

/-- An attribute has its value in lower case. -/
theorem attribute?_lowerName (name : String) :
    e.attribute? (lowerName name) = e.attribute? name :=
  (hw.attributes e he).lookup_lowerName name

/-- A field has one value, whatever the case of its name. -/
theorem fieldValue_lowerName (field : String) :
    fieldValue e (lowerName field) = fieldValue e field := by
  simp [fieldValue, hw.property?_lowerName he, hw.flag?_lowerName he]

/-- An element is called the same in lower case. -/
theorem isAs_lowerName (name : String) : isAs e (lowerName name) = isAs e name := by
  simp [isAs, hw.flag?_lowerName he]

/-- The value that is compared does not depend on case. -/
theorem subjectValue_lowerNames (r : Relation) :
    w.subjectValue e r.lowerNames = w.subjectValue e r := by
  unfold subjectValue Relation.lowerNames
  cases r.attr with
  | some attr => simp [hw.attribute?_lowerName he]
  | none =>
    cases r.property with
    | none => rfl
    | some field => simp [hw.fieldValue_lowerName he]

/-- Equality holds in lower case as before. -/
theorem isEqual_lowerNames (r : Relation) : w.isEqual e r.lowerNames = w.isEqual e r := by
  -- a bare word is asked as a flag, a field or a value, and each is the same in lower case
  have hflag : e.flag? r.lowerNames.operand.value = e.flag? r.operand.value := by
    simp only [Relation.lowerNames]
    cases r.operand with
    | element name => exact hw.flag?_lowerName he name
    | _ => rfl
  have hbare : w.bareIs e r.lowerNames.operand = w.bareIs e r.operand := by
    simp only [Relation.lowerNames]
    cases r.operand with
    | element name => simp [bareIs, Operand.lowerNames, hw.isAs_lowerName he]
    | _ => rfl
  have hvalue : ∀ v : Value, v.looselyEquals (w.operandValue r.lowerNames.operand) =
      v.looselyEquals (w.operandValue r.operand) := fun v => looselyEquals_operandValue w v _
  simp only [isEqual, isBare_lowerNames, asksFlag_lowerNames, hbare, hflag, hvalue,
    hw.subjectValue_lowerNames he]

/-- Comparisons of numbers hold in lower case as before. -/
theorem compares_lowerNames (r : Relation) : w.compares e r.lowerNames = w.compares e r := by
  have hvalue : ∀ v : Value, v.compareNumeric? (w.operandValue r.lowerNames.operand) =
      v.compareNumeric? (w.operandValue r.operand) := fun v => compareNumeric?_operandValue w v _
  have hcomparison : r.lowerNames.comparison = r.comparison := rfl
  simp only [compares, isBare_lowerNames, hvalue, hcomparison, hw.subjectValue_lowerNames he]

/-- What an element is in is the same in lower case. -/
theorem isInOperand_lowerNames (r : Relation) :
    w.isInOperand e r.lowerNames = w.isInOperand e r := by
  have hoperand : r.lowerNames.operand = r.operand.lowerNames := rfl
  unfold isInOperand
  rw [hoperand]
  -- only an operand that names an element has a case
  cases r.operand with
  | element name =>
    simp only [Operand.lowerNames, namedElement?_lowerName, isBare_lowerNames,
      hw.subjectValue_lowerNames he]
  | _ => rfl

/-- A relation with an element holds in any case. -/
theorem relates_lowerNames (r : Relation) : w.relates e r.lowerNames = w.relates e r := by
  have hcomparison : r.lowerNames.comparison = r.comparison := rfl
  have hhas : w.hasOperand e r.lowerNames.operand = w.hasOperand e r.operand :=
    hasOperand_lowerNames w e _
  unfold relates
  rw [hcomparison, hhas, hw.subjectValue_lowerNames he, hw.isEqual_lowerNames he,
    hw.isInOperand_lowerNames he, hw.compares_lowerNames he]

end NamesApart

end World

namespace Condition

open World

/-- Where a condition stands in its text does not matter to its truth. -/
theorem holdsIn_unplaced (w : World) (c : Condition) : c.unplaced.holdsIn w = c.holdsIn w := by
  induction c with
  | and l r s ihl ihr => rw [unplaced, holdsIn, holdsIn, ihl, ihr]
  | or l r s ihl ihr => rw [unplaced, holdsIn, holdsIn, ihl, ihr]
  | not c s ih => rw [unplaced, holdsIn, holdsIn, ih]
  | relation r => rfl
  | visits v => rfl
  | distance d => rfl

/-- Where no names differ in case only, a condition holds with its names in lower case exactly when
it holds as it is written. -/
theorem holdsIn_lowerNames {w : World} (hw : w.NamesApart) (c : Condition) :
    c.lowerNames.holdsIn w = c.holdsIn w := by
  -- by induction on the tree, with a leaf for each kind of relation
  induction c with
  | and l r s ihl ihr => rw [lowerNames, holdsIn, holdsIn, ihl, ihr]
  | or l r s ihl ihr => rw [lowerNames, holdsIn, holdsIn, ihl, ihr]
  | not c s ih => rw [lowerNames, holdsIn, holdsIn, ih]
  | relation r =>
    rw [lowerNames, holdsIn, holdsIn, relationHolds, relationHolds, Relation.lowerNames,
      resolve?_lowerNames]
    -- names apart are needed for elements of the world, so for the subject once it resolves
    cases hsubject : w.resolve? r.subject with
    | none => rfl
    | some e => exact hw.relates_lowerNames (mem_of_resolve? hsubject) r
  | visits v =>
    rw [lowerNames, holdsIn, holdsIn, countHolds, countHolds, hw.visitCount?_lowerNames]
  | distance d =>
    simp [lowerNames, holdsIn, distanceHolds, distance?]

/-- Where no names differ in case only, conditions that differ in the ASCII case of their names, and
in their places, hold together. -/
theorem holdsIn_eq_of_lowerAscii {w : World} (hw : w.NamesApart) {c c' : Condition}
    (h : c.unplaced.mapNames lowerAscii = c'.unplaced.mapNames lowerAscii) :
    c.holdsIn w = c'.holdsIn w := by
  -- both conditions have the same names in lower case
  calc
    c.holdsIn w = c.unplaced.lowerNames.holdsIn w := by
      rw [holdsIn_lowerNames hw, holdsIn_unplaced]
    _ = c'.unplaced.lowerNames.holdsIn w := by
      rw [← lowerNames_mapNames lowerName_lowerAscii, h, lowerNames_mapNames lowerName_lowerAscii]
    _ = c'.holdsIn w := by
      rw [holdsIn_lowerNames hw, holdsIn_unplaced]

/-- A world with a chest that is locked. -/
def lockedChest : World :=
  World.empty.addElement ((Element.ofId "chest" .item).setFlag "Locked" true)

/-- Whether the chest is locked, both written in some case. -/
def chestIsLocked (chest locked : String) : Condition :=
  .relation ⟨.item chest, .is, .bool true, none, some locked, .atStart⟩

/-- A chest that is locked in capitals and in small letters. -/
theorem holdsIn_chestIsLocked :
    lockedChest.NamesApart ∧
      (chestIsLocked "CHEST" "locked").unplaced.mapNames lowerAscii =
        (chestIsLocked "Chest" "LOCKED").unplaced.mapNames lowerAscii ∧
      (chestIsLocked "CHEST" "locked").holdsIn lockedChest =
        (chestIsLocked "Chest" "LOCKED").holdsIn lockedChest ∧
      (chestIsLocked "Chest" "LOCKED").holdsIn lockedChest = true := by
  have hapart : lockedChest.NamesApart := ⟨by decide, by decide, by decide, by decide⟩
  have hsame : (chestIsLocked "CHEST" "locked").unplaced.mapNames lowerAscii =
      (chestIsLocked "Chest" "LOCKED").unplaced.mapNames lowerAscii := by decide
  exact ⟨hapart, hsame, holdsIn_eq_of_lowerAscii hapart hsame, by decide⟩

end Condition

end GameCondition
