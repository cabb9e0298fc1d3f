import GameCondition.Proofs.Number.Equality
import GameCondition.Proofs.World.NumberOperands
import GameCondition.Proofs.World.RoundTrip

/-! # Loose equality

Beside a number two values are compared as numbers and beside a truth value as truth values, on
whichever side it stands. So loose equality is symmetric, although its rules are tried one after
the other; and a value is loosely equal to itself unless there is a NaN in it, be it deep inside
lists (`Value.looselyEquals_comm_and_self`).
-/

namespace GameCondition

namespace Value

/-! ## Exact equality -/

mutual

theorem equals_iff (a b : Value) : a.equals b = true ↔ a = b := by
  cases a with
  | list as =>
    cases b with
    | list bs => rw [equals, itemsEqual_iff as bs, list.injEq]
    | _ => simp [equals]
  | _ => cases b <;> simp [equals]

theorem itemsEqual_iff (as bs : List Value) : itemsEqual as bs = true ↔ as = bs := by
  cases as with
  | nil => cases bs <;> simp [itemsEqual]
  | cons a as =>
    cases bs with
    | nil => simp [itemsEqual]
    | cons b bs =>
      rw [itemsEqual, Bool.and_eq_true, equals_iff a b, itemsEqual_iff as bs, List.cons.injEq]

end

/-! ## Beside numbers and truth values -/

theorem sameNumber_comm (a b : Value) : sameNumber a b = sameNumber b a := by
  rw [sameNumber, sameNumber]
  cases a.asNumber? with
  | none => cases b.asNumber? <;> rfl
  | some m =>
    cases b.asNumber? with
    | none => rfl
    | some n => exact Number.equal_comm m n

theorem sameBool_comm (a b : Value) : sameBool a b = sameBool b a := by
  rw [sameBool, sameBool]
  cases a.asBool? with
  | none => cases b.asBool? <;> rfl
  | some p =>
    cases b.asBool? with
    | none => rfl
    | some q => exact Bool.beq_comm

/-- What a number is loosely equal to is or spells the same number. -/
theorem number_looselyEquals (n : Number) (v : Value) :
    (number n).looselyEquals v = sameNumber (number n) v := by
  cases v <;> rfl

/-- What a truth value is loosely equal to is or spells the same truth value. -/
theorem bool_looselyEquals (p : Bool) (v : Value) :
    (bool p).looselyEquals v = sameBool (bool p) v ∧
      v.looselyEquals (bool p) = sameBool v (bool p) := by
  cases v <;> exact ⟨rfl, rfl⟩

/-! ## Both ways round -/

mutual

/-- Loose equality is symmetric. -/
theorem looselyEquals_comm (a b : Value) : a.looselyEquals b = b.looselyEquals a := by
  cases a with
  | nil => cases b <;> rfl
  | number n => rw [number_looselyEquals, looselyEquals_number, ← sameNumber_eq, sameNumber_comm]
  | bool p => rw [(bool_looselyEquals p b).1, (bool_looselyEquals p b).2, sameBool_comm]
  | list as =>
    cases b with
    | list bs => exact itemsLooselyEqual_comm as bs
    | _ => rfl
  | text s =>
    -- a text may spell a number or a truth value; an element spells neither
    cases b with
    | number n => exact sameNumber_comm _ _
    | bool p => exact sameBool_comm _ _
    | text t => exact sameName_comm s t
    | element t => exact sameName_comm s t
    | _ => rfl
  | element s =>
    cases b with
    | text t => exact sameName_comm s t
    | element t => exact sameName_comm s t
    | _ => rfl

theorem itemsLooselyEqual_comm (as bs : List Value) :
    itemsLooselyEqual as bs = itemsLooselyEqual bs as := by
  cases as with
  | nil => cases bs <;> rfl
  | cons a as =>
    cases bs with
    | nil => rfl
    | cons b bs =>
      rw [itemsLooselyEqual, itemsLooselyEqual, looselyEquals_comm a b,
        itemsLooselyEqual_comm as bs]

end

/-! ## A value and itself -/

mutual

/-- A value is loosely equal to itself iff there is no NaN in it. -/
theorem looselyEquals_self_iff (v : Value) :
    v.looselyEquals v = true ↔ ∀ n ∈ v.numbers, n.isNan = false := by
  cases v with
  | nil => simp [looselyEquals, numbers]
  | bool p => simp [looselyEquals, sameBool, asBool?, numbers]
  | number n => simp [looselyEquals, sameNumber, asNumber?, Number.equal_self, numbers]
  | text s => simp [looselyEquals, sameName_self, numbers]
  | element id => simp [looselyEquals, sameName_self, numbers]
  | list items => exact itemsLooselyEqual_self_iff items

theorem itemsLooselyEqual_self_iff (vs : List Value) :
    itemsLooselyEqual vs vs = true ↔ ∀ n ∈ itemsNumbers vs, n.isNan = false := by
  cases vs with
  | nil => simp [itemsLooselyEqual, itemsNumbers]
  | cons v vs =>
    rw [itemsLooselyEqual, Bool.and_eq_true, looselyEquals_self_iff v,
      itemsLooselyEqual_self_iff vs, itemsNumbers, List.forall_mem_append]

end

/-- Loose equality does not depend on which value stands on which side, and values that are exactly
equal are loosely equal iff no NaN is in them at any depth. -/
theorem looselyEquals_comm_and_self (a b : Value) : a.looselyEquals b = b.looselyEquals a ∧
    (a.equals b = true →
      (a.looselyEquals b = true ↔ ∀ n ∈ a.numbers, n.isNan = false)) := by
  refine ⟨looselyEquals_comm a b, ?_⟩
  intro hequal
  rw [← (equals_iff a b).mp hequal]
  exact looselyEquals_self_iff a

/-- A list with an infinite number, the word for a NaN and an element in it. -/
def bag : Value :=
  list [number (.infinite true), list [text "nan", nil], element "Lamp"]

theorem looselyEquals_comm_and_self_bag : bag.equals bag = true ∧
    (∀ n ∈ bag.numbers, n.isNan = false) ∧ bag.looselyEquals bag = true := by
  have hequal : bag.equals bag = true := (equals_iff bag bag).mpr rfl
  have hnumbers : ∀ n ∈ bag.numbers, n.isNan = false := by decide
  exact ⟨hequal, hnumbers, ((looselyEquals_comm_and_self bag bag).2 hequal).mpr hnumbers⟩

end Value

end GameCondition
