import GameCondition.Proofs.Text.Partner
import GameCondition.Proofs.World.Shorthand

/-! # Comparing with a number

`is` goes by loose equality, and has a way of its own for a subject without a field; the numeric
comparisons go by order, and take the state of such a subject. Beside a number all of them follow
one order (`World.numericOrder?`): that of the number which the subject is or spells. Where it is
none, be it missing, a list, a truth value or NaN, none of them holds. So they agree with each
other (`Condition.holdsIn_number`), but for `.flag`: there `is` takes the number as the name of a
flag, and the others find nothing to compare.
-/

namespace GameCondition

/-- A relation with another comparison. -/
def Condition.comparing (r : Relation) (c : Comparison) : Condition :=
  .relation { r with comparison := c }

namespace Comparison

/-- The comparisons that each admit one order alone. -/
def exclusive : List Comparison :=
  [lessThan, equalTo, greaterThan]

theorem isNumeric_of_exclusive : ∀ c ∈ exclusive, c.isNumeric = true := by
  decide

theorem eq_of_admits : ∀ o : Ordering, ∀ c ∈ exclusive, ∀ d ∈ exclusive,
    c.admits o = true → d.admits o = true → c = d := by
  intro o
  cases o <;> decide

/-- What is not equal is less or greater. -/
theorem any_admits_notEqualTo (order : Option Ordering) : order.any notEqualTo.admits =
    (order.any lessThan.admits || order.any greaterThan.admits) := by
  cases order with
  | none => rfl
  | some o => cases o <;> rfl

theorem any_admits_equalTo (order : Option Ordering) :
    order.any equalTo.admits = (order == some .eq) := by
  cases order with
  | none => rfl
  | some o => cases o <;> rfl

end Comparison

namespace Value

/-- Values are the same number if neither goes before the other. -/
theorem sameNumber_eq (a b : Value) :
    sameNumber a b = (a.compareNumeric? b == some .eq) := by
  rw [sameNumber, compareNumeric?]
  cases a.asNumber? with
  | none => rfl
  | some m => cases b.asNumber? <;> rfl

/-- What is loosely equal to a number is or spells the same number. -/
theorem looselyEquals_number (v : Value) (n : Number) :
    v.looselyEquals (.number n) = (v.compareNumeric? (.number n) == some .eq) := by
  rw [← sameNumber_eq]
  cases v <;> rfl

end Value

namespace World

/-- What a comparison of numbers is about: a field of the subject, else its state. -/
def numericValue (w : World) (e : Element) (r : Relation) : Value :=
  if r.isBare then e.stateValue else w.subjectValue e r

/-- The order of what a relation is about and its operand, if both are or spell numbers. -/
def numericOrder? (w : World) (r : Relation) : Option Ordering :=
  (w.resolve? r.subject).bind fun e =>
    (w.numericValue e r).compareNumeric? (w.operandValue r.operand)

/-- What a relation is about has no number where `is` asks for a flag. -/
theorem numericOrder?_of_asksFlag {w : World} {r : Relation} (h : asksFlag r = true) :
    w.numericOrder? r = none := by
  have hnil : ∀ e, w.numericValue e r = .nil := by
    intro e
    unfold asksFlag at h
    split at h
    · next field hattr hfield =>
      have hstate : sameName field "state" = false := (sameName_congr_left h _).trans (by decide)
      have hinventory : sameName field "inventory" = false :=
        (sameName_congr_left h _).trans (by decide)
      simp [numericValue, Relation.isBare, subjectValue, hattr, hfield, h, hstate, hinventory]
    · cases h
  rw [numericOrder?]
  cases w.resolve? r.subject with
  | none => rfl
  | some e =>
    rw [Option.bind_some, hnil e]
    rfl

theorem compares_eq (w : World) (e : Element) (r : Relation) : w.compares e r =
    ((w.numericValue e r).compareNumeric? (w.operandValue r.operand)).any r.comparison.admits := by
  rw [compares, numericValue]
  split <;> simp [*]

theorem relationHolds_of_isNumeric {w : World} {r : Relation} (h : r.comparison.isNumeric = true) :
    w.relationHolds r = (w.numericOrder? r).any r.comparison.admits := by
  rw [relationHolds, numericOrder?]
  cases w.resolve? r.subject with
  | none => rfl
  | some e => exact (relates_of_isNumeric h).trans (compares_eq w e r)

/-- Without a field, a number is compared with the state. -/
theorem bareIs_number (w : World) (e : Element) (n : Number) :
    w.bareIs e (.number n) = e.stateValue.looselyEquals (.number n) := by
  rw [bareIs, Element.stateValue]
  cases e.state <;> rfl

theorem isEqual_number {w : World} {e : Element} {r : Relation} {n : Number}
    (hn : r.operand = .number n) (hflag : asksFlag r = false) :
    w.isEqual e r = (w.numericValue e r).looselyEquals (.number n) := by
  rw [isEqual, numericValue, hn, hflag, bareIs_number]
  cases r.isBare <;> rfl

/-- Beside a number, `is` holds just if the order is that of equals. -/
theorem relationHolds_is {w : World} {r : Relation} {n : Number} (hn : r.operand = .number n)
    (hflag : asksFlag r = false) (his : r.comparison = .is) :
    w.relationHolds r = (w.numericOrder? r == some .eq) := by
  rw [relationHolds, numericOrder?]
  cases w.resolve? r.subject with
  | none => rfl
  | some e =>
    show w.relates e r = _
    rw [relates, his]
    show w.isEqual e r = _
    rw [isEqual_number hn hflag, Value.looselyEquals_number, hn]
    rfl

end World

namespace Condition

open World

/-- What the numeric comparisons say of a relation, whatever its operand, is what one order admits:
of three of them at most one holds, and `is_not_equal_to` holds if one of the outer two does. Beside
a number `is` goes by that order too, but for `.flag`, of which none of the others holds. -/
theorem holdsIn_number (w : World) (r : Relation) :
    (∀ c ∈ Comparison.exclusive, ∀ d ∈ Comparison.exclusive,
      (comparing r c).holdsIn w = true → (comparing r d).holdsIn w = true → c = d) ∧
    ((comparing r .notEqualTo).holdsIn w = true ↔
      (comparing r .lessThan).holdsIn w = true ∨ (comparing r .greaterThan).holdsIn w = true) ∧
    (∀ n, r.operand = .number n → asksFlag r = false →
      ((comparing r .is).holdsIn w = true ↔ (comparing r .equalTo).holdsIn w = true)) ∧
    (asksFlag r = true → ∀ c : Comparison, c.isNumeric = true →
      (comparing r c).holdsIn w = false) := by
  -- a numeric comparison holds when it admits the order of the two values
  have hnumeric : ∀ c : Comparison, c.isNumeric = true →
      (comparing r c).holdsIn w = (w.numericOrder? r).any c.admits :=
    fun c hc => relationHolds_of_isNumeric (r := { r with comparison := c }) hc
  refine ⟨?_, ?_, ?_, ?_⟩
  · intro c hc d hd hcholds hdholds
    rw [hnumeric c (Comparison.isNumeric_of_exclusive c hc), Option.any_eq_true] at hcholds
    rw [hnumeric d (Comparison.isNumeric_of_exclusive d hd), Option.any_eq_true] at hdholds
    obtain ⟨o, ho, hcadmits⟩ := hcholds
    obtain ⟨o', ho', hdadmits⟩ := hdholds
    -- the values have one order, which no two of these comparisons admit
    rw [ho] at ho'
    cases ho'
    exact Comparison.eq_of_admits o c hc d hd hcadmits hdadmits
  · rw [hnumeric .notEqualTo rfl, hnumeric .lessThan rfl, hnumeric .greaterThan rfl,
      Comparison.any_admits_notEqualTo, Bool.or_eq_true]
  · intro n hn hflag
    have his : (comparing r .is).holdsIn w = (w.numericOrder? r == some .eq) :=
      relationHolds_is (r := { r with comparison := .is }) hn hflag rfl
    rw [his, hnumeric .equalTo rfl, Comparison.any_admits_equalTo]
  · intro hflag c hc
    rw [hnumeric c hc, numericOrder?_of_asksFlag hflag]
    rfl

/-- A gauge in a state that spells a number, with a flag that is named like one. -/
def gauge : Element :=
  { Element.ofId "gauge" .item with currentState := some " 5.0 " }.setFlag "5" true

/-- A world with such a gauge alone. -/
def gaugeRoom : World :=
  World.empty.addElement gauge

/-- Whether the gauge, or a field of it, is at five. -/
def gaugeAtFive (field : Option String) : Relation :=
  ⟨.item "gauge", .is, .number (.ofInt 5), none, field, .atStart⟩

theorem holdsIn_number_gaugeAtFive :
    Comparison.lessThan ∈ Comparison.exclusive ∧ Comparison.equalTo ∈ Comparison.exclusive ∧
      (gaugeAtFive none).operand = .number (.ofInt 5) ∧ asksFlag (gaugeAtFive none) = false ∧
      (comparing (gaugeAtFive none) .equalTo).holdsIn gaugeRoom = true ∧
      (comparing (gaugeAtFive none) .is).holdsIn gaugeRoom = true ∧
      (comparing (gaugeAtFive none) .lessThan).holdsIn gaugeRoom = false ∧
      asksFlag (gaugeAtFive (some "Flag")) = true ∧
      (comparing (gaugeAtFive (some "Flag")) .is).holdsIn gaugeRoom = true ∧
      (comparing (gaugeAtFive (some "Flag")) .equalTo).holdsIn gaugeRoom = false := by
  have hless : Comparison.lessThan ∈ Comparison.exclusive := by decide
  have hequal : Comparison.equalTo ∈ Comparison.exclusive := by decide
  have hholds : (comparing (gaugeAtFive none) .equalTo).holdsIn gaugeRoom = true := by
    decide +kernel
  have hflag : asksFlag (gaugeAtFive (some "Flag")) = true := by decide
  obtain ⟨hone, -, his, -⟩ := holdsIn_number gaugeRoom (gaugeAtFive none)
  obtain ⟨-, -, -, hnone⟩ := holdsIn_number gaugeRoom (gaugeAtFive (some "Flag"))
  refine ⟨hless, hequal, rfl, rfl, hholds, (his _ rfl rfl).mpr hholds, ?_, hflag, ?_,
    hnone hflag .equalTo rfl⟩
  · rw [← Bool.not_eq_true]
    intro hbelow
    cases hone _ hless _ hequal hbelow hholds
  · decide +kernel

end Condition

end GameCondition
