import GameCondition.Number.Basic
import Mathlib.Order.Defs.LinearOrder

/-! # Equal numbers

Numeric equality goes by the place on the number line, so it is symmetric, and a number equals
itself unless it is NaN, which has no place.
-/

namespace GameCondition

namespace Number

/-- Whether a number is none. -/
def isNan : Number → Bool
  | nan _ => true
  | _ => false

theorem place?_eq_none_iff {n : Number} : n.place? = none ↔ n.isNan = true := by
  cases n <;> simp [place?, isNan]

/-- Equal numbers are those with one place. -/
theorem equal_iff {a b : Number} :
    a.equal b = true ↔ a.isNan = false ∧ a.place? = b.place? := by
  rw [← Bool.not_eq_true, ← place?_eq_none_iff, equal, compare?]
  cases a.place? with
  | none => simp
  | some p => cases b.place? <;> simp

theorem equal_comm (a b : Number) : a.equal b = b.equal a := by
  rw [Bool.eq_iff_iff, equal_iff, equal_iff, ← Bool.not_eq_true, ← Bool.not_eq_true,
    ← place?_eq_none_iff, ← place?_eq_none_iff]
  constructor <;> rintro ⟨hplace, hsame⟩
  · exact ⟨hsame ▸ hplace, hsame.symm⟩
  · exact ⟨hsame ▸ hplace, hsame.symm⟩

theorem equal_self (n : Number) : n.equal n = !n.isNan := by
  rw [Bool.eq_iff_iff, equal_iff]
  simp

end Number

end GameCondition
