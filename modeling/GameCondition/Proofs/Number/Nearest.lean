import GameCondition.Condition.Reading
import GameCondition.Proofs.Number.Text
import Mathlib.Algebra.Order.Field.Rat
import Mathlib.Algebra.Order.Ring.Abs
import Mathlib.Tactic.FieldSimp

/-! # The nearest number

What rounding should give is told by the distances alone (`IsNearest`): no other magnitude is
nearer, and of two that are as near the one with the even rank is taken. That is what `nearestRank`
gives (`isNearest_iff`), and so does reading a decimal, whatever it has for digits
(`ofScientific_eq_ofRank`). Hence the whole numbers that decimals are read as
(`smallInteger?_ofScientific`).

A whole number is nearest to itself and to nothing else that has few digits
(`IsNearest.eq_of_short`).
-/

namespace GameCondition

/-- The magnitude of a rank. -/
def rankValue (rank : Nat) : ℚ :=
  rankUnits rank / unitsPerOne

/-- The magnitude of a rank is nearest to a value: no other is nearer, and none is as near unless the
rank is even. -/
def IsNearest (v : ℚ) (rank : Nat) : Prop :=
  ∀ other ≠ rank, |v - rankValue rank| < |v - rankValue other| ∨
    |v - rankValue rank| = |v - rankValue other| ∧ rank % 2 = 0

theorem unitsPerOne_pos_rat : (0 : ℚ) < unitsPerOne := by
  exact_mod_cast unitsPerOne_pos

theorem rankValue_strictMono : StrictMono rankValue := by
  intro a b hab
  have h : (rankUnits a : ℚ) < rankUnits b := by exact_mod_cast rankUnits_strictMono hab
  exact div_lt_div_of_pos_right h unitsPerOne_pos_rat

theorem rankValue_eq_iff {rank m : Nat} :
    rankValue rank = m ↔ rankUnits rank = m * unitsPerOne := by
  rw [rankValue, div_eq_iff unitsPerOne_pos_rat.ne']
  exact_mod_cast Iff.rfl

/-! ## Distances and midpoints -/

section

variable {v a b : ℚ}

theorem abs_sub_lt_iff_mid (hab : a < b) : |v - a| < |v - b| ↔ 2 * v < a + b := by
  rw [← sq_lt_sq]
  constructor
  · intro h
    by_contra hmid
    nlinarith
  · intro h
    nlinarith

theorem abs_sub_lt_iff_mid' (hab : a < b) : |v - b| < |v - a| ↔ a + b < 2 * v := by
  rw [← sq_lt_sq]
  constructor
  · intro h
    by_contra hmid
    nlinarith
  · intro h
    nlinarith

theorem abs_sub_eq_iff_mid (hab : a < b) : |v - a| = |v - b| ↔ 2 * v = a + b := by
  rw [← sq_eq_sq_iff_abs_eq_abs]
  constructor
  · intro h
    have hproduct : (b - a) * (2 * v - (a + b)) = 0 := by linarith
    rcases mul_eq_zero.mp hproduct with h | h <;> linarith
  · intro h
    have hb : b = 2 * v - a := by linarith
    rw [hb]
    ring

end

/-- The midpoints around a rank bound what it is nearest to, and belong to it if it is even. -/
theorem isNearest_iff_mid {v : ℚ} {rank : Nat} : IsNearest v rank ↔
    (2 * v ≤ rankValue rank + rankValue (rank + 1)) ∧
    (0 < rank → rankValue (rank - 1) + rankValue rank ≤ 2 * v) ∧
    (rank % 2 = 1 → rankValue (rank - 1) + rankValue rank < 2 * v ∧
      2 * v < rankValue rank + rankValue (rank + 1)) := by
  have hmono := rankValue_strictMono
  have hnext := hmono (Nat.lt_succ_self rank)
  constructor
  · intro h
    have habove := h (rank + 1) (Nat.succ_ne_self rank)
    rw [abs_sub_lt_iff_mid hnext, abs_sub_eq_iff_mid hnext] at habove
    have hbelow : 0 < rank → rankValue (rank - 1) + rankValue rank < 2 * v ∨
        rankValue (rank - 1) + rankValue rank = 2 * v ∧ rank % 2 = 0 := by
      intro hpos
      have hprev : rankValue (rank - 1) < rankValue rank := hmono (by omega)
      have hnear := h (rank - 1) (by omega)
      rw [abs_sub_lt_iff_mid' hprev, eq_comm, abs_sub_eq_iff_mid hprev] at hnear
      rcases hnear with hnear | ⟨hnear, heven⟩
      · exact .inl hnear
      · exact .inr ⟨hnear.symm, heven⟩
    refine ⟨?_, ?_, ?_⟩
    · rcases habove with h | ⟨h, -⟩ <;> linarith
    · intro hpos
      rcases hbelow hpos with h | ⟨h, -⟩ <;> linarith
    · intro hodd
      rcases hbelow (by omega) with hlow | ⟨-, heven⟩
      · rcases habove with hhigh | ⟨-, heven⟩
        · exact ⟨hlow, hhigh⟩
        · omega
      · omega
  · rintro ⟨hhigh, hlow, hodd⟩ other hother
    -- whatever is farther away is beyond the neighbour on that side
    rcases lt_or_gt_of_ne hother with hbefore | hbehind
    · have hprev : rankValue other < rankValue rank := hmono hbefore
      have hle : rankValue other ≤ rankValue (rank - 1) := hmono.monotone (by omega)
      rw [abs_sub_lt_iff_mid' hprev, eq_comm, abs_sub_eq_iff_mid hprev]
      have hmid := hlow (by omega)
      rcases Nat.mod_two_eq_zero_or_one rank with heven | hodd'
      · rcases lt_or_eq_of_le (hmid.trans' (add_le_add_left hle _)) with h | h
        · exact .inl h
        · exact .inr ⟨h.symm, heven⟩
      · have hstrict := (hodd hodd').1
        exact .inl (by linarith)
    · have hnext' : rankValue rank < rankValue other := hmono hbehind
      have hle : rankValue (rank + 1) ≤ rankValue other := hmono.monotone hbehind
      rw [abs_sub_lt_iff_mid hnext', abs_sub_eq_iff_mid hnext']
      rcases Nat.mod_two_eq_zero_or_one rank with heven | hodd'
      · rcases lt_or_eq_of_le (hhigh.trans (add_le_add_right hle _)) with h | h
        · exact .inl h
        · exact .inr ⟨h, heven⟩
      · have hstrict := (hodd hodd').2
        exact .inl (by linarith)

/-- The midpoints around the rank that is taken. -/
theorem nearestRank_eq_iff {num den rank : Nat} (hden : 0 < den) : nearestRank num den = rank ↔
    ((rankUnits (rank - 1) + rankUnits rank) * den ≤ 2 * num ∧
      2 * num ≤ (rankUnits rank + rankUnits (rank + 1)) * den ∧
      (rank % 2 = 1 → (rankUnits (rank - 1) + rankUnits rank) * den < 2 * num ∧
        2 * num < (rankUnits rank + rankUnits (rank + 1)) * den)) := by
  constructor
  · rintro rfl
    -- the rank is that of the number below or of its neighbour above
    obtain ⟨low, hle, hlt, heq⟩ := nearestRank_spec num hden
    have hmono := rankUnits_strictMono
    rw [heq]
    -- halfway between two numbers the even one is taken
    split
    · next hup =>
      have hnext : rankUnits (low + 1) < rankUnits (low + 1 + 1) := hmono (Nat.lt_succ_self _)
      rw [Nat.add_sub_cancel]
      refine ⟨by omega, by nlinarith, ?_⟩
      intro hodd
      exact ⟨by omega, by nlinarith⟩
    · next hdown =>
      rw [not_or, not_and] at hdown
      have hprev : rankUnits (low - 1) ≤ rankUnits low := hmono.monotone (Nat.sub_le _ _)
      refine ⟨by nlinarith, by omega, ?_⟩
      intro hodd
      have hprev' : rankUnits (low - 1) < rankUnits low := hmono (by omega)
      have hno := fun h => hdown.2 h hodd
      exact ⟨by nlinarith, by omega⟩
  · rintro ⟨hlow, hhigh, hties⟩
    exact nearestRank_eq hden hlow hhigh hties

/-- A fraction against a midpoint, in natural numbers. -/
theorem le_mid_iff {num den : Nat} (hden : 0 < den) (a b : Nat) :
    (2 * ((num : ℚ) / den) ≤ rankValue a + rankValue b ↔
      2 * (num * unitsPerOne) ≤ (rankUnits a + rankUnits b) * den) ∧
    (rankValue a + rankValue b ≤ 2 * ((num : ℚ) / den) ↔
      (rankUnits a + rankUnits b) * den ≤ 2 * (num * unitsPerOne)) := by
  have hden' : (0 : ℚ) < den := by exact_mod_cast hden
  rw [rankValue, rankValue, ← add_div, mul_div_assoc', div_le_div_iff₀ hden' unitsPerOne_pos_rat,
    div_le_div_iff₀ unitsPerOne_pos_rat hden', mul_assoc]
  constructor
  · exact_mod_cast Iff.rfl
  · exact_mod_cast Iff.rfl

/-- The rank that is taken is the nearest one, and no other is. -/
theorem isNearest_iff {num den rank : Nat} (hden : 0 < den) :
    IsNearest ((num : ℚ) / den) rank ↔ nearestRank (num * unitsPerOne) den = rank := by
  have hnext := @le_mid_iff num den hden rank (rank + 1)
  have hprev := @le_mid_iff num den hden (rank - 1) rank
  rw [isNearest_iff_mid, nearestRank_eq_iff hden, hnext.1, hprev.2,
    lt_iff_lt_of_le_iff_le hprev.1, lt_iff_lt_of_le_iff_le hnext.2]
  constructor
  · rintro ⟨hhigh, hlow, hties⟩
    refine ⟨?_, hhigh, hties⟩
    rcases Nat.eq_zero_or_pos rank with rfl | hpos
    · simp
    · exact hlow hpos
  · rintro ⟨hlow, hhigh, hties⟩
    exact ⟨hhigh, fun _ => hlow, hties⟩

/-! ## Decimals -/

/-- Beyond the greatest magnitude everything is rounded to infinity. -/
theorem infinityRank_le_nearestRank {c k : Nat} (h : 10 ^ (k + 310) ≤ c) :
    infinityRank ≤ nearestRank (c * unitsPerOne) (10 ^ k) := by
  have hden : 0 < 10 ^ k := Nat.pow_pos (by norm_num)
  obtain ⟨low, -, hlt, heq⟩ := nearestRank_spec (c * unitsPerOne) hden
  have hbeyond : infinityRank ≤ low := by
    by_contra hlow
    have hmono : rankUnits (low + 1) ≤ rankUnits infinityRank :=
      rankUnits_strictMono.monotone (by omega)
    have hupper : c * unitsPerOne < 10 ^ (k + 310) * unitsPerOne := by
      calc c * unitsPerOne < rankUnits (low + 1) * 10 ^ k := hlt
        _ ≤ rankUnits infinityRank * 10 ^ k := Nat.mul_le_mul_right _ hmono
        _ ≤ 10 ^ 309 * unitsPerOne * 10 ^ k :=
            Nat.mul_le_mul_right _ rankUnits_infinityRank_lt.le
        _ = 10 ^ (k + 309) * unitsPerOne := by
            rw [mul_right_comm, ← pow_add, Nat.add_comm]
        _ ≤ 10 ^ (k + 310) * unitsPerOne :=
            Nat.mul_le_mul_right _ (Nat.pow_le_pow_right (by norm_num) (by omega))
    exact absurd (Nat.lt_of_mul_lt_mul_right hupper) (not_lt.mpr h)
  rw [heq]
  split <;> omega

/-- Below half of the least magnitude everything is rounded to zero. -/
theorem nearestRank_eq_zero {c k : Nat} (hk : 331 ≤ k) (h : c < 10 ^ (k - 331)) :
    nearestRank (c * unitsPerOne) (10 ^ k) = 0 := by
  have hupper : 2 * (c * unitsPerOne) ≤ 10 ^ k := by
    calc 2 * (c * unitsPerOne) ≤ 2 * (10 ^ (k - 331) * 10 ^ 324) :=
          Nat.mul_le_mul_left _ (Nat.mul_le_mul h.le unitsPerOne_lt.le)
      _ ≤ 10 * (10 ^ (k - 331) * 10 ^ 324) := Nat.mul_le_mul_right _ (by norm_num)
      _ = 10 ^ (k - 331 + 325) := by rw [← pow_add, ← pow_succ']
      _ ≤ 10 ^ k := Nat.pow_le_pow_right (by norm_num) (by omega)
  have hone : rankUnits 1 = 1 := rfl
  apply nearestRank_eq (Nat.pow_pos (by norm_num))
  · simp
  · simpa [hone] using hupper
  · simp

/-- A decimal is read as the nearest number. What is cut off without a look at its digits would be
rounded to infinity or to zero. -/
theorem ofScientific_eq_ofRank (negative : Bool) (c k : Nat) :
    Number.ofScientific negative c (-k) =
      .ofRank negative (nearestRank (c * unitsPerOne) (10 ^ k)) := by
  have hden : 0 < 10 ^ k := Nat.pow_pos (by norm_num)
  have hlength : ∀ n, 0 < n → ((Nat.toDigits 10 c).length ≤ n ↔ c < 10 ^ n) := by
    intro n hn
    exact Nat.length_toDigits_le_iff (by norm_num) hn
  have hpos : 0 < (Nat.toDigits 10 c).length := Nat.length_toDigits_pos
  unfold Number.ofScientific
  dsimp only
  split
  · next hc =>
    have hzero : nearestRank (c * unitsPerOne) (10 ^ k) = 0 := by
      rw [hc, Nat.zero_mul]
      exact nearestRank_of_exact hden (by simp)
    rw [hzero]
  split
  · next htop =>
    have hlarge : 10 ^ (k + 310) ≤ c := by
      rw [← not_lt, ← hlength _ (by omega)]
      omega
    rw [Number.ofRank, dif_neg (not_lt.mpr (infinityRank_le_nearestRank hlarge))]
  split
  · next hbottom =>
    have hsmall : c < 10 ^ (k - 331) := by
      rw [← hlength _ (by omega)]
      omega
    rw [nearestRank_eq_zero (by omega) hsmall]
  split
  · -- the exponent is a natural number only if nothing stands after the point
    have hk : k = 0 := by omega
    subst hk
    simp [Number.ofRatio]
  · simp [Number.ofRatio]

/-! ## Whole numbers -/

/-- A sign that a whole number can be written with; zero has both. -/
def HasSign (negative : Bool) (i : Int) : Prop :=
  i = if negative then -(i.natAbs : Int) else i.natAbs

theorem toInt?_ofRank {negative : Bool} {rank : Nat} {i : Int} :
    (Number.ofRank negative rank).toInt? = some i ↔
      rank < infinityRank ∧ rankUnits rank = i.natAbs * unitsPerOne ∧ HasSign negative i := by
  unfold Number.ofRank HasSign
  split
  · next hfinite =>
    simp only [Number.toInt?]
    constructor
    · intro h
      split at h
      · next hwhole =>
        have hexact := Nat.div_mul_cancel (Nat.dvd_of_mod_eq_zero hwhole)
        rw [Option.some.injEq] at h
        -- only the quotient and its sign are left
        generalize rankUnits rank / unitsPerOne = n at *
        have habs : i.natAbs = n := by
          rw [← h]
          split <;> simp
        refine ⟨hfinite, by rw [habs, hexact], ?_⟩
        rw [habs, ← h]
      · cases h
    · rintro ⟨-, hunits, hsign⟩
      rw [hunits, if_pos (Nat.mul_mod_left _ _), Nat.mul_div_cancel _ unitsPerOne_pos, ← hsign]
  · next hinfinite =>
    constructor
    · intro h
      cases h
    · intro h
      exact absurd h.1 hinfinite

/-- A decimal is read as a whole number if that is small and the nearest magnitude. -/
theorem smallInteger?_ofScientific {negative : Bool} {c k : Nat} {i : Int} :
    Condition.smallInteger? (.ofScientific negative c (-k)) = some i ↔
      i.natAbs < Condition.integerLimit ∧ HasSign negative i ∧
      ∃ rank, rankValue rank = i.natAbs ∧ IsNearest ((c : ℚ) / 10 ^ k) rank := by
  have hden : 0 < 10 ^ k := Nat.pow_pos (by norm_num)
  have hcast : (c : ℚ) / 10 ^ k = c / (10 ^ k : Nat) := by push_cast; rfl
  rw [Condition.smallInteger?, Option.filter_eq_some_iff, ofScientific_eq_ofRank, toInt?_ofRank,
    decide_eq_true_eq, hcast]
  constructor
  · rintro ⟨⟨-, hunits, hsign⟩, hsmall⟩
    exact ⟨hsmall, hsign, _, rankValue_eq_iff.mpr hunits, (isNearest_iff hden).mpr rfl⟩
  · rintro ⟨hsmall, hsign, rank, hvalue, hnearest⟩
    rw [(isNearest_iff hden).mp hnearest]
    have hunits := rankValue_eq_iff.mp hvalue
    -- small whole numbers have a finite rank
    have hexact : i.natAbs < 2 ^ 53 := lt_trans hsmall (by decide)
    obtain ⟨rank', hfinite, hunits'⟩ := exists_rankUnits_eq hexact
    obtain rfl := rankUnits_strictMono.injective (hunits.trans hunits'.symm)
    exact ⟨⟨hfinite, hunits, hsign⟩, hsmall⟩

theorem exists_rankValue_eq {n : Nat} (hn : n < 2 ^ 53) : ∃ rank, rankValue rank = n := by
  obtain ⟨rank, -, hunits⟩ := exists_rankUnits_eq hn
  exact ⟨rank, rankValue_eq_iff.mpr hunits⟩

/-- A magnitude is nearest to itself. -/
theorem isNearest_self (rank : Nat) : IsNearest (rankValue rank) rank := by
  intro other hother
  left
  rw [sub_self, abs_zero, abs_pos, sub_ne_zero]
  exact fun h => hother (rankValue_strictMono.injective h).symm

namespace IsNearest

/-- No other magnitude is nearest to one. -/
theorem eq_rankValue {rank rank' : Nat} (h : IsNearest (rankValue rank') rank) : rank = rank' := by
  by_contra hne
  have hzero : |rankValue rank' - rankValue rank'| = 0 := by rw [sub_self, abs_zero]
  have hpos : 0 < |rankValue rank' - rankValue rank| := by
    rw [abs_pos, sub_ne_zero]
    exact fun heq => hne (rankValue_strictMono.injective heq).symm
  rcases h rank' (Ne.symm hne) with h | ⟨h, -⟩ <;> linarith

/-- What is nearest to a value from some whole number on is not less than that. -/
theorem lt_of_lt {v : ℚ} {rank n m : Nat} (h : IsNearest v rank) (hvalue : rankValue rank = n)
    (hnm : n < m) (hm : m < 2 ^ 53) : v < m := by
  by_contra hge
  rw [not_lt] at hge
  obtain ⟨rank', hvalue'⟩ := exists_rankValue_eq hm
  have hlt : (n : ℚ) < m := by exact_mod_cast hnm
  have hne : rank' ≠ rank := by
    rintro rfl
    linarith
  have hnear := h rank' hne
  rw [hvalue, hvalue', abs_of_nonneg (a := v - n) (by linarith),
    abs_of_nonneg (a := v - m) (by linarith)] at hnear
  rcases hnear with hnear | ⟨hnear, -⟩ <;> linarith

/-- A whole number is nearest to no other whole number. -/
theorem eq_of_whole {rank n m : Nat} (h : IsNearest m rank) (hvalue : rankValue rank = n)
    (hn : n < Condition.integerLimit) : m = n := by
  have hlimit : Condition.integerLimit < 2 ^ 53 := by decide
  have hm : m < Condition.integerLimit := by exact_mod_cast h.lt_of_lt hvalue hn hlimit
  obtain ⟨rank', hvalue'⟩ := exists_rankValue_eq (hm.trans hlimit)
  rw [← hvalue'] at h
  rw [h.eq_rankValue, hvalue'] at hvalue
  exact_mod_cast hvalue

end IsNearest

/-- The step to the next magnitude is one unit, or small against the magnitude. -/
theorem rankUnits_succ (rank : Nat) : ∃ step, rankUnits (rank + 1) = rankUnits rank + step ∧
    (step = 1 ∨ 2 ^ 52 * step ≤ rankUnits rank) := by
  obtain ⟨d, m, rfl, hm, hfull⟩ := exists_mantissa rank
  refine ⟨2 ^ d, ?_, ?_⟩
  · rw [rankUnits_mantissa hm hfull, rankUnits_mantissa_succ hm hfull]
    ring
  · rw [rankUnits_mantissa hm hfull]
    rcases hfull with rfl | hfull
    · exact .inl rfl
    · exact .inr (Nat.mul_le_mul_right _ hfull)

/-- The neighbours of a whole number are near, in parts of it. -/
theorem rankUnits_neighbours {rank n : Nat} (hunits : rankUnits rank = n * unitsPerOne)
    (hn : 0 < n) :
    2 ^ 52 * rankUnits (rank + 1) ≤ (2 ^ 52 + 1) * (n * unitsPerOne) ∧
      (2 ^ 52 - 1) * (n * unitsPerOne) ≤ 2 ^ 52 * rankUnits (rank - 1) := by
  have hlarge : 2 ^ 52 ≤ n * unitsPerOne := by
    calc 2 ^ 52 ≤ 2 ^ 1074 := Nat.pow_le_pow_right (by norm_num) (by norm_num)
      _ = unitsPerOne := unitsPerOne_eq.symm
      _ ≤ n * unitsPerOne := Nat.le_mul_of_pos_left _ hn
  have hrank : rank ≠ 0 := by
    rintro rfl
    rw [rankUnits_zero] at hunits
    omega
  obtain ⟨before, rfl⟩ := Nat.exists_eq_succ_of_ne_zero hrank
  obtain ⟨step, hstep, hsmall⟩ := rankUnits_succ before.succ
  obtain ⟨step', hstep', hsmall'⟩ := rankUnits_succ before
  rw [Nat.succ_sub_one]
  rw [← Nat.succ_eq_add_one] at hstep'
  generalize n * unitsPerOne = r at *
  constructor <;> omega

theorem ten_pow_lt_units : 10 ^ 323 < 2 * unitsPerOne := by
  decide +kernel

/-- A decimal of few digits is rounded to no whole number but itself. -/
theorem IsNearest.eq_of_short {c k n rank : Nat} (h : IsNearest ((c : ℚ) / 10 ^ k) rank)
    (hvalue : rankValue rank = n) (hc : c < Condition.integerLimit) (hk : k ≤ 323) :
    c = n * 10 ^ k := by
  have hden : 0 < 10 ^ k := Nat.pow_pos (by norm_num)
  have hunits := rankValue_eq_iff.mp hvalue
  have hcast : (c : ℚ) / 10 ^ k = c / (10 ^ k : Nat) := by push_cast; rfl
  rw [hcast, isNearest_iff hden, nearestRank_eq_iff hden, hunits] at h
  obtain ⟨hlow, hhigh, -⟩ := h
  rcases Nat.eq_zero_or_pos n with rfl | hn
  · -- half of the least magnitude is less than any decimal of so few digits
    have hzero : rank = 0 := by
      apply rankUnits_strictMono.injective
      rw [hunits, Nat.zero_mul, rankUnits_zero]
    have hone : rankUnits (rank + 1) = 1 := by
      rw [hzero]
      rfl
    rw [hone, Nat.zero_mul, Nat.zero_add, Nat.one_mul] at hhigh
    have hunit : 10 ^ k < 2 * unitsPerOne :=
      lt_of_le_of_lt (pow_le_pow_right₀ (by norm_num) hk) ten_pow_lt_units
    have hnone : ¬ 1 ≤ c := by
      intro hpos
      have hmul : 1 * unitsPerOne ≤ c * unitsPerOne := Nat.mul_le_mul_right _ hpos
      omega
    omega
  · obtain ⟨hnext, hprev⟩ := rankUnits_neighbours hunits hn
    have hupper : 2 ^ 53 * c ≤ (2 ^ 53 + 1) * (n * 10 ^ k) := by
      refine Nat.le_of_mul_le_mul_right ?_ unitsPerOne_pos
      calc 2 ^ 53 * c * unitsPerOne = 2 ^ 52 * (2 * (c * unitsPerOne)) := by ring
        _ ≤ 2 ^ 52 * ((n * unitsPerOne + rankUnits (rank + 1)) * 10 ^ k) :=
            Nat.mul_le_mul_left _ hhigh
        _ = (2 ^ 52 * (n * unitsPerOne) + 2 ^ 52 * rankUnits (rank + 1)) * 10 ^ k := by ring
        _ ≤ (2 ^ 52 * (n * unitsPerOne) + (2 ^ 52 + 1) * (n * unitsPerOne)) * 10 ^ k :=
            Nat.mul_le_mul_right _ (Nat.add_le_add_left hnext _)
        _ = (2 ^ 53 + 1) * (n * 10 ^ k) * unitsPerOne := by ring
    have hlower : (2 ^ 53 - 1) * (n * 10 ^ k) ≤ 2 ^ 53 * c := by
      refine Nat.le_of_mul_le_mul_right ?_ unitsPerOne_pos
      calc (2 ^ 53 - 1) * (n * 10 ^ k) * unitsPerOne =
          ((2 ^ 52 - 1) * (n * unitsPerOne) + 2 ^ 52 * (n * unitsPerOne)) * 10 ^ k := by
            norm_num
            ring
        _ ≤ (2 ^ 52 * rankUnits (rank - 1) + 2 ^ 52 * (n * unitsPerOne)) * 10 ^ k :=
            Nat.mul_le_mul_right _ (Nat.add_le_add_right hprev _)
        _ = 2 ^ 52 * ((rankUnits (rank - 1) + n * unitsPerOne) * 10 ^ k) := by ring
        _ ≤ 2 ^ 52 * (2 * (c * unitsPerOne)) := Nat.mul_le_mul_left _ hlow
        _ = 2 ^ 53 * c * unitsPerOne := by ring
    have hlimit : c < 9 * 10 ^ 15 := hc
    generalize n * 10 ^ k = whole at *
    omega

end GameCondition
