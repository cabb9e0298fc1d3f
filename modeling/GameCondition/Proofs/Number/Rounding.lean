import GameCondition.Number.Shortest
import Mathlib.Tactic.Linarith
import Mathlib.Tactic.Ring

/-! # Rounding to the nearest number

The magnitude of a rank grows strictly with the rank, and `nearestRank` picks the rank whose
magnitude is nearest:

* `nearestRank_spec`: the answer is one of the two neighbours of the quotient, and the midpoint
  between them decides which;
* `nearestRank_eq`: a quotient between the two midpoints around a rank is rounded to that rank,
  where a midpoint itself belongs to the even rank;
* `nearestRank_of_exact`: the magnitude of a rank is rounded to that rank.
-/

namespace GameCondition

/-! ## Magnitudes -/

/-- A rank is a number of doublings of the step and a mantissa, which is full once the step has
been doubled. -/
theorem exists_mantissa (rank : Nat) :
    ∃ d m, rank = d * 2 ^ 52 + m ∧ m < 2 ^ 53 ∧ (d = 0 ∨ 2 ^ 52 ≤ m) := by
  by_cases h : rank < 2 ^ 53
  · exact ⟨0, rank, by omega, h, Or.inl rfl⟩
  · refine ⟨rank / 2 ^ 52 - 1, 2 ^ 52 + rank % 2 ^ 52, ?_, ?_, ?_⟩ <;> omega

theorem rankUnits_mantissa {d m : Nat} (hm : m < 2 ^ 53) (hfull : d = 0 ∨ 2 ^ 52 ≤ m) :
    rankUnits (d * 2 ^ 52 + m) = m * 2 ^ d := by
  unfold rankUnits
  simp only [Nat.pow_eq]
  split
  · have hd : d = 0 := by omega
    subst hd
    simp
  · have hmod : 2 ^ 52 + (d * 2 ^ 52 + m) % 2 ^ 52 = m := by omega
    have hdiv : (d * 2 ^ 52 + m) / 2 ^ 52 - 1 = d := by omega
    rw [hmod, hdiv]

/-- The step to the next magnitude is the same up to the end of the doubling. -/
theorem rankUnits_mantissa_succ {d m : Nat} (hm : m < 2 ^ 53) (hfull : d = 0 ∨ 2 ^ 52 ≤ m) :
    rankUnits (d * 2 ^ 52 + m + 1) = (m + 1) * 2 ^ d := by
  by_cases hlast : m + 1 < 2 ^ 53
  -- the mantissa still fits, so the step is the same
  · have hnext := @rankUnits_mantissa d (m + 1) hlast (by omega)
    rwa [← Nat.add_assoc] at hnext
  -- the mantissa is full and starts over with twice the step
  · have hsplit : d * 2 ^ 52 + m + 1 = (d + 1) * 2 ^ 52 + 2 ^ 52 := by omega
    have hcarry : m + 1 = 2 ^ 52 * 2 := by omega
    have hfirst := @rankUnits_mantissa (d + 1) (2 ^ 52) (by norm_num) (Or.inr (Nat.le_refl _))
    calc rankUnits (d * 2 ^ 52 + m + 1) = rankUnits ((d + 1) * 2 ^ 52 + 2 ^ 52) :=
          congrArg rankUnits hsplit
      _ = 2 ^ 52 * 2 ^ (d + 1) := hfirst
      _ = (m + 1) * 2 ^ d := by rw [hcarry, pow_succ]; ring

theorem rankUnits_strictMono : StrictMono rankUnits := by
  apply strictMono_nat_of_lt_succ
  intro rank
  rcases exists_mantissa rank with ⟨d, m, rfl, hm, hfull⟩
  rw [rankUnits_mantissa hm hfull, rankUnits_mantissa_succ hm hfull]
  have := Nat.two_pow_pos d
  nlinarith

@[simp] theorem rankUnits_zero : rankUnits 0 = 0 := rfl

/-- The closed facts about the two scales, computed once. -/
theorem scales : (0 < unitsPerOne ∧ 0 < partsPerUnit) ∧ unitsPerOne = 2 ^ 1074 ∧
    10 ^ 1074 = partsPerUnit * unitsPerOne ∧ unitsPerOne < 10 ^ 324 ∧
    rankUnits infinityRank < 10 ^ 309 * unitsPerOne := by
  decide +kernel

theorem unitsPerOne_pos : 0 < unitsPerOne :=
  scales.1.1

theorem partsPerUnit_pos : 0 < partsPerUnit :=
  scales.1.2

theorem unitsPerOne_eq : unitsPerOne = 2 ^ 1074 :=
  scales.2.1

theorem ten_pow_eq : 10 ^ 1074 = partsPerUnit * unitsPerOne :=
  scales.2.2.1

theorem unitsPerOne_lt : unitsPerOne < 10 ^ 324 :=
  scales.2.2.2.1

/-- The first rank past the finite ones would stand for 2 ^ 1024. -/
theorem rankUnits_infinityRank_lt : rankUnits infinityRank < 10 ^ 309 * unitsPerOne :=
  scales.2.2.2.2

/-! ## The nearest rank -/

/-- How often the step is doubled for a quotient `q`: so often that the mantissa fits. -/
theorem log2_sub_doublings (q : Nat) :
    q / 2 ^ (q.log2 - 52) < 2 ^ 53 ∧ (q.log2 - 52 = 0 ∨ 2 ^ 52 ≤ q / 2 ^ (q.log2 - 52)) := by
  have hupper : q < 2 ^ (q.log2 + 1) := Nat.lt_log2_self
  constructor
  · rw [Nat.div_lt_iff_lt_mul (Nat.two_pow_pos _), ← pow_add]
    exact lt_of_lt_of_le hupper (Nat.pow_le_pow_right (by norm_num) (by omega))
  · by_cases hsmall : q.log2 ≤ 52
    · exact Or.inl (by omega)
    · right
      have hq : q ≠ 0 := by
        rintro rfl
        simp at hsmall
      rw [Nat.le_div_iff_mul_le (Nat.two_pow_pos _), ← pow_add]
      have hexp : 52 + (q.log2 - 52) = q.log2 := by omega
      rw [hexp]
      exact Nat.log2_self_le hq

/-- The two ranks around a quotient, and the one of them that is taken. -/
theorem nearestRank_spec (num : Nat) {den : Nat} (hden : 0 < den) :
    ∃ low, rankUnits low * den ≤ num ∧ num < rankUnits (low + 1) * den ∧
      nearestRank num den =
        if (rankUnits low + rankUnits (low + 1)) * den < 2 * num ∨
            ((rankUnits low + rankUnits (low + 1)) * den = 2 * num ∧ low % 2 = 1)
        then low + 1 else low := by
  rcases log2_sub_doublings (num / den) with ⟨hlt, hfull⟩
  rw [Nat.div_div_eq_div_mul] at hlt hfull
  have hstep : 0 < den * 2 ^ ((num / den).log2 - 52) := Nat.mul_pos hden (Nat.two_pow_pos _)
  -- from here on the number of doublings, the mantissa and the remainder are variables
  dsimp only [nearestRank, Nat.pow_eq]
  generalize hd : (num / den).log2 - 52 = d at *
  have hdivmod := Nat.div_add_mod num (den * 2 ^ d)
  have hrest := Nat.mod_lt num hstep
  generalize hm : num / (den * 2 ^ d) = m at *
  generalize num % (den * 2 ^ d) = rest at *
  have hlow := rankUnits_mantissa hlt hfull
  have hhigh := rankUnits_mantissa_succ hlt hfull
  have hmul : m * 2 ^ d * den = den * 2 ^ d * m := by ring
  have hmul' : (m + 1) * 2 ^ d * den = den * 2 ^ d * m + den * 2 ^ d := by ring
  refine ⟨d * 2 ^ 52 + m, ?_, ?_, ?_⟩
  · rw [hlow, hmul]
    omega
  · rw [hhigh, hmul']
    omega
  · -- twice the remainder against the step is twice the quotient against the two neighbours
    have hmid : (rankUnits (d * 2 ^ 52 + m) + rankUnits (d * 2 ^ 52 + m + 1)) * den =
        2 * (den * 2 ^ d * m) + den * 2 ^ d := by
      rw [hlow, hhigh]
      ring
    have hparity : (d * 2 ^ 52 + m) % 2 = m % 2 := by omega
    have hiff : (decide (den * 2 ^ d < 2 * rest) ||
          (decide (2 * rest = den * 2 ^ d) && m % 2 == 1)) = true ↔
        2 * (den * 2 ^ d * m) + den * 2 ^ d < 2 * num ∨
          (2 * (den * 2 ^ d * m) + den * 2 ^ d = 2 * num ∧ (d * 2 ^ 52 + m) % 2 = 1) := by
      simp only [Bool.or_eq_true, Bool.and_eq_true, decide_eq_true_eq, beq_iff_eq, hparity,
        ← hdivmod]
      omega
    rw [hmid]
    by_cases hup : (decide (den * 2 ^ d < 2 * rest) ||
        (decide (2 * rest = den * 2 ^ d) && m % 2 == 1)) = true
    · rw [if_pos hup, if_pos (hiff.mp hup), Nat.add_assoc]
    · rw [if_neg hup, if_neg (fun h => hup (hiff.mpr h))]

/-- A quotient between the midpoints around a rank is rounded to it; a midpoint goes to the even
rank. -/
theorem nearestRank_eq {num den rank : Nat} (hden : 0 < den)
    (hlow : (rankUnits (rank - 1) + rankUnits rank) * den ≤ 2 * num)
    (hhigh : 2 * num ≤ (rankUnits rank + rankUnits (rank + 1)) * den)
    (hties : rank % 2 = 1 → (rankUnits (rank - 1) + rankUnits rank) * den < 2 * num ∧
      2 * num < (rankUnits rank + rankUnits (rank + 1)) * den) :
    nearestRank num den = rank := by
  rcases nearestRank_spec num hden with ⟨low, hle, hlt, heq⟩
  have hmono := rankUnits_strictMono
  -- `low` is the rank itself or the one before it
  have hupper : low < rank + 1 := by
    by_contra hge
    have h₁ : rankUnits (rank + 1) ≤ rankUnits low := hmono.monotone (by omega)
    have h₂ : rankUnits rank < rankUnits (rank + 1) := hmono (Nat.lt_succ_self rank)
    nlinarith
  have hlower : rank ≤ low + 1 := by
    by_contra hgt
    have h₁ : rankUnits (low + 1) ≤ rankUnits (rank - 1) := hmono.monotone (by omega)
    have h₂ : rankUnits (rank - 1) < rankUnits rank := hmono (by omega)
    nlinarith
  rw [heq]
  -- below the rank the midpoint before it is passed, at the rank the one after it is not
  rcases Nat.lt_or_ge low rank with hbefore | hsame
  · have hrank : rank - 1 = low := by omega
    have hsucc : rank = low + 1 := by omega
    rw [hrank] at hlow hties
    subst hsucc
    rw [if_pos]
    rcases Nat.lt_or_eq_of_le hlow with h | h
    · exact Or.inl h
    · refine Or.inr ⟨h, ?_⟩
      by_contra heven
      have := (hties (by omega)).1
      omega
  · have hsame' : low = rank := by omega
    subst hsame'
    rw [if_neg]
    rintro (h | ⟨h, hodd⟩)
    · omega
    · have := (hties hodd).2
      omega

/-- The magnitude of a rank is rounded to the rank. -/
theorem nearestRank_of_exact {num den rank : Nat} (hden : 0 < den)
    (hexact : num = rankUnits rank * den) : nearestRank num den = rank := by
  have hmono := rankUnits_strictMono
  have hnext : rankUnits rank < rankUnits (rank + 1) := hmono (Nat.lt_succ_self rank)
  have hprev : rankUnits (rank - 1) ≤ rankUnits rank := hmono.monotone (by omega)
  apply nearestRank_eq hden
  · rw [hexact]
    nlinarith
  · rw [hexact]
    nlinarith
  · intro hodd
    have hprev' : rankUnits (rank - 1) < rankUnits rank := hmono (by omega)
    rw [hexact]
    constructor <;> nlinarith

/-- Whole numbers below 2 ^ 53 are exact. -/
theorem exists_rankUnits_eq {n : Nat} (hn : n < 2 ^ 53) :
    ∃ rank, rank < infinityRank ∧ rankUnits rank = n * unitsPerOne := by
  by_cases hzero : n = 0
  · exact ⟨0, by norm_num [infinityRank], by simp [hzero]⟩
  · have hlog : n.log2 < 53 := (Nat.log2_lt hzero).mpr hn
    have hle := Nat.log2_self_le hzero
    have hlt : n < 2 ^ (n.log2 + 1) := Nat.lt_log2_self
    generalize n.log2 = l at *
    -- the mantissa is `n` shifted up to 53 bits
    have hfull : 2 ^ 52 ≤ n * 2 ^ (52 - l) := by
      calc 2 ^ 52 = 2 ^ l * 2 ^ (52 - l) := by rw [← pow_add]; congr 1; omega
        _ ≤ n * 2 ^ (52 - l) := Nat.mul_le_mul_right _ hle
    have hfits : n * 2 ^ (52 - l) < 2 ^ 53 := by
      calc n * 2 ^ (52 - l) < 2 ^ (l + 1) * 2 ^ (52 - l) :=
            Nat.mul_lt_mul_of_pos_right hlt (Nat.two_pow_pos _)
        _ = 2 ^ 53 := by rw [← pow_add]; congr 1; omega
    refine ⟨(1022 + l) * 2 ^ 52 + n * 2 ^ (52 - l), ?_, ?_⟩
    · rw [infinityRank, Nat.pow_eq]
      omega
    · have hexp : 52 - l + (1022 + l) = 1074 := by omega
      rw [rankUnits_mantissa hfits (Or.inr hfull), unitsPerOne_eq, mul_assoc, ← pow_add, hexp]

end GameCondition
