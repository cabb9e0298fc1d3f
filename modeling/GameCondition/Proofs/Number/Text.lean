import GameCondition.Number.Reading
import GameCondition.Number.Shortest
import GameCondition.Proofs.Number.Rounding

/-! # The text of a number reads back

A number in plain text is a run of digits, and perhaps a point and a further run
(`Decimal.exists_positional`). The decimal that they spell lies in the interval of its rank
(`shortest_readsAs`), and whatever lies there is rounded to that rank (`ofScientific_of_readsAs`).
Hence the digits of a finite number give the number back (`exists_plainDecimal`), and so do those
of a whole number below the limit of exact ones (`toInt?_ofScientific`).
-/

namespace GameCondition

/-! ## Rounding decimals -/

theorem readsAs_bounds {rank x : Nat} (h : readsAs rank x = true) :
    (rankUnits (rank - 1) + rankUnits rank) * partsPerUnit ≤ 2 * x ∧
      2 * x ≤ (rankUnits rank + rankUnits (rank + 1)) * partsPerUnit ∧
      (rank % 2 = 1 → (rankUnits (rank - 1) + rankUnits rank) * partsPerUnit < 2 * x ∧
        2 * x < (rankUnits rank + rankUnits (rank + 1)) * partsPerUnit) := by
  unfold readsAs at h
  split at h
  · next heven =>
    rw [Bool.and_eq_true, decide_eq_true_eq, decide_eq_true_eq] at h
    exact ⟨h.1, h.2, fun hodd => absurd (heven.symm.trans hodd) (by decide)⟩
  · rw [Bool.and_eq_true, decide_eq_true_eq, decide_eq_true_eq] at h
    exact ⟨h.1.le, h.2.le, fun _ => h⟩

/-- A number lies in its own interval. -/
theorem readsAs_self (rank : Nat) : readsAs rank (rankUnits rank * partsPerUnit) = true := by
  have hscale := partsPerUnit_pos
  have hnext : rankUnits rank < rankUnits (rank + 1) := rankUnits_strictMono (Nat.lt_succ_self rank)
  have hhigh : 2 * rankUnits rank < rankUnits rank + rankUnits (rank + 1) := by omega
  unfold readsAs
  -- both ends are at least half a step away
  rw [← mul_assoc]
  split
  · have hprev : rankUnits (rank - 1) ≤ rankUnits rank :=
      rankUnits_strictMono.monotone (Nat.sub_le _ _)
    have hlow : rankUnits (rank - 1) + rankUnits rank ≤ 2 * rankUnits rank := by omega
    rw [Bool.and_eq_true, decide_eq_true_eq, decide_eq_true_eq]
    exact ⟨Nat.mul_le_mul_right _ hlow, Nat.mul_le_mul_right _ hhigh.le⟩
  · have hprev : rankUnits (rank - 1) < rankUnits rank := rankUnits_strictMono (by omega)
    have hlow : rankUnits (rank - 1) + rankUnits rank < 2 * rankUnits rank := by omega
    rw [Bool.and_eq_true, decide_eq_true_eq, decide_eq_true_eq]
    exact ⟨Nat.mul_lt_mul_of_pos_right hlow hscale, Nat.mul_lt_mul_of_pos_right hhigh hscale⟩

/-- Units of 10 ^ -1074 against units of 2 ^ -1074. -/
theorem pow_mul_pow_eq_scale {k : Nat} (hk : k ≤ 1074) :
    10 ^ k * 10 ^ (1074 - k) = partsPerUnit * unitsPerOne := by
  rw [← pow_add, Nat.add_sub_of_le hk]
  exact ten_pow_eq

/-- Two magnitudes compare alike in any two scales of which one is a multiple of the other. -/
theorem mul_scale_le_iff {a b s t p u : Nat} (hscale : s * t = p * u) (ht : 0 < t) (hu : 0 < u) :
    a * p ≤ b * t ↔ a * s ≤ b * u := by
  -- multiply by `u`, swap the scales, and divide by `t`
  calc a * p ≤ b * t ↔ a * p * u ≤ b * t * u := (Nat.mul_le_mul_right_iff hu).symm
    _ ↔ a * s * t ≤ b * u * t := by
      rw [mul_assoc, ← hscale, ← mul_assoc, mul_assoc b, mul_comm t, ← mul_assoc b]
    _ ↔ a * s ≤ b * u := Nat.mul_le_mul_right_iff ht

theorem scaled_le_iff {a b k : Nat} (hk : k ≤ 1074) :
    a * partsPerUnit ≤ b * 10 ^ (1074 - k) ↔ a * 10 ^ k ≤ b * unitsPerOne :=
  mul_scale_le_iff (pow_mul_pow_eq_scale hk) (Nat.pow_pos (by norm_num)) unitsPerOne_pos

theorem le_scaled_iff {a b k : Nat} (hk : k ≤ 1074) :
    b * 10 ^ (1074 - k) ≤ a * partsPerUnit ↔ b * unitsPerOne ≤ a * 10 ^ k := by
  have hscale : unitsPerOne * partsPerUnit = 10 ^ (1074 - k) * 10 ^ k := by
    rw [mul_comm, ← pow_mul_pow_eq_scale hk, mul_comm]
  exact mul_scale_le_iff hscale partsPerUnit_pos (Nat.pow_pos (by norm_num))

/-- The number of digits of a decimal stays within what is read without a cut. -/
theorem digits_bounds_of_readsAs {rank c k : Nat} (hrank : 0 < rank) (hfin : rank < infinityRank)
    (hk : k ≤ 1074) (h : readsAs rank (c * 10 ^ (1074 - k)) = true) :
    0 < c ∧ (Nat.toDigits 10 c).length ≤ k + 310 ∧ k ≤ (Nat.toDigits 10 c).length + 330 := by
  rcases readsAs_bounds h with ⟨hlow, hhigh, -⟩
  rw [← mul_assoc] at hlow hhigh
  have hone : 0 < rankUnits rank := rankUnits_strictMono hrank
  -- the least positive magnitude is one unit
  have hleast : 10 ^ k ≤ 2 * c * unitsPerOne := by
    have h₁ : 1 * 10 ^ k ≤ (rankUnits (rank - 1) + rankUnits rank) * 10 ^ k :=
      Nat.mul_le_mul_right _ (by omega)
    have h₂ := (scaled_le_iff hk).mp hlow
    omega
  have hpos : 0 < c := by
    rcases Nat.eq_zero_or_pos c with rfl | hpos
    · have hpow : 0 < 10 ^ k := Nat.pow_pos (by norm_num)
      omega
    · exact hpos
  refine ⟨hpos, ?_, ?_⟩
  · rw [Nat.length_toDigits_le_iff (by norm_num) (by omega)]
    -- no value that is read as a finite number lies past the first infinite one
    have hlast : rankUnits rank + rankUnits (rank + 1) ≤ 2 * rankUnits infinityRank := by
      have h₁ : rankUnits rank ≤ rankUnits infinityRank := rankUnits_strictMono.monotone (by omega)
      have h₂ : rankUnits (rank + 1) ≤ rankUnits infinityRank :=
        rankUnits_strictMono.monotone (by omega)
      omega
    have hswap : ∀ x y z : Nat, 2 * (x * y) * z = 2 * (x * z) * y := by
      intro x y z
      ring
    have hinf := rankUnits_infinityRank_lt
    have hprod : 2 * c * unitsPerOne < 2 * (10 ^ 309 * 10 ^ k) * unitsPerOne := by
      calc 2 * c * unitsPerOne ≤ (rankUnits rank + rankUnits (rank + 1)) * 10 ^ k :=
            (le_scaled_iff hk).mp hhigh
        _ ≤ 2 * rankUnits infinityRank * 10 ^ k := Nat.mul_le_mul_right _ hlast
        _ < 2 * (10 ^ 309 * unitsPerOne) * 10 ^ k :=
            Nat.mul_lt_mul_of_pos_right (by omega) (Nat.pow_pos (by norm_num))
        _ = 2 * (10 ^ 309 * 10 ^ k) * unitsPerOne := hswap _ _ _
    have hc := Nat.lt_of_mul_lt_mul_right hprod
    calc c < 10 ^ 309 * 10 ^ k := by omega
      _ ≤ 10 ^ (k + 310) := by
        rw [← pow_add]
        exact Nat.pow_le_pow_right (by norm_num) (by omega)
  · by_contra hgt
    have hc : c < 10 ^ (Nat.toDigits 10 c).length :=
      (Nat.length_toDigits_le_iff (by norm_num) Nat.length_toDigits_pos).mp (Nat.le_refl _)
    have hunit : unitsPerOne < 10 ^ 324 := unitsPerOne_lt
    generalize (Nat.toDigits 10 c).length = n at *
    have hlt : 10 ^ k < 10 ^ (n + 325) := by
      calc 10 ^ k ≤ 2 * c * unitsPerOne := hleast
        _ < 10 * 10 ^ n * 10 ^ 324 := Nat.mul_lt_mul'' (by omega) hunit
        _ = 10 ^ (n + 325) := by rw [← pow_succ', ← pow_add, add_right_comm, add_assoc]
    have hle : n + 325 ≤ k := by omega
    exact absurd (Nat.pow_le_pow_right (by norm_num) hle) (not_le.mpr hlt)

/-- Whatever lies in the interval of a rank is read as that rank. -/
theorem ofScientific_of_readsAs {rank c k : Nat} (negative : Bool) (hrank : 0 < rank)
    (hfin : rank < infinityRank) (hk : k ≤ 1074)
    (h : readsAs rank (c * 10 ^ (1074 - k)) = true) :
    Number.ofScientific negative c (-k) = .finite negative ⟨rank, hfin⟩ := by
  rcases digits_bounds_of_readsAs hrank hfin hk h with ⟨hpos, htop, hbottom⟩
  rcases readsAs_bounds h with ⟨hlow, hhigh, hties⟩
  -- the ends of the interval are the midpoints around the rank, in parts instead of units
  have hnearest : nearestRank (c * unitsPerOne) (10 ^ k) = rank := by
    rw [← mul_assoc] at hlow hhigh hties
    rw [← not_le, ← not_le, le_scaled_iff hk, scaled_le_iff hk, not_le, not_le] at hties
    rw [scaled_le_iff hk] at hlow
    rw [le_scaled_iff hk] at hhigh
    rw [mul_assoc] at hlow hhigh hties
    exact nearestRank_eq (Nat.pow_pos (by norm_num)) hlow hhigh hties
  have hofRank : Number.ofRank negative rank = .finite negative ⟨rank, hfin⟩ := by
    simp [Number.ofRank, hfin]
  unfold Number.ofScientific
  rw [if_neg (by omega)]
  dsimp only
  rw [if_neg (by omega), if_neg (by omega)]
  split
  -- the exponent is a natural number only if nothing stands after the point
  · have hk0 : k = 0 := by omega
    subst hk0
    rw [Number.ofRatio, ← hofRank, ← hnearest]
    simp
  · rw [Number.ofRatio, ← hofRank, ← hnearest]
    simp

/-! ## The shortest decimal -/

theorem gridPoint?_readsAs {tie : Tie} {rank k n : Nat} (h : gridPoint? tie rank k = some n) :
    readsAs rank (n * 10 ^ k) = true := by
  unfold gridPoint? at h
  dsimp only [Nat.pow_eq] at h
  split at h
  · simp at h
  · next hbelow _ =>
    rw [← Option.some.inj h]
    exact hbelow
  · next _ habove =>
    rw [← Option.some.inj h]
    exact habove
  · next hbelow habove =>
    have hn : n = rankUnits rank * partsPerUnit / 10 ^ k ∨
        n = rankUnits rank * partsPerUnit / 10 ^ k + 1 := by
      -- whichever of the two is nearer, it is one of them
      repeat' split at h
      all_goals
        rw [← Option.some.inj h]
        simp
    rcases hn with hn | hn
    · rw [hn]
      exact hbelow
    · rw [hn]
      exact habove

/-- The decimal that is found lies in the interval of the rank. -/
theorem shortestFrom_readsAs (tie : Tie) (rank k : Nat) :
    -1074 ≤ (shortestFrom tie rank k).exponent ∧
      readsAs rank ((shortestFrom tie rank k).coefficient *
        10 ^ ((shortestFrom tie rank k).exponent + 1074).toNat) = true := by
  induction k with
  | zero =>
      refine ⟨le_refl _, ?_⟩
      simpa [shortestFrom] using readsAs_self rank
  | succ k ih =>
      rw [shortestFrom]
      split
      · next n hn =>
        refine ⟨by simp; omega, ?_⟩
        have hexp : ((k : Int) + 1 - 1074 + 1074).toNat = k + 1 := by omega
        rw [hexp]
        exact gridPoint?_readsAs hn
      · exact ih

theorem shortest_readsAs (tie : Tie) {rank : Nat} (hrank : 0 < rank) :
    -1074 ≤ (shortest tie rank).exponent ∧
      readsAs rank ((shortest tie rank).coefficient *
        10 ^ ((shortest tie rank).exponent + 1074).toNat) = true := by
  rw [shortest, if_neg (by omega)]
  exact shortestFrom_readsAs tie rank _

/-! ## Digits -/

theorem digitsValue_eq (cs : List Char) : digitsValue cs = Nat.ofDigitChars 10 cs 0 := rfl

theorem digitsValue_append (cs ds : List Char) :
    digitsValue (cs ++ ds) = digitsValue cs * 10 ^ ds.length + digitsValue ds := by
  rw [digitsValue_eq, Nat.ofDigitChars_append, Nat.ofDigitChars_eq_ofDigitChars_zero, mul_comm]
  rfl

@[simp] theorem digitsValue_zeros (n : Nat) : digitsValue (List.replicate n '0') = 0 := by
  simp [digitsValue_eq]

@[simp] theorem digitsValue_toDigits (n : Nat) : digitsValue (Nat.toDigits 10 n) = n := by
  rw [digitsValue_eq, Nat.ofDigitChars_ten_toDigits]

theorem isDigit_toDigits {n : Nat} {c : Char} (h : c ∈ Nat.toDigits 10 n) : c.isDigit = true :=
  Nat.isDigit_of_mem_toDigits (by norm_num) (Nat.le_refl _) h

/-- The zeros at the end of the digits move into the exponent. -/
theorem Decimal.exists_zeros (d : Decimal) :
    ∃ zeros : Nat, Nat.toDigits 10 d.coefficient = d.digits.1 ++ List.replicate zeros '0' ∧
      d.digits.2 = d.exponent + zeros := by
  unfold Decimal.digits
  generalize hall : Nat.toDigits 10 d.coefficient = all
  dsimp only
  by_cases hzero : d.coefficient = 0
  · exact ⟨0, by simp [hzero], by simp [hzero]⟩
  · rw [if_neg hzero]
    -- what is taken from the end is all zeros, and what is left is cut off before them
    have hzeros : (all.reverse.takeWhile (· = '0')).reverse =
        List.replicate (all.reverse.takeWhile (· = '0')).length '0' := by
      rw [List.eq_replicate_iff]
      refine ⟨List.length_reverse, fun c hc => ?_⟩
      simpa using List.all_eq_true.mp List.all_takeWhile c (List.mem_reverse.mp hc)
    have hcut : all = (all.reverse.dropWhile (· = '0')).reverse ++
        List.replicate (all.reverse.takeWhile (· = '0')).length '0' := by
      rw [← hzeros, ← List.reverse_append, List.takeWhile_append_dropWhile, List.reverse_reverse]
    refine ⟨(all.reverse.takeWhile (· = '0')).length, ?_, rfl⟩
    generalize (all.reverse.takeWhile (· = '0')).length = n at *
    generalize (all.reverse.dropWhile (· = '0')).reverse = front at *
    rw [hcut]
    simp

/-- A point and the digits after it, if there are any. -/
def pointed (part : List Char) : List Char :=
  if part.isEmpty then [] else '.' :: part

/-- Digits with a point among them, no more than 1074 of them after the point. -/
structure IsPlainDecimal (cs whole part : List Char) : Prop where
  text : cs = whole ++ pointed part
  whole_ne_nil : whole ≠ []
  whole_digits : ∀ c ∈ whole, c.isDigit = true
  part_digits : ∀ c ∈ part, c.isDigit = true
  part_length : part.length ≤ 1074

/-- The positional form keeps the value. -/
theorem Decimal.exists_positional (d : Decimal) (hexp : -1074 ≤ d.exponent)
    (hpos : 0 < d.coefficient) :
    ∃ whole part, IsPlainDecimal d.positional whole part ∧
      digitsValue (whole ++ part) * 10 ^ (1074 - part.length) =
        d.coefficient * 10 ^ (d.exponent + 1074).toNat := by
  rcases d.exists_zeros with ⟨zeros, hall, he⟩
  have hds : ∀ c ∈ d.digits.1, c.isDigit = true := by
    intro c hc
    exact isDigit_toDigits (hall ▸ List.mem_append_left _ hc)
  have hvalue : d.coefficient = digitsValue d.digits.1 * 10 ^ zeros := by
    have h := congrArg digitsValue hall
    rwa [digitsValue_toDigits, digitsValue_append, digitsValue_zeros, List.length_replicate,
      add_zero] at h
  have hne : d.digits.1 ≠ [] := by
    intro hnil
    rw [hnil] at hvalue
    simp [digitsValue] at hvalue
    omega
  have hscale : ∀ k : Nat, (k : Int) = d.digits.2 + 1074 → digitsValue d.digits.1 * 10 ^ k =
      d.coefficient * 10 ^ (d.exponent + 1074).toNat := by
    intro k hk
    have hsum : k = zeros + (d.exponent + 1074).toNat := by omega
    rw [hvalue, hsum, pow_add, mul_assoc]
  have hbound : -1074 ≤ d.digits.2 := by omega
  have hzero : '0'.isDigit = true := rfl
  -- only what the digits are worth matters to where the point goes
  clear hall he hvalue
  unfold Decimal.positional
  dsimp only
  generalize d.digits.1 = ds at *
  generalize d.digits.2 = e at *
  split
  · -- a whole number
    refine ⟨ds ++ List.replicate e.toNat '0', [], ⟨by simp [pointed], by simp [hne], ?_, by simp,
      by simp⟩, ?_⟩
    · intro c hc
      rcases List.mem_append.mp hc with h | h
      · exact hds c h
      · rw [List.eq_of_mem_replicate h]
        exact hzero
    · rw [List.append_nil, digitsValue_append, digitsValue_zeros, add_zero, List.length_replicate,
        mul_assoc, ← pow_add]
      exact hscale _ (by simp; omega)
  · split
    · -- the point stands among the digits
      next hpoint =>
      have hpart : (ds.drop (ds.length + e).toNat).length = (-e).toNat := by
        rw [List.length_drop]
        omega
      have hpart_ne : ds.drop (ds.length + e).toNat ≠ [] := by
        rw [← List.length_pos_iff]
        omega
      refine ⟨ds.take (ds.length + e).toNat, ds.drop (ds.length + e).toNat,
        ⟨by simp [pointed, hpart_ne], ?_, ?_, ?_, by omega⟩, ?_⟩
      · simp [hne]
        omega
      · exact fun c hc => hds c (List.mem_of_mem_take hc)
      · exact fun c hc => hds c (List.mem_of_mem_drop hc)
      · rw [List.take_append_drop, hpart]
        exact hscale _ (by omega)
    · -- the point stands before the digits
      have hpart : (List.replicate (-(ds.length + e)).toNat '0' ++ ds).length = (-e).toNat := by
        rw [List.length_append, List.length_replicate]
        omega
      refine ⟨['0'], List.replicate (-(ds.length + e)).toNat '0' ++ ds,
        ⟨by simp [pointed, hne], by simp, by simp, ?_, by omega⟩, ?_⟩
      · intro c hc
        rcases List.mem_append.mp hc with h | h
        · rw [List.eq_of_mem_replicate h]
          exact hzero
        · exact hds c h
      · rw [digitsValue_append, digitsValue_append, digitsValue_zeros, hpart]
        have hlead : digitsValue ['0'] = 0 := rfl
        rw [hlead, zero_mul, zero_mul, zero_add, zero_add]
        exact hscale _ (by omega)

/-! ## Reading back -/

/-- The digits of a finite number are read as the number. -/
theorem exists_plainDecimal (negative : Bool) (rank : Fin infinityRank) :
    ∃ whole part, IsPlainDecimal (plainFormat.magnitude rank) whole part ∧
      Number.ofScientific negative (digitsValue (whole ++ part)) (-(part.length : Int)) =
        .finite negative rank := by
  have hmagnitude : plainFormat.magnitude rank = (shortest .up rank).positional := by
    simp [NumberFormat.magnitude, plainFormat]
  rw [hmagnitude]
  rcases Nat.eq_zero_or_pos rank.val with hzero | hrank
  · refine ⟨['0'], [], ⟨?_, by simp, by simp, by simp, by simp⟩, ?_⟩
    · rw [hzero]
      rfl
    · have hfin : 0 < infinityRank := by norm_num [infinityRank]
      have heq : rank = ⟨0, hfin⟩ := Fin.ext hzero
      rw [heq]
      simp [Number.ofScientific, digitsValue, Number.ofRank, hfin]
  · rcases shortest_readsAs .up hrank with ⟨hexp, hreads⟩
    have hpos : 0 < (shortest .up rank).coefficient := by
      rcases Nat.eq_zero_or_pos (shortest .up rank).coefficient with h | h
      · rw [h, zero_mul, ← zero_mul (10 ^ (1074 - 0))] at hreads
        exact absurd (digits_bounds_of_readsAs hrank rank.isLt (Nat.zero_le _) hreads).1
          (lt_irrefl 0)
      · exact h
    rcases (shortest .up rank).exists_positional hexp hpos with ⟨whole, part, hplain, hvalue⟩
    rw [← hvalue] at hreads
    exact ⟨whole, part, hplain,
      ofScientific_of_readsAs negative hrank rank.isLt hplain.part_length hreads⟩

/-- The digits of a whole number that is not too large are read as a number that is it. -/
theorem toInt?_ofScientific {i : Int} (hi : i.natAbs < 2 ^ 53) :
    (Number.ofScientific (decide (i < 0)) i.natAbs 0).toInt? = some i := by
  by_cases hzero : i.natAbs = 0
  · have hi0 : i = 0 := Int.natAbs_eq_zero.mp hzero
    subst hi0
    simp [Number.ofScientific, Number.ofRank, Number.toInt?, infinityRank]
  · have hlen : (Nat.toDigits 10 i.natAbs).length ≤ 16 := by
      rw [Nat.length_toDigits_le_iff (by norm_num) (by norm_num)]
      omega
    rcases exists_rankUnits_eq hi with ⟨rank, hfin, hunits⟩
    have hnearest : nearestRank (i.natAbs * unitsPerOne) 1 = rank :=
      nearestRank_of_exact Nat.one_pos (by rw [hunits, Nat.mul_one])
    have hread : Number.ofScientific (decide (i < 0)) i.natAbs 0 =
        .finite (decide (i < 0)) ⟨rank, hfin⟩ := by
      unfold Number.ofScientific
      rw [if_neg hzero]
      dsimp only
      rw [if_neg (by omega), if_neg (by omega), if_pos (le_refl _)]
      simp [Number.ofRatio, hnearest, Number.ofRank, hfin]
    rw [hread]
    simp only [Number.toInt?, hunits, Nat.mul_mod_left, if_true,
      Nat.mul_div_cancel _ unitsPerOne_pos, decide_eq_true_eq]
    rw [Option.some.injEq]
    split <;> omega

end GameCondition
