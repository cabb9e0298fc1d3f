import GameCondition.Proofs.Condition.RoundTrip
import Mathlib.Order.Bounds.Basic
import Mathlib.Tactic.Linarith

/-! # How high conditions get

A chain gives its levels back when it ends, but what it has built stays as the left operand of the
chain around it. So a limit does not bound the height of a condition by itself: a chain of `or` may
grow on a chain of `and`, and both on what stands in parentheses, which may be such a pair of chains
one level deeper. The heights add up to the square of the limit, and no further
(`isGreatest_depth_read`).
-/

namespace GameCondition

open Grammar

/-! ## The bound -/

/-- How high an operand of `and` gets within so many levels. -/
def operandHeight : Nat → Nat
  | 0 => 1
  | m + 1 => m * (m + 1) + 2

/-- How high a chain of `and` gets within so many levels. -/
def chainHeight (m : Nat) : Nat :=
  operandHeight m + m

/-- How high a condition gets within so many levels. -/
def maxHeight : Nat → Nat
  | 0 => 1
  | m + 1 => (m + 1) * (m + 2) + 2

/-- Two chains of the full length stand on an operand. -/
theorem maxHeight_eq (m : Nat) : maxHeight m = chainHeight m + m := by
  cases m with
  | zero => rfl
  | succ m => simp only [maxHeight, chainHeight, operandHeight]; ring

/-- A level more is enough for parentheses around any condition. -/
theorem maxHeight_le (m : Nat) : maxHeight m ≤ operandHeight (m + 1) := by
  cases m with
  | zero => decide
  | succ m => exact le_refl _

/-- A level more is enough for a negation of any operand. -/
theorem operandHeight_lt (m : Nat) : operandHeight m < operandHeight (m + 1) := by
  cases m with
  | zero => decide
  | succ m => simp only [operandHeight]; nlinarith

/-- More levels bound a higher operand. -/
theorem operandHeight_mono {m k : Nat} (h : m ≤ k) : operandHeight m ≤ operandHeight k :=
  monotone_nat_of_le_succ (fun m => (operandHeight_lt m).le) h

/-- More levels bound a higher chain. -/
theorem chainHeight_mono {m k : Nat} (h : m ≤ k) : chainHeight m ≤ chainHeight k :=
  add_le_add (operandHeight_mono h) h

/-- Whether the rest of a chain adds a level of height for each of its levels, if its operands,
which are bounded by the levels that are left, were not too high from the first. -/
def RestKeepsTo (bound : Nat → Nat) (m : Nat) (f : Condition → Condition) : Prop :=
  ∀ left h, left.depth ≤ h → (∀ k < m, bound k ≤ h) → (f left).depth ≤ h + m

/-- A chain that ends adds no height. -/
theorem restKeepsTo_end (bound : Nat → Nat) (m : Nat) : RestKeepsTo bound m fun left => left := by
  intro left h hleft _
  exact hleft.trans (Nat.le_add_right h m)

/-- A further operand takes a level, and makes the chain one level higher. -/
theorem restKeepsTo_more (bound : Nat → Nat) (join : Condition → Condition → Condition)
    (hjoin : ∀ l r, (join l r).depth = 1 + max l.depth r.depth) {m : Nat} {next : Condition}
    {f : Condition → Condition} (hnext : next.depth ≤ bound m) (hrest : RestKeepsTo bound m f) :
    RestKeepsTo bound (m + 1) fun left => f (join left next) := by
  intro left h hleft hh
  have hoperand : next.depth ≤ h := hnext.trans (hh m (Nat.lt_succ_self m))
  have hchain : (join left next).depth ≤ h + 1 := by
    rw [hjoin]
    omega
  have hmore := hrest _ (h + 1) hchain fun k hk => (hh k (by omega)).trans (Nat.le_succ h)
  exact hmore.trans (by omega)

/-- Whether what a nonterminal stands for keeps to the bound for so many levels. -/
def Grammar.Nonterminal.KeepsTo : (n : Nonterminal) → Nat → n.Meaning → Prop
  | .or, m, c => Condition.depth c ≤ maxHeight m
  | .and, m, c => Condition.depth c ≤ chainHeight m
  | .unary, m, c => Condition.depth c ≤ operandHeight m
  | .orRest, m, f => RestKeepsTo chainHeight m f
  | .andRest, m, f => RestKeepsTo operandHeight m f

namespace Grammar.Derivation

/-- A derivation keeps to the bound for its levels. -/
theorem keepsTo {n : Nonterminal} (d : Derivation n) {m : Nat} (hm : d.nesting ≤ m) :
    n.KeepsTo m d.meaning := by
  induction d generalizing m with
  | or first rest ihf ihr =>
      have hmax := max_le_iff.mp hm
      have hfirst : Condition.depth first.meaning ≤ chainHeight m := ihf hmax.1
      have hrest := ihr hmax.2 first.meaning (chainHeight m) hfirst
        fun k hk => chainHeight_mono hk.le
      rw [← maxHeight_eq] at hrest
      exact hrest
  | orEnd => exact restKeepsTo_end _ m
  | orMore next rest ihn ihr =>
      rcases Condition.exists_level hm with ⟨m, rfl, hmax⟩
      rw [max_le_iff] at hmax
      exact restKeepsTo_more chainHeight (fun l r => .or l r .atStart) (fun _ _ => rfl)
        (ihn hmax.1) (ihr hmax.2)
  | and first rest ihf ihr =>
      have hmax := max_le_iff.mp hm
      exact ihr hmax.2 first.meaning (operandHeight m) (ihf hmax.1)
        fun k hk => operandHeight_mono hk.le
  | andEnd => exact restKeepsTo_end _ m
  | andMore next rest ihn ihr =>
      rcases Condition.exists_level hm with ⟨m, rfl, hmax⟩
      rw [max_le_iff] at hmax
      exact restKeepsTo_more operandHeight (fun l r => .and l r .atStart) (fun _ _ => rfl)
        (ihn hmax.1) (ihr hmax.2)
  | not inner ih =>
      rcases Condition.exists_level hm with ⟨m, rfl, hinner⟩
      have hoperand : Condition.depth inner.meaning ≤ operandHeight m := ih hinner
      have hlt := operandHeight_lt m
      have hnot : (Condition.not inner.meaning .atStart).depth ≤ operandHeight (m + 1) := by
        simp only [Condition.depth]
        omega
      exact hnot
  | group inner ih =>
      -- inside the parentheses a level less is left, and that is what the bound grows by
      rcases Condition.exists_level hm with ⟨m, rfl, hinner⟩
      have hgrouped : Condition.depth inner.meaning ≤ maxHeight m := ih hinner
      exact hgrouped.trans (maxHeight_le m)
  | phrase p =>
      have hleaf : p.leaf.depth = 1 := by cases p <;> rfl
      have hone := operandHeight_mono (Nat.zero_le m)
      exact hleaf.trans_le hone

end Grammar.Derivation

namespace Condition

/-- Places do not count for the height. -/
theorem depth_unplaced (c : Condition) : c.unplaced.depth = c.depth := by
  induction c with
  | and l r span ihl ihr => simp only [unplaced, depth, ihl, ihr]
  | or l r span ihl ihr => simp only [unplaced, depth, ihl, ihr]
  | not c span ih => simp only [unplaced, depth, ih]
  | _ => rfl

/-- A condition that is read keeps to the bound for the limit. -/
theorem depth_le_of_read {limit : Nat} {source : String} {c : Condition}
    (h : read limit source = .ok c) : c.depth ≤ maxHeight limit := by
  rcases read_iff.mp ⟨c, h, rfl⟩ with ⟨d, -, hmeaning, hlimit⟩
  have hkeeps : Condition.depth d.meaning ≤ maxHeight limit := d.keepsTo hlimit
  rwa [hmeaning, depth_unplaced] at hkeeps

/-! ## Conditions that reach it -/

/-- The smallest condition there is. -/
def smallest : Condition :=
  .relation ⟨.item "a", .is, .element "a", none, none, .atStart⟩

/-- A chain of `and` with so many further operands. -/
def andChain (c : Condition) : Nat → Condition
  | 0 => c
  | n + 1 => .and (c.andChain n) smallest .atStart

/-- A chain of `or` with so many further operands. -/
def orChain (c : Condition) : Nat → Condition
  | 0 => c
  | n + 1 => .or (c.orChain n) smallest .atStart

/-- The highest condition within so many levels: chains of the full length, on the highest one of
the level before. -/
def highest : Nat → Condition
  | 0 => smallest
  | 1 => ((not smallest .atStart).andChain 1).orChain 1
  | m + 2 => ((highest (m + 1)).andChain (m + 2)).orChain (m + 2)

/-- Every condition has a height. -/
theorem one_le_depth (c : Condition) : 1 ≤ c.depth := by
  cases c <;> simp only [depth] <;> omega

/-- Each link of an `and` chain adds a level of height. -/
theorem depth_andChain (c : Condition) (n : Nat) : (c.andChain n).depth = c.depth + n := by
  induction n with
  | zero => rfl
  | succ n ih =>
      have hone := c.one_le_depth
      simp only [andChain, smallest, depth, ih]
      omega

/-- Each link of an `or` chain adds a level of height. -/
theorem depth_orChain (c : Condition) (n : Nat) : (c.orChain n).depth = c.depth + n := by
  induction n with
  | zero => rfl
  | succ n ih =>
      have hone := c.one_le_depth
      simp only [orChain, smallest, depth, ih]
      omega

/-- The highest condition within so many levels has the bound for its height. -/
theorem depth_highest (m : Nat) : (highest m).depth = maxHeight m := by
  induction m with
  | zero => rfl
  | succ m ih =>
      cases m with
      | zero => rfl
      | succ m =>
          rw [highest, depth_orChain, depth_andChain, ih]
          simp only [maxHeight]
          ring

/-- An `and` chain has so many links more. -/
theorem andFolds_andChain (c : Condition) (n : Nat) :
    (c.andChain n).andFolds = c.andFolds + n := by
  induction n with
  | zero => rfl
  | succ n ih => simp only [andChain, andFolds, ih]; omega

/-- An `or` chain has so many links more. -/
theorem orFolds_orChain (c : Condition) (n : Nat) : (c.orChain n).orFolds = c.orFolds + n := by
  induction n with
  | zero => rfl
  | succ n ih => simp only [orChain, orFolds, ih]; omega

/-- A chain of `and` is as deep as its first operand or as it is long. -/
theorem nestingAt_andChain (c : Condition) (n : Nat) :
    (c.andChain n).nestingAt .andChain ≤ max (c.nestingAt .andChain) (c.andFolds + n) := by
  induction n with
  | zero => exact le_max_left _ _
  | succ n ih =>
      -- the further operand is a leaf, and stands as deep as there are operands before it
      have hfolds := c.andFolds_andChain n
      simp only [andChain, smallest, nestingAt, hfolds]
      simp only [reduceCtorEq, if_false]
      omega

/-- An `or` chain needs a level for each link, or as many as its first operand. -/
theorem nestingAt_orChain (c : Condition) (n : Nat) :
    (c.orChain n).nestingAt .any ≤ max (c.nestingAt .any) (c.orFolds + n) := by
  induction n with
  | zero => exact le_max_left _ _
  | succ n ih =>
      have hfolds := c.orFolds_orChain n
      simp only [orChain, smallest, nestingAt, hfolds]
      simp only [if_true]
      omega

/-- Chains of full length on an operand that is no chain stand no deeper than the operand or than
they are long. -/
theorem nestingAt_chains {c : Condition} {m : Nat} (hc : c.nestingAt .andChain ≤ m + 1)
    (hfolds : c.andFolds = 0) :
    ((c.andChain (m + 1)).orChain (m + 1)).nestingAt .any ≤ m + 1 := by
  have hor := (c.andChain (m + 1)).nestingAt_orChain (m + 1)
  have hand := c.nestingAt_andChain (m + 1)
  have hplace : (c.andChain (m + 1)).nestingAt .any = (c.andChain (m + 1)).nestingAt .andChain :=
    rfl
  have hfirst : (c.andChain (m + 1)).orFolds = 0 := rfl
  omega

/-- The highest condition keeps within the levels. -/
theorem nestingAt_highest (m : Nat) : (highest m).nestingAt .any ≤ m := by
  induction m with
  | zero => exact le_refl _
  | succ m ih =>
      cases m with
      | zero => exact nestingAt_chains (by decide) rfl
      | succ m =>
          -- the one before is a chain of `or`, so it stands in parentheses, a level deeper
          have hshape : ∃ l r, highest (m + 1) = .or l r .atStart := by
            cases m <;> exact ⟨_, _, rfl⟩
          rcases hshape with ⟨l, r, hshape⟩
          have hgroup : (highest (m + 1)).nestingAt .andChain =
              1 + (highest (m + 1)).nestingAt .any := by
            simp [hshape, nestingAt]
          have hfolds : (highest (m + 1)).andFolds = 0 := by rw [hshape]; rfl
          exact nestingAt_chains (by omega) hfolds

/-- The smallest condition can be written. -/
theorem smallest_isWritable : smallest.IsWritable := by
  have hplain : isPlainIdentifier "a" = true := by decide
  constructor
  · exact ⟨rfl, fun id hid => by cases hid; exact hplain⟩
  · intro name h
    cases h
  · intro name h
    cases h
  · intro id h
    cases h
    exact hplain
  · intro h
    cases h

/-- The smallest condition is printed faithfully. -/
theorem smallest_isFaithful : smallest.IsFaithful := by
  constructor
  · intro h
    cases h
  · intro n h
    cases h

/-- An `and` chain on an expressible condition is expressible. -/
theorem isExpressible_andChain {c : Condition} (hc : c.IsExpressible) (n : Nat) :
    (c.andChain n).IsExpressible := by
  induction n with
  | zero => exact hc
  | succ n ih => exact ⟨⟨ih.writable, smallest_isWritable⟩, ⟨ih.faithful, smallest_isFaithful⟩⟩

/-- An `or` chain on an expressible condition is expressible. -/
theorem isExpressible_orChain {c : Condition} (hc : c.IsExpressible) (n : Nat) :
    (c.orChain n).IsExpressible := by
  induction n with
  | zero => exact hc
  | succ n ih => exact ⟨⟨ih.writable, smallest_isWritable⟩, ⟨ih.faithful, smallest_isFaithful⟩⟩

/-- The highest condition is expressible. -/
theorem isExpressible_highest (m : Nat) : (highest m).IsExpressible := by
  have hsmallest : smallest.IsExpressible := ⟨smallest_isWritable, smallest_isFaithful⟩
  induction m with
  | zero => exact hsmallest
  | succ m ih =>
      cases m with
      | zero =>
          have hnot : (not smallest .atStart).IsExpressible :=
            ⟨hsmallest.writable, hsmallest.faithful⟩
          exact isExpressible_orChain (isExpressible_andChain hnot 1) 1
      | succ m => exact isExpressible_orChain (isExpressible_andChain ih (m + 2)) (m + 2)

/-- The greatest height of a condition that is read under a limit. -/
theorem isGreatest_depth_read (limit : Nat) :
    IsGreatest { height | ∃ source c, read limit source = .ok c ∧ c.depth = height }
      (maxHeight limit) := by
  constructor
  · have hexpressible := isExpressible_highest limit
    rcases (read_text_iff_nesting hexpressible.writable hexpressible.faithful).mpr
      (nestingAt_highest limit) with ⟨c, hread, hunplaced⟩
    refine ⟨_, c, hread, ?_⟩
    rw [← depth_unplaced, hunplaced, depth_unplaced, depth_highest]
  · rintro height ⟨source, c, hread, rfl⟩
    exact depth_le_of_read hread

/-- The height is not bounded by the limit and one: a chain of `or` grows on a chain of `and`. -/
theorem not_depth_le_limit_succ :
    ¬ ∀ limit source c, read limit source = .ok c → c.depth ≤ limit + 1 := by
  intro h
  have hread : read 1 "a is x and b is x or c is x" = .ok
      (.or
        (.and
          (.relation ⟨.item "a", .is, .element "x", none, none, ⟨0, 6, 1, 1⟩⟩)
          (.relation ⟨.item "b", .is, .element "x", none, none, ⟨11, 17, 1, 12⟩⟩) ⟨0, 17, 1, 1⟩)
        (.relation ⟨.item "c", .is, .element "x", none, none, ⟨21, 27, 1, 22⟩⟩) ⟨0, 27, 1, 1⟩) := by
    decide +kernel
  exact absurd (h _ _ _ hread) (by decide)

end Condition

end GameCondition
