import GameCondition.Text.CharClass

/-! # Character classes

White space is apart from letters and from all other characters of words. For ASCII that is a
check of 128 characters, above it the tables have no bit in common.
-/

namespace GameCondition

/-- What holds of the first 128 code points holds of every ASCII character. -/
theorem forall_ascii {P : Char → Prop} (h : ∀ n < 128, P (Char.ofNat n)) {c : Char}
    (hc : c.toNat < 128) : P c := by
  rw [← c.ofNat_toNat]
  exact h _ hc

/-- What holds of every character of a text is decided by going through the text, and not through
all characters there are. -/
instance (priority := 2000) decidableForallMem {P : Char → Prop} [DecidablePred P]
    (cs : List Char) : Decidable (∀ c ∈ cs, P c) :=
  List.decidableBAll P cs

/-! ## Tables as bits

A set of code points is the number in which those bits are set. The kernel compares two tables as
two numbers then, and not each run of one with each range of the other.
-/

section Bits

variable {α : Type}

/-- The bits that are set for a member of a list. -/
def unionBits (f : α → Nat) (l : List α) : Nat :=
  l.foldr (fun x bits => bits ||| f x) 0

theorem testBit_unionBits (f : α → Nat) (l : List α) (n : Nat) :
    (unionBits f l).testBit n = l.any fun x => (f x).testBit n := by
  induction l with
  | nil => simp [unionBits]
  | cons x l ih =>
    rw [unionBits, List.foldr_cons, Nat.testBit_or, List.any_cons, Bool.or_comm]
    exact congrArg _ ih

theorem testBit_of_land_eq_zero {a b n : Nat} (h : a &&& b = 0) (ha : a.testBit n = true) :
    b.testBit n = false := by
  have hbit := congrArg (Nat.testBit · n) h
  simpa [ha] using hbit

theorem testBit_of_land_eq {a b n : Nat} (h : a &&& b = a) (hn : a.testBit n = true) :
    b.testBit n = true := by
  rw [← h, Nat.testBit_and, Bool.and_eq_true] at hn
  exact hn.2

end Bits

/-- The bits of a range. -/
def rangeBits (s : Nat × Nat) : Nat :=
  (1 <<< (s.2 + 1 - s.1) - 1) <<< s.1

/-- The bits of a table of ranges. -/
def tableBits (table : List (Nat × Nat)) : Nat :=
  unionBits rangeBits table

theorem testBit_tableBits (table : List (Nat × Nat)) (n : Nat) :
    (tableBits table).testBit n = inRanges table n := by
  rw [tableBits, testBit_unionBits, inRanges]
  refine congrArg table.any (funext fun s => ?_)
  rw [rangeBits, Nat.testBit_shiftLeft, Nat.one_shiftLeft, Nat.testBit_two_pow_sub_one,
    Bool.eq_iff_iff]
  simp only [Bool.and_eq_true, decide_eq_true_eq]
  omega

/-- A code point is in one only of two tables whose ranges are apart. -/
theorem inRanges_of_apart {table table' : List (Nat × Nat)} {n : Nat}
    (hapart : tableBits table &&& tableBits table' = 0) (h : inRanges table n = true) :
    inRanges table' n = false := by
  rw [← testBit_tableBits] at h ⊢
  exact testBit_of_land_eq_zero hapart h

/-- White space is apart from letters and marks, and the ranges of letters keep clear of the
surrogates. The Kelvin sign is a letter. -/
theorem bits_letterRanges :
    tableBits whiteRanges &&& tableBits letterRanges = 0 ∧
      tableBits whiteRanges &&& tableBits wordMarkRanges = 0 ∧
      (∀ s ∈ letterRanges, s.2 < 0xD800 ∨ (0xDFFF < s.1 ∧ s.2 < 0x110000)) ∧
      inRanges letterRanges 0x212A = true := by
  decide +kernel

theorem isValidChar_of_inRanges {n : Nat} (h : inRanges letterRanges n = true) :
    n.isValidChar := by
  obtain ⟨s, hs, hn⟩ := List.any_eq_true.mp h
  rw [Bool.and_eq_true, decide_eq_true_eq, decide_eq_true_eq] at hn
  rcases bits_letterRanges.2.2.1 s hs with hlow | ⟨hhigh, hlast⟩
  · exact .inl (by omega)
  · exact .inr ⟨by omega, by omega⟩

theorem isAlphabetic_of_isWhite {c : Char} (h : isWhite c = true) : isAlphabetic c = false := by
  by_cases hc : c.toNat < 128
  · exact forall_ascii (P := fun c => isWhite c = true → isAlphabetic c = false)
      (by decide) hc h
  · rw [isWhite, if_neg hc] at h
    rw [isAlphabetic, if_neg hc]
    exact inRanges_of_apart bits_letterRanges.1 h

/-- White space is apart from numerals. -/
theorem isNumeric_of_isWhite {c : Char} (h : isWhite c = true) : isNumeric c = false := by
  by_cases hc : c.toNat < 128
  · exact forall_ascii (P := fun c => isWhite c = true → isNumeric c = false)
      (by decide) hc h
  · have hapart : tableBits whiteRanges &&& tableBits numeralRanges = 0 := by decide +kernel
    rw [isWhite, if_neg hc] at h
    rw [isNumeric, if_neg hc]
    exact inRanges_of_apart hapart h

/-- White space is no part of a word. -/
theorem isWordChar_of_isWhite {c : Char} (h : isWhite c = true) : isWordChar c = false := by
  by_cases hc : c.toNat < 128
  · exact forall_ascii (P := fun c => isWhite c = true → isWordChar c = false)
      (by decide) hc h
  · rw [isWhite, if_neg hc] at h
    rw [isWordChar, if_neg hc, inRanges_of_apart bits_letterRanges.1 h,
      inRanges_of_apart bits_letterRanges.2.1 h]
    rfl

theorem isWhite_of_isWordChar {c : Char} (h : isWordChar c = true) : isWhite c = false := by
  refine Bool.eq_false_iff.mpr fun hwhite => ?_
  rw [isWordChar_of_isWhite hwhite] at h
  cases h

end GameCondition
