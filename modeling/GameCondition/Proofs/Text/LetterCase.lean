import GameCondition.Proofs.Text.CharClass
import GameCondition.Text.LetterCase

/-! # Letter case

Facts about lower case that hold of every character, and those about the characters that differ
from a letter of ASCII in case only: besides the letters themselves these are the long `s` and the
Kelvin sign.
-/

namespace GameCondition

/-! ## ASCII -/

theorem toLower_of_not_ascii {c : Char} (hc : ¬ c.toNat < 128) : c.toLower = c := by
  refine dif_neg fun hupper => hc ?_
  have hlast : c.toNat ≤ 'Z'.toNat := hupper.2
  exact Nat.lt_of_le_of_lt hlast (by decide)

theorem toNat_toLower_lt {c : Char} (hc : c.toNat < 128) : c.toLower.toNat < 128 :=
  forall_ascii (P := fun c => c.toLower.toNat < 128) (by decide) hc

theorem toLower_toLower (c : Char) : c.toLower.toLower = c.toLower := by
  by_cases hc : c.toNat < 128
  · exact forall_ascii (P := fun c => c.toLower.toLower = c.toLower) (by decide) hc
  · rw [toLower_of_not_ascii hc, toLower_of_not_ascii hc]

theorem map_toLower_map_toLower (cs : List Char) :
    (cs.map Char.toLower).map Char.toLower = cs.map Char.toLower := by
  rw [List.map_map]
  exact List.map_congr_left fun c _ => toLower_toLower c

theorem sameAscii_iff {a b : String} :
    sameAscii a b = true ↔ a.toList.map Char.toLower = b.toList.map Char.toLower :=
  beq_iff_eq

/-! ## Letters of ASCII in either case -/

/-- Whether a character differs from a small letter of ASCII in case only. -/
def foldsToLetter (c : Char) : Bool :=
  (foldChar c).isLower

theorem mem_variantLetters {n m : Nat} (h : variantLetters.lookup n = some m) :
    (n, m) ∈ variantLetters := by
  obtain ⟨l₁, l₂, hsplit, -⟩ := List.lookup_eq_some_iff.mp h
  rw [hsplit]
  exact List.mem_append_right l₁ List.mem_cons_self

/-- Only the Kelvin sign has a partner in ASCII. -/
theorem caseRuns_shift : ∀ r ∈ caseRuns,
    128 ≤ r.first + r.shift ∨ (r.first = 0x212A ∧ r.last = 0x212A) := by
  decide +kernel

/-- Only the long `s` is a variant of a letter of ASCII. -/
theorem variantLetters_snd : ∀ entry ∈ variantLetters, 128 ≤ entry.2 ∨ entry.1 = 0x17F := by
  decide

theorem toNat_of_isLower {c : Char} (h : c.isLower = true) : 97 ≤ c.toNat ∧ c.toNat < 128 := by
  obtain ⟨hfirst, hlast⟩ := (Bool.and_eq_true _ _).mp h
  have hfirst : 'a'.toNat ≤ c.toNat := of_decide_eq_true hfirst
  have hlast : c.toNat ≤ 'z'.toNat := of_decide_eq_true hlast
  exact ⟨hfirst, Nat.lt_of_le_of_lt hlast (by decide)⟩

theorem toNat_ofNat {n : Nat} (h : n.isValidChar) : (Char.ofNat n).toNat = n := by
  rw [Char.ofNat, dif_pos h]
  rfl

theorem lt_of_isLower_ofNat {n : Nat} (h : (Char.ofNat n).isLower = true) : n < 128 := by
  by_cases hvalid : n.isValidChar
  · have hn := toNat_ofNat hvalid
    have := toNat_of_isLower h
    omega
  · rw [Char.ofNat, dif_neg hvalid] at h
    exact absurd h (by decide)

/-- Besides the letters of ASCII only the long `s` and the Kelvin sign fold to one. -/
theorem foldsToLetter_cases {c : Char} (h : foldsToLetter c = true) :
    (c.toNat < 128 ∧ c.isAlpha = true) ∨ c = 'ſ' ∨ c = '\u212A' := by
  by_cases hc : c.toNat < 128
  · exact .inl ⟨hc, forall_ascii (P := fun c => foldsToLetter c = true → c.isAlpha = true)
      (by decide) hc h⟩
  · right
    rw [foldsToLetter, foldChar, if_neg hc] at h
    cases hvariant : variantLetters.lookup c.toNat with
    | some n =>
      rw [hvariant] at h
      have hn := lt_of_isLower_ofNat h
      rcases variantLetters_snd _ (mem_variantLetters hvariant) with hlarge | hlong
      · omega
      · have hlong : c.toNat = 0x17F := hlong
        exact .inl (by rw [← c.ofNat_toNat, hlong])
    | none =>
      rw [hvariant] at h
      dsimp only at h
      have hself : c.isLower = true → False := fun hlower => hc (toNat_of_isLower hlower).2
      split at h
      · exact absurd h hself
      · rw [lowerPartner, if_neg hc] at h
        split at h
        case h_1 r hr =>
          have hcovers := List.find?_some hr
          simp only [CaseRun.covers, Bool.and_eq_true, decide_eq_true_eq] at hcovers
          have hn := lt_of_isLower_ofNat h
          rcases caseRuns_shift r (List.mem_of_find?_eq_some hr) with hlarge | ⟨hfirst, hlast⟩
          · omega
          · have hkelvin : c.toNat = 0x212A := by omega
            exact .inr (by rw [← c.ofNat_toNat, hkelvin])
        case h_2 => exact absurd h hself

/-- What folds to a letter is part of a word. -/
theorem isWordChar_of_foldsToLetter {c : Char} (h : foldsToLetter c = true) :
    isWordChar c = true := by
  rcases foldsToLetter_cases h with ⟨hc, halpha⟩ | rfl | rfl
  · exact forall_ascii (P := fun c => c.isAlpha = true → isWordChar c = true) (by decide)
      hc halpha
  · decide
  · have hletter : inRanges letterRanges '\u212A'.toNat = true := bits_letterRanges.2.2.2
    rw [isWordChar, if_neg (by decide), hletter, Bool.true_or, Bool.true_and]
    decide

theorem ne_underscore_of_foldsToLetter {c : Char} (h : foldsToLetter c = true) : c ≠ '_' := by
  rintro rfl
  exact absurd h (by decide)

/-- What folds to a letter is lowered to one character of words. -/
theorem lowerChar_of_foldsToLetter {c : Char} (h : foldsToLetter c = true) :
    c ≠ 'Σ' ∧ ∃ d, lowerChar c = [d] ∧ isWordChar d = true := by
  rcases foldsToLetter_cases h with ⟨hc, halpha⟩ | rfl | rfl
  · have hlower : isWordChar c.toLower = true :=
      forall_ascii (P := fun c => c.isAlpha = true → isWordChar c.toLower = true)
        (by decide) hc halpha
    refine ⟨?_, c.toLower, ?_, hlower⟩
    · rintro rfl
      exact absurd hc (by decide)
    · have hne : c ≠ 'İ' := by
        rintro rfl
        exact absurd hc (by decide)
      rw [lowerChar, if_neg hne, lowerPartner, if_pos hc]
  · exact ⟨by decide, 'ſ', by decide, by decide⟩
  · exact ⟨by decide, 'k', by decide, by decide⟩

/-- Lowering a text of such characters keeps its length, and gives characters of words. -/
theorem lowerText_of_foldsToLetter {cs : List Char} (h : ∀ c ∈ cs, foldsToLetter c = true) :
    (lowerText cs).length = cs.length ∧ ∀ c ∈ lowerText cs, isWordChar c = true := by
  suffices hafter : ∀ before, (lowerAfter before cs).length = cs.length ∧
      ∀ c ∈ lowerAfter before cs, isWordChar c = true from hafter []
  induction cs with
  | nil => exact fun before => ⟨rfl, by simp [lowerAfter]⟩
  | cons c cs ih =>
    intro before
    rw [List.forall_mem_cons] at h
    obtain ⟨hne, d, hd, hword⟩ := lowerChar_of_foldsToLetter h.1
    obtain ⟨hlength, hall⟩ := ih h.2 (c :: before)
    rw [lowerAfter, if_neg hne, hd, List.singleton_append]
    exact ⟨congrArg (· + 1) hlength, List.forall_mem_cons.mpr ⟨hword, hall⟩⟩

/-! ## Final sigmas -/

/-- Whether a capital sigma ends a word of a text. -/
def HasFinalSigma (cs : List Char) : Prop :=
  ∃ a b, cs = a ++ 'Σ' :: b ∧ lowerSigma a.reverse b = 'ς'

theorem lowerSigma_ne_iff {before after : List Char} :
    lowerSigma before after ≠ 'ς' ↔ lowerSigma before after = 'σ' := by
  unfold lowerSigma
  split <;> decide

/-- A text is lowered character by character, but for the capital sigmas that end its words. -/
theorem lowerText_eq_flatMap_iff (cs : List Char) :
    lowerText cs = cs.flatMap lowerChar ↔ ¬ HasFinalSigma cs := by
  suffices hafter : ∀ before, lowerAfter before cs = cs.flatMap lowerChar ↔
      ∀ a b, cs = a ++ 'Σ' :: b → lowerSigma (a.reverse ++ before) b ≠ 'ς' by
    rw [lowerText, hafter []]
    simp [HasFinalSigma]
  induction cs with
  | nil => simp [lowerAfter]
  | cons c cs ih =>
    intro before
    -- the capital sigma is at the front, or behind the first character
    have hsplit : (∀ a b, c :: cs = a ++ 'Σ' :: b → lowerSigma (a.reverse ++ before) b ≠ 'ς') ↔
        (c = 'Σ' → lowerSigma before cs = 'σ') ∧
          ∀ a b, cs = a ++ 'Σ' :: b → lowerSigma (a.reverse ++ c :: before) b ≠ 'ς' := by
      constructor
      · intro h
        refine ⟨?_, ?_⟩
        · rintro rfl
          exact lowerSigma_ne_iff.mp (h [] cs rfl)
        · intro a b hcs
          have hbehind := h (c :: a) b (by rw [hcs, List.cons_append])
          rwa [List.reverse_cons, List.append_assoc] at hbehind
      · rintro ⟨hfront, hbehind⟩ a b hcs
        cases a with
        | nil =>
          rcases List.cons.inj hcs with ⟨rfl, rfl⟩
          exact lowerSigma_ne_iff.mpr (hfront rfl)
        | cons d a =>
          rcases List.cons.inj hcs with ⟨rfl, htail⟩
          rw [List.reverse_cons, List.append_assoc]
          exact hbehind a b htail
    rw [hsplit, ← ih, lowerAfter, List.flatMap_cons]
    by_cases hc : c = 'Σ'
    · subst hc
      have hsmall : lowerChar 'Σ' = ['σ'] := by decide
      simp [hsmall]
    · simp [hc]

instance (cs : List Char) : Decidable (HasFinalSigma cs) :=
  decidable_of_iff (lowerText cs ≠ cs.flatMap lowerChar) (by
    rw [Ne, lowerText_eq_flatMap_iff, Classical.not_not])

/-- Where no capital sigma ends a word, names lowered as texts are the same if they are so
character by character. -/
theorem lowered_eq_iff_sameName {a b : String} (ha : ¬ HasFinalSigma a.toList)
    (hb : ¬ HasFinalSigma b.toList) : lowered a = lowered b ↔ sameName a b = true := by
  rw [lowered, lowered, String.ofList_inj, (lowerText_eq_flatMap_iff _).mpr ha,
    (lowerText_eq_flatMap_iff _).mpr hb, sameName, beq_iff_eq]

end GameCondition
