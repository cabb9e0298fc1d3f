import GameCondition.Proofs.Text.Partner
import GameCondition.Value

/-! # Numbers are read in any case

The words for infinity and NaN and the mark of an exponent may be written in any case
(`ofText?_lowerPartner`), and no other letter belongs to a number. There is no `k` among their
letters, so no letter beyond ASCII is taken for one of them.
-/

namespace GameCondition

namespace Number

/-! ## Digits -/

theorem map_lowerPartner_of_isDigit {cs : List Char} (h : ∀ c ∈ cs, c.isDigit = true) :
    cs.map lowerPartner = cs := by
  rw [List.map_congr_left fun c hc => lowerPartner_of_isDigit (h c hc), List.map_id']

theorem takeWhile_isDigit_lowerPartner (cs : List Char) :
    (cs.map lowerPartner).takeWhile Char.isDigit = cs.takeWhile Char.isDigit := by
  have hdigits : Char.isDigit ∘ lowerPartner = Char.isDigit := funext isDigit_lowerPartner
  rw [List.takeWhile_map, hdigits]
  exact map_lowerPartner_of_isDigit (List.all_eq_true.mp List.all_takeWhile)

theorem dropWhile_isDigit_lowerPartner (cs : List Char) :
    (cs.map lowerPartner).dropWhile Char.isDigit = (cs.dropWhile Char.isDigit).map lowerPartner := by
  have hdigits : Char.isDigit ∘ lowerPartner = Char.isDigit := funext isDigit_lowerPartner
  rw [List.dropWhile_map, hdigits]

/-! ## Decimals -/

/-- Reads digits that have to be there. -/
def digits? (cs : List Char) : Option Int :=
  if cs.isEmpty || !cs.all Char.isDigit then none else some (digitsValue cs)

theorem signedDigits?_cons (c : Char) (cs : List Char) :
    signedDigits? (c :: cs) =
      if c = '-' then (digits? cs).map (-·) else if c = '+' then digits? cs else digits? (c :: cs) := by
  by_cases hminus : c = '-'
  · subst hminus
    simp only [signedDigits?, digits?, if_true]
    split <;> rfl
  · by_cases hplus : c = '+'
    · subst hplus
      rfl
    · rw [if_neg hminus, if_neg hplus]
      simp [signedDigits?, digits?, hminus, hplus]

theorem digits?_lowerPartner (cs : List Char) : digits? (cs.map lowerPartner) = digits? cs := by
  unfold digits?
  have hall : (cs.map lowerPartner).all Char.isDigit = cs.all Char.isDigit := by
    rw [List.all_map]
    exact congrArg _ (funext isDigit_lowerPartner)
  rw [hall, List.isEmpty_map]
  split
  · rfl
  · next h =>
    have hdigits : ∀ c ∈ cs, c.isDigit = true := by
      intro c hc
      simp only [Bool.or_eq_true, Bool.not_eq_true', not_or, Bool.not_eq_false,
        List.all_eq_true] at h
      exact h.2 c hc
    rw [map_lowerPartner_of_isDigit hdigits]

theorem signedDigits?_lowerPartner (cs : List Char) :
    signedDigits? (cs.map lowerPartner) = signedDigits? cs := by
  cases cs with
  | nil => rfl
  | cons c cs =>
      have hfirst := digits?_lowerPartner (c :: cs)
      rw [List.map_cons] at hfirst ⊢
      have hminus : lowerPartner c = '-' ↔ c = '-' := lowerPartner_eq_iff (by decide)
      have hplus : lowerPartner c = '+' ↔ c = '+' := lowerPartner_eq_iff (by decide)
      simp only [signedDigits?_cons, digits?_lowerPartner, hfirst, hminus, hplus]

theorem exponent?_cons (c : Char) (cs : List Char) :
    exponent? (c :: cs) = if c.toLower = 'e' then signedDigits? cs else none := by
  by_cases hc : c.toNat < 128
  · have hall : ∀ n < 128, (Char.ofNat n).toLower = 'e' ↔
        Char.ofNat n = 'e' ∨ Char.ofNat n = 'E' := by
      decide
    have hmark := hall _ hc
    rw [c.ofNat_toNat] at hmark
    by_cases hlower : c.toLower = 'e'
    · rw [if_pos hlower]
      rcases hmark.mp hlower with rfl | rfl <;> rfl
    · rw [if_neg hlower]
      rw [hmark, not_or] at hlower
      simp [exponent?, hlower.1, hlower.2]
  · have hne : c ≠ 'e' ∧ c ≠ 'E' :=
      ⟨fun h => hc (h ▸ by decide), fun h => hc (h ▸ by decide)⟩
    rw [toLower_of_not_ascii hc, if_neg hne.1]
    simp [exponent?, hne.1, hne.2]

theorem exponent?_lowerPartner (cs : List Char) : exponent? (cs.map lowerPartner) = exponent? cs := by
  cases cs with
  | nil => rfl
  | cons c cs =>
      have hmark : (lowerPartner c).toLower = 'e' ↔ c.toLower = 'e' := by
        rw [← lowerPartner_eq_ascii_iff (by decide) (by decide), lowerPartner_lowerPartner,
          lowerPartner_eq_ascii_iff (by decide) (by decide)]
      simp only [List.map_cons, exponent?_cons, signedDigits?_lowerPartner, hmark]

theorem fraction_cons (c : Char) (cs : List Char) :
    fraction (c :: cs) =
      if c = '.' then (cs.takeWhile Char.isDigit, cs.dropWhile Char.isDigit) else ([], c :: cs) := by
  by_cases hdot : c = '.'
  · subst hdot
    rfl
  · simp [fraction, hdot]

theorem fraction_lowerPartner (cs : List Char) :
    fraction (cs.map lowerPartner) = ((fraction cs).1, (fraction cs).2.map lowerPartner) := by
  cases cs with
  | nil => rfl
  | cons c cs =>
      have hdot : lowerPartner c = '.' ↔ c = '.' := lowerPartner_eq_iff (by decide)
      simp only [List.map_cons, fraction_cons, hdot]
      split
      · rw [takeWhile_isDigit_lowerPartner, dropWhile_isDigit_lowerPartner]
      · rfl

theorem decimal?_lowerPartner (negative : Bool) (cs : List Char) :
    decimal? negative (cs.map lowerPartner) = decimal? negative cs := by
  unfold decimal?
  rw [takeWhile_isDigit_lowerPartner, dropWhile_isDigit_lowerPartner, fraction_lowerPartner]
  simp only [exponent?_lowerPartner]

/-! ## Numbers -/

theorem unsigned?_lowerPartner (negative : Bool) (cs : List Char) :
    unsigned? negative (cs.map lowerPartner) = unsigned? negative cs := by
  have hinf := map_toLower_lowerPartner_eq_iff cs ['i', 'n', 'f'] (by simp)
  have hinfinity := map_toLower_lowerPartner_eq_iff cs
    ['i', 'n', 'f', 'i', 'n', 'i', 't', 'y'] (by simp)
  have hnan := map_toLower_lowerPartner_eq_iff cs ['n', 'a', 'n'] (by simp)
  simp only [unsigned?, hinf, hinfinity, hnan, decimal?_lowerPartner]

theorem ofText?_cons (c : Char) (cs : List Char) :
    ofText? (c :: cs) =
      if c = '-' then unsigned? true cs else if c = '+' then unsigned? false cs
      else unsigned? false (c :: cs) := by
  by_cases hminus : c = '-'
  · subst hminus
    rfl
  · by_cases hplus : c = '+'
    · subst hplus
      rfl
    · simp [ofText?, hminus, hplus]

/-- A number is read in any case. -/
theorem ofText?_lowerPartner (cs : List Char) : ofText? (cs.map lowerPartner) = ofText? cs := by
  cases cs with
  | nil => rfl
  | cons c cs =>
      have hfirst := unsigned?_lowerPartner false (c :: cs)
      rw [List.map_cons] at hfirst ⊢
      have hminus : lowerPartner c = '-' ↔ c = '-' := lowerPartner_eq_iff (by decide)
      have hplus : lowerPartner c = '+' ↔ c = '+' := lowerPartner_eq_iff (by decide)
      simp only [ofText?_cons, unsigned?_lowerPartner, hfirst, hminus, hplus]

end Number

namespace Value

/-- A text spells the same number in lower case. -/
@[simp] theorem asNumber?_lowerName (s : String) :
    asNumber? (.text (lowerName s)) = asNumber? (.text s) := by
  rw [asNumber?, asNumber?, toList_lowerName, trim_lowerPartner, Number.ofText?_lowerPartner]

/-- Texts that differ in ASCII case only spell the same number. -/
theorem asNumber?_of_sameAscii {a b : String} (h : sameAscii a b = true) :
    asNumber? (.text a) = asNumber? (.text b) := by
  rw [← asNumber?_lowerName a, lowerName_of_sameAscii h, asNumber?_lowerName]

end Value

end GameCondition
