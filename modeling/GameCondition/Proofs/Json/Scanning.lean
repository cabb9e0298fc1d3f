import GameCondition.Json.Reading
import GameCondition.Json.Writing
import GameCondition.Proofs.Token.Terminals

/-! # Scanning JSON

A token takes up at least one character (`scanToken?_length`), so the limit on the number of tokens
is never met, and the tokens of a text are the first one and those of the rest (`tokens?_cons`).
The end of a number shows only in what follows it. What is scanned of a number does not change when
something is put behind it that does not go on with a number (`scanNumber_spec`).

Each text that a scalar is written as is one token: a string, because every escaped character is
taken up as the character itself (`scanString_escapeChar`), a whole number that fits in 64 bits,
and any other number that is read back when its text stands alone (`tokens?_decimal`).
-/

namespace GameCondition

namespace Json

variable {cs rest r : List Char} {ts : List Token}

/-! ## Runs of digits -/

/-- What would go on with a number. -/
def extendsNumber (c : Char) : Bool :=
  c.isDigit || c == '.' || c == 'e' || c == 'E'

/-- Where a sort of characters stops, none of it comes next. -/
theorem ne_cons_of_stopsAt {p : Char → Bool} {c : Char} (hc : p c = true)
    (hrest : StopsAt p rest) (ds : List Char) : rest ≠ c :: ds := by
  intro h
  have hstop := hrest c ds h
  rw [hc] at hstop
  cases hstop

/-- What follows does not change what is taken, if the taking stops there. -/
theorem takeWhile_stopsAt_append {p : Char → Bool} (cs : List Char) (hrest : StopsAt p rest) :
    (cs ++ rest).takeWhile p = cs.takeWhile p ∧
      (cs ++ rest).dropWhile p = cs.dropWhile p ++ rest := by
  induction cs with
  | nil => exact takeWhile_append_of_stopsAt (w := []) (by simp) hrest
  | cons c cs ih =>
      by_cases hc : p c = true
      · simp [hc, ih.1, ih.2]
      · simp [hc]

/-- The digits at the beginning of a text, at least one, and what follows them. -/
def someDigits? (cs : List Char) : Option (List Char × List Char) :=
  let digits := cs.takeWhile Char.isDigit
  if digits.isEmpty then none else some (digits, cs.dropWhile Char.isDigit)

/-- Digits are taken to the last, and there is at least one. -/
theorem someDigits?_eq_some {digits : List Char} : someDigits? cs = some (digits, r) ↔
    digits ≠ [] ∧ cs.takeWhile Char.isDigit = digits ∧ cs.dropWhile Char.isDigit = r := by
  simp only [someDigits?, List.isEmpty_iff, ite_eq_iff, reduceCtorEq, and_false, false_or,
    Option.some.injEq, Prod.mk.injEq]
  constructor
  · rintro ⟨hne, rfl, rfl⟩
    exact ⟨hne, rfl, rfl⟩
  · rintro ⟨hne, rfl, rfl⟩
    exact ⟨hne, rfl, rfl⟩

/-- Taking digits gets on, and is not changed by what follows the number. -/
theorem someDigits?_spec {digits : List Char} (h : someDigits? cs = some (digits, r)) :
    r.length < cs.length ∧ ∀ rest, StopsAt extendsNumber rest →
      someDigits? (cs ++ rest) = some (digits, r ++ rest) := by
  rcases someDigits?_eq_some.mp h with ⟨hne, htake, hdrop⟩
  constructor
  · have hsplit : cs.takeWhile Char.isDigit ++ cs.dropWhile Char.isDigit = cs :=
      List.takeWhile_append_dropWhile
    have hpos := List.length_pos_iff.mpr hne
    rw [← hsplit, htake, hdrop, List.length_append]
    omega
  · intro rest hrest
    have hdigit : StopsAt Char.isDigit rest := by
      intro c ds hcs
      have hc := hrest c ds hcs
      simp only [extendsNumber, Bool.or_eq_false_iff] at hc
      exact hc.1.1.1
    rcases takeWhile_stopsAt_append cs hdigit with ⟨htake', hdrop'⟩
    rw [someDigits?_eq_some, htake', hdrop', htake, hdrop]
    exact ⟨hne, rfl, rfl⟩

/-! ## The parts of a number -/

/-- Without a zero in front the whole part is all digits. -/
theorem scanWhole_of_ne (h : ∀ r, cs ≠ '0' :: r) : scanWhole cs = someDigits? cs := by
  unfold scanWhole
  split
  · next r => exact absurd rfl (h r)
  · rfl

/-- Taking the whole part gets on, and is not changed by what follows the number. -/
theorem scanWhole_spec {whole : List Char} (h : scanWhole cs = some (whole, r)) :
    r.length < cs.length ∧ ∀ rest, StopsAt extendsNumber rest →
      scanWhole (cs ++ rest) = some (whole, r ++ rest) := by
  cases cs with
  | nil => cases h
  | cons c cs =>
      by_cases hc : c = '0'
      · subst hc
        cases h
        exact ⟨Nat.lt_succ_self _, fun rest _ => rfl⟩
      · -- the first digit does not change when the text goes on
        have hne : ∀ ds r, c :: ds ≠ '0' :: r := by
          intro ds r heq
          exact hc (List.cons.inj heq).1
        rw [scanWhole_of_ne (hne cs)] at h
        refine ⟨(someDigits?_spec h).1, fun rest hrest => ?_⟩
        rw [List.cons_append, scanWhole_of_ne (hne (cs ++ rest))]
        exact (someDigits?_spec h).2 rest hrest

/-- Behind a point there have to be digits. -/
theorem scanFraction_point (cs : List Char) :
    scanFraction ('.' :: cs) = (someDigits? cs).map fun p => (some p.1, p.2) := by
  rw [scanFraction, someDigits?]
  simp only [apply_ite (Option.map _), Option.map_none, Option.map_some]

/-- Without a point there is no fraction. -/
theorem scanFraction_of_ne (h : ∀ r, cs ≠ '.' :: r) : scanFraction cs = some (none, cs) := by
  unfold scanFraction
  split
  · next r => exact absurd rfl (h r)
  · rfl

/-- Taking a fraction is not changed by what follows the number. -/
theorem scanFraction_spec {fraction : Option (List Char)}
    (h : scanFraction cs = some (fraction, r)) :
    r.length ≤ cs.length ∧ ∀ rest, StopsAt extendsNumber rest →
      scanFraction (cs ++ rest) = some (fraction, r ++ rest) := by
  by_cases hpoint : ∃ ds, cs = '.' :: ds
  · rcases hpoint with ⟨ds, rfl⟩
    rw [scanFraction_point, Option.map_eq_some_iff] at h
    rcases h with ⟨⟨digits, r'⟩, hdigits, h⟩
    cases h
    rcases someDigits?_spec hdigits with ⟨hlength, happend⟩
    refine ⟨Nat.le_succ_of_le hlength.le, fun rest hrest => ?_⟩
    rw [List.cons_append, scanFraction_point, happend rest hrest]
    rfl
  · rw [scanFraction_of_ne fun ds hds => hpoint ⟨ds, hds⟩] at h
    cases h
    refine ⟨Nat.le_refl _, fun rest hrest => scanFraction_of_ne fun ds hds => ?_⟩
    cases cs with
    | nil => exact ne_cons_of_stopsAt rfl hrest ds hds
    | cons c cs =>
        cases hds
        exact hpoint ⟨cs, rfl⟩

/-- The sign of an exponent and what follows it. -/
def exponentSign : List Char → Bool × List Char
  | '-' :: r => (true, r)
  | '+' :: r => (false, r)
  | r => (false, r)

theorem exponentSign_length (cs : List Char) : (exponentSign cs).2.length ≤ cs.length := by
  unfold exponentSign
  split <;> simp

/-- The sign of an exponent is taken in front of anything. -/
theorem exponentSign_append (hne : cs ≠ []) :
    exponentSign (cs ++ rest) = ((exponentSign cs).1, (exponentSign cs).2 ++ rest) := by
  fun_cases exponentSign cs with
  | case1 r => rfl
  | case2 r => rfl
  | case3 _ hminus hplus =>
      cases cs with
      | nil => exact absurd rfl hne
      | cons c cs =>
          refine exponentSign.eq_3 _ (fun r h => ?_) fun r h => ?_
          · cases h
            exact hminus cs rfl
          · cases h
            exact hplus cs rfl

/-- Behind the letter of an exponent there are a sign, or none, and digits. -/
theorem scanExponent_cons {c : Char} (cs : List Char) (hc : c = 'e' ∨ c = 'E') :
    scanExponent (c :: cs) = (someDigits? (exponentSign cs).2).map fun p =>
      (some (if (exponentSign cs).1 then -(digitsValue p.1 : Int) else digitsValue p.1), p.2) := by
  simp only [someDigits?, apply_ite (Option.map _), Option.map_none, Option.map_some]
  exact if_pos hc

/-- Without its letter there is no exponent. -/
theorem scanExponent_of_ne (h : ∀ c r, cs = c :: r → ¬(c = 'e' ∨ c = 'E')) :
    scanExponent cs = some (none, cs) := by
  cases cs with
  | nil => rfl
  | cons c r => exact if_neg (h c r rfl)

/-- Taking an exponent is not changed by what follows the number. -/
theorem scanExponent_spec {exponent : Option Int} (h : scanExponent cs = some (exponent, r)) :
    r.length ≤ cs.length ∧ ∀ rest, StopsAt extendsNumber rest →
      scanExponent (cs ++ rest) = some (exponent, r ++ rest) := by
  cases cs with
  | nil =>
      cases h
      refine ⟨Nat.le_refl _, fun rest hrest => scanExponent_of_ne fun c ds hds => ?_⟩
      rintro (rfl | rfl)
      · exact ne_cons_of_stopsAt rfl hrest ds hds
      · exact ne_cons_of_stopsAt rfl hrest ds hds
  | cons c cs =>
      by_cases hc : c = 'e' ∨ c = 'E'
      · rw [scanExponent_cons cs hc, Option.map_eq_some_iff] at h
        rcases h with ⟨⟨digits, r'⟩, hdigits, h⟩
        cases h
        rcases someDigits?_spec hdigits with ⟨hlength, happend⟩
        -- a sign needs a digit behind it
        have hne : cs ≠ [] := by
          rintro rfl
          cases hdigits
        refine ⟨Nat.le_succ_of_le (hlength.le.trans (exponentSign_length cs)), ?_⟩
        intro rest hrest
        rw [List.cons_append, scanExponent_cons _ hc, exponentSign_append hne,
          happend rest hrest]
        rfl
      · have hne : ∀ ds : List Char, ∀ d r, c :: ds = d :: r → ¬(d = 'e' ∨ d = 'E') := by
          intro ds d r h
          cases h
          exact hc
        rw [scanExponent_of_ne (hne cs)] at h
        cases h
        exact ⟨Nat.le_refl _, fun rest _ => scanExponent_of_ne (hne _)⟩

/-- What is scanned of a number stays the same when the text goes on with something else. -/
theorem scanNumber_spec {negative : Bool} {v : Json}
    (h : scanNumber negative cs = some (v, r)) :
    r.length < cs.length ∧ ∀ rest, StopsAt extendsNumber rest →
      scanNumber negative (cs ++ rest) = some (v, r ++ rest) := by
  simp only [scanNumber, Option.bind_eq_bind, Option.bind_eq_some_iff, Prod.exists] at h
  rcases h with ⟨whole, r₁, hwhole, fraction, r₂, hfraction, exponent, r₃, hexponent, h⟩
  cases h
  rcases scanWhole_spec hwhole with ⟨hlength₁, happend₁⟩
  rcases scanFraction_spec hfraction with ⟨hlength₂, happend₂⟩
  rcases scanExponent_spec hexponent with ⟨hlength₃, happend₃⟩
  refine ⟨by omega, fun rest hrest => ?_⟩
  -- each part leaves what follows to the next
  simp only [scanNumber, Option.bind_eq_bind, happend₁ rest hrest, happend₂ rest hrest,
    happend₃ rest hrest, Option.bind_some]
  rfl

/-! ## Strings -/

/-- A character that stands for itself. -/
theorem scanString_plain {c : Char} (cs : List Char) (hquote : c ≠ '"') (hslash : c ≠ '\\')
    (hc : 32 ≤ c.toNat) :
    scanString (c :: cs) = (scanString cs).map fun p => (.char c :: p.1, p.2) := by
  rw [scanString]
  · rw [if_neg (by simp [hslash]; omega)]
    cases scanString cs <;> rfl
  · exact hquote
  · rintro a b c' d r rfl
    exact absurd rfl hslash
  · rintro c' r rfl
    exact absurd rfl hslash

/-- A character that is escaped by one letter. -/
theorem scanString_short {e c : Char} (cs : List Char) (hu : e ≠ 'u')
    (h : shortEscape? e = some c) :
    scanString ('\\' :: e :: cs) = (scanString cs).map fun p => (.char c :: p.1, p.2) := by
  rw [scanString]
  · rw [h]
    cases scanString cs <;> rfl
  · rintro a b c' d r rfl
    exact absurd rfl hu

/-- A control character that is escaped by its code. -/
theorem scanString_code {n : Nat} (cs : List Char) (hn : n < 32) :
    scanString ('\\' :: 'u' :: (hexDigits n ++ cs)) =
      (scanString cs).map fun p => (.char (Char.ofNat n) :: p.1, p.2) := by
  have hdigits : ∀ n < 32, hexDigits n =
      ['0', '0', Nat.digitChar (n / 16), Nat.digitChar (n % 16)] := by decide
  have hvalue : ∀ n < 32, hexValue4? '0' '0' (Nat.digitChar (n / 16)) (Nat.digitChar (n % 16)) =
      some n := by decide
  have hcode : Unit16.ofCode n = .char (Char.ofNat n) := by
    rw [Unit16.ofCode, if_neg (by omega), if_neg (by omega)]
  rw [hdigits n hn]
  simp only [List.cons_append, List.nil_append]
  rw [scanString, hvalue n hn, Option.bind_eq_bind, Option.bind_some, hcode]
  cases scanString cs <;> rfl

/-- An escaped character is taken up as the character. -/
theorem scanString_escapeChar (c : Char) (cs : List Char) :
    scanString (escapeChar c ++ cs) = (scanString cs).map fun p => (.char c :: p.1, p.2) := by
  have hof : ∀ n, c.toNat = n → Char.ofNat n = c := by
    rintro n rfl
    exact c.ofNat_toNat
  -- one case for each short escape, then the codes, then the plain characters
  unfold escapeChar
  split
  · next h =>
    subst h
    exact scanString_short cs (by decide) rfl
  split
  · next h =>
    subst h
    exact scanString_short cs (by decide) rfl
  split
  · next h => exact h ▸ scanString_short cs (by decide) rfl
  split
  · next h => exact h ▸ scanString_short cs (by decide) rfl
  split
  · next h => exact h ▸ scanString_short cs (by decide) rfl
  split
  · next h => exact hof 8 h ▸ scanString_short cs (by decide) rfl
  split
  · next h => exact hof 12 h ▸ scanString_short cs (by decide) rfl
  split
  · next h =>
    have hcode := scanString_code cs h
    rwa [hof _ rfl] at hcode
  · next hquote hslash _ _ _ _ _ hc => exact scanString_plain cs hquote hslash (by omega)

/-- Escaped characters are read back up to the quote behind them. -/
theorem scanString_flatMap (s rest : List Char) :
    scanString (s.flatMap escapeChar ++ '"' :: rest) = some (s.map .char, rest) := by
  induction s with
  | nil => rfl
  | cons c s ih =>
      rw [List.flatMap_cons, List.append_assoc, scanString_escapeChar, ih]
      rfl

/-- Characters that were not escaped by code make up their text. -/
theorem joinUnits?_char (s : List Char) : joinUnits? (s.map .char) = some s := by
  induction s with
  | nil => rfl
  | cons c s ih =>
      rw [List.map_cons, joinUnits?, ih]
      rfl

/-- A quoted string is scanned as one token, whatever follows. -/
theorem scanToken?_quote (s : String) (rest : List Char) :
    scanToken? (quote s ++ rest) = some (.text (some s), rest) := by
  have hquote : quote s ++ rest = '"' :: (s.toList.flatMap escapeChar ++ '"' :: rest) := by
    simp [quote]
  rw [hquote, scanToken?, scanString_flatMap, Option.map_some]
  simp only [joinUnits?_char, Option.map_some, String.ofList_toList]

/-! ## Whole numbers -/

/-- Only zero begins with the digit zero. -/
theorem eq_nil_of_toDigits {n : Nat} {ds : List Char} (h : Nat.toDigits 10 n = '0' :: ds) :
    ds = [] := by
  induction n using Nat.strong_induction_on generalizing ds with
  | _ n ih =>
      rcases Nat.lt_or_ge n 10 with hlt | hge
      · rw [Nat.toDigits_of_lt_base hlt] at h
        exact (List.cons.inj h).2.symm
      · rw [Nat.toDigits_of_base_le (by norm_num) hge] at h
        cases hfront : Nat.toDigits 10 (n / 10) with
        | nil => exact absurd hfront Nat.toDigits_ne_nil
        | cons c cs =>
            rw [hfront] at h
            cases h
            -- the digits in front are those of a smaller number, which is not zero
            have hnil := ih (n / 10) (by omega) hfront
            have hvalue := congrArg digitsValue hfront
            rw [digitsValue_toDigits, hnil] at hvalue
            have hzero : digitsValue ['0'] = 0 := rfl
            omega

/-- Digits that fit are all taken up. -/
theorem takeWhole_eq {n : Nat} {ds : List Char} (h : Nat.ofDigitChars 10 ds n ≤ digitLimit) :
    takeWhole ⟨n, 0⟩ ds = ⟨Nat.ofDigitChars 10 ds n, 0⟩ := by
  induction ds generalizing n with
  | nil => rfl
  | cons c ds ih =>
      rw [Nat.ofDigitChars_cons] at h ⊢
      have hle : 10 * n + (c.toNat - 48) ≤ digitLimit := by
        calc 10 * n + (c.toNat - 48) ≤ 10 ^ ds.length * (10 * n + (c.toNat - 48)) :=
              Nat.le_mul_of_pos_left _ (Nat.pow_pos (by norm_num))
          _ ≤ Nat.ofDigitChars 10 ds (10 * n + (c.toNat - 48)) := by
              rw [Nat.ofDigitChars_eq_ofDigitChars_zero]
              exact Nat.le_add_right _ _
          _ ≤ digitLimit := h
      rw [takeWhole]
      exact (if_pos hle).trans (ih h)

/-- The digits of a whole number within the limits have it as their value. -/
theorem value_toDigits {negative : Bool} {n : Nat} (hn : n ≤ digitLimit)
    (hnegative : negative = true → 0 < n ∧ n ≤ Nat.pow 2 63) :
    Numeral.value ⟨negative, Nat.toDigits 10 n, none, none⟩ =
      .integer (if negative then -n else n) := by
  have htake : takeWhole ⟨0, 0⟩ (Nat.toDigits 10 n) = ⟨n, 0⟩ := by
    have hvalue : Nat.ofDigitChars 10 (Nat.toDigits 10 n) 0 = n := Nat.ofDigitChars_ten_toDigits
    rw [takeWhole_eq (hvalue.le.trans hn), hvalue]
  cases negative with
  | false => simp [Numeral.value, htake]
  | true =>
      have hrange := hnegative rfl
      simp only [Numeral.value, htake]
      simp [hrange]

/-- The digits of a number are scanned to the last. -/
theorem scanNumber_toDigits (negative : Bool) (n : Nat) (hrest : StopsAt extendsNumber rest) :
    scanNumber negative (Nat.toDigits 10 n ++ rest) =
      some (Numeral.value ⟨negative, Nat.toDigits 10 n, none, none⟩, rest) := by
  have hwhole : scanWhole (Nat.toDigits 10 n) = some (Nat.toDigits 10 n, []) := by
    cases hdigits : Nat.toDigits 10 n with
    | nil => exact absurd hdigits Nat.toDigits_ne_nil
    | cons c ds =>
        by_cases hc : c = '0'
        · subst hc
          rw [eq_nil_of_toDigits hdigits]
          rfl
        · have hall : ∀ d ∈ c :: ds, d.isDigit = true := by
            intro d hd
            exact isDigit_toDigits (hdigits ▸ hd)
          have htake := takeWhile_append_of_stopsAt hall (stopsAt_nil _)
          rw [List.append_nil] at htake
          rw [scanWhole_of_ne fun r h => hc (List.cons.inj h).1, someDigits?_eq_some]
          exact ⟨by simp, htake⟩
  have h : scanNumber negative (Nat.toDigits 10 n) =
      some (Numeral.value ⟨negative, Nat.toDigits 10 n, none, none⟩, []) := by
    rw [scanNumber, hwhole]
    rfl
  exact (scanNumber_spec h).2 rest hrest

/-- A whole number is written as a sign and its digits. -/
theorem toList_toString (i : Int) : (toString i).toList =
    (if i < 0 then ['-'] else []) ++ Nat.toDigits 10 i.natAbs := by
  change i.repr.toList = _
  rw [Int.repr_eq_if]
  split
  · rw [if_neg (by omega), Nat.toList_repr, List.nil_append]
    congr 1
    omega
  · rw [if_pos (by omega), String.toList_append, Nat.toList_repr]
    congr 2
    omega

/-- A digit begins a number. -/
theorem scanToken?_digit {c : Char} (hc : c.isDigit = true) (cs : List Char) :
    scanToken? (c :: cs) = (scanNumber false (c :: cs)).map fun p => (.scalar p.1, p.2) := by
  unfold scanToken?
  split
  case h_12 => rfl
  all_goals
    next h =>
    cases h
    cases hc

/-- A sign and a digit begin a number. -/
theorem scanToken?_number (negative : Bool) {c : Char} (hc : c.isDigit = true) (cs : List Char) :
    scanToken? ((if negative then ['-'] else []) ++ c :: cs) =
      (scanNumber negative (c :: cs)).map fun p => (.scalar p.1, p.2) := by
  cases negative with
  | true => rfl
  | false => exact scanToken?_digit hc cs

/-- A whole number of 64 bits is scanned as one token. -/
theorem scanToken?_integer {i : Int} (hlow : -Int.pow 2 63 ≤ i) (hhigh : i < Int.pow 2 64)
    (hrest : StopsAt extendsNumber rest) :
    scanToken? ((toString i).toList ++ rest) = some (.scalar (.integer i), rest) := by
  have hlimit : digitLimit = 2 ^ 64 - 1 := rfl
  have hpow : Nat.pow 2 63 = 2 ^ 63 := rfl
  have hpow₁ : Int.pow 2 63 = 2 ^ 63 := rfl
  have hpow₂ : Int.pow 2 64 = 2 ^ 64 := rfl
  have hvalue : Numeral.value ⟨decide (i < 0), Nat.toDigits 10 i.natAbs, none, none⟩ =
      .integer i := by
    rw [value_toDigits (by omega) (by intro h; rw [decide_eq_true_eq] at h; omega)]
    congr 1
    simp only [decide_eq_true_eq]
    split
    · omega
    · omega
  have hscan := scanNumber_toDigits (decide (i < 0)) i.natAbs hrest
  rw [hvalue] at hscan
  -- the first digit tells that a number begins
  cases hdigits : Nat.toDigits 10 i.natAbs with
  | nil => exact absurd hdigits Nat.toDigits_ne_nil
  | cons c ds =>
      have hc : c.isDigit = true := isDigit_toDigits (hdigits ▸ List.mem_cons_self)
      have h := scanToken?_number (decide (i < 0)) hc (ds ++ rest)
      rw [← List.cons_append, ← hdigits, hscan] at h
      rw [toList_toString, List.append_assoc]
      simpa using h

/-! ## Progress -/

/-- A string is shorter behind the scan. -/
theorem scanString_length {units : List Unit16} (h : scanString cs = some (units, r)) :
    r.length < cs.length := by
  fun_induction scanString cs generalizing units with
  | case1 => cases h
  | case2 cs =>
      cases h
      exact Nat.lt_succ_self _
  | case3 a b c d cs ih =>
      simp only [Option.bind_eq_bind, Option.bind_eq_some_iff] at h
      rcases h with ⟨n, -, ⟨us, r⟩, hr, h⟩
      cases h
      have hlt := ih hr
      simp only [List.length_cons] at hlt ⊢
      omega
  | case4 c cs hc ih =>
      simp only [Option.bind_eq_bind, Option.bind_eq_some_iff] at h
      rcases h with ⟨e, -, ⟨us, r⟩, hr, h⟩
      cases h
      have hlt := ih hr
      simp only [List.length_cons] at hlt ⊢
      omega
  | case5 c cs => cases h
  | case6 c cs _ _ _ _ ih =>
      simp only [Option.bind_eq_bind, Option.bind_eq_some_iff] at h
      rcases h with ⟨⟨us, r⟩, hr, h⟩
      cases h
      exact Nat.lt_succ_of_lt (ih hr)

/-- Every token takes up a character. -/
theorem scanToken?_length {t : Token} (h : scanToken? cs = some (t, r)) :
    r.length < cs.length := by
  unfold scanToken? at h
  split at h
  case h_7 cs =>
      rcases Option.map_eq_some_iff.mp h with ⟨⟨units, r⟩, hr, h⟩
      cases h
      exact Nat.lt_succ_of_lt (scanString_length hr)
  case h_11 cs =>
      rcases Option.map_eq_some_iff.mp h with ⟨⟨v, r⟩, hr, h⟩
      cases h
      exact Nat.lt_succ_of_lt (scanNumber_spec hr).1
  case h_12 cs _ _ _ _ _ _ _ _ _ _ _ =>
      rcases Option.map_eq_some_iff.mp h with ⟨⟨v, r⟩, hr, h⟩
      cases h
      exact (scanNumber_spec hr).1
  all_goals
    -- punctuation and words
    cases h
    simp only [List.length_cons]
    omega

/-! ## One token after another -/

/-- Blanks are passed over. -/
theorem tokensWithin?_space {c : Char} (limit : Nat) (cs : List Char) (hc : isSpace c = true) :
    tokensWithin? (limit + 1) (c :: cs) = tokensWithin? (limit + 1) cs := by
  rw [tokensWithin?, List.dropWhile_cons_of_pos hc, tokensWithin?]

/-- Another character begins a token. -/
theorem tokensWithin?_cons {c : Char} (limit : Nat) (cs : List Char) (hc : isSpace c = false) :
    tokensWithin? (limit + 1) (c :: cs) =
      (scanToken? (c :: cs)).bind fun p => (tokensWithin? limit p.2).map (p.1 :: ·) := by
  rw [tokensWithin?, List.dropWhile_cons_of_neg (by simp [hc])]
  simp only [Option.bind_eq_bind]
  congr 1
  funext p
  cases tokensWithin? limit p.2 <;> rfl

/-- A larger bound does not change the tokens. -/
theorem tokensWithin?_mono {limit limit' : Nat} (hle : limit ≤ limit')
    (h : tokensWithin? limit cs = some ts) : tokensWithin? limit' cs = some ts := by
  induction limit generalizing cs ts limit' with
  | zero => cases h
  | succ limit ih =>
      obtain ⟨k, rfl⟩ : ∃ k, limit' = k + 1 := ⟨limit' - 1, by omega⟩
      -- blanks take up no part of the limit
      induction cs with
      | nil => exact h
      | cons c cs ihcs =>
          cases hc : isSpace c with
          | true =>
              rw [tokensWithin?_space _ _ hc] at h ⊢
              exact ihcs h
          | false =>
              rw [tokensWithin?_cons _ _ hc, Option.bind_eq_some_iff] at h ⊢
              rcases h with ⟨⟨t, r⟩, hscan, h⟩
              rcases Option.map_eq_some_iff.mp h with ⟨us, hus, h⟩
              refine ⟨(t, r), hscan, Option.map_eq_some_iff.mpr ⟨us, ?_, h⟩⟩
              exact ih (by omega) hus

/-- A text without tokens is blank. -/
theorem isSpace_of_tokensWithin? {limit : Nat} (h : tokensWithin? limit cs = some []) :
    ∀ c ∈ cs, isSpace c = true := by
  cases limit with
  | zero => cases h
  | succ limit =>
      induction cs with
      | nil => simp
      | cons c cs ih =>
          cases hc : isSpace c with
          | true =>
              rw [tokensWithin?_space _ _ hc] at h
              exact List.forall_mem_cons.mpr ⟨hc, ih h⟩
          | false =>
              rw [tokensWithin?_cons _ _ hc, Option.bind_eq_some_iff] at h
              rcases h with ⟨p, -, h⟩
              simp at h

/-- Blanks in front do not change the tokens. -/
theorem tokens?_blanks {blanks : List Char} (hblanks : ∀ c ∈ blanks, isSpace c = true)
    (h : tokens? cs = some ts) : tokens? (blanks ++ cs) = some ts := by
  induction blanks with
  | nil => exact h
  | cons c blanks ih =>
      rcases List.forall_mem_cons.mp hblanks with ⟨hc, hblanks⟩
      rw [List.cons_append, tokens?, List.length_cons, tokensWithin?_space _ _ hc]
      exact tokensWithin?_mono (Nat.le_succ _) (ih hblanks)

/-- The first token and those behind it. -/
theorem tokens?_cons {c : Char} {t : Token} (hc : isSpace c = false)
    (hscan : scanToken? (c :: cs) = some (t, rest)) (h : tokens? rest = some ts) :
    tokens? (c :: cs) = some (t :: ts) := by
  have hlength := scanToken?_length hscan
  have hrest : tokensWithin? (c :: cs).length rest = some ts :=
    tokensWithin?_mono (by omega) h
  rw [tokens?, tokensWithin?_cons _ _ hc, hscan, Option.bind_some, hrest, Option.map_some]

/-- No digit is a blank. -/
theorem isSpace_of_isDigit {c : Char} (hc : c.isDigit = true) : isSpace c = false := by
  cases hspace : isSpace c with
  | false => rfl
  | true =>
      simp only [isSpace, Bool.or_eq_true, beq_iff_eq] at hspace
      rcases hspace with ((rfl | rfl) | rfl) | rfl
      all_goals cases hc

/-- A whole number that fits in 64 bits is one token. -/
theorem tokens?_integer {i : Int} (hlow : -Int.pow 2 63 ≤ i) (hhigh : i < Int.pow 2 64)
    (hrest : StopsAt extendsNumber rest) (h : tokens? rest = some ts) :
    tokens? ((toString i).toList ++ rest) = some (.scalar (.integer i) :: ts) := by
  have hscan := scanToken?_integer hlow hhigh hrest
  rw [toList_toString] at hscan ⊢
  cases hdigits : Nat.toDigits 10 i.natAbs with
  | nil => exact absurd hdigits Nat.toDigits_ne_nil
  | cons c ds =>
      have hc : c.isDigit = true := isDigit_toDigits (hdigits ▸ List.mem_cons_self)
      rw [hdigits] at hscan
      split
      · next hneg =>
        rw [if_pos hneg] at hscan
        exact tokens?_cons rfl hscan h
      · next hneg =>
        rw [if_neg hneg] at hscan
        exact tokens?_cons (isSpace_of_isDigit hc) hscan h

/-! ## Other numbers -/

/-- The digits of a decimal begin with one. -/
theorem exists_digit_digits (d : Decimal) :
    ∃ c ds, d.digits.1 = c :: ds ∧ c.isDigit = true := by
  rcases d.exists_zeros with ⟨zeros, hall, -⟩
  cases hdigits : d.digits.1 with
  | cons c ds =>
      refine ⟨c, ds, rfl, isDigit_toDigits (n := d.coefficient) ?_⟩
      rw [hall, hdigits]
      exact List.mem_cons_self
  | nil =>
      -- zeros only are cut off, but zero itself keeps its digit
      rw [hdigits, List.nil_append] at hall
      have hvalue := congrArg digitsValue hall
      rw [digitsValue_toDigits, digitsValue_zeros] at hvalue
      simp [Decimal.digits, hvalue] at hdigits

/-- A number that is written out begins with a digit. -/
theorem exists_digit_positional (d : Decimal) :
    ∃ c cs, d.positional = c :: cs ∧ c.isDigit = true := by
  rcases exists_digit_digits d with ⟨c, ds, hdigits, hc⟩
  unfold Decimal.positional
  dsimp only
  rw [hdigits]
  split
  · exact ⟨c, _, rfl, hc⟩
  · split
    · next hpoint =>
      obtain ⟨k, hk⟩ : ∃ k, ((c :: ds).length + d.digits.2).toNat = k + 1 :=
        ⟨((c :: ds).length + d.digits.2).toNat - 1, by omega⟩
      rw [hk]
      exact ⟨c, _, rfl, hc⟩
    · exact ⟨'0', _, rfl, rfl⟩

theorem exists_digit_scientific (d : Decimal) :
    ∃ c cs, d.scientific = c :: cs ∧ c.isDigit = true := by
  rcases exists_digit_digits d with ⟨c, ds, hdigits, hc⟩
  unfold Decimal.scientific
  dsimp only
  rw [hdigits]
  exact ⟨c, _, rfl, hc⟩

/-- What is written for a magnitude begins with a digit. -/
theorem exists_digit_magnitude (format : NumberFormat) (rank : Nat) :
    ∃ c cs, format.magnitude rank = c :: cs ∧ c.isDigit = true := by
  rcases exists_digit_scientific (shortest format.tie rank) with ⟨c, cs, hscientific, hc⟩
  rcases exists_digit_positional (shortest format.tie rank) with ⟨c', cs', hpositional, hc'⟩
  unfold NumberFormat.magnitude
  dsimp only
  rw [hpositional, hscientific]
  split_ifs
  · exact ⟨c', _, rfl, hc'⟩
  · exact ⟨c', _, rfl, hc'⟩
  · exact ⟨c, _, rfl, hc⟩

/-- What follows does not change how a number is scanned. -/
theorem scanToken?_number_append (negative : Bool) {c : Char} {t : Token}
    (hc : c.isDigit = true) (hrest : StopsAt extendsNumber rest)
    (h : scanToken? ((if negative then ['-'] else []) ++ c :: cs) = some (t, r)) :
    (∃ v, t = .scalar v) ∧
      scanToken? ((if negative then ['-'] else []) ++ c :: (cs ++ rest)) = some (t, r ++ rest) := by
  rw [scanToken?_number negative hc, Option.map_eq_some_iff] at h
  rcases h with ⟨⟨v, r'⟩, hscan, h⟩
  cases h
  refine ⟨⟨v, rfl⟩, ?_⟩
  rw [scanToken?_number negative hc, ← List.cons_append, (scanNumber_spec hscan).2 rest hrest]
  rfl

/-- A scalar that is read from a text is its first token, behind which there are only blanks. -/
theorem tokens?_scalar {c : Char} {v : Json} (hc : isSpace c = false)
    (happend : ∀ t r, scanToken? (c :: cs) = some (t, r) →
      (∃ u, t = .scalar u) ∧ scanToken? (c :: (cs ++ rest)) = some (t, r ++ rest))
    (hread : read? (c :: cs) = some v) (h : tokens? rest = some ts) :
    tokens? (c :: (cs ++ rest)) = some (.scalar v :: ts) := by
  simp only [read?, Option.bind_eq_bind, Option.bind_eq_some_iff] at hread
  rcases hread with ⟨us, hus, final, hrun, hread⟩
  rw [tokens?, tokensWithin?_cons _ _ hc, Option.bind_eq_some_iff] at hus
  rcases hus with ⟨⟨t, r⟩, hscan, hus⟩
  rcases Option.map_eq_some_iff.mp hus with ⟨vs, hvs, rfl⟩
  rcases happend t r hscan with ⟨⟨u, rfl⟩, hscan'⟩
  -- nothing follows a whole value outside of all containers
  have hnil : vs = [] := by
    cases vs with
    | nil => rfl
    | cons t' vs => cases hrun
  subst hnil
  cases hrun
  cases hread
  exact tokens?_cons hc hscan' (tokens?_blanks (isSpace_of_tokensWithin? hvs) h)

/-- The text of a number that is read back is one token wherever it stands. -/
theorem tokens?_decimal {x : Number} (hx : read? (numberText x) = some (.decimal x))
    (hrest : StopsAt extendsNumber rest) (h : tokens? rest = some ts) :
    tokens? (numberText x ++ rest) = some (.scalar (.decimal x) :: ts) := by
  cases x with
  | nan negative => cases hx
  | infinite negative => cases hx
  | finite negative rank =>
      rcases exists_digit_magnitude jsonFormat rank with ⟨c, cs, hmagnitude, hc⟩
      rw [numberText, hmagnitude] at hx ⊢
      cases negative with
      | false =>
          have happend : ∀ t r, scanToken? (c :: cs) = some (t, r) →
              (∃ u, t = .scalar u) ∧
                scanToken? (c :: (cs ++ rest)) = some (t, r ++ rest) :=
            fun t r => scanToken?_number_append false hc hrest
          exact tokens?_scalar (isSpace_of_isDigit hc) happend hx h
      | true =>
          have happend : ∀ t r, scanToken? ('-' :: c :: cs) = some (t, r) →
              (∃ u, t = .scalar u) ∧
                scanToken? ('-' :: (c :: cs ++ rest)) = some (t, r ++ rest) :=
            fun t r => scanToken?_number_append true hc hrest
          exact tokens?_scalar rfl happend hx h

end Json

end GameCondition
