import GameCondition.Proofs.Text.LetterCase

/-! # Partners in lower case

Only letters have a partner in lower case, and the partner is a letter (`lowerPartner_eq_self_or`).
So no class of characters that letters are in all together, or not at all, tells a character from
its partner (`apply_lowerPartner`). A partner is its own partner (`lowerPartner_lowerPartner`), and
among the letters of ASCII only `k` is the partner of a character beyond them.

Names that are the same letter by letter in lower case (`lowerName`) are told apart neither by
`sameName` nor, unless a `k` is in it, by comparison with a word of ASCII.
-/

namespace GameCondition

/-! ## The runs as bits -/

/-- So many bits, a step apart. -/
def stepBits (step : Nat) : Nat → Nat
  | 0 => 0
  | count + 1 => 1 ||| stepBits step count <<< step

/-- The bits of a run of steps are set at each of them. -/
theorem testBit_stepBits (step : Nat) {count i : Nat} (hi : i < count) :
    (stepBits step count).testBit (step * i) = true := by
  induction count generalizing i with
  | zero => exact absurd hi (Nat.not_lt_zero i)
  | succ count ih =>
    rw [stepBits, Nat.testBit_or, Bool.or_eq_true]
    cases i with
    | zero => exact .inl (by simp)
    | succ i =>
      have hbit := ih (Nat.lt_of_succ_lt_succ hi)
      refine .inr ?_
      rw [Nat.testBit_shiftLeft, Nat.mul_succ, Nat.add_sub_cancel, hbit]
      simp

namespace CaseRun

/-- The members of a run, seen from the first. -/
def bits (r : CaseRun) : Nat :=
  stepBits r.step ((r.last - r.first) / r.step + 1)

/-- The members of a run. -/
def memberBits (r : CaseRun) : Nat :=
  r.bits <<< r.first

/-- The partners of the members of a run. -/
def partnerBits (r : CaseRun) : Nat :=
  r.bits <<< (r.first + r.shift).toNat

/-- A run covers the numbers between its ends that its steps meet. -/
theorem covers_iff {r : CaseRun} {n : Nat} :
    r.covers n = true ↔ r.first ≤ n ∧ n ≤ r.last ∧ (n - r.first) % r.step = 0 := by
  simp [covers, and_assoc]

variable {r : CaseRun} {n : Nat} (h : r.covers n = true)

include h

/-- The bits of a run are set where it covers a number, counted from its first. -/
theorem testBit_bits : r.bits.testBit (n - r.first) = true := by
  obtain ⟨-, hlast, hstep⟩ := covers_iff.mp h
  have hcount : (n - r.first) / r.step < (r.last - r.first) / r.step + 1 :=
    Nat.lt_succ_of_le (Nat.div_le_div_right (by omega))
  have hbit := testBit_stepBits r.step hcount
  rwa [Nat.mul_div_cancel' (Nat.dvd_of_mod_eq_zero hstep)] at hbit

/-- The bits of the members of a run are set where it covers a number. -/
theorem testBit_memberBits : r.memberBits.testBit n = true := by
  rw [memberBits, Nat.testBit_shiftLeft, testBit_bits h, Bool.and_true, decide_eq_true_eq]
  exact (covers_iff.mp h).1

/-- The bits of the partners of a run are set at the partner of each member. -/
theorem testBit_partnerBits (hshift : 0 ≤ r.first + r.shift) :
    r.partnerBits.testBit (n + r.shift).toNat = true := by
  have hfirst := (covers_iff.mp h).1
  have hoffset : (n + r.shift).toNat - (r.first + r.shift).toNat = n - r.first := by omega
  rw [partnerBits, Nat.testBit_shiftLeft, hoffset, testBit_bits h, Bool.and_true,
    decide_eq_true_eq]
  omega

end CaseRun

/-- The members of all runs. -/
def casedBits : Nat :=
  unionBits CaseRun.memberBits caseRuns

/-- The partners of the members of all runs. -/
def partnerBits : Nat :=
  unionBits CaseRun.partnerBits caseRuns

/-- What has a partner is a letter; so are the partners but for one in ASCII, and they have no other
partner themselves. The dotted capital is none of them. -/
theorem bits_caseRuns :
    casedBits &&& tableBits letterRanges = casedBits ∧
      partnerBits &&& (tableBits letterRanges ||| 1 <<< 0x6B) = partnerBits ∧
      partnerBits &&& casedBits = 0 ∧ partnerBits.testBit 0x130 = false := by
  decide +kernel

/-- What any run covers is among the members of all runs. -/
theorem testBit_casedBits {r : CaseRun} (hr : r ∈ caseRuns) {n : Nat}
    (h : r.covers n = true) : casedBits.testBit n = true := by
  rw [casedBits, testBit_unionBits, List.any_eq_true]
  exact ⟨r, hr, CaseRun.testBit_memberBits h⟩

/-- Members of runs are letters. -/
theorem inRanges_of_casedBits {n : Nat} (h : casedBits.testBit n = true) :
    inRanges letterRanges n = true := by
  rw [← testBit_tableBits]
  exact testBit_of_land_eq bits_caseRuns.1 h

/-- A partner above ASCII is a letter, and a member of no run. -/
theorem of_partnerBits {n : Nat} (h : partnerBits.testBit n = true) (hn : 128 ≤ n) :
    inRanges letterRanges n = true ∧ casedBits.testBit n = false ∧ n ≠ 0x130 := by
  obtain ⟨-, hletter, hapart, hdotted⟩ := bits_caseRuns
  refine ⟨?_, ?_, ?_⟩
  · have hbit := testBit_of_land_eq hletter h
    rw [Nat.testBit_or, testBit_tableBits, Bool.or_eq_true, Nat.testBit_shiftLeft] at hbit
    refine hbit.resolve_right fun hk => ?_
    rw [Bool.and_eq_true, decide_eq_true_eq, Nat.testBit_one_eq_true_iff_self_eq_zero] at hk
    omega
  · exact testBit_of_land_eq_zero hapart h
  · rintro rfl
    rw [hdotted] at h
    cases h

/-! ## Partners -/

/-- A character beyond ASCII is its own partner, or it is the Kelvin sign, or it has a partner
beyond ASCII. -/
theorem lowerPartner_cases {c : Char} (hc : ¬ c.toNat < 128) :
    lowerPartner c = c ∨ c = '\u212A' ∨ (casedBits.testBit c.toNat = true ∧
      partnerBits.testBit (lowerPartner c).toNat = true ∧ 128 ≤ (lowerPartner c).toNat) := by
  rw [lowerPartner, if_neg hc]
  cases hfind : caseRuns.find? fun r => r.covers c.toNat with
  | none => exact .inl rfl
  | some r =>
    have hr := List.mem_of_find?_eq_some hfind
    have hcovers := List.find?_some hfind
    obtain ⟨hfirst, hlast, -⟩ := CaseRun.covers_iff.mp hcovers
    dsimp only
    rcases caseRuns_shift r hr with hlarge | ⟨hkelvin, hkelvin'⟩
    · have hpartner : partnerBits.testBit (c.toNat + r.shift).toNat = true := by
        rw [partnerBits, testBit_unionBits, List.any_eq_true]
        exact ⟨r, hr, CaseRun.testBit_partnerBits hcovers (by omega)⟩
      have hbound : 128 ≤ (c.toNat + r.shift).toNat := by omega
      have hvalid := isValidChar_of_inRanges (of_partnerBits hpartner hbound).1
      rw [toNat_ofNat hvalid]
      exact .inr (.inr ⟨testBit_casedBits hr hcovers, hpartner, hbound⟩)
    · exact .inr (.inl (by rw [← c.ofNat_toNat, show c.toNat = 0x212A by omega]))

/-- What is in no run is its own partner. -/
theorem lowerPartner_of_not_cased {c : Char} (hc : ¬ c.toNat < 128)
    (h : casedBits.testBit c.toNat = false) : lowerPartner c = c := by
  have hfind : (caseRuns.find? fun r => r.covers c.toNat) = none := by
    rw [List.find?_eq_none]
    intro r hr hcovers
    rw [testBit_casedBits hr hcovers] at h
    cases h
  rw [lowerPartner, if_neg hc, hfind]

/-- Above ASCII the table of letters tells what a letter is. -/
theorem isAlphabetic_of_inRanges {c : Char} (hc : ¬ c.toNat < 128)
    (h : inRanges letterRanges c.toNat = true) : isAlphabetic c = true := by
  rwa [isAlphabetic, if_neg hc]

/-- Only letters have another partner than themselves, and that is a letter. -/
theorem lowerPartner_eq_self_or (c : Char) :
    lowerPartner c = c ∨ (isAlphabetic c = true ∧ isAlphabetic (lowerPartner c) = true) := by
  by_cases hc : c.toNat < 128
  · exact forall_ascii (P := fun c => lowerPartner c = c ∨
      (isAlphabetic c = true ∧ isAlphabetic (lowerPartner c) = true)) (by decide) hc
  · rcases lowerPartner_cases hc with hself | rfl | ⟨hcased, hpartner, hbound⟩
    · exact .inl hself
    · exact .inr ⟨bits_letterRanges.2.2.2, by decide⟩
    · exact .inr ⟨isAlphabetic_of_inRanges hc (inRanges_of_casedBits hcased),
        isAlphabetic_of_inRanges (by omega) (of_partnerBits hpartner hbound).1⟩

/-- What is one and the same of all letters is the same of a character and its partner. -/
theorem apply_lowerPartner {α : Type} {p : Char → α} {v : α}
    (hp : ∀ c, isAlphabetic c = true → p c = v) (c : Char) : p (lowerPartner c) = p c := by
  rcases lowerPartner_eq_self_or c with hself | ⟨hc, hpartner⟩
  · rw [hself]
  · rw [hp c hc, hp _ hpartner]

/-- A character that is no letter is the partner of itself alone. -/
theorem lowerPartner_eq_iff {c d : Char} (hd : isAlphabetic d = false) :
    lowerPartner c = d ↔ c = d := by
  have hp : ∀ e, isAlphabetic e = true → decide (e = d) = false := by
    intro e he
    rw [decide_eq_false_iff_not]
    rintro rfl
    rw [hd] at he
    cases he
  have happly := apply_lowerPartner hp c
  exact decide_eq_decide.mp happly

/-- A partner is its own partner. -/
@[simp] theorem lowerPartner_lowerPartner (c : Char) :
    lowerPartner (lowerPartner c) = lowerPartner c := by
  by_cases hc : c.toNat < 128
  · exact forall_ascii (P := fun c => lowerPartner (lowerPartner c) = lowerPartner c)
      (by decide) hc
  · rcases lowerPartner_cases hc with hself | rfl | ⟨-, hpartner, hbound⟩
    · rw [hself, hself]
    · decide
    · exact lowerPartner_of_not_cased (by omega) (of_partnerBits hpartner hbound).2.1

/-- The dotted capital, which is lowered to two characters, is the partner of itself alone. -/
theorem lowerPartner_eq_dotted_iff (c : Char) : lowerPartner c = 'İ' ↔ c = 'İ' := by
  constructor
  · intro h
    by_cases hc : c.toNat < 128
    · have hascii := forall_ascii (P := fun c => lowerPartner c ≠ 'İ') (by decide) hc
      exact absurd h hascii
    · rcases lowerPartner_cases hc with hself | rfl | ⟨-, hpartner, hbound⟩
      · rw [← hself, h]
      · exact absurd h (by decide)
      · rw [h] at hpartner hbound
        exact absurd rfl (of_partnerBits hpartner hbound).2.2
  · rintro rfl
    decide

/-- Characters with one partner are lowered to the same. -/
theorem lowerChar_eq_of_lowerPartner_eq {c d : Char} (h : lowerPartner c = lowerPartner d) :
    lowerChar c = lowerChar d := by
  have hdotted : c = 'İ' ↔ d = 'İ' := by
    rw [← lowerPartner_eq_dotted_iff c, h, lowerPartner_eq_dotted_iff]
  by_cases hd : d = 'İ'
  · rw [hd, hdotted.mpr hd]
  · rw [lowerChar, lowerChar, if_neg hd, if_neg (mt hdotted.mp hd), h]

/-! ## Partners in ASCII -/

/-- A character of ASCII other than `k` is the partner of what it is lowered from in ASCII. -/
theorem lowerPartner_eq_ascii_iff {c d : Char} (hd : d.toNat < 128) (hk : d ≠ 'k') :
    lowerPartner c = d ↔ c.toLower = d := by
  by_cases hc : c.toNat < 128
  · rw [lowerPartner, if_pos hc]
  · rw [toLower_of_not_ascii hc]
    have hne : c ≠ d := by
      rintro rfl
      exact hc hd
    refine iff_of_false (fun h => ?_) hne
    rcases lowerPartner_cases hc with hself | rfl | ⟨-, -, hbound⟩
    · exact hne (hself.symm.trans h)
    · exact hk (h.symm.trans (by decide))
    · rw [h] at hbound
      omega

/-- A character and its ASCII lowering have one partner. -/
theorem lowerPartner_toLower (c : Char) : lowerPartner c.toLower = lowerPartner c := by
  by_cases hc : c.toNat < 128
  · exact forall_ascii (P := fun c => lowerPartner c.toLower = lowerPartner c) (by decide) hc
  · rw [toLower_of_not_ascii hc]

/-! ## Classes of characters -/

/-- No letter is a digit. -/
theorem isDigit_of_isAlphabetic {c : Char} (h : isAlphabetic c = true) : c.isDigit = false := by
  by_cases hc : c.toNat < 128
  · exact forall_ascii (P := fun c => isAlphabetic c = true → c.isDigit = false)
      (by decide) hc h
  · refine Bool.eq_false_iff.mpr fun hdigit => ?_
    have hlast : c.toNat ≤ '9'.toNat := (Char.isDigit_iff_toNat.mp hdigit).2
    simp at hlast
    omega

/-- No letter is white space. -/
theorem isWhite_of_isAlphabetic {c : Char} (h : isAlphabetic c = true) : isWhite c = false := by
  refine Bool.eq_false_iff.mpr fun hwhite => ?_
  rw [isAlphabetic_of_isWhite hwhite] at h
  cases h

/-- A partner is a digit if the character is one. -/
@[simp] theorem isDigit_lowerPartner (c : Char) : (lowerPartner c).isDigit = c.isDigit :=
  apply_lowerPartner (fun _ => isDigit_of_isAlphabetic) c

/-- A partner is white space if the character is. -/
@[simp] theorem isWhite_lowerPartner (c : Char) : isWhite (lowerPartner c) = isWhite c :=
  apply_lowerPartner (fun _ => isWhite_of_isAlphabetic) c

/-- Lowering ASCII neither makes white space nor unmakes it. -/
theorem isWhite_toLower (c : Char) : isWhite c.toLower = isWhite c := by
  rw [← isWhite_lowerPartner, lowerPartner_toLower, isWhite_lowerPartner]

/-- A digit is its own partner. -/
theorem lowerPartner_of_isDigit {c : Char} (h : c.isDigit = true) : lowerPartner c = c := by
  rcases lowerPartner_eq_self_or c with hself | ⟨hc, -⟩
  · exact hself
  · rw [isDigit_of_isAlphabetic hc] at h
    cases h

/-! ## Texts and names -/

/-- Partners may be put before the ends are trimmed, or after. -/
theorem trim_lowerPartner (cs : List Char) :
    trim (cs.map lowerPartner) = (trim cs).map lowerPartner := by
  have hwhite : isWhite ∘ lowerPartner = isWhite := funext isWhite_lowerPartner
  simp only [trim, List.dropWhile_map, ← List.map_reverse, hwhite]

/-- A word of ASCII without a `k` is what a text is lowered to, if it is that in ASCII. -/
theorem map_lowerPartner_eq_iff {cs ds : List Char} (hds : ∀ d ∈ ds, d.toNat < 128 ∧ d ≠ 'k') :
    cs.map lowerPartner = ds ↔ cs.map Char.toLower = ds := by
  induction cs generalizing ds with
  | nil => rfl
  | cons c cs ih =>
    cases ds with
    | nil => simp
    | cons d ds =>
      obtain ⟨⟨hascii, hk⟩, hds⟩ := List.forall_mem_cons.mp hds
      simp only [List.map_cons, List.cons.injEq, lowerPartner_eq_ascii_iff hascii hk, ih hds]

/-- Partners spell a word of ASCII without a `k` if the text does, in any case. -/
theorem map_toLower_lowerPartner_eq_iff (cs ds : List Char)
    (hds : ∀ d ∈ ds, d.toNat < 128 ∧ d ≠ 'k') :
    (cs.map lowerPartner).map Char.toLower = ds ↔ cs.map Char.toLower = ds := by
  have htwice : (cs.map lowerPartner).map lowerPartner = cs.map lowerPartner := by simp
  rw [← map_lowerPartner_eq_iff hds, ← map_lowerPartner_eq_iff hds, htwice]

/-- A name with each letter in lower case. -/
def lowerName (s : String) : String :=
  String.ofList (s.toList.map lowerPartner)

@[simp] theorem toList_lowerName (s : String) :
    (lowerName s).toList = s.toList.map lowerPartner := by
  simp [lowerName]

/-- Full lowering makes the same of a text and of its partners. -/
theorem flatMap_lowerChar_lowerPartner (cs : List Char) :
    (cs.map lowerPartner).flatMap lowerChar = cs.flatMap lowerChar := by
  rw [List.flatMap_map]
  exact congrArg (cs.flatMap ·) (funext fun c => lowerChar_eq_of_lowerPartner_eq (by simp))

@[simp] theorem sameName_lowerName_left (a b : String) :
    sameName (lowerName a) b = sameName a b := by
  rw [sameName, sameName, toList_lowerName, flatMap_lowerChar_lowerPartner]

@[simp] theorem sameName_lowerName_right (a b : String) :
    sameName a (lowerName b) = sameName a b := by
  rw [sameName, sameName, toList_lowerName, flatMap_lowerChar_lowerPartner]

/-- A name is the same as itself. -/
theorem sameName_self (a : String) : sameName a a = true :=
  beq_self_eq_true _

/-- That names are the same is symmetric. -/
theorem sameName_comm (a b : String) : sameName a b = sameName b a :=
  Bool.beq_comm

theorem sameName_congr_left {a b : String} (h : sameName a b = true) (c : String) :
    sameName a c = sameName b c := by
  rw [sameName, beq_iff_eq] at h
  rw [sameName, sameName, h]

/-- That names are the same in ASCII is symmetric. -/
theorem sameAscii_comm (a b : String) : sameAscii a b = sameAscii b a :=
  Bool.beq_comm

/-- A name with each letter of ASCII in lower case. -/
def lowerAscii (s : String) : String :=
  String.ofList (s.toList.map Char.toLower)

/-- Names are the same in ASCII if their ASCII lowerings are equal. -/
theorem sameAscii_iff_lowerAscii {a b : String} :
    sameAscii a b = true ↔ lowerAscii a = lowerAscii b := by
  rw [sameAscii_iff, lowerAscii, lowerAscii, String.ofList_inj]

/-- Lowering ASCII first changes nothing. -/
@[simp] theorem lowerName_lowerAscii (s : String) : lowerName (lowerAscii s) = lowerName s := by
  have hlower : lowerPartner ∘ Char.toLower = lowerPartner := funext lowerPartner_toLower
  simp [lowerName, lowerAscii, hlower]

/-- Names that are the same in ASCII have one lower form. -/
theorem lowerName_of_sameAscii {a b : String} (h : sameAscii a b = true) :
    lowerName a = lowerName b := by
  rw [← lowerName_lowerAscii a, sameAscii_iff_lowerAscii.mp h, lowerName_lowerAscii]

/-- Whether a word is of ASCII and has no `k` in it. -/
def lacksK (word : String) : Bool :=
  word.toList.all fun c => Nat.blt c.toNat 128 && c.toLower != 'k'

/-- No other character is lowered into a word of ASCII without a `k`. -/
theorem sameAscii_lowerName {word : String} (hword : lacksK word = true) (s : String) :
    sameAscii (lowerName s) word = sameAscii s word := by
  have hds : ∀ d ∈ word.toList.map Char.toLower, d.toNat < 128 ∧ d ≠ 'k' := by
    intro d hd
    obtain ⟨c, hc, rfl⟩ := List.mem_map.mp hd
    have hlacks := List.all_eq_true.mp hword c hc
    simp only [Bool.and_eq_true, Nat.blt_eq, bne_iff_ne] at hlacks
    exact ⟨toNat_toLower_lt hlacks.1, hlacks.2⟩
  rw [Bool.eq_iff_iff, sameAscii_iff, sameAscii_iff, toList_lowerName]
  exact map_toLower_lowerPartner_eq_iff _ _ hds

/-- A word is found among spellings without a `k` in any case. -/
theorem find?_sameAscii_lowerName {α : Type} {spellings : List (String × α)}
    (h : spellings.all (fun entry => lacksK entry.1) = true) (word : String) :
    (spellings.find? fun entry => sameAscii entry.1 (lowerName word)) =
      spellings.find? fun entry => sameAscii entry.1 word := by
  induction spellings with
  | nil => rfl
  | cons entry spellings ih =>
    rw [List.all_cons, Bool.and_eq_true] at h
    rw [List.find?_cons, List.find?_cons, sameAscii_comm, sameAscii_lowerName h.1, sameAscii_comm,
      ih h.2]

end GameCondition
