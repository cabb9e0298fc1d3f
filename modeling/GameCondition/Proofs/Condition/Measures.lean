import GameCondition.Proofs.Condition.Readings
import GameCondition.Proofs.Number.Nearest
import GameCondition.Proofs.Token.Excerpts
import GameCondition.Proofs.Token.Scanning
import Mathlib.Tactic.Positivity

/-! # Counts and distances

A count or a distance ends with a decimal, which has to be a whole number below the limit. The
reader looks at the number that is nearest to the decimal, not at the decimal. So it takes the whole
number that is nearest (`read_measure`): that is the value that was written as long as this is whole
or has few digits, but a decimal that is only very near to a whole number is taken for it as well
(`not_read_measure_exact`).
-/

namespace GameCondition

/-! ## Decimals of a text -/

/-- A decimal as it is written: perhaps a minus sign, digits, and perhaps a point and digits. -/
structure DecimalNumeral where
  negative : Bool
  whole : List Char
  part : List Char
  whole_ne_nil : whole ≠ []
  whole_digits : ∀ c ∈ whole, c.isDigit = true
  part_digits : ∀ c ∈ part, c.isDigit = true

namespace DecimalNumeral

/-- How it is written. -/
def text (d : DecimalNumeral) : List Char :=
  (if d.negative then ['-'] else []) ++ (d.whole ++ pointed d.part)

/-- The number that all its digits spell. -/
def digits (d : DecimalNumeral) : Nat :=
  digitsValue (d.whole ++ d.part)

/-- The value without the sign. -/
def magnitude (d : DecimalNumeral) : ℚ :=
  d.digits / 10 ^ d.part.length

/-- The value that is written. -/
def value (d : DecimalNumeral) : ℚ :=
  if d.negative then -d.magnitude else d.magnitude

/-- The number that it is read as. -/
def number (d : DecimalNumeral) : Number :=
  .ofScientific d.negative d.digits (-d.part.length)

/-- The nearest number is a whole one. -/
def RoundsTo (d : DecimalNumeral) (i : Int) : Prop :=
  HasSign d.negative i ∧ ∃ rank, rankValue rank = i.natAbs ∧ IsNearest d.magnitude rank

/-- No decimal but a whole number itself has such digits and is rounded to it: the value is whole, or
the digits spell no more than what is read exactly. -/
def IsExact (d : DecimalNumeral) : Prop :=
  (∃ j : Int, d.value = j) ∨ d.digits < 9 * 10 ^ 15 ∧ d.part.length ≤ 323

theorem terminals_text (d : DecimalNumeral) : terminals d.text = [.kind (.number d.number), .last] := by
  have h := terminals_decimal d.negative d.whole_ne_nil d.whole_digits d.part_digits
    (stopsAt_nil isNumberChar)
  rwa [List.append_nil, terminals_nil] at h

theorem text_ne_nil (d : DecimalNumeral) : d.text ≠ [] := by
  intro h
  have hwhole := (List.append_eq_nil_iff.mp h).2
  exact d.whole_ne_nil (List.append_eq_nil_iff.mp hwhole).1

theorem smallInteger?_number {d : DecimalNumeral} {i : Int} :
    Condition.smallInteger? d.number = some i ↔ i.natAbs < 9 * 10 ^ 15 ∧ d.RoundsTo i :=
  smallInteger?_ofScientific

theorem magnitude_nonneg (d : DecimalNumeral) : 0 ≤ d.magnitude := by
  unfold magnitude
  positivity

/-- The value is a whole number if the magnitude is the same and the sign fits. -/
theorem value_eq_iff {d : DecimalNumeral} {i : Int} :
    d.value = i ↔ d.magnitude = i.natAbs ∧ HasSign d.negative i := by
  have hnonneg := d.magnitude_nonneg
  have hcast : ∀ {j : Int}, (i.natAbs : Int) = j → (i.natAbs : ℚ) = j := by
    intro j hj
    rw [← Int.cast_natCast, hj]
  unfold value HasSign
  -- zero has both signs, so that the magnitude alone does not tell the integer
  cases d.negative with
  | true =>
    rw [if_pos rfl, if_pos rfl]
    constructor
    · intro h
      have hle : (i : ℚ) ≤ 0 := by linarith
      have hle' : i ≤ 0 := by exact_mod_cast hle
      refine ⟨?_, by omega⟩
      rw [hcast (j := -i) (by omega)]
      push_cast
      linarith
    · rintro ⟨hmagnitude, hsign⟩
      rw [hmagnitude, hcast (j := -i) (by omega)]
      push_cast
      exact neg_neg _
  | false =>
    rw [if_neg Bool.false_ne_true, if_neg Bool.false_ne_true]
    constructor
    · intro h
      have hle : (0 : ℚ) ≤ i := by linarith
      have hle' : 0 ≤ i := by exact_mod_cast hle
      refine ⟨?_, by omega⟩
      rw [h, hcast (j := i) (by omega)]
    · rintro ⟨hmagnitude, hsign⟩
      rw [hmagnitude, hcast (j := i) hsign.symm]

/-- A decimal with a whole value or few digits is rounded to no other whole number. -/
theorem roundsTo_iff_value_eq {d : DecimalNumeral} (h : d.IsExact) {i : Int}
    (hi : i.natAbs < 9 * 10 ^ 15) : d.RoundsTo i ↔ d.value = i := by
  rw [value_eq_iff]
  constructor
  · rintro ⟨hsign, rank, hvalue, hnearest⟩
    refine ⟨?_, hsign⟩
    rcases h with ⟨j, hj⟩ | ⟨hdigits, hlength⟩
    · have hmagnitude := (value_eq_iff.mp hj).1
      rw [hmagnitude] at hnearest ⊢
      rw [hnearest.eq_of_whole hvalue hi]
    · have hexact := hnearest.eq_of_short hvalue hdigits hlength
      rw [magnitude, hexact]
      push_cast
      exact mul_div_cancel_right₀ _ (by positivity)
  · rintro ⟨hmagnitude, hsign⟩
    obtain ⟨rank, hvalue⟩ := exists_rankValue_eq (lt_trans hi (by norm_num))
    refine ⟨hsign, rank, hvalue, ?_⟩
    rw [hmagnitude, ← hvalue]
    exact isNearest_self rank

end DecimalNumeral

namespace Condition

open Grammar

/-! ## What comes before the decimal -/

/-- A count or a distance without its decimal. -/
inductive Measure where
  | visits (subject : SubjectPhrase) (dot : Bool) (mark : Option SceneWord) (scene : ScenePhrase)
      (comparison : NumericComparison)
  | distance (origin : SubjectPhrase) (dot : Bool) (goal : SubjectPhrase)
      (comparison : NumericComparison)

namespace Measure

/-- What it compares with the decimal. -/
def subject : Measure → SubjectPhrase
  | visits s _ _ _ _ | distance s _ _ _ => s

/-- What follows the subject up to the decimal. -/
def predicate : Measure → List Terminal
  | visits _ dot mark scene comparison => optionalDot dot ++ .word .visits ::
      (Phrase.markTerminals mark ++ scene.terminals ++
        [.word (comparisonKeyword comparison.val)])
  | distance _ dot goal comparison => optionalDot dot ++ .word .distanceFrom ::
      (goal.terminals ++ [.word (comparisonKeyword comparison.val)])

def terminals (m : Measure) : List Terminal :=
  m.subject.terminals ++ m.predicate

/-- The condition with the given operand and place. -/
def condition (m : Measure) (i : Int) (place : Span) : Condition :=
  match m with
  | visits subject _ _ scene comparison =>
    .visits ⟨subject.subject, scene.scene, comparison.val, i, place⟩
  | distance origin _ goal comparison =>
    .distance ⟨origin.subject, goal.subject, comparison.val, i, place⟩

theorem unplaced_condition (m : Measure) (i : Int) (place : Span) :
    (m.condition i place).unplaced = m.condition i .atStart := by
  cases m <;> rfl

theorem eq_of_condition_eq {m : Measure} {i j : Int} {place place' : Span}
    (h : m.condition i place = m.condition j place') : i = j := by
  cases m <;> simp_all [condition]

theorem exists_name (m : Measure) : ∃ w ts, m.terminals = .name w :: ts := by
  rw [terminals]
  cases m.subject with
  | named w id => exact ⟨_, _, rfl⟩
  | alone w => exact ⟨_, _, rfl⟩

end Measure

/-! ## Reading it -/

theorem readDistance_of_takes {goal : SubjectPhrase} {n : NumericComparison} {s s₁ : Stream}
    (origin : Subject) (start : Span)
    (h : Takes s (goal.terminals ++ [.word (comparisonKeyword n.val)]) s₁) :
    readDistance origin start s = (do
      let (i, last, s') ← readInteger s₁
      return (.distance ⟨origin, goal.subject, n.val, i, start.through last⟩, s')) := by
  obtain ⟨s₂, hgoal, hword⟩ := Takes.append_iff.mp h
  rw [readDistance, readSubject_complete hgoal]
  show (readNumericComparison s₂ >>= _) = _
  rw [readNumericComparison_complete hword]
  rfl

theorem readVisits_of_takes {mark : Option SceneWord} {scene : ScenePhrase}
    {n : NumericComparison} {s s₁ : Stream} (subject : Subject) (start : Span)
    (h : Takes s (Phrase.markTerminals mark ++ scene.terminals ++
      [.word (comparisonKeyword n.val)]) s₁) :
    readVisits subject start s = (do
      let (i, last, s') ← readInteger s₁
      return (.visits ⟨subject, scene.scene, n.val, i, start.through last⟩, s')) := by
  obtain ⟨s₂, hscene, hword⟩ := Takes.append_iff.mp h
  have hkind := hword.kind_and_rest.1
  rw [readVisits, readScene_complete (skipScene_complete hscene hkind)]
  show (readNumericComparison s₂ >>= _) = _
  rw [readNumericComparison_complete hword]
  rfl

/-- A count or a distance is read up to its decimal, and then with it. -/
theorem readRelation_of_takes {m : Measure} {s s₁ : Stream} (h : Takes s m.terminals s₁) :
    readRelation s = (do
      let (i, last, s') ← readInteger s₁
      return (m.condition i (s.current.span.through last), s')) := by
  obtain ⟨s₂, hsubject, hpredicate⟩ := Takes.append_iff.mp h
  rw [readRelation, readSubject_complete hsubject]
  cases m with
  | visits subject dot mark scene n =>
    obtain ⟨hkind, hrest⟩ := skipDot_complete (.inr rfl) hpredicate
    simp only [bind, Except.bind, not_atHas_of_optionalDot hpredicate, Bool.false_eq_true, if_false,
      hkind]
    exact readVisits_of_takes subject.subject s.current.span hrest
  | distance origin dot goal n =>
    obtain ⟨hkind, hrest⟩ := skipDot_complete (.inl rfl) hpredicate
    simp only [bind, Except.bind, not_atHas_of_optionalDot hpredicate, Bool.false_eq_true, if_false,
      hkind]
    exact readDistance_of_takes origin.subject s.current.span hrest

/-- A leaf that begins with a name and ends the text is all that is read. -/
theorem readAll_of_readRelation (levels : Nat) {s : Stream} {w : String}
    (hkind : s.kind = .identifier w)
    (hend : ∀ c s', readRelation s = .ok (c, s') → s'.kind = .endOfInput) :
    readAll levels s = (readRelation s).map (·.1) := by
  have hunary : readUnary levels s = readRelation s := by
    rw [readUnary.eq_def, hkind]
  rw [readAll, readOr, readAnd, hunary]
  cases hread : readRelation s with
  | error e => rfl
  | ok result =>
    obtain ⟨c, s'⟩ := result
    have hlast := hend c s' hread
    simp only [bind, Except.bind]
    rw [readAndRest.eq_def, if_neg (by simp [hlast])]
    simp only
    rw [readOrRest.eq_def, if_neg (by simp [hlast])]
    simp only [hlast, if_true]
    rfl

/-- The tokens of a text that is a count or a distance: those before the decimal, the decimal, and
the token at the end. -/
structure Measure.Writes (m : Measure) (d : DecimalNumeral) (source : List Char) (t : Token) :
    Prop where
  tokens : ∃ front e, tokenize source = front ++ [t, e] ∧
    front.map Token.terminal = m.terminals
  text : t.text = d.text

theorem Measure.Writes.exists_takes {m : Measure} {d : DecimalNumeral} {source : List Char}
    {t : Token} (h : m.Writes d source t) : ∃ s₁, Takes (.ofText source) m.terminals s₁ ∧
      s₁.current = t ∧ s₁.kind = .number d.number ∧ s₁.advance.kind = .endOfInput := by
  obtain ⟨front, e, htokens, hfront⟩ := h.tokens
  have hterminal : t.terminal = .kind (.number d.number) := by
    have hmem : t ∈ tokenize source := by simp [htokens]
    have hlex := Token.terminals_own_text hmem (h.text ▸ d.text_ne_nil)
    rw [h.text, d.terminals_text, List.cons.injEq] at hlex
    exact hlex.1.symm
  have hahead : (Stream.ofText source).ahead = m.terminals ++ [t.terminal, e.terminal] := by
    rw [Stream.ahead_ofText, GameCondition.terminals, htokens, List.map_append, hfront]
    rfl
  obtain ⟨s₁, htakes, -⟩ := Takes.exists_of_ahead hahead (List.cons_ne_nil _ _)
  -- the tokens that were taken are those before the decimal
  have hrest : s₁.tokens = [t, e] := by
    obtain ⟨w, ts, hname⟩ := m.exists_name
    have htakes' := htakes
    rw [hname] at htakes'
    obtain ⟨us, hus, hmap, -⟩ := htakes'.exists_tokens
    rw [Stream.tokens_ofText, htokens] at hus
    refine (List.append_inj_right hus ?_).symm
    rw [← hname, ← hfront] at hmap
    simpa using (congrArg List.length hmap).symm
  obtain ⟨hcurrent, hlater⟩ := List.cons.inj hrest
  have hkind : s₁.kind = .number d.number := by
    rw [Stream.kind, hcurrent]
    exact (Token.terminal_eq_kind_iff.mp hterminal).1
  have hend : e.kind = .endOfInput := by
    obtain ⟨init, hinit, -⟩ := (tiles_tokenize source).ended
    rw [htokens, ← List.singleton_append, ← List.append_assoc] at hinit
    have hlast := List.append_inj_right' hinit rfl
    rw [(List.cons.inj hlast).1]
    rfl
  refine ⟨s₁, htakes, hcurrent, hkind, ?_⟩
  rw [Stream.kind, Stream.advance, hlater]
  exact hend

/-- A count or a distance with a decimal is read if the number nearest to that is a small whole one,
and refused at the decimal if not. -/
theorem read_of_writes (limit : Nat) {source : String} {m : Measure} {d : DecimalNumeral}
    {t : Token} (h : m.Writes d source.toList t) : ∃ place, read limit source =
      match smallInteger? d.number with
      | some i => .ok (m.condition i place)
      | none => .error (.misfit (Misfit.notWhole d.number).message t.span) := by
  obtain ⟨s₁, htakes, hcurrent, hkind, hend⟩ := h.exists_takes
  obtain ⟨w, ts, hname⟩ := m.exists_name
  have hword : (Stream.ofText source.toList).kind = .identifier w := by
    rw [hname] at htakes
    exact htakes.kind_and_rest.1
  have hinteger : readInteger s₁ = match smallInteger? d.number with
      | some i => .ok (i, t.span, s₁.advance)
      | none => .error (.misfit (.notWhole d.number) t.span) := by
    cases hsmall : smallInteger? d.number <;>
      simp [readInteger, hkind, hsmall, hcurrent, Stream.fail]
  have hrelation := readRelation_of_takes htakes
  rw [hinteger] at hrelation
  -- whatever was read, the decimal was the last token of it
  have hlast : ∀ c s', readRelation (.ofText source.toList) = .ok (c, s') →
      s'.kind = .endOfInput := by
    intro c s' hread
    rw [hrelation] at hread
    cases hsmall : smallInteger? d.number with
    | none =>
        rw [hsmall] at hread
        cases hread
    | some i =>
        rw [hsmall] at hread
        cases hread
        exact hend
  refine ⟨(Stream.ofText source.toList).current.span.through t.span, ?_⟩
  rw [read, readAll_of_readRelation limit hword hlast, hrelation]
  cases smallInteger? d.number <;> rfl

/-- A count or a distance is read with the whole number that is nearest to its decimal, if that is
one and small. Otherwise it is refused at the decimal. Where no other decimal is rounded to the same
whole number, the operand is the value that is written. -/
theorem read_measure {limit : Nat} {source : String} {m : Measure} {d : DecimalNumeral} {t : Token}
    (h : m.Writes d source.toList t) :
    (∀ i, (∃ c, read limit source = .ok c ∧ c.unplaced = m.condition i .atStart) ↔
      i.natAbs < 9 * 10 ^ 15 ∧ d.RoundsTo i) ∧
    ((¬ ∃ i : Int, i.natAbs < 9 * 10 ^ 15 ∧ d.RoundsTo i) → read limit source =
      .error (.misfit ("expected a whole number, found " ++ toString d.number) t.span)) ∧
    (d.IsExact → ∀ i : Int,
      (∃ c, read limit source = .ok c ∧ c.unplaced = m.condition i .atStart) ↔
        d.value = i ∧ i.natAbs < 9 * 10 ^ 15) := by
  obtain ⟨place, hread⟩ := read_of_writes limit h
  -- the literal is read through its rounded number, which alone decides what is accepted
  have hoperand : ∀ i, (∃ c, read limit source = .ok c ∧ c.unplaced = m.condition i .atStart) ↔
      i.natAbs < 9 * 10 ^ 15 ∧ d.RoundsTo i := by
    intro i
    rw [← DecimalNumeral.smallInteger?_number, hread]
    cases hsmall : smallInteger? d.number with
    | none => simp
    | some j =>
      constructor
      · rintro ⟨c, hc, hcondition⟩
        cases hc
        rw [Measure.unplaced_condition] at hcondition
        rw [Measure.eq_of_condition_eq hcondition]
      · intro hj
        cases hj
        exact ⟨_, rfl, m.unplaced_condition i place⟩
  refine ⟨hoperand, ?_, ?_⟩
  · intro hnone
    cases hsmall : smallInteger? d.number with
    | none =>
      rw [hread, hsmall]
      rfl
    | some i => exact absurd ⟨i, DecimalNumeral.smallInteger?_number.mp hsmall⟩ hnone
  · intro hexact i
    rw [hoperand, and_comm]
    constructor
    · rintro ⟨hrounds, hi⟩
      exact ⟨(DecimalNumeral.roundsTo_iff_value_eq hexact hi).mp hrounds, hi⟩
    · rintro ⟨hvalue, hi⟩
      exact ⟨(DecimalNumeral.roundsTo_iff_value_eq hexact hi).mpr hvalue, hi⟩

/-- How far the player is from a person. -/
def playerFromAnn : Measure :=
  .distance (.alone ⟨"player", by decide +kernel⟩) false
    (.named ⟨"npc", .npc, by decide +kernel, by decide⟩ "ann") ⟨.lessThan, by decide⟩

/-- Minus twelve, with a fraction that is zero. -/
def minusTwelve : DecimalNumeral :=
  ⟨true, ['1', '2'], ['0'], by simp, List.all_eq_true.mp rfl, List.all_eq_true.mp rfl⟩

theorem read_measure_minusTwelve :
    playerFromAnn.Writes minusTwelve "player distance_from npc ann is_less_than -12.0".toList
      ⟨.number minusTwelve.number, minusTwelve.text, ⟨42, 47, 1, 43⟩⟩ ∧
    minusTwelve.IsExact ∧
    ∃ c, read 64 "player distance_from npc ann is_less_than -12.0" = .ok c ∧
      c.unplaced = playerFromAnn.condition (-12) .atStart := by
  have hwrites : playerFromAnn.Writes minusTwelve
      "player distance_from npc ann is_less_than -12.0".toList
      ⟨.number minusTwelve.number, minusTwelve.text, ⟨42, 47, 1, 43⟩⟩ :=
    ⟨⟨[⟨.identifier "player", "player".toList, ⟨0, 6, 1, 1⟩⟩,
        ⟨.keyword .distanceFrom, "distance_from".toList, ⟨7, 20, 1, 8⟩⟩,
        ⟨.identifier "npc", "npc".toList, ⟨21, 24, 1, 22⟩⟩,
        ⟨.identifier "ann", "ann".toList, ⟨25, 28, 1, 26⟩⟩,
        ⟨.keyword .isLessThan, "is_less_than".toList, ⟨29, 41, 1, 30⟩⟩],
      ⟨.endOfInput, [], ⟨47, 47, 1, 48⟩⟩, by decide +kernel, by decide⟩, rfl⟩
  have hvalue : minusTwelve.value = (-12 : Int) := by
    have hdigits : minusTwelve.digits = 120 := by decide
    have hpart : minusTwelve.part.length = 1 := rfl
    have hsign : minusTwelve.negative = true := rfl
    rw [DecimalNumeral.value, if_pos hsign, DecimalNumeral.magnitude, hdigits, hpart]
    norm_num
  have hexact : minusTwelve.IsExact := .inl ⟨-12, hvalue⟩
  exact ⟨hwrites, hexact, ((read_measure hwrites).2.2 hexact (-12)).mpr ⟨hvalue, by decide⟩⟩

/-- How often the player has been in the den. -/
def playerVisitsDen : Measure :=
  .visits (.alone ⟨"player", by decide +kernel⟩) false none (.bare "den") ⟨.is, by decide⟩

/-- One, but for its twentieth place. -/
def almostOne : DecimalNumeral :=
  ⟨false, ['0'], List.replicate 20 '9', by simp, List.all_eq_true.mp rfl, List.all_eq_true.mp rfl⟩

/-- Not every decimal that is taken is a whole number. One that is very near to a whole number is
taken for it. -/
theorem not_read_measure_exact :
    ¬ ∀ (limit : Nat) (source : String) (m : Measure) (d : DecimalNumeral) (t : Token),
      m.Writes d source.toList t → ∀ i : Int,
        (∃ c, read limit source = .ok c ∧ c.unplaced = m.condition i .atStart) ↔
          d.value = i ∧ i.natAbs < 9 * 10 ^ 15 := by
  intro h
  have hwrites : playerVisitsDen.Writes almostOne
      "player visits den is 0.99999999999999999999".toList
      ⟨.number almostOne.number, almostOne.text, ⟨21, 43, 1, 22⟩⟩ :=
    ⟨⟨[⟨.identifier "player", "player".toList, ⟨0, 6, 1, 1⟩⟩,
        ⟨.keyword .visits, "visits".toList, ⟨7, 13, 1, 8⟩⟩,
        ⟨.identifier "den", "den".toList, ⟨14, 17, 1, 15⟩⟩,
        ⟨.keyword .is, "is".toList, ⟨18, 20, 1, 19⟩⟩],
      ⟨.endOfInput, [], ⟨43, 43, 1, 44⟩⟩, by decide +kernel, by decide⟩, rfl⟩
  have hsmall : smallInteger? almostOne.number = some 1 := by decide +kernel
  obtain ⟨place, hread⟩ := read_of_writes 64 hwrites
  rw [hsmall] at hread
  have hvalue := ((h _ _ _ _ _ hwrites 1).mp ⟨_, hread, Measure.unplaced_condition _ _ _⟩).1
  have hdigits : almostOne.digits = 99999999999999999999 := by decide +kernel
  have hpart : almostOne.part.length = 20 := rfl
  rw [DecimalNumeral.value, if_neg (by decide), DecimalNumeral.magnitude, hdigits, hpart] at hvalue
  norm_num at hvalue

end Condition

end GameCondition
