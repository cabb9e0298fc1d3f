import GameCondition.Proofs.Condition.Recognition
import GameCondition.Proofs.Condition.Writing

/-! # Printed conditions are read back

Every leaf that can be written and that its text does not change (`Condition.IsFaithful`) is the
leaf of a phrase with just the terminals that are written. From these a derivation is put together
along the condition (`Condition.isDerived`): a further operand goes to the end of the chain that its
left neighbour is (`Derivation.orElse`, `Derivation.andAlso`). So printed text is read back, and the
limit that this takes is known exactly (`read_text_iff_nesting`).
-/

namespace GameCondition

open Grammar

/-! ## Faithful text -/

/-- Whether the text of a relation says what the relation does: the operand of `has` is not taken
for another subject, and a number is not written as a word. -/
structure Relation.IsFaithful (r : Relation) : Prop where
  has : r.comparison = .has → ∀ id kind, r.operand = .element id →
    SubjectKind.ofWord? id = some kind → kind.requiresId = false ∧ kind.word = id
  number : ∀ n, r.operand = .number n → n.isFinite = true

/-- Whether the text of each leaf says what the leaf does. -/
def Condition.IsFaithful : Condition → Prop
  | .and l r _ => l.IsFaithful ∧ r.IsFaithful
  | .or l r _ => l.IsFaithful ∧ r.IsFaithful
  | .not c _ => c.IsFaithful
  | .relation r => r.IsFaithful
  | .visits _ => True
  | .distance _ => True

/-! ## Phrases of leaves -/

/-- A writable subject has a phrase with its written terminals. -/
theorem Subject.exists_phrase {s : Subject} (hs : s.IsWritable) :
    ∃ p : SubjectPhrase, p.subject = s ∧ p.terminals = s.written := by
  rcases s with ⟨kind, id⟩
  have hword := kind.ofWord?_word
  have hformed := hs.wellFormed
  cases id with
  | some id =>
      have hid : kind.requiresId = true := by simpa [isWellFormed] using hformed
      exact ⟨.named ⟨kind.word, kind, hword, hid⟩ id, rfl, rfl⟩
  | none =>
      have hid : kind.requiresId = false := by simpa [isWellFormed] using hformed
      have hother : Condition.namesKind kind.word = false := by
        simp [Condition.namesKind, hword, hid]
      refine ⟨.alone ⟨kind.word, hother⟩, ?_, rfl⟩
      simp [SubjectPhrase.subject, hword, Subject.simple]

/-- A faithful operand of `has` is the name of the subject that it is read as. -/
theorem exists_phrase_of_name {id : String}
    (h : ∀ kind, SubjectKind.ofWord? id = some kind → kind.requiresId = false ∧ kind.word = id) :
    ∃ p : SubjectPhrase, p.subject.name = id ∧ p.terminals = [.name id] := by
  cases hword : SubjectKind.ofWord? id with
  | none =>
      have hother : Condition.namesKind id = false := by simp [Condition.namesKind, hword]
      exact ⟨.alone ⟨id, hother⟩,
        by simp [SubjectPhrase.subject, hword, Subject.item, Subject.name], rfl⟩
  | some kind =>
      rcases h kind hword with ⟨hid, hspelled⟩
      have hother : Condition.namesKind id = false := by simp [Condition.namesKind, hword, hid]
      exact ⟨.alone ⟨id, hother⟩,
        by simp [SubjectPhrase.subject, hword, Subject.simple, Subject.name, hspelled], rfl⟩

/-- A property name has a field phrase that sets it. -/
theorem IsPropertyName.exists_field {name : String} (h : IsPropertyName name) :
    ∃ f : FieldPhrase, (∀ fields, f.addTo fields = { fields with property := some name }) ∧
      f.terminals = [.kind .dot, wordTerminal name] := by
  rcases h with h | rfl | rfl | rfl
  · exact ⟨.named name, fun _ => rfl, by rw [(isPlainIdentifier_iff.mp h).2]; rfl⟩
  · exact ⟨.state, fun _ => rfl, by decide⟩
  · exact ⟨.flag, fun _ => rfl, by decide⟩
  · exact ⟨.inventory, fun _ => rfl, by decide⟩

/-- The fields of a writable relation have phrases with their written terminals. -/
theorem Relation.exists_fields {r : Relation} (hr : r.IsWritable) :
    ∃ fs : List FieldPhrase, fieldsOf fs = ⟨r.attr, r.property⟩ ∧
      fs.flatMap FieldPhrase.terminals = r.writtenFields := by
  unfold writtenFields
  cases hattr : r.attr with
  | none =>
      cases hproperty : r.property with
      | none => exact ⟨[], rfl, rfl⟩
      | some name =>
          rcases (hr.property name hproperty).exists_field with ⟨f, hadd, hf⟩
          exact ⟨[f], by simp [fieldsOf, hadd], by simp [hf]⟩
  | some attr =>
      cases hproperty : r.property with
      | none => exact ⟨[.attr false attr], rfl, rfl⟩
      | some name =>
          rcases (hr.property name hproperty).exists_field with ⟨f, hadd, hf⟩
          refine ⟨[.attr false attr, f], ?_, ?_⟩
          · exact hadd (FieldPhrase.addTo ⟨none, none⟩ (.attr false attr))
          · simp only [List.flatMap_cons, List.flatMap_nil, hf, List.append_nil]
            rfl

/-- An operand has a value phrase with its written terminals. -/
theorem Operand.exists_phrase {x : Operand} {c : Comparison}
    (hnumber : ∀ n, x = .number n → n.isFinite = true) (htext : x = .text "" → c ≠ .isEmpty) :
    ∃ v : ValuePhrase, v.operand = x ∧ v.terminals = x.written c := by
  cases x with
  | element id => exact ⟨.bare id, rfl, rfl⟩
  | bool b => exact ⟨.bool b, rfl, rfl⟩
  | number n =>
      cases n with
      | finite negative rank => exact ⟨.number _, rfl, rfl⟩
      | infinite negative => cases hnumber _ rfl
      | nan negative => cases hnumber _ rfl
  | text s =>
      -- only the empty text after `is_empty` is left out
      have hwritten : ¬ (s.isEmpty && c == .isEmpty) = true := by
        intro h
        simp only [Bool.and_eq_true, String.isEmpty_iff, beq_iff_eq] at h
        exact htext (by rw [h.1]) h.2
      exact ⟨.text s, rfl, by rw [written, if_neg hwritten]; rfl⟩

/-- A relation that its text does not change is the leaf of a phrase. -/
theorem Relation.exists_phrase {r : Relation} (hr : r.IsWritable) (hfaithful : r.IsFaithful) :
    ∃ p : Phrase, p.leaf = (Condition.relation r).unplaced ∧ p.terminals = r.written := by
  rcases Subject.exists_phrase hr.subject with ⟨p, hp, hpts⟩
  unfold written
  -- `has` is a form of its own, and so is `is_empty` without an operand
  by_cases hhas : r.comparison = .has
  · rcases hr.has hhas with ⟨hattr, hproperty, id, hid⟩
    rcases exists_phrase_of_name fun kind => hfaithful.has hhas id kind hid with
      ⟨other, hname, hother⟩
    have hword := Comparison.wordTerminal_has
    refine ⟨.has p other, ?_, ?_⟩
    · simp [Phrase.leaf, Condition.unplaced, hp, hname, hhas, hid, hattr, hproperty]
    · simp [Phrase.terminals, Phrase.subject, Phrase.predicate, hpts, hother, writtenFields, hattr,
        hproperty, hhas, hid, hword, Operand.written]
  · rcases exists_fields hr with ⟨fs, hfs, hfields⟩
    have hword := Comparison.wordTerminal_word hhas
    by_cases hempty : r.operand = .text "" ∧ r.comparison = .isEmpty
    · refine ⟨.isEmpty p fs, ?_, ?_⟩
      · simp [Phrase.leaf, Condition.unplaced, hp, hfs, hempty]
      · rw [hempty.2] at hword
        simp [Phrase.terminals, Phrase.subject, Phrase.predicate, hpts, hfields, hempty, hword,
          Operand.written]
    · have htext : r.operand = .text "" → r.comparison ≠ .isEmpty := fun h h' => hempty ⟨h, h'⟩
      rcases Operand.exists_phrase hfaithful.number htext with ⟨v, hv, hvts⟩
      refine ⟨.compares p fs ⟨r.comparison, hhas⟩ v, ?_, ?_⟩
      · simp [Phrase.leaf, Condition.unplaced, hp, hfs, hv]
      · simp [Phrase.terminals, Phrase.subject, Phrase.predicate, hpts, hfields, hword, hvts]

/-- A comparison with an integer below the limit has a tail with its written terminals. -/
theorem exists_tail {c : Comparison} {value : Int} (hc : c.appliesToNumbers = true)
    (hvalue : value.natAbs < Condition.integerLimit) :
    ∃ (n : NumericComparison) (v : IntegerNumeral), n.val = c ∧ v.value = value ∧
      Phrase.tailTerminals n v = writtenTail c value := by
  refine ⟨⟨c, hc⟩, ⟨wholeNumber value, value, toInt?_wholeNumber hvalue, hvalue⟩, rfl, rfl, ?_⟩
  have hword := Comparison.wordTerminal_word (ne_has_of_appliesToNumbers hc)
  simp [Phrase.tailTerminals, writtenTail, hword]

/-- A scene has a phrase that is a literal. -/
theorem exists_scene (scene : String) :
    ∃ p : ScenePhrase, p.scene = scene ∧ p.terminals = [writtenScene scene] := by
  unfold writtenScene
  by_cases hplain : isPlainIdentifier scene = true
  · exact ⟨.bare scene, rfl, by rw [if_pos hplain]; rfl⟩
  · exact ⟨.quoted scene, rfl, by rw [if_neg hplain]; rfl⟩

/-- A writable visit count has a phrase with its written terminals. -/
theorem VisitCount.exists_phrase {v : VisitCount} (hv : v.IsWritable) :
    ∃ p : Phrase, p.leaf = (Condition.visits v).unplaced ∧ p.terminals = v.written := by
  rcases Subject.exists_phrase hv.subject with ⟨p, hp, hpts⟩
  rcases exists_scene v.scene with ⟨scene, hscene, hsts⟩
  rcases exists_tail hv.comparison hv.value with ⟨n, i, hn, hi, htail⟩
  refine ⟨.visits p false none scene n i, ?_, ?_⟩
  · simp [Phrase.leaf, Condition.unplaced, hp, hscene, hn, hi]
  · simp [Phrase.terminals, Phrase.subject, Phrase.predicate, hpts, hsts, htail, optionalDot,
      Phrase.markTerminals, written]

/-- A writable distance has a phrase with its written terminals. -/
theorem Distance.exists_phrase {d : Distance} (hd : d.IsWritable) :
    ∃ p : Phrase, p.leaf = (Condition.distance d).unplaced ∧ p.terminals = d.written := by
  rcases Subject.exists_phrase hd.origin with ⟨p, hp, hpts⟩
  rcases Subject.exists_phrase hd.goal with ⟨goal, hgoal, hgts⟩
  rcases exists_tail hd.comparison hd.value with ⟨n, i, hn, hi, htail⟩
  refine ⟨.distance p false goal n i, ?_, ?_⟩
  · simp [Phrase.leaf, Condition.unplaced, hp, hgoal, hn, hi]
  · simp [Phrase.terminals, Phrase.subject, Phrase.predicate, hpts, hgts, htail, optionalDot,
      written]

/-! ## Longer chains -/

namespace Grammar.Derivation

/-- How many further operands a chain has. -/
def folds : {n : Nonterminal} → Derivation n → Nat
  | _, or _ rest => rest.folds
  | _, orMore _ rest => rest.folds + 1
  | _, and _ rest => rest.folds
  | _, andMore _ rest => rest.folds + 1
  | _, _ => 0

/-- Puts one more operand at the end of the rest of a chain of `or`. -/
def moreOr : Derivation .orRest → Derivation .and → Derivation .orRest
  | orEnd, last => orMore last orEnd
  | orMore next rest, last => orMore next (rest.moreOr last)

/-- Puts one more operand at the end of the rest of a chain of `and`. -/
def moreAnd : Derivation .andRest → Derivation .unary → Derivation .andRest
  | andEnd, last => andMore last andEnd
  | andMore next rest, last => andMore next (rest.moreAnd last)

/-- A chain of `or` with one more operand. -/
def orElse : Derivation .or → Derivation .and → Derivation .or
  | or first rest, last => or first (rest.moreOr last)

/-- A chain of `and` with one more operand. -/
def andAlso : Derivation .and → Derivation .unary → Derivation .and
  | and first rest, last => and first (rest.moreAnd last)

/-- What a further operand adds to the rest of an `or` chain. -/
theorem moreOr_spec (rest : Derivation .orRest) (last : Derivation .and) :
    (rest.moreOr last).terminals = rest.terminals ++ .word .or :: last.terminals ∧
    (∀ left, (rest.moreOr last).meaning left = .or (rest.meaning left) last.meaning .atStart) ∧
    (rest.moreOr last).nesting = max rest.nesting (rest.folds + 1 + last.nesting) ∧
    (rest.moreOr last).folds = rest.folds + 1 := by
  match rest with
  | orEnd =>
      refine ⟨?_, fun left => ?_, ?_, ?_⟩
      · simp [moreOr, terminals]
      · simp [moreOr, meaning]
      · simp [moreOr, nesting, folds]
      · simp [moreOr, folds]
  | orMore next rest =>
      rcases moreOr_spec rest last with ⟨hterminals, hmeaning, hnesting, hfolds⟩
      refine ⟨?_, fun left => ?_, ?_, ?_⟩
      · simp [moreOr, terminals, hterminals]
      · simp only [moreOr, meaning, hmeaning]
      · simp only [moreOr, nesting, hnesting, folds]
        omega
      · simp only [moreOr, folds, hfolds]

/-- What a further operand adds to the rest of an `and` chain. -/
theorem moreAnd_spec (rest : Derivation .andRest) (last : Derivation .unary) :
    (rest.moreAnd last).terminals = rest.terminals ++ .word .and :: last.terminals ∧
    (∀ left, (rest.moreAnd last).meaning left = .and (rest.meaning left) last.meaning .atStart) ∧
    (rest.moreAnd last).nesting = max rest.nesting (rest.folds + 1 + last.nesting) ∧
    (rest.moreAnd last).folds = rest.folds + 1 := by
  match rest with
  | andEnd =>
      refine ⟨?_, fun left => ?_, ?_, ?_⟩
      · simp [moreAnd, terminals]
      · simp [moreAnd, meaning]
      · simp [moreAnd, nesting, folds]
      · simp [moreAnd, folds]
  | andMore next rest =>
      rcases moreAnd_spec rest last with ⟨hterminals, hmeaning, hnesting, hfolds⟩
      refine ⟨?_, fun left => ?_, ?_, ?_⟩
      · simp [moreAnd, terminals, hterminals]
      · simp only [moreAnd, meaning, hmeaning]
      · simp only [moreAnd, nesting, hnesting, folds]
        omega
      · simp only [moreAnd, folds, hfolds]

/-- What a further operand adds to an `or` chain. -/
theorem orElse_spec (left : Derivation .or) (last : Derivation .and) :
    (left.orElse last).terminals = left.terminals ++ .word .or :: last.terminals ∧
    (left.orElse last).meaning = Condition.or left.meaning last.meaning .atStart ∧
    (left.orElse last).nesting = max left.nesting (left.folds + 1 + last.nesting) ∧
    (left.orElse last).folds = left.folds + 1 := by
  cases left with
  | or first rest =>
      rcases moreOr_spec rest last with ⟨hterminals, hmeaning, hnesting, hfolds⟩
      refine ⟨?_, hmeaning _, ?_, hfolds⟩
      · simp [orElse, terminals, hterminals]
      · simp only [orElse, nesting, hnesting, folds, max_assoc]

/-- What a further operand adds to an `and` chain. -/
theorem andAlso_spec (left : Derivation .and) (last : Derivation .unary) :
    (left.andAlso last).terminals = left.terminals ++ .word .and :: last.terminals ∧
    (left.andAlso last).meaning = Condition.and left.meaning last.meaning .atStart ∧
    (left.andAlso last).nesting = max left.nesting (left.folds + 1 + last.nesting) ∧
    (left.andAlso last).folds = left.folds + 1 := by
  cases left with
  | and first rest =>
      rcases moreAnd_spec rest last with ⟨hterminals, hmeaning, hnesting, hfolds⟩
      refine ⟨?_, hmeaning _, ?_, hfolds⟩
      · simp [andAlso, terminals, hterminals]
      · simp only [andAlso, nesting, hnesting, folds, max_assoc]

/-- A chain of `and` as a chain of `or` with one operand. -/
def ofAnd (d : Derivation .and) : Derivation .or :=
  or d orEnd

/-- An operand as a chain of `and`. -/
def ofUnary (d : Derivation .unary) : Derivation .and :=
  and d andEnd

end Grammar.Derivation

namespace Condition

/-- How many operands a condition has after the first one as a chain of `or`. -/
def orFolds : Condition → Nat
  | or l _ _ => l.orFolds + 1
  | _ => 0

/-- How many operands a condition has after the first one as a chain of `and`. -/
def andFolds : Condition → Nat
  | and l _ _ => l.andFolds + 1
  | _ => 0

/-- How deep the text of a condition stands at a place: each negation, each parenthesis and each
further operand of a chain is one level deeper. -/
def nestingAt (place : Binding) : Condition → Nat
  | or l r _ => (if place = .any then 0 else 1) +
      max (l.nestingAt .any) (l.orFolds + 1 + r.nestingAt .andChain)
  | and l r _ => (if place = .unary then 1 else 0) +
      max (l.nestingAt .andChain) (l.andFolds + 1 + r.nestingAt .unary)
  | not c _ => 1 + c.nestingAt .unary
  | _ => 0

/-- A condition has more nodes than links of an `or` chain. -/
theorem orFolds_le_size (c : Condition) : c.orFolds + 1 ≤ c.size := by
  induction c with
  | or l r span ihl ihr => simp only [orFolds, size]; omega
  | _ => simp only [orFolds, size]; omega

/-- A condition has more nodes than links of an `and` chain. -/
theorem andFolds_le_size (c : Condition) : c.andFolds + 1 ≤ c.size := by
  induction c with
  | and l r span ihl ihr => simp only [andFolds, size]; omega
  | _ => simp only [andFolds, size]; omega

/-- Two levels for each node are enough. -/
theorem nestingAt_lt (place : Binding) (c : Condition) : c.nestingAt place < 2 * c.size := by
  induction c generalizing place with
  | or l r span ihl ihr =>
      -- a further operand stands as deep as there are operands before it, and each is a node
      have hfolds := l.orFolds_le_size
      have hl := ihl .any
      have hr := ihr .andChain
      simp only [nestingAt, size]
      split <;> omega
  | and l r span ihl ihr =>
      have hfolds := l.andFolds_le_size
      have hl := ihl .andChain
      have hr := ihr .unary
      simp only [nestingAt, size]
      split <;> omega
  | not c span ih =>
      have hc := ih .unary
      simp only [nestingAt, size]
      omega
  | _ => simp [nestingAt, size]

/-! ## Derivations of written conditions -/

/-- A derivation of what is written for a condition at a place that demands no binding. -/
structure WritesAny (c : Condition) (d : Derivation .or) : Prop where
  terminals : d.terminals = c.written .any
  meaning : d.meaning = c.unplaced
  nesting : d.nesting = c.nestingAt .any
  folds : d.folds = c.orFolds

/-- A derivation of what is written for a condition as an operand of `or`. -/
structure WritesChain (c : Condition) (d : Derivation .and) : Prop where
  terminals : d.terminals = c.written .andChain
  meaning : d.meaning = c.unplaced
  nesting : d.nesting = c.nestingAt .andChain
  folds : d.folds = c.andFolds

/-- A derivation of what is written for a condition as an operand of `and` or `not`. -/
structure WritesUnary (c : Condition) (d : Derivation .unary) : Prop where
  terminals : d.terminals = c.written .unary
  meaning : d.meaning = c.unplaced
  nesting : d.nesting = c.nestingAt .unary

/-- What is derived at every place. -/
structure IsDerived (c : Condition) : Prop where
  any : ∃ d, c.WritesAny d
  chain : ∃ d, c.WritesChain d
  unary : ∃ d, c.WritesUnary d

/-- A disjunction is derived at every place, if its operands are. -/
theorem isDerived_or {l r : Condition} {span : Span} (hl : l.IsDerived) (hr : r.IsDerived) :
    (or l r span).IsDerived := by
  rcases hl.any with ⟨dl, hdl⟩
  rcases hr.chain with ⟨dr, hdr⟩
  -- the left operand is a chain already, and the right one goes to its end
  rcases dl.orElse_spec dr with ⟨hterminals, hmeaning, hnesting, hfolds⟩
  rw [hdl.terminals, hdr.terminals] at hterminals
  rw [hdl.meaning, hdr.meaning] at hmeaning
  rw [hdl.nesting, hdr.nesting, hdl.folds] at hnesting
  rw [hdl.folds] at hfolds
  constructor
  · exact ⟨dl.orElse dr, hterminals, hmeaning, by simp [hnesting, nestingAt], hfolds⟩
  · refine ⟨.ofUnary (.group (dl.orElse dr)), ?_, hmeaning, ?_, rfl⟩
    · simp [Derivation.ofUnary, Derivation.terminals, hterminals, written, grouped]
    · simp [Derivation.ofUnary, Derivation.nesting, hnesting, nestingAt]
  · refine ⟨.group (dl.orElse dr), ?_, hmeaning, ?_⟩
    · simp [Derivation.terminals, hterminals, written, grouped]
    · simp [Derivation.nesting, hnesting, nestingAt]

/-- A conjunction is derived at every place, if its operands are. -/
theorem isDerived_and {l r : Condition} {span : Span} (hl : l.IsDerived) (hr : r.IsDerived) :
    (and l r span).IsDerived := by
  rcases hl.chain with ⟨dl, hdl⟩
  rcases hr.unary with ⟨dr, hdr⟩
  rcases dl.andAlso_spec dr with ⟨hterminals, hmeaning, hnesting, hfolds⟩
  rw [hdl.terminals, hdr.terminals] at hterminals
  rw [hdl.meaning, hdr.meaning] at hmeaning
  rw [hdl.nesting, hdr.nesting, hdl.folds] at hnesting
  rw [hdl.folds] at hfolds
  constructor
  · refine ⟨.ofAnd (dl.andAlso dr), ?_, hmeaning, ?_, rfl⟩
    · simp [Derivation.ofAnd, Derivation.terminals, hterminals, written, grouped]
    · simp [Derivation.ofAnd, Derivation.nesting, hnesting, nestingAt]
  · refine ⟨dl.andAlso dr, ?_, hmeaning, by simp [hnesting, nestingAt], hfolds⟩
    simp [hterminals, written, grouped]
  · refine ⟨.group (.ofAnd (dl.andAlso dr)), ?_, hmeaning, ?_⟩
    · simp [Derivation.ofAnd, Derivation.terminals, hterminals, written, grouped]
    · simp [Derivation.ofAnd, Derivation.nesting, hnesting, nestingAt]

/-- What is an operand of `and` by itself is one at every place. -/
theorem isDerived_of_unary {c : Condition} {d : Derivation .unary} (hd : c.WritesUnary d)
    (hwritten : ∀ place, c.written place = c.written .unary)
    (hnesting : ∀ place, c.nestingAt place = c.nestingAt .unary) (hor : c.orFolds = 0)
    (hand : c.andFolds = 0) : c.IsDerived := by
  constructor
  · refine ⟨.ofAnd (.ofUnary d), ?_, hd.meaning, ?_, hor.symm⟩
    · simp [Derivation.ofAnd, Derivation.ofUnary, Derivation.terminals, hd.terminals, hwritten]
    · simp [Derivation.ofAnd, Derivation.ofUnary, Derivation.nesting, hd.nesting, hnesting]
  · refine ⟨.ofUnary d, ?_, hd.meaning, ?_, hand.symm⟩
    · simp [Derivation.ofUnary, Derivation.terminals, hd.terminals, hwritten]
    · simp [Derivation.ofUnary, Derivation.nesting, hd.nesting, hnesting]
  · exact ⟨d, hd⟩

/-- A negation is derived at every place, if its operand is. -/
theorem isDerived_not {c : Condition} {span : Span} (hc : c.IsDerived) :
    (not c span).IsDerived := by
  rcases hc.unary with ⟨d, hd⟩
  have hnot : (not c span).WritesUnary (.not d) := by
    constructor
    · simp [Derivation.terminals, hd.terminals, written]
    · simp [Derivation.meaning, hd.meaning, unplaced]
    · simp [Derivation.nesting, hd.nesting, nestingAt]
  exact isDerived_of_unary hnot (fun _ => rfl) (fun _ => rfl) rfl rfl

/-- What is written for a condition is derived at every place, if the condition can be written and
its text does not change it. -/
theorem isDerived {c : Condition} (hw : c.IsWritable) (hf : c.IsFaithful) : c.IsDerived := by
  induction c with
  | or l r span ihl ihr => exact isDerived_or (ihl hw.1 hf.1) (ihr hw.2 hf.2)
  | and l r span ihl ihr => exact isDerived_and (ihl hw.1 hf.1) (ihr hw.2 hf.2)
  | not c span ih => exact isDerived_not (ih hw hf)
  | relation r =>
      rcases Relation.exists_phrase hw hf with ⟨p, hleaf, hterminals⟩
      have hp : (relation r).WritesUnary (.phrase p) := ⟨hterminals, hleaf, rfl⟩
      exact isDerived_of_unary hp (fun _ => rfl) (fun _ => rfl) rfl rfl
  | visits v =>
      rcases VisitCount.exists_phrase hw with ⟨p, hleaf, hterminals⟩
      have hp : (visits v).WritesUnary (.phrase p) := ⟨hterminals, hleaf, rfl⟩
      exact isDerived_of_unary hp (fun _ => rfl) (fun _ => rfl) rfl rfl
  | distance d =>
      rcases Distance.exists_phrase hw with ⟨p, hleaf, hterminals⟩
      have hp : (distance d).WritesUnary (.phrase p) := ⟨hterminals, hleaf, rfl⟩
      exact isDerived_of_unary hp (fun _ => rfl) (fun _ => rfl) rfl rfl

/-! ## Round trips -/

/-- Printed text is read back as the condition exactly under the limits that it stands within. -/
theorem read_text_iff_nesting {c : Condition} (hw : c.IsWritable) (hf : c.IsFaithful)
    {limit : Nat} :
    (∃ c', read limit c.text = .ok c' ∧ c'.unplaced = c.unplaced) ↔ c.nestingAt .any ≤ limit := by
  rcases (isDerived hw hf).any with ⟨d, hd⟩
  have hterminals : d.terminals ++ [.last] = terminals c.text.toList := by
    rw [hd.terminals, terminals_text hw]
  rw [read_iff]
  constructor
  · rintro ⟨d', hd', -, hlimit⟩
    -- whatever derives the text is the derivation that was written
    have hsame : d' = d :=
      Derivation.terminals_injective (List.append_cancel_right (hd'.trans hterminals.symm))
    rw [← hd.nesting, ← hsame]
    exact hlimit
  · intro hlimit
    exact ⟨d, hterminals, hd.meaning, hd.nesting.trans_le hlimit⟩

/-- Whether the language can express a condition: it can be written, and its text says what it
does. -/
structure IsExpressible (c : Condition) : Prop where
  writable : c.IsWritable
  faithful : c.IsFaithful

/-- Whatever the language can express is read back from its text under a limit of twice its
size. -/
theorem read_text {c : Condition} (hc : c.IsExpressible) {limit : Nat}
    (hlimit : 2 * c.size ≤ limit) :
    ∃ c', read limit c.text = .ok c' ∧ c'.unplaced = c.unplaced := by
  have hnesting := c.nestingAt_lt .any
  exact (read_text_iff_nesting hc.writable hc.faithful).mpr (by omega)

/-- A negated disjunction is read back from its text. -/
theorem read_text_of_negation :
    ∃ c', read 8 "not (player has lamp or player visits \"great hall\" is_greater_than 2)" = .ok c' ∧
      c'.unplaced = .not
        (.or
          (.relation ⟨.simple .player, .has, .element "lamp", none, none, .atStart⟩)
          (.visits ⟨.simple .player, "great hall", .greaterThan, 2, .atStart⟩) .atStart)
        .atStart := by
  have hplayer : (Subject.simple .player).IsWritable := by
    constructor
    · rfl
    · intro id h
      cases h
  have hhas : Relation.IsWritable
      ⟨.simple .player, .has, .element "lamp", none, none, .atStart⟩ := by
    refine ⟨hplayer, fun name h => ?_, fun name h => ?_, fun id h => ?_,
      fun _ => ⟨rfl, rfl, _, rfl⟩⟩
    · cases h
    · cases h
    · cases h
      decide
  have hvisits : VisitCount.IsWritable
      ⟨.simple .player, "great hall", .greaterThan, 2, .atStart⟩ := ⟨hplayer, rfl, by decide⟩
  have hfaithful : Relation.IsFaithful
      ⟨.simple .player, .has, .element "lamp", none, none, .atStart⟩ := by
    have hlamp : SubjectKind.ofWord? "lamp" = none := by decide
    constructor
    · intro _ id kind hid hkind
      cases hid
      rw [hlamp] at hkind
      cases hkind
    · intro n h
      cases h
  have htext : text (.not
      (.or
        (.relation ⟨.simple .player, .has, .element "lamp", none, none, .atStart⟩)
        (.visits ⟨.simple .player, "great hall", .greaterThan, 2, .atStart⟩) .atStart) .atStart) =
      "not (player has lamp or player visits \"great hall\" is_greater_than 2)" := by
    decide
  have hexpressible : IsExpressible (.not
      (.or
        (.relation ⟨.simple .player, .has, .element "lamp", none, none, .atStart⟩)
        (.visits ⟨.simple .player, "great hall", .greaterThan, 2, .atStart⟩) .atStart) .atStart) :=
    ⟨⟨hhas, hvisits⟩, ⟨hfaithful, trivial⟩⟩
  rw [← htext]
  exact read_text hexpressible (by decide)

end Condition

end GameCondition
