import GameCondition.Proofs.Condition.RoundTrip

/-! # Printing what was read

A condition that was read from a text can be written (`isWritable_of_read`), since every name in a
text is a plain identifier. Its own text is read as the same condition under the same limit exactly
when that text says what the condition does and stands within the limit (`read_text_of_read_iff`).

Only the second half needs more than the round trip: if the text does not say what the condition
does, it must be shown that no derivation of it means the condition all the same. For this the
terminals are cut at the words and parentheses that join phrases (`pieces`): the pieces are the
phrases of a derivation on one side and the written leaves of the condition on the other.
-/

namespace GameCondition

open Grammar

/-! ## Names in a text -/

/-- What the scanner takes for an identifier can be written without quotes. -/
theorem Lexeme.isPlainIdentifier_of_kind {c : Char} {cs : List Char} {name : String}
    (h : (Lexeme.ofText c cs).kind = .identifier name) : isPlainIdentifier name = true := by
  have hstart := isIdentifierStart_of_kind h
  rw [ofText_word cs hstart] at h
  simp only [word] at h
  split at h
  · cases h
  · next hword =>
    rw [Token.Kind.identifier.injEq] at h
    subst h
    simp only [isPlainIdentifier, String.toList_ofList, hstart, hword, List.all_takeWhile]
    rfl

/-- The names of a text are plain identifiers. -/
theorem isPlainIdentifier_of_mem_terminals {cs : List Char} {name : String}
    (h : Terminal.name name ∈ terminals cs) : isPlainIdentifier name = true := by
  refine terminals_induction
    (motive := fun ts => Terminal.name name ∈ ts → isPlainIdentifier name = true) ?_ ?_ cs h
  · intro h
    simp at h
  · intro c ds ts ih h
    rcases List.mem_cons.mp h with h | h
    · exact Lexeme.isPlainIdentifier_of_kind (Token.terminal_eq_kind_iff.mp h.symm).1
    · exact ih h

/-! ## Leaves -/

/-- The leaves of a condition in their order. -/
def Condition.leaves : Condition → List Condition
  | .and l r _ => l.leaves ++ r.leaves
  | .or l r _ => l.leaves ++ r.leaves
  | .not c _ => c.leaves
  | leaf => [leaf]

/-- The phrases of a derivation in their order. -/
def Grammar.Derivation.phrases : {n : Nonterminal} → Derivation n → List Phrase
  | _, .or first rest => first.phrases ++ rest.phrases
  | _, .orEnd => []
  | _, .orMore next rest => next.phrases ++ rest.phrases
  | _, .and first rest => first.phrases ++ rest.phrases
  | _, .andEnd => []
  | _, .andMore next rest => next.phrases ++ rest.phrases
  | _, .not inner => inner.phrases
  | _, .group inner => inner.phrases
  | _, .phrase p => [p]

/-- Whether the leaves of what a nonterminal stands for are given. -/
def Grammar.Nonterminal.HasLeaves : (n : Nonterminal) → n.Meaning → List Condition → Prop
  | .or, c, leaves => Condition.leaves c = leaves
  | .and, c, leaves => Condition.leaves c = leaves
  | .unary, c, leaves => Condition.leaves c = leaves
  | .orRest, f, leaves => ∀ left, Condition.leaves (f left) = left.leaves ++ leaves
  | .andRest, f, leaves => ∀ left, Condition.leaves (f left) = left.leaves ++ leaves

/-- The leaves of what is derived are those of its phrases. -/
theorem Grammar.Derivation.hasLeaves {n : Nonterminal} (d : Derivation n) :
    n.HasLeaves d.meaning (d.phrases.map Phrase.leaf) := by
  -- by induction on the derivation; the rest of a chain adds its leaves behind those of any left
  -- side
  induction d with
  | or first rest ihf ihr =>
      have hrest := ihr first.meaning
      rw [show Condition.leaves first.meaning = _ from ihf, ← List.map_append] at hrest
      exact hrest
  | orEnd => exact fun left => (List.append_nil _).symm
  | orMore next rest ihn ihr =>
      intro left
      have hrest := ihr (.or left next.meaning .atStart)
      rw [Condition.leaves, show Condition.leaves next.meaning = _ from ihn, List.append_assoc,
        ← List.map_append] at hrest
      exact hrest
  | and first rest ihf ihr =>
      have hrest := ihr first.meaning
      rw [show Condition.leaves first.meaning = _ from ihf, ← List.map_append] at hrest
      exact hrest
  | andEnd => exact fun left => (List.append_nil _).symm
  | andMore next rest ihn ihr =>
      intro left
      have hrest := ihr (.and left next.meaning .atStart)
      rw [Condition.leaves, show Condition.leaves next.meaning = _ from ihn, List.append_assoc,
        ← List.map_append] at hrest
      exact hrest
  | not inner ih => exact ih
  | group inner ih => exact ih
  | phrase p => cases p <;> rfl

/-- The terminals of a phrase are among those of the derivation. -/
theorem Grammar.Derivation.mem_terminals {n : Nonterminal} {d : Derivation n} {p : Phrase}
    (hp : p ∈ d.phrases) {t : Terminal} (ht : t ∈ p.terminals) : t ∈ d.terminals := by
  induction d with
  | orEnd => cases hp
  | andEnd => cases hp
  | phrase q =>
      rw [phrases, List.mem_singleton] at hp
      exact hp ▸ ht
  | _ =>
      simp only [phrases, List.mem_append] at hp
      simp only [terminals, List.mem_append, List.mem_cons]
      tauto

namespace Condition

/-- Leaves without their places are the leaves of the condition without places. -/
theorem leaves_unplaced (c : Condition) : c.unplaced.leaves = c.leaves.map unplaced := by
  induction c with
  | and l r span ihl ihr => simp only [unplaced, leaves, ihl, ihr, List.map_append]
  | or l r span ihl ihr => simp only [unplaced, leaves, ihl, ihr, List.map_append]
  | not c span ih => simp only [unplaced, leaves, ih]
  | _ => rfl

/-- A condition can be written if its leaves can. -/
theorem isWritable_iff_leaves {c : Condition} :
    c.IsWritable ↔ ∀ leaf ∈ c.leaves, leaf.IsWritable := by
  induction c with
  | and l r span ihl ihr => simp [IsWritable, leaves, ihl, ihr, or_imp, forall_and]
  | or l r span ihl ihr => simp [IsWritable, leaves, ihl, ihr, or_imp, forall_and]
  | not c span ih => simp [IsWritable, leaves, ih]
  | _ => simp [leaves]

theorem isFaithful_iff_leaves {c : Condition} :
    c.IsFaithful ↔ ∀ leaf ∈ c.leaves, leaf.IsFaithful := by
  induction c with
  | and l r span ihl ihr => simp [IsFaithful, leaves, ihl, ihr, or_imp, forall_and]
  | or l r span ihl ihr => simp [IsFaithful, leaves, ihl, ihr, or_imp, forall_and]
  | not c span ih => simp [IsFaithful, leaves, ih]
  | _ => simp [leaves]

/-- Places do not matter for what can be written. -/
theorem isWritable_of_unplaced {c : Condition} (h : c.unplaced.IsWritable) : c.IsWritable := by
  induction c with
  | and l r span ihl ihr => exact ⟨ihl h.1, ihr h.2⟩
  | or l r span ihl ihr => exact ⟨ihl h.1, ihr h.2⟩
  | not c span ih => exact ih h
  | relation r => exact ⟨h.subject, h.attr, h.property, h.operand, h.has⟩
  | visits v => exact ⟨h.subject, h.comparison, h.value⟩
  | distance d => exact ⟨h.origin, h.goal, h.comparison, h.value⟩

/-! ## What was read can be written -/

/-- A subject that was read from plain identifiers can be written. -/
theorem isWritable_of_subjectPhrase {p : SubjectPhrase}
    (hp : ∀ name, Terminal.name name ∈ p.terminals → isPlainIdentifier name = true) :
    p.subject.IsWritable := by
  cases p with
  | named w id =>
      constructor
      · simp [SubjectPhrase.subject, Subject.isWellFormed, w.takesId]
      · intro id' hid
        cases hid
        exact hp id (by simp [SubjectPhrase.terminals])
  | alone w =>
      have hother := w.property
      cases hword : SubjectKind.ofWord? w.val with
      | none =>
          simp only [SubjectPhrase.subject, hword]
          refine ⟨rfl, fun id hid => ?_⟩
          cases hid
          exact hp w.val (by simp [SubjectPhrase.terminals])
      | some kind =>
          have hid : kind.requiresId = false := by simpa [namesKind, hword] using hother
          simp only [SubjectPhrase.subject, hword]
          refine ⟨by simp [Subject.isWellFormed, Subject.simple, hid], fun id h => ?_⟩
          cases h

/-- The name of a subject is a plain identifier, also where it is the word for its kind. -/
theorem isPlainIdentifier_name {s : Subject} (hs : s.IsWritable) :
    isPlainIdentifier s.name = true := by
  unfold Subject.name
  cases hid : s.id with
  | none => exact s.kind.isPlainIdentifier_word
  | some id => exact hs.id id hid

/-- Fields whose names can stand in a text. -/
structure Fields.IsWritable (fields : Fields) : Prop where
  attr : ∀ name, fields.attr = some name → isPlainIdentifier name = true
  property : ∀ name, fields.property = some name → IsPropertyName name

/-- A field that was read can be written, with those before it. -/
theorem isWritable_addTo {fields : Fields} {f : FieldPhrase} (hfields : fields.IsWritable)
    (hf : ∀ name, Terminal.name name ∈ f.terminals → isPlainIdentifier name = true) :
    (f.addTo fields).IsWritable := by
  rcases f with ⟨dot, name⟩ | _ | _ | _ | name
  · refine ⟨fun name' h => ?_, hfields.property⟩
    cases h
    exact hf name (by simp [FieldPhrase.terminals, FieldPhrase.afterDot])
  · refine ⟨hfields.attr, fun name h => ?_⟩
    cases h
    exact .inr (.inl rfl)
  · refine ⟨hfields.attr, fun name h => ?_⟩
    cases h
    exact .inr (.inr (.inl rfl))
  · refine ⟨hfields.attr, fun name h => ?_⟩
    cases h
    exact .inr (.inr (.inr rfl))
  · refine ⟨hfields.attr, fun name' h => ?_⟩
    cases h
    exact .inl (hf name (by simp [FieldPhrase.terminals, FieldPhrase.afterDot]))

/-- A row of fields that was read can be written. -/
theorem isWritable_fieldsOf {fs : List FieldPhrase}
    (hfs : ∀ name, Terminal.name name ∈ fs.flatMap FieldPhrase.terminals →
      isPlainIdentifier name = true) :
    (fieldsOf fs).IsWritable := by
  -- the fields are collected from the left, so the statement is about any that came before
  have hfold : ∀ fields : Fields, fields.IsWritable →
      (fs.foldl FieldPhrase.addTo fields).IsWritable := by
    induction fs with
    | nil => exact fun fields hfields => hfields
    | cons f fs ih =>
        intro fields hfields
        refine ih (fun name hname => hfs name ?_) _ (isWritable_addTo hfields fun name hname =>
          hfs name ?_)
        · rw [List.flatMap_cons]
          exact List.mem_append_right _ hname
        · rw [List.flatMap_cons]
          exact List.mem_append_left _ hname
  refine hfold _ ⟨fun name h => ?_, fun name h => ?_⟩
  · cases h
  · cases h

/-- A phrase whose names are plain identifiers has a leaf that can be written. -/
theorem isWritable_leaf {p : Phrase}
    (hp : ∀ name, Terminal.name name ∈ p.terminals → isPlainIdentifier name = true) :
    p.leaf.IsWritable := by
  have hsubject : p.subject.subject.IsWritable := isWritable_of_subjectPhrase
    fun name hname => hp name (List.mem_append_left _ hname)
  have hpredicate : ∀ name, Terminal.name name ∈ p.predicate → isPlainIdentifier name = true :=
    fun name hname => hp name (List.mem_append_right _ hname)
  cases p with
  | has subject other =>
      have hother : other.subject.IsWritable := isWritable_of_subjectPhrase
        fun name hname => hpredicate name (List.mem_cons_of_mem _ hname)
      refine ⟨hsubject, fun name h => ?_, fun name h => ?_, fun id h => ?_,
        fun _ => ⟨rfl, rfl, _, rfl⟩⟩
      · cases h
      · cases h
      · cases h
        exact isPlainIdentifier_name hother
  | distance origin dot goal n v =>
      have hgoal : goal.subject.IsWritable := isWritable_of_subjectPhrase fun name hname =>
        hpredicate name (by simp [Phrase.predicate, hname])
      exact ⟨hsubject, hgoal, n.property, v.small⟩
  | visits subject dot mark scene n v => exact ⟨hsubject, n.property, v.small⟩
  | compares subject fs n v =>
      have hfields : (fieldsOf fs).IsWritable := isWritable_fieldsOf fun name hname =>
        hpredicate name (List.mem_append_left _ hname)
      refine ⟨hsubject, hfields.attr, hfields.property, fun id h => ?_,
        fun h => absurd h n.property⟩
      -- only a value that is a name gives an operand with an id
      have hvalue : .name id ∈ v.terminals := by
        cases v with
        | named w id' =>
            cases h
            simp [ValuePhrase.terminals]
        | bare w =>
            cases h
            simp [ValuePhrase.terminals]
        | _ => cases h
      exact hpredicate id (List.mem_append_right _ (List.mem_cons_of_mem _ hvalue))
  | isEmpty subject fs =>
      have hfields : (fieldsOf fs).IsWritable := isWritable_fieldsOf fun name hname =>
        hpredicate name (List.mem_append_left _ hname)
      refine ⟨hsubject, hfields.attr, hfields.property, fun id h => ?_, fun h => ?_⟩
      · cases h
      · cases h

/-- Each leaf of a condition that was read comes from a phrase of the text. -/
theorem exists_phrase_of_read {limit : Nat} {source : String} {c : Condition}
    (h : read limit source = .ok c) : ∀ leaf ∈ c.leaves, ∃ p : Phrase,
      p.leaf = leaf.unplaced ∧ ∀ t ∈ p.terminals, t ∈ terminals source.toList := by
  rcases read_iff.mp ⟨c, h, rfl⟩ with ⟨d, hd, hmeaning, -⟩
  have hleaves : Condition.leaves d.meaning = d.phrases.map Phrase.leaf := d.hasLeaves
  intro leaf hleaf
  have hunplaced : leaf.unplaced ∈ d.phrases.map Phrase.leaf := by
    rw [← hleaves, hmeaning, leaves_unplaced]
    exact List.mem_map_of_mem hleaf
  rcases List.mem_map.mp hunplaced with ⟨p, hp, hpleaf⟩
  refine ⟨p, hpleaf, fun t ht => ?_⟩
  rw [← hd]
  exact List.mem_append_left _ (Derivation.mem_terminals hp ht)

/-- A condition that was read can be written. -/
theorem isWritable_of_read {limit : Nat} {source : String} {c : Condition}
    (h : read limit source = .ok c) : c.IsWritable := by
  refine isWritable_iff_leaves.mpr fun leaf hleaf => isWritable_of_unplaced ?_
  rcases exists_phrase_of_read h leaf hleaf with ⟨p, hpleaf, hterminals⟩
  -- every name of a phrase stands in the text
  rw [← hpleaf]
  exact isWritable_leaf fun name hname => isPlainIdentifier_of_mem_terminals (hterminals _ hname)

end Condition

/-! ## Cutting at what joins phrases -/

/-- Whether a terminal stands between phrases. -/
def Terminal.joins : Terminal → Bool
  | .kind (.keyword .and) | .kind (.keyword .or) | .kind (.keyword .not) => true
  | .kind .openParen | .kind .closeParen => true
  | _ => false

/-- The pieces between the terminals that join phrases. -/
def pieces (ts : List Terminal) : List (List Terminal) :=
  (ts.splitOnP Terminal.joins).filter fun piece => !piece.isEmpty

/-- Whether nothing among some terminals joins phrases. -/
def Solid (ts : List Terminal) : Prop :=
  ∀ t ∈ ts, t.joins = false

/-- Where there is nothing, nothing joins phrases. -/
@[simp] theorem solid_nil : Solid [] := by
  intro t ht
  cases ht

/-- A row of terminals is solid if the first joins nothing and the others are solid. -/
@[simp] theorem solid_cons {t : Terminal} {ts : List Terminal} :
    Solid (t :: ts) ↔ t.joins = false ∧ Solid ts :=
  List.forall_mem_cons

/-- Two rows are solid together if each is. -/
@[simp] theorem solid_append {ts us : List Terminal} :
    Solid (ts ++ us) ↔ Solid ts ∧ Solid us :=
  List.forall_mem_append

theorem pieces_nil : pieces [] = [] :=
  rfl

/-- What joins phrases cuts a row into pieces. -/
theorem pieces_append_cons {ts us : List Terminal} {t : Terminal} (ht : t.joins = true) :
    pieces (ts ++ t :: us) = pieces ts ++ pieces us := by
  rw [pieces, List.splitOnP_append_cons ts us ht, List.filter_append]
  rfl

/-- What joins phrases cuts nothing off in front of a row. -/
theorem pieces_cons {ts : List Terminal} {t : Terminal} (ht : t.joins = true) :
    pieces (t :: ts) = pieces ts := by
  rw [← List.nil_append (t :: ts), pieces_append_cons ht, pieces_nil, List.nil_append]

/-- A row in which nothing joins phrases is one piece. -/
theorem pieces_solid {ts : List Terminal} (h : Solid ts) (hne : ts ≠ []) :
    pieces ts = [ts] := by
  have hsome : ts.isEmpty = false := by simp [hne]
  rw [pieces, List.splitOnP_eq_singleton h]
  simp [hsome]

/-- Parentheses around a row leave its pieces as they are. -/
theorem pieces_grouped (needed : Bool) (ts : List Terminal) :
    pieces (Condition.grouped needed ts) = pieces ts := by
  cases needed with
  | false => rfl
  | true =>
      have hopen : (Terminal.kind .openParen).joins = true := by decide
      have hclose : (Terminal.kind .closeParen).joins = true := by decide
      simp only [Condition.grouped, if_true]
      rw [pieces_cons hopen, pieces_append_cons hclose, pieces_nil, List.append_nil]

/-- No comparison joins phrases. -/
theorem joins_comparisonKeyword (c : Comparison) :
    (Terminal.word (comparisonKeyword c)).joins = false := by
  cases c <;> rfl

/-- Nothing in a phrase for a subject joins phrases. -/
theorem solid_subjectPhrase (p : SubjectPhrase) : Solid p.terminals := by
  cases p <;> simp [SubjectPhrase.terminals, Terminal.joins]

theorem solid_optionalDot (dot : Bool) : Solid (optionalDot dot) := by
  cases dot <;> simp [optionalDot, Terminal.joins]

/-- Nothing in a row of fields joins phrases. -/
theorem solid_fieldPhrases (fs : List FieldPhrase) :
    Solid (fs.flatMap FieldPhrase.terminals) := by
  induction fs with
  | nil => exact solid_nil
  | cons f fs ih =>
      rw [List.flatMap_cons, solid_append]
      refine ⟨?_, ih⟩
      rcases f with ⟨dot, name⟩ | _ | _ | _ | name
      · simp [FieldPhrase.terminals, FieldPhrase.afterDot, Terminal.joins, solid_optionalDot]
      all_goals simp [FieldPhrase.terminals, FieldPhrase.afterDot, Terminal.joins]

/-- Nothing in a phrase for an operand joins phrases. -/
theorem solid_valuePhrase (v : ValuePhrase) : Solid v.terminals := by
  cases v with
  | bool b => cases b <;> simp [ValuePhrase.terminals, Terminal.joins]
  | _ => simp [ValuePhrase.terminals, Terminal.joins]

/-- Nothing in a phrase joins phrases. -/
theorem solid_phrase (p : Phrase) : Solid p.terminals := by
  rw [Phrase.terminals, solid_append]
  refine ⟨solid_subjectPhrase p.subject, ?_⟩
  cases p with
  | has subject other => simp [Phrase.predicate, Terminal.joins, solid_subjectPhrase]
  | distance origin dot goal n v =>
      simp only [Phrase.predicate, Phrase.tailTerminals, solid_append, solid_cons, solid_nil,
        joins_comparisonKeyword, solid_optionalDot, solid_subjectPhrase]
      simp [Terminal.joins]
  | visits subject dot mark scene n v =>
      have hmark : Solid (Phrase.markTerminals mark) := by
        cases mark <;> simp [Phrase.markTerminals, Terminal.joins]
      have hscene : Solid scene.terminals := by
        cases scene <;> simp [ScenePhrase.terminals, Terminal.joins]
      simp only [Phrase.predicate, Phrase.tailTerminals, solid_append, solid_cons, solid_nil,
        joins_comparisonKeyword, solid_optionalDot, hmark, hscene]
      simp [Terminal.joins]
  | compares subject fs n v =>
      simp [Phrase.predicate, solid_fieldPhrases, joins_comparisonKeyword, solid_valuePhrase]
  | isEmpty subject fs =>
      simp [Phrase.predicate, solid_fieldPhrases, joins_comparisonKeyword]

/-- No phrase is empty. -/
theorem phrase_ne_nil (p : Phrase) : p.terminals ≠ [] := by
  rcases p.exists_name with ⟨w, ts, h⟩
  simp [h]

/-- What follows an operand of `or` is nothing or begins with `or`. -/
theorem Grammar.Derivation.orRest_starts (rest : Derivation .orRest) :
    rest.terminals = [] ∨ ∃ ts, rest.terminals = .word .or :: ts := by
  cases rest with
  | orEnd => exact .inl rfl
  | orMore next rest => exact .inr ⟨_, rfl⟩

/-- What follows an operand of `and` is nothing or begins with `and`. -/
theorem Grammar.Derivation.andRest_starts (rest : Derivation .andRest) :
    rest.terminals = [] ∨ ∃ ts, rest.terminals = .word .and :: ts := by
  cases rest with
  | andEnd => exact .inl rfl
  | andMore next rest => exact .inr ⟨_, rfl⟩

/-- What begins with a join, or is empty, is cut off as a whole. -/
theorem pieces_append {ts us : List Terminal} {t : Terminal} (ht : t.joins = true)
    (hus : us = [] ∨ ∃ vs, us = t :: vs) : pieces (ts ++ us) = pieces ts ++ pieces us := by
  rcases hus with rfl | ⟨vs, rfl⟩
  · rw [pieces_nil, List.append_nil, List.append_nil]
  · rw [pieces_append_cons ht, pieces_cons ht]

/-- The pieces of a derived sentence are its phrases. -/
theorem Grammar.Derivation.pieces_terminals {n : Nonterminal} (d : Derivation n) :
    pieces d.terminals = d.phrases.map Phrase.terminals := by
  have hor : (Terminal.word .or).joins = true := by decide
  have hand : (Terminal.word .and).joins = true := by decide
  have hnot : (Terminal.word .not).joins = true := by decide
  have hopen : (Terminal.kind .openParen).joins = true := by decide
  have hclose : (Terminal.kind .closeParen).joins = true := by decide
  induction d with
  | or first rest ihf ihr =>
      rw [terminals, pieces_append hor rest.orRest_starts, ihf, ihr, phrases, List.map_append]
  | orEnd => rfl
  | orMore next rest ihn ihr =>
      rw [terminals, pieces_cons hor, pieces_append hor rest.orRest_starts, ihn, ihr, phrases,
        List.map_append]
  | and first rest ihf ihr =>
      rw [terminals, pieces_append hand rest.andRest_starts, ihf, ihr, phrases, List.map_append]
  | andEnd => rfl
  | andMore next rest ihn ihr =>
      rw [terminals, pieces_cons hand, pieces_append hand rest.andRest_starts, ihn, ihr,
        phrases, List.map_append]
  | not inner ih => rw [terminals, pieces_cons hnot, ih, phrases]
  | group inner ih =>
      rw [terminals, pieces_cons hopen, pieces_append_cons hclose, pieces_nil,
        List.append_nil, ih, phrases]
  | phrase p => exact pieces_solid (solid_phrase p) (phrase_ne_nil p)

/-! ## Pieces of written text -/

/-- No word for a comparison joins phrases. -/
theorem joins_wordTerminal_word (c : Comparison) : (wordTerminal c.word).joins = false := by
  by_cases hc : c = .has
  · rw [hc, Comparison.wordTerminal_has]
    rfl
  · rw [Comparison.wordTerminal_word hc, joins_comparisonKeyword]

/-- Nothing in a subject that is written joins phrases. -/
theorem solid_subject (s : Subject) : Solid s.written := by
  unfold Subject.written
  cases s.id <;> simp [Terminal.joins]

/-- Nothing in a comparison with a whole number joins phrases. -/
theorem solid_tail (c : Comparison) (value : Int) : Solid (writtenTail c value) := by
  have hnumber : (Terminal.kind (.number (wholeNumber value))).joins = false := rfl
  simp [writtenTail, joins_wordTerminal_word, hnumber]

theorem IsPropertyName.joins_wordTerminal {name : String} (h : IsPropertyName name) :
    (wordTerminal name).joins = false := by
  rcases h with h | rfl | rfl | rfl
  · rw [(isPlainIdentifier_iff.mp h).2]
    rfl
  · decide
  · decide
  · decide

theorem joins_writtenScene (scene : String) : (writtenScene scene).joins = false := by
  unfold writtenScene
  split <;> rfl

/-- Nothing in an operand that is written joins phrases. -/
theorem solid_operand (c : Comparison) (x : Operand) : Solid (x.written c) := by
  cases x with
  | element id => simp [Operand.written, Terminal.joins]
  | bool b => cases b <;> simp [Operand.written, Terminal.joins]
  | number n =>
      rcases n with negative | negative | ⟨negative, rank⟩
      · simp [Operand.written, Number.written, Terminal.joins]
      · cases negative <;> simp [Operand.written, Number.written, Terminal.joins]
      · simp [Operand.written, Number.written, Terminal.joins]
  | text s =>
      unfold Operand.written
      dsimp only
      split <;> simp [Terminal.joins]

/-- Nothing in a relation that is written joins phrases. -/
theorem solid_relation {r : Relation} (hr : r.IsWritable) : Solid r.written := by
  have hfields : Solid r.writtenFields := by
    unfold Relation.writtenFields
    cases hproperty : r.property with
    | none => cases r.attr <;> simp [Terminal.joins]
    | some name =>
        have hname := (hr.property name hproperty).joins_wordTerminal
        cases r.attr <;> simp [hname] <;> simp [Terminal.joins]
  simp [Relation.written, solid_subject, hfields, joins_wordTerminal_word, solid_operand]

namespace Condition

/-- The pieces of what is written for a condition are its written leaves. -/
theorem pieces_written {c : Condition} (hc : c.IsWritable) (place : Binding) :
    pieces (c.written place) = c.leaves.map (written .unary) := by
  have hor : (Terminal.word .or).joins = true := rfl
  have hand : (Terminal.word .and).joins = true := rfl
  have hnot : (Terminal.word .not).joins = true := rfl
  induction c generalizing place with
  | or l r span ihl ihr =>
      rw [written, pieces_grouped, pieces_append_cons hor, ihl hc.1, ihr hc.2, leaves,
        List.map_append]
  | and l r span ihl ihr =>
      rw [written, pieces_grouped, pieces_append_cons hand, ihl hc.1, ihr hc.2, leaves,
        List.map_append]
  | not c span ih => rw [written, pieces_cons hnot, ih hc, leaves]
  | relation r =>
      have hne : r.written ≠ [] := by simp [Relation.written]
      exact pieces_solid (solid_relation hc) hne
  | visits v =>
      have hsolid : Solid v.written := by
        have hvisits : (Terminal.word .visits).joins = false := rfl
        simp [VisitCount.written, solid_subject, solid_tail, joins_writtenScene, hvisits]
      have hne : v.written ≠ [] := by simp [VisitCount.written]
      exact pieces_solid hsolid hne
  | distance d =>
      have hsolid : Solid d.written := by
        simp [Distance.written, solid_subject, solid_tail, Terminal.joins]
      have hne : d.written ≠ [] := by simp [Distance.written]
      exact pieces_solid hsolid hne

/-! ## Text that is read back is faithful -/

/-- A subject that stands as one name, and is called by it, is of a kind that takes no id and has
that name for its word, if the name is the word for any kind. -/
theorem requiresId_of_name {p : SubjectPhrase} {id : String}
    (hterminals : p.terminals = [.name id]) (hname : p.subject.name = id) {kind : SubjectKind}
    (hkind : SubjectKind.ofWord? id = some kind) :
    kind.requiresId = false ∧ kind.word = id := by
  cases p with
  | named w id' => simp [SubjectPhrase.terminals] at hterminals
  | alone w =>
      simp only [SubjectPhrase.terminals, List.cons.injEq, and_true, Terminal.kind.injEq,
        Token.Kind.identifier.injEq] at hterminals
      have hother := w.property
      rw [hterminals, namesKind, hkind] at hother
      simp only [SubjectPhrase.subject, hterminals, hkind, Subject.name, Subject.simple,
        Option.getD_none] at hname
      exact ⟨hother, hname⟩

/-- Only what is finite is written as a number. -/
theorem isFinite_of_getLast? {n : Number} {ts : List Terminal}
    (h : (ts ++ n.written).getLast? = some (.kind (.number n))) : n.isFinite = true := by
  cases n with
  | nan negative => simp [Number.written] at h
  | infinite negative => cases negative <;> simp [Number.written] at h
  | finite negative rank => rfl

/-- A phrase for a relation with `has` names both its subjects. -/
theorem exists_has_of_leaf {p : Phrase} {r : Relation} (hleaf : p.leaf = (relation r).unplaced)
    (hhas : r.comparison = .has) : ∃ subject other, p = .has subject other ∧
      subject.subject = r.subject ∧ r.operand = .element other.subject.name := by
  cases p with
  | has subject other =>
      simp only [Phrase.leaf, unplaced, relation.injEq, Relation.mk.injEq] at hleaf
      exact ⟨subject, other, rfl, hleaf.1, hleaf.2.2.1.symm⟩
  | compares subject fs n v =>
      simp only [Phrase.leaf, unplaced, relation.injEq, Relation.mk.injEq] at hleaf
      exact absurd (hleaf.2.1.trans hhas) n.property
  | isEmpty subject fs =>
      simp only [Phrase.leaf, unplaced, relation.injEq, Relation.mk.injEq, hhas] at hleaf
      cases hleaf.2.1
  | _ => cases hleaf

/-- A phrase for a relation with a number compares with that number. -/
theorem exists_compares_of_leaf {p : Phrase} {r : Relation} {n : Number}
    (hleaf : p.leaf = (relation r).unplaced) (hn : r.operand = .number n) :
    ∃ subject fs c, p = .compares subject fs c (.number n) := by
  cases p with
  | compares subject fs c v =>
      simp only [Phrase.leaf, unplaced, relation.injEq, Relation.mk.injEq, hn] at hleaf
      cases v with
      | number m =>
          cases hleaf.2.2.1
          exact ⟨subject, fs, c, rfl⟩
      | _ => cases hleaf.2.2.1
  | _ => simp [Phrase.leaf, unplaced, hn] at hleaf

/-- Where the leaf of a phrase is written as that phrase, its text says what it does. -/
theorem isFaithful_of_phrase {r : Relation} (hr : r.IsWritable) {p : Phrase}
    (hleaf : p.leaf = (relation r).unplaced) (hterminals : p.terminals = r.written) :
    r.IsFaithful := by
  constructor
  · intro hhas id kind hid hkind
    rcases hr.has hhas with ⟨hattr, hproperty, -⟩
    rcases exists_has_of_leaf hleaf hhas with ⟨subject, other, rfl, -, hname⟩
    rcases Subject.exists_phrase hr.subject with ⟨q, -, hq⟩
    have hwritten : r.written = q.terminals ++ [.has, .name id] := by
      simp [Relation.written, Relation.writtenFields, Operand.written, hattr, hproperty, hhas, hid,
        Comparison.wordTerminal_has, hq]
    -- the subject takes the same terminals on both sides, so one name is left for the other one
    rw [hwritten] at hterminals
    have hother : other.terminals = [.name id] :=
      (List.cons.inj (SubjectPhrase.eq_of_append hterminals).2).2
    rw [hid, Operand.element.injEq] at hname
    exact requiresId_of_name hother hname.symm hkind
  · intro n hn
    rcases exists_compares_of_leaf hleaf hn with ⟨subject, fs, c, rfl⟩
    -- the number is the last terminal of the phrase, and of what is written only if it is finite
    have hlast : r.written.getLast? = some (.kind (.number n)) := by
      rw [← hterminals]
      simp [Phrase.terminals, Phrase.predicate, ValuePhrase.terminals]
    rw [Relation.written, hn, Operand.written, List.append_cons] at hlast
    exact isFinite_of_getLast? hlast

/-- Two rows that agree after two readings agree at each place. -/
theorem exists_of_map_eq {α β γ δ : Type} {f : α → γ} {f' : α → δ} {g : β → γ} {g' : β → δ}
    {xs : List α} {ys : List β} (h : xs.map f = ys.map g) (h' : xs.map f' = ys.map g') :
    ∀ y ∈ ys, ∃ x, f x = g y ∧ f' x = g' y := by
  induction xs generalizing ys with
  | nil =>
      cases ys with
      | nil => simp
      | cons y ys => simp at h
  | cons x xs ih =>
      cases ys with
      | nil => simp at h
      | cons y ys =>
          rw [List.map_cons, List.map_cons, List.cons.injEq] at h h'
          intro z hz
          rcases List.mem_cons.mp hz with rfl | hz
          · exact ⟨x, h.1, h'.1⟩
          · exact ih h.2 h'.2 z hz

/-- If the written text of a condition is derived and means it, the text says what it does. -/
theorem isFaithful_of_derivation {c : Condition} (hc : c.IsWritable) {d : Derivation .or}
    (hterminals : d.terminals = c.written .any) (hmeaning : d.meaning = c.unplaced) :
    c.IsFaithful := by
  -- the same terminals cut in two ways, and the same condition taken apart in two ways
  have hpieces : d.phrases.map Phrase.terminals = c.leaves.map (written .unary) := by
    rw [← d.pieces_terminals, hterminals, pieces_written hc]
  have hleaves : d.phrases.map Phrase.leaf = c.leaves.map unplaced := by
    have hd : Condition.leaves d.meaning = d.phrases.map Phrase.leaf := d.hasLeaves
    rw [← hd, hmeaning, leaves_unplaced]
  have hsame := exists_of_map_eq hleaves hpieces
  rw [isFaithful_iff_leaves]
  intro leaf hleaf
  have hwritable := isWritable_iff_leaves.mp hc leaf hleaf
  -- so each leaf is written as a phrase that has it
  rcases hsame leaf hleaf with ⟨p, hp, hpterminals⟩
  cases leaf with
  | relation r => exact isFaithful_of_phrase hwritable hp hpterminals
  | visits v => trivial
  | distance d => trivial
  | _ => cases p <;> cases hp

/-- The text of a condition that was read is read as the same condition under the same limit exactly
when it says what the condition does and stands within the limit. -/
theorem read_text_of_read_iff {limit : Nat} {source : String} {c : Condition}
    (h : read limit source = .ok c) :
    (∃ c', read limit c.text = .ok c' ∧ c'.unplaced = c.unplaced) ↔
      c.IsFaithful ∧ c.nestingAt .any ≤ limit := by
  have hw := isWritable_of_read h
  constructor
  · intro hread
    have hf : c.IsFaithful := by
      rcases read_iff.mp hread with ⟨d, hterminals, hmeaning, -⟩
      rw [terminals_text hw] at hterminals
      exact isFaithful_of_derivation hw (List.append_cancel_right hterminals) hmeaning
    exact ⟨hf, (read_text_iff_nesting hw hf).mp hread⟩
  · rintro ⟨hf, hlimit⟩
    exact (read_text_iff_nesting hw hf).mpr hlimit

/-- A negation at the limit. -/
theorem read_text_of_read_negation :
    read 1 "not a is x" = .ok
      (.not (.relation ⟨.item "a", .is, .element "x", none, none, ⟨4, 10, 1, 5⟩⟩) ⟨0, 10, 1, 1⟩) ∧
    ∃ c', read 1 (text (.not (.relation
        ⟨.item "a", .is, .element "x", none, none, ⟨4, 10, 1, 5⟩⟩) ⟨0, 10, 1, 1⟩)) = .ok c' ∧
      c'.unplaced =
        .not (.relation ⟨.item "a", .is, .element "x", none, none, .atStart⟩) .atStart := by
  have hread : read 1 "not a is x" = .ok
      (.not (.relation ⟨.item "a", .is, .element "x", none, none, ⟨4, 10, 1, 5⟩⟩)
        ⟨0, 10, 1, 1⟩) := by decide +kernel
  have hfaithful : IsFaithful (.not (.relation
      ⟨.item "a", .is, .element "x", none, none, ⟨4, 10, 1, 5⟩⟩) ⟨0, 10, 1, 1⟩) := by
    constructor
    · intro h
      cases h
    · intro n h
      cases h
  exact ⟨hread, (read_text_of_read_iff hread).mpr ⟨hfaithful, by decide⟩⟩

/-- Not every condition that was read is read again from its text. After `has item` the word for a
kind is an id, and by itself it is not. -/
theorem not_read_text_of_read :
    ¬ ∀ limit source c, read limit source = .ok c →
      ∃ c', read limit c.text = .ok c' ∧ c'.unplaced = c.unplaced := by
  intro h
  have hread : read 64 "player has item item" = .ok (.relation
      ⟨.simple .player, .has, .element "item", none, none, ⟨0, 20, 1, 1⟩⟩) := by decide +kernel
  rcases h _ _ _ hread with ⟨c', hc', -⟩
  have htext : text (.relation
      ⟨.simple .player, .has, .element "item", none, none, ⟨0, 20, 1, 1⟩⟩) = "player has item" := by
    decide
  rw [htext, read_eq_ok_iff] at hc'
  have herror : (readAll 64 (.ofText "player has item".toList)).isOk = false := by decide +kernel
  rw [hc'] at herror
  cases herror

end Condition

end GameCondition
