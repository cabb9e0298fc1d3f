import GameCondition.Proofs.Condition.Grammar
import GameCondition.Proofs.Token.Scanning

/-! # What is written

The terminals of the text of a condition (`Condition.terminals_textAt`), for every condition in
which names are plain identifiers (`Condition.IsWritable`). Each piece of the text is scanned by
itself, because a blank, a parenthesis or the end follows it.
-/

namespace GameCondition

/-! ## Conditions that can be written -/

/-- Whether a subject has an id exactly when its kind requires one, and a plain one. -/
structure Subject.IsWritable (s : Subject) : Prop where
  wellFormed : s.isWellFormed = true
  id : ∀ id, s.id = some id → isPlainIdentifier id = true

/-- Whether a name may stand after a point: an identifier, or one of three reserved words. -/
def IsPropertyName (name : String) : Prop :=
  isPlainIdentifier name = true ∨ name = "state" ∨ name = "flag" ∨ name = "inventory"

/-- Whether all names of a relation are ones that a text can have in their place. Nothing stands
between a subject and `has`, and a name stands after it. -/
structure Relation.IsWritable (r : Relation) : Prop where
  subject : r.subject.IsWritable
  attr : ∀ name, r.attr = some name → isPlainIdentifier name = true
  property : ∀ name, r.property = some name → IsPropertyName name
  operand : ∀ id, r.operand = .element id → isPlainIdentifier id = true
  has : r.comparison = .has → r.attr = none ∧ r.property = none ∧ ∃ id, r.operand = .element id

/-- Whether a count has a plain subject and compares with a small number. -/
structure VisitCount.IsWritable (v : VisitCount) : Prop where
  subject : v.subject.IsWritable
  comparison : v.comparison.appliesToNumbers = true
  value : v.value.natAbs < Condition.integerLimit

/-- Whether a distance has plain subjects and compares with a small number. -/
structure Distance.IsWritable (d : Distance) : Prop where
  origin : d.origin.IsWritable
  goal : d.goal.IsWritable
  comparison : d.comparison.appliesToNumbers = true
  value : d.value.natAbs < Condition.integerLimit

/-- Whether all leaves of a condition can be written. -/
def Condition.IsWritable : Condition → Prop
  | and l r _ => l.IsWritable ∧ r.IsWritable
  | or l r _ => l.IsWritable ∧ r.IsWritable
  | not c _ => c.IsWritable
  | relation r => r.IsWritable
  | visits v => v.IsWritable
  | distance d => d.IsWritable

/-! ## Terminals of pieces -/

/-- What ends every piece of a text. -/
def isSolid (c : Char) : Bool :=
  c != ' ' && c != ')'

/-- Whether a text is empty or goes on with a blank or a closing parenthesis. -/
abbrev Delimited (cs : List Char) : Prop :=
  StopsAt isSolid cs

/-- What takes neither a blank nor a closing parenthesis stops at the end of a piece. -/
theorem Delimited.stopsAt {p : Char → Bool} {cs : List Char} (h : Delimited cs)
    (hblank : p ' ' = false) (hclose : p ')' = false) : StopsAt p cs := by
  intro c ds hcs
  have hend := h c ds hcs
  by_cases hspace : c = ' '
  · rw [hspace, hblank]
  · have hparen : c = ')' := by simpa [isSolid, hspace] using hend
    rw [hparen, hclose]

/-- What ends a word or a number ends a word. -/
theorem Delimited.word {cs : List Char} (h : Delimited cs) : StopsAt isIdentifierChar cs :=
  h.stopsAt (by decide) (by decide)

/-- What ends a word or a number ends a number. -/
theorem Delimited.number {cs : List Char} (h : Delimited cs) : StopsAt isNumberChar cs :=
  h.stopsAt (by decide) (by decide)

theorem delimited_nil : Delimited [] :=
  stopsAt_nil _

theorem delimited_blank (cs : List Char) : Delimited (' ' :: cs) :=
  stopsAt_cons cs rfl

/-- A word ends where a blank follows. -/
theorem stopsAt_blank (cs : List Char) : StopsAt isIdentifierChar (' ' :: cs) :=
  (delimited_blank cs).word

theorem delimited_closeParen (cs : List Char) : Delimited (')' :: cs) :=
  stopsAt_cons cs rfl

/-- A reserved word between blanks. -/
theorem terminals_between {w : String} {k : Keyword} (cs : List Char)
    (hw : (w, k) ∈ Keyword.spellings) (hhas : w ≠ "has") :
    terminals (' ' :: (w.toList ++ ' ' :: cs)) = .word k :: terminals cs := by
  rw [terminals_blank, terminals_reserved hw hhas (stopsAt_blank cs), terminals_blank]

namespace SubjectKind

/-- There are no more kinds of subjects than those that are listed. -/
theorem mem_all (k : SubjectKind) : k ∈ all := by
  cases k <;> decide

/-- The word for a kind is a plain identifier, and stands for the kind. -/
theorem word_spec : ∀ k ∈ all, isPlainIdentifier k.word = true ∧ ofWord? k.word = some k := by
  decide

/-- The word for a kind is written without quotes. -/
theorem isPlainIdentifier_word (k : SubjectKind) : isPlainIdentifier k.word = true :=
  (word_spec k k.mem_all).1

/-- The word for a kind is read as that kind. -/
theorem ofWord?_word (k : SubjectKind) : ofWord? k.word = some k :=
  (word_spec k k.mem_all).2

end SubjectKind

namespace Subject

/-- The terminals of a subject. -/
def written (s : Subject) : List Terminal :=
  match s.id with
  | some id => [.name s.kind.word, .name id]
  | none => [.name s.kind.word]

/-- A subject is written as the terminals that stand for it. -/
theorem terminals_toString {s : Subject} {cs : List Char} (hs : s.IsWritable)
    (hcs : StopsAt isIdentifierChar cs) :
    terminals (s.toString.toList ++ cs) = s.written ++ terminals cs := by
  have hword := s.kind.isPlainIdentifier_word
  unfold Subject.toString written
  cases hid : s.id with
  | none => exact terminals_identifier hword hcs
  | some id =>
      have hsplit : (s.kind.word ++ " " ++ id).toList ++ cs =
          s.kind.word.toList ++ ' ' :: (id.toList ++ cs) := by simp
      rw [hsplit, terminals_identifier hword (stopsAt_blank _), terminals_blank,
        terminals_identifier (hs.id id hid) hcs]
      rfl

end Subject

namespace Comparison

/-- The word of a comparison spells its keyword. -/
theorem mem_spellings (c : Comparison) :
    (c.word, Grammar.comparisonKeyword c) ∈ Keyword.spellings := by
  cases c <;> decide

/-- The word of a comparison is an identifier, though a keyword. -/
theorem isWord_word (c : Comparison) : isWord c.word = true :=
  (spellings_terminal _ c.mem_spellings).1

theorem wordTerminal_has : wordTerminal has.word = .has :=
  (spellings_terminal _ has.mem_spellings).2

/-- The word of a comparison is scanned as its keyword. -/
theorem wordTerminal_word {c : Comparison} (hc : c ≠ .has) :
    wordTerminal c.word = .word (Grammar.comparisonKeyword c) := by
  have hne : c.word ≠ "has" := by
    cases c with
    | has => exact absurd rfl hc
    | _ => decide
  rw [(spellings_terminal _ c.mem_spellings).2, if_neg hne]

end Comparison

/-- The terminals of a number. What is not finite is written as words. -/
def Number.written : Number → List Terminal
  | .finite negative rank => [.kind (.number (.finite negative rank))]
  | .infinite false => [.name "inf"]
  | .infinite true => [.kind (.unknown (.unexpectedChar '-')), .name "inf"]
  | .nan _ => [.name "NaN"]

/-- A number is written as the terminals that stand for it. -/
theorem Number.terminals_text (n : Number) {cs : List Char} (hcs : Delimited cs) :
    terminals (n.text ++ cs) = n.written ++ terminals cs := by
  have hinf : isPlainIdentifier "inf" = true := by decide
  have hnan : isPlainIdentifier "NaN" = true := by decide
  have hminus : ∀ cs : List Char,
      terminals ('-' :: ("inf".toList ++ cs)) =
        .kind (.unknown (.unexpectedChar '-')) :: terminals ("inf".toList ++ cs) := by
    intro cs
    exact terminals_cons rfl
  rcases n with negative | negative | ⟨negative, rank⟩
  · exact terminals_identifier hnan hcs.word
  · cases negative with
    | false => exact terminals_identifier hinf hcs.word
    | true =>
        rw [written, List.cons_append, List.cons_append, List.nil_append,
          ← terminals_identifier hinf hcs.word, ← hminus cs]
        rfl
  · exact terminals_number rfl hcs.number

/-! ## Terminals of leaves -/

/-- The terminals of an operand. -/
def Operand.written (comparison : Comparison) : Operand → List Terminal
  | element id => [.name id]
  | bool b => [.word (if b then .true else .false)]
  | number n => n.written
  | text s => if s.isEmpty && comparison == .isEmpty then [] else [.kind (.string s)]

namespace Relation

/-- The terminals of the fields of a relation. -/
def writtenFields (r : Relation) : List Terminal :=
  (match r.attr with
    | some name => [.kind .dot, .word .attr, .name name]
    | none => []) ++
  (match r.property with
    | some name => [.kind .dot, wordTerminal name]
    | none => [])

/-- The terminals of a relation. -/
def written (r : Relation) : List Terminal :=
  r.subject.written ++ r.writtenFields ++
    wordTerminal r.comparison.word :: r.operand.written r.comparison

end Relation

/-- The terminals of a comparison with a whole number. -/
def writtenTail (comparison : Comparison) (value : Int) : List Terminal :=
  [wordTerminal comparison.word, .kind (.number (wholeNumber value))]

/-- The terminal of the name of a scene. -/
def writtenScene (scene : String) : Terminal :=
  if isPlainIdentifier scene then .name scene else .kind (.string scene)

/-- The terminals of a count. -/
def VisitCount.written (v : VisitCount) : List Terminal :=
  v.subject.written ++ .word .visits :: writtenScene v.scene :: writtenTail v.comparison v.value

/-- The terminals of a distance. -/
def Distance.written (d : Distance) : List Terminal :=
  d.origin.written ++ .word .distanceFrom :: (d.goal.written ++ writtenTail d.comparison d.value)

/-- The name of a field is an identifier, though perhaps a keyword. -/
theorem IsPropertyName.isWord {name : String} (h : IsPropertyName name) : isWord name = true := by
  rcases h with h | rfl | rfl | rfl
  · exact (isPlainIdentifier_iff.mp h).1
  · exact (spellings_terminal ("state", .state) (by decide)).1
  · exact (spellings_terminal ("flag", .flag) (by decide)).1
  · exact (spellings_terminal ("inventory", .inventory) (by decide)).1

namespace Condition

/-- Fields are written as the terminals that stand for them. -/
theorem terminals_fieldsText {r : Relation} (hr : r.IsWritable) (cs : List Char) :
    terminals (fieldsText r ++ ' ' :: cs) = r.writtenFields ++ terminals cs := by
  have hproperty : ∀ name, r.property = some name →
      terminals ('.' :: (name.toList ++ ' ' :: cs)) =
        .kind .dot :: wordTerminal name :: terminals cs := by
    intro name hname
    rw [terminals_dot, terminals_word (hr.property name hname).isWord (stopsAt_blank _),
      terminals_blank]
  have hattr : ∀ name rest, r.attr = some name → StopsAt isIdentifierChar rest →
      terminals (".attribute ".toList ++ (name.toList ++ rest)) =
        .kind .dot :: .word .attr :: .name name :: terminals rest := by
    intro name rest hname hrest
    have hsplit : ".attribute ".toList ++ (name.toList ++ rest) =
        '.' :: ("attribute".toList ++ ' ' :: (name.toList ++ rest)) := rfl
    have hword : ("attribute", Keyword.attr) ∈ Keyword.spellings := by decide
    rw [hsplit, terminals_dot, terminals_reserved hword (by decide) (stopsAt_blank _),
      terminals_blank, terminals_identifier (hr.attr name hname) hrest]
  -- either field may be absent, and each brings its own dot
  unfold fieldsText Relation.writtenFields
  cases ha : r.attr with
  | none =>
      cases hp : r.property with
      | none => simp
      | some name => simpa using hproperty name hp
  | some attr =>
      cases hp : r.property with
      | none => simpa using hattr attr _ ha (stopsAt_blank cs)
      | some name =>
          have hdot : StopsAt isIdentifierChar ('.' :: (name.toList ++ ' ' :: cs)) :=
            stopsAt_cons _ rfl
          have h := hattr attr _ ha hdot
          rw [hproperty name hp] at h
          simpa using h

/-- An operand, with the blank in front of it, ends the word before it. -/
theorem delimited_operandText (c : Comparison) (x : Operand) {cs : List Char}
    (hcs : Delimited cs) : Delimited (operandText c x ++ cs) := by
  cases x with
  | text s =>
      by_cases hempty : (s.isEmpty && c == .isEmpty) = true
      · simp only [operandText, if_pos hempty]
        exact hcs
      · simp only [operandText, if_neg hempty]
        exact delimited_blank _
  | _ => exact delimited_blank _

/-- An operand is written as the terminals that stand for it. -/
theorem terminals_operandText (c : Comparison) {x : Operand} {cs : List Char}
    (hx : ∀ id, x = .element id → isPlainIdentifier id = true) (hcs : Delimited cs) :
    terminals (operandText c x ++ cs) = x.written c ++ terminals cs := by
  cases x with
  | element id =>
      have h := terminals_identifier (hx id rfl) hcs.word
      simpa [operandText, Operand.value, Operand.written] using h
  | bool b =>
      have htrue : ("true", Keyword.true) ∈ Keyword.spellings := by decide
      have hfalse : ("false", Keyword.false) ∈ Keyword.spellings := by decide
      cases b with
      | true =>
          exact (terminals_blank _).trans (terminals_reserved htrue (by decide) hcs.word)
      | false =>
          exact (terminals_blank _).trans (terminals_reserved hfalse (by decide) hcs.word)
  | number n =>
      have h := n.terminals_text hcs
      simpa [operandText, Operand.value, Operand.written, toString] using h
  | text s =>
      by_cases hempty : (s.isEmpty && c == .isEmpty) = true
      · simp only [operandText, Operand.written, if_pos hempty, List.nil_append]
      · have h := terminals_quoteText s.toList cs
        rw [String.ofList_toList] at h
        simp only [operandText, Operand.written, if_neg hempty]
        exact (terminals_blank _).trans h

/-- A relation is written as the terminals that stand for it. -/
theorem terminals_relationText {r : Relation} (hr : r.IsWritable) {cs : List Char}
    (hcs : Delimited cs) : terminals (relationText r ++ cs) = r.written ++ terminals cs := by
  unfold relationText Relation.written
  split
  · next hhas =>
    rcases hr.has hhas with ⟨hattr, hproperty, id, hid⟩
    have hplain := hr.operand id hid
    have hword := Comparison.wordTerminal_has
    have hsplit : r.subject.toString.toList ++ " has ".toList ++ r.operand.value.toList ++ cs =
        r.subject.toString.toList ++ ' ' :: (Comparison.has.word.toList ++
          ' ' :: (id.toList ++ cs)) := by
      rw [hid, List.append_assoc, List.append_assoc]
      rfl
    have hfields : r.writtenFields = [] := by
      rw [Relation.writtenFields, hattr, hproperty]
      rfl
    rw [hsplit, Subject.terminals_toString hr.subject (stopsAt_blank _), terminals_blank,
      terminals_word (Comparison.isWord_word _) (stopsAt_blank _), terminals_blank,
      terminals_identifier hplain hcs.word, hfields, hhas, hid]
    simp [Operand.written]
  -- a point or a blank follows the subject
  · have hfields : ∀ ds : List Char,
        StopsAt isIdentifierChar (fieldsText r ++ ' ' :: ds) := by
      intro ds
      unfold fieldsText
      cases r.attr with
      | some name => exact stopsAt_cons _ rfl
      | none =>
          cases r.property with
          | some name => exact stopsAt_cons _ rfl
          | none => exact stopsAt_cons _ rfl
    have hsplit : ∀ a b c d : List Char, a ++ b ++ ' ' :: (c ++ d) ++ cs =
        a ++ (b ++ ' ' :: (c ++ (d ++ cs))) := by
      intro a b c d
      simp
    rw [hsplit, Subject.terminals_toString hr.subject (hfields _), terminals_fieldsText hr,
      terminals_word (Comparison.isWord_word _) (delimited_operandText _ _ hcs).word,
      terminals_operandText _ hr.operand hcs]
    simp

/-- A comparison with a whole number is written as the terminals that stand for it. -/
theorem terminals_tailText (c : Comparison) (value : Int) {cs : List Char} (hcs : Delimited cs) :
    terminals (tailText c value ++ cs) = writtenTail c value ++ terminals cs := by
  unfold tailText
  rw [List.cons_append, terminals_blank, List.append_assoc, List.cons_append,
    terminals_word (Comparison.isWord_word c) (stopsAt_blank _), terminals_blank,
    terminals_integerText value hcs.number]
  rfl

/-- The name of a scene is written as the terminal that stands for it. -/
theorem terminals_nameText (scene : String) {cs : List Char}
    (hcs : StopsAt isIdentifierChar cs) :
    terminals (nameText scene ++ cs) = writtenScene scene :: terminals cs := by
  unfold nameText writtenScene
  split
  · next hplain => exact terminals_identifier hplain hcs
  · rw [terminals_quoteText, String.ofList_toList]

/-- A count is written as the terminals that stand for it. -/
theorem terminals_visitsText {v : VisitCount} (hv : v.IsWritable) {cs : List Char}
    (hcs : Delimited cs) : terminals (visitsText v ++ cs) = v.written ++ terminals cs := by
  have hword : ("visits", Keyword.visits) ∈ Keyword.spellings := by decide
  have hsplit : visitsText v ++ cs = v.subject.toString.toList ++ ' ' :: ("visits".toList ++
      ' ' :: (nameText v.scene ++ (tailText v.comparison v.value ++ cs))) := by
    simp [visitsText]
  have htail : StopsAt isIdentifierChar (tailText v.comparison v.value ++ cs) := stopsAt_blank _
  rw [hsplit, Subject.terminals_toString hv.subject (stopsAt_blank _),
    terminals_between _ hword (by decide), terminals_nameText _ htail,
    terminals_tailText _ _ hcs]
  simp [VisitCount.written]

/-- A distance is written as the terminals that stand for it. -/
theorem terminals_distanceText {d : Distance} (hd : d.IsWritable) {cs : List Char}
    (hcs : Delimited cs) : terminals (distanceText d ++ cs) = d.written ++ terminals cs := by
  have hword : ("distance_from", Keyword.distanceFrom) ∈ Keyword.spellings := by decide
  have hsplit : distanceText d ++ cs = d.origin.toString.toList ++ ' ' ::
      ("distance_from".toList ++ ' ' :: (d.goal.toString.toList ++
        (tailText d.comparison d.value ++ cs))) := by
    simp [distanceText]
  have htail : StopsAt isIdentifierChar (tailText d.comparison d.value ++ cs) := stopsAt_blank _
  rw [hsplit, Subject.terminals_toString hd.origin (stopsAt_blank _),
    terminals_between _ hword (by decide), Subject.terminals_toString hd.goal htail,
    terminals_tailText _ _ hcs]
  simp [Distance.written]

/-! ## Terminals of conditions -/

/-- Terminals in parentheses if they are needed. -/
def grouped (needed : Bool) (ts : List Terminal) : List Terminal :=
  if needed then .kind .openParen :: (ts ++ [.kind .closeParen]) else ts

/-- The terminals of a condition at a place that demands the given binding. -/
def written (place : Binding) : Condition → List Terminal
  | or l r _ => grouped (place != .any) (l.written .any ++ .word .or :: r.written .andChain)
  | and l r _ => grouped (place == .unary) (l.written .andChain ++ .word .and :: r.written .unary)
  | not c _ => .word .not :: c.written .unary
  | relation r => r.written
  | visits v => v.written
  | distance d => d.written

/-- Parentheses are scanned around what stands in them. -/
theorem terminals_parenthesized {needed : Bool} {text : List Char} {ts : List Terminal}
    (h : ∀ cs, Delimited cs → terminals (text ++ cs) = ts ++ terminals cs) {cs : List Char}
    (hcs : Delimited cs) :
    terminals (parenthesized needed text ++ cs) = grouped needed ts ++ terminals cs := by
  cases needed with
  | false => exact h cs hcs
  | true =>
      -- inside the parentheses the closing one follows
      have hclose := h (')' :: cs) (delimited_closeParen cs)
      simp only [parenthesized, grouped, if_true, List.cons_append, List.append_assoc,
        List.nil_append, terminals_openParen, hclose, terminals_closeParen]

/-- The text of a condition that can be written has the terminals that are written. -/
theorem terminals_textAt {c : Condition} (hc : c.IsWritable) (place : Binding) {cs : List Char}
    (hcs : Delimited cs) : terminals (c.textAt place ++ cs) = c.written place ++ terminals cs := by
  have hor : ("or", Keyword.or) ∈ Keyword.spellings := by decide
  have hand : ("and", Keyword.and) ∈ Keyword.spellings := by decide
  have hnot : ("not", Keyword.not) ∈ Keyword.spellings := by decide
  -- a blank or a parenthesis follows every part, so each is scanned as if it stood alone
  induction c generalizing place cs with
  | or l r span ihl ihr =>
      refine terminals_parenthesized (fun ds hds => ?_) hcs
      have hsplit : l.textAt .any ++ " or ".toList ++ r.textAt .andChain ++ ds =
          l.textAt .any ++ ' ' :: ("or".toList ++ ' ' :: (r.textAt .andChain ++ ds)) := by simp
      rw [hsplit, ihl hc.1 .any (delimited_blank _), terminals_between _ hor (by decide),
        ihr hc.2 .andChain hds]
      simp
  | and l r span ihl ihr =>
      refine terminals_parenthesized (fun ds hds => ?_) hcs
      have hsplit : l.textAt .andChain ++ " and ".toList ++ r.textAt .unary ++ ds =
          l.textAt .andChain ++ ' ' :: ("and".toList ++ ' ' :: (r.textAt .unary ++ ds)) := by simp
      rw [hsplit, ihl hc.1 .andChain (delimited_blank _), terminals_between _ hand (by decide),
        ihr hc.2 .unary hds]
      simp
  | not c span ih =>
      have hsplit : "not ".toList ++ c.textAt .unary ++ cs =
          "not".toList ++ ' ' :: (c.textAt .unary ++ cs) := by simp
      rw [textAt, hsplit, terminals_reserved hnot (by decide) (stopsAt_blank _),
        terminals_blank, ih hc .unary hcs]
      rfl
  | relation r => exact terminals_relationText hc hcs
  | visits v => exact terminals_visitsText hc hcs
  | distance d => exact terminals_distanceText hc hcs

/-- The terminals of a printed condition. -/
theorem terminals_text {c : Condition} (hc : c.IsWritable) :
    terminals c.text.toList = c.written .any ++ [.last] := by
  have h := terminals_textAt hc .any delimited_nil
  rw [List.append_nil, terminals_nil] at h
  rw [text, String.toList_ofList, h]

end Condition

end GameCondition
