import GameCondition.Condition.Reading
import GameCondition.Proofs.Token.Terminals

/-! # The grammar of conditions

The grammar of strict text, apart from any reader. A derivation is a tree of its rules: the
terminals at its leaves are the sentence that it derives (`Derivation.terminals`), and its meaning
is a condition (`Derivation.meaning`), in which chains associate to the left.

    Or       := And OrRest
    OrRest   := nothing | "or" And OrRest
    And      := Unary AndRest
    AndRest  := nothing | "and" Unary AndRest
    Unary    := "not" Unary | "(" Or ")" | Phrase
    Phrase   := Subject "has" Subject
              | Subject ["."] "distance_from" Subject Numeric Integer
              | Subject ["."] "visits" ["scene"] Scene Numeric Integer
              | Subject Field* Comparison Value
              | Subject Field* "is_empty"
    Field    := "." ("attribute" ["."] Name | "state" | "flag" | "inventory" | Name)
    Subject  := ("item" | "npc" | "scene" | "exit") Name | any other Name
    Value    := "true" | "false" | Number | String | ("item" | "npc" | "scene" | "exit") Name | Name

`Derivation.nesting` counts how deep the rules of a derivation stand: each negation, each
parenthesis and each further operand of a chain is one level deeper, and so is all that follows it
in its chain.

No sentence has two derivations (`Derivation.terminals_injective`).
-/

namespace GameCondition.Grammar

/-! ## Phrases -/

/-- A word for a kind of named element, in any case. -/
structure KindWord where
  word : String
  kind : SubjectKind
  spells : SubjectKind.ofWord? word = some kind
  takesId : kind.requiresId = true

/-- Any other word. -/
abbrev OtherWord := { word : String // Condition.namesKind word = false }

/-- A subject. -/
inductive SubjectPhrase where
  | named (word : KindWord) (id : String)
  | alone (word : OtherWord)

namespace SubjectPhrase

def terminals : SubjectPhrase → List Terminal
  | named w id => [.name w.word, .name id]
  | alone w => [.name w.val]

/-- What a subject refers to. A word that is no kind is the id of an item. -/
def subject : SubjectPhrase → Subject
  | named w id => ⟨w.kind, some id⟩
  | alone w =>
    match SubjectKind.ofWord? w.val with
    | some kind => .simple kind
    | none => .item w.val

end SubjectPhrase

/-- The reserved word for a comparison. -/
def comparisonKeyword : Comparison → Keyword
  | .has => .isIn
  | .is => .is
  | .isNot => .isNot
  | .lessThan => .isLessThan
  | .greaterThan => .isGreaterThan
  | .equalTo => .isEqualTo
  | .notEqualTo => .isNotEqualTo
  | .isIn => .isIn
  | .isEmpty => .isEmpty

/-- A comparison of a subject or its field. -/
abbrev FieldComparison := { c : Comparison // c ≠ .has }

/-- A comparison of numbers. -/
abbrev NumericComparison := { c : Comparison // c.appliesToNumbers = true }

/-- A numeral that is a whole number of magnitude below 9 * 10 ^ 15. -/
structure IntegerNumeral where
  number : Number
  value : Int
  whole : number.toInt? = some value
  small : value.natAbs < 9 * 10 ^ 15

/-- The name of a scene, bare or in quotes. -/
inductive ScenePhrase where
  | bare (name : String)
  | quoted (name : String)

namespace ScenePhrase

def terminals : ScenePhrase → List Terminal
  | bare name => [.name name]
  | quoted name => [.kind (.string name)]

def scene : ScenePhrase → String
  | bare name => name
  | quoted name => name

end ScenePhrase

/-- The word `scene`, in any case, in front of the name of a scene. -/
abbrev SceneWord := { word : String // sameAscii word "scene" = true }

/-- A field after its point. -/
inductive FieldPhrase where
  | attr (dot : Bool) (name : String)
  | state
  | flag
  | inventory
  | named (name : String)

/-- A point that may be left out. -/
def optionalDot (dot : Bool) : List Terminal :=
  if dot then [.kind .dot] else []

namespace FieldPhrase

/-- What stands after the point. -/
def afterDot : FieldPhrase → List Terminal
  | attr dot name => .word .attr :: (optionalDot dot ++ [.name name])
  | state => [.word .state]
  | flag => [.word .flag]
  | inventory => [.word .inventory]
  | named name => [.name name]

def terminals (f : FieldPhrase) : List Terminal :=
  .kind .dot :: f.afterDot

/-- What a field adds to those before it. -/
def addTo (fields : Condition.Fields) : FieldPhrase → Condition.Fields
  | attr _ name => { fields with attr := some name }
  | state => { fields with property := some "state" }
  | flag => { fields with property := some "flag" }
  | inventory => { fields with property := some "inventory" }
  | named name => { fields with property := some name }

end FieldPhrase

/-- The fields that a row of them names. -/
def fieldsOf (fields : List FieldPhrase) : Condition.Fields :=
  fields.foldl FieldPhrase.addTo ⟨none, none⟩

/-- An operand. -/
inductive ValuePhrase where
  | bool (value : Bool)
  | number (value : Number)
  | text (value : String)
  | named (word : KindWord) (id : String)
  | bare (word : String)

namespace ValuePhrase

def terminals : ValuePhrase → List Terminal
  | bool b => [.word (if b then .true else .false)]
  | number n => [.kind (.number n)]
  | text s => [.kind (.string s)]
  | named w id => [.name w.word, .name id]
  | bare w => [.name w]

def operand : ValuePhrase → Operand
  | bool b => .bool b
  | number n => .number n
  | text s => .text s
  | named _ id => .element id
  | bare w => .element w

end ValuePhrase

/-- A relation, a count or a distance. -/
inductive Phrase where
  | has (subject other : SubjectPhrase)
  | distance (origin : SubjectPhrase) (dot : Bool) (goal : SubjectPhrase)
      (comparison : NumericComparison) (value : IntegerNumeral)
  | visits (subject : SubjectPhrase) (dot : Bool) (mark : Option SceneWord) (scene : ScenePhrase)
      (comparison : NumericComparison) (value : IntegerNumeral)
  | compares (subject : SubjectPhrase) (fields : List FieldPhrase) (comparison : FieldComparison)
      (value : ValuePhrase)
  | isEmpty (subject : SubjectPhrase) (fields : List FieldPhrase)

namespace Phrase

/-- The comparison with a whole number that ends a count or a distance. -/
def tailTerminals (comparison : NumericComparison) (value : IntegerNumeral) : List Terminal :=
  [.word (comparisonKeyword comparison.val), .kind (.number value.number)]

/-- The word `scene`, if it is there. -/
def markTerminals : Option SceneWord → List Terminal
  | some w => [.name w.val]
  | none => []

/-- What a phrase is about. -/
def subject : Phrase → SubjectPhrase
  | has s _ | distance s _ _ _ _ | visits s _ _ _ _ _ | compares s _ _ _ | isEmpty s _ => s

/-- What follows the subject of a phrase. -/
def predicate : Phrase → List Terminal
  | has _ other => .has :: other.terminals
  | distance _ dot goal comparison value =>
    optionalDot dot ++ .word .distanceFrom :: (goal.terminals ++ tailTerminals comparison value)
  | visits _ dot mark scene comparison value =>
    optionalDot dot ++ .word .visits ::
      (markTerminals mark ++ scene.terminals ++ tailTerminals comparison value)
  | compares _ fields comparison value =>
    fields.flatMap FieldPhrase.terminals ++
      .word (comparisonKeyword comparison.val) :: value.terminals
  | isEmpty _ fields =>
    fields.flatMap FieldPhrase.terminals ++ [.word (comparisonKeyword .isEmpty)]

def terminals (p : Phrase) : List Terminal :=
  p.subject.terminals ++ p.predicate

/-- The leaf that a phrase stands for, without a place. Nothing after `is_empty` is the empty
text. -/
def leaf : Phrase → Condition
  | has subject other =>
    .relation ⟨subject.subject, .has, .element other.subject.name, none, none, .atStart⟩
  | distance origin _ goal comparison value =>
    .distance ⟨origin.subject, goal.subject, comparison.val, value.value, .atStart⟩
  | visits subject _ _ scene comparison value =>
    .visits ⟨subject.subject, scene.scene, comparison.val, value.value, .atStart⟩
  | compares subject fields comparison value =>
    .relation ⟨subject.subject, comparison.val, value.operand, (fieldsOf fields).attr,
      (fieldsOf fields).property, .atStart⟩
  | isEmpty subject fields =>
    .relation ⟨subject.subject, .isEmpty, .text "", (fieldsOf fields).attr,
      (fieldsOf fields).property, .atStart⟩

end Phrase

/-! ## Derivations -/

/-- The nonterminals above phrases. -/
inductive Nonterminal where
  | or
  | orRest
  | and
  | andRest
  | unary
  deriving DecidableEq, Repr

/-- What a nonterminal stands for: a condition, or for the rest of a chain what it makes of the
condition before it. -/
abbrev Nonterminal.Meaning : Nonterminal → Type
  | or => Condition
  | orRest => Condition → Condition
  | and => Condition
  | andRest => Condition → Condition
  | unary => Condition

/-- The derivations of a nonterminal. -/
inductive Derivation : Nonterminal → Type where
  | or (first : Derivation .and) (rest : Derivation .orRest) : Derivation .or
  | orEnd : Derivation .orRest
  | orMore (next : Derivation .and) (rest : Derivation .orRest) : Derivation .orRest
  | and (first : Derivation .unary) (rest : Derivation .andRest) : Derivation .and
  | andEnd : Derivation .andRest
  | andMore (next : Derivation .unary) (rest : Derivation .andRest) : Derivation .andRest
  | not (inner : Derivation .unary) : Derivation .unary
  | group (inner : Derivation .or) : Derivation .unary
  | phrase (phrase : Phrase) : Derivation .unary

namespace Derivation

/-- The sentence that is derived. -/
def terminals : {n : Nonterminal} → Derivation n → List Terminal
  | _, or first rest => first.terminals ++ rest.terminals
  | _, orEnd => []
  | _, orMore next rest => .word .or :: (next.terminals ++ rest.terminals)
  | _, and first rest => first.terminals ++ rest.terminals
  | _, andEnd => []
  | _, andMore next rest => .word .and :: (next.terminals ++ rest.terminals)
  | _, not inner => .word .not :: inner.terminals
  | _, group inner => .kind .openParen :: (inner.terminals ++ [.kind .closeParen])
  | _, phrase p => p.terminals

/-- The condition that is denoted, without places. -/
def meaning : {n : Nonterminal} → Derivation n → n.Meaning
  | _, or first rest => rest.meaning first.meaning
  | _, orEnd => fun left => left
  | _, orMore next rest => fun left => rest.meaning (.or left next.meaning .atStart)
  | _, and first rest => rest.meaning first.meaning
  | _, andEnd => fun left => left
  | _, andMore next rest => fun left => rest.meaning (.and left next.meaning .atStart)
  | _, not inner => .not inner.meaning .atStart
  | _, group inner => inner.meaning
  | _, phrase p => p.leaf

/-- How deep the rules stand. -/
def nesting : {n : Nonterminal} → Derivation n → Nat
  | _, or first rest => max first.nesting rest.nesting
  | _, orEnd => 0
  | _, orMore next rest => 1 + max next.nesting rest.nesting
  | _, and first rest => max first.nesting rest.nesting
  | _, andEnd => 0
  | _, andMore next rest => 1 + max next.nesting rest.nesting
  | _, not inner => 1 + inner.nesting
  | _, group inner => 1 + inner.nesting
  | _, phrase _ => 0

/-- A derivation is no deeper than its sentence is long. -/
theorem nesting_le_length {n : Nonterminal} (d : Derivation n) :
    d.nesting ≤ d.terminals.length := by
  induction d with
  | or first rest ihf ihr => simp only [nesting, terminals, List.length_append]; omega
  | orEnd => simp [nesting]
  | orMore next rest ihn ihr =>
      simp only [nesting, terminals, List.length_cons, List.length_append]
      omega
  | and first rest ihf ihr => simp only [nesting, terminals, List.length_append]; omega
  | andEnd => simp [nesting]
  | andMore next rest ihn ihr =>
      simp only [nesting, terminals, List.length_cons, List.length_append]
      omega
  | not inner ih => simp only [nesting, terminals, List.length_cons]; omega
  | group inner ih => simp only [nesting, terminals, List.length_cons, List.length_append]; omega
  | phrase p => simp [nesting]

end Derivation

/-! ## One derivation for a sentence -/

/-- What may follow a nonterminal. -/
def Nonterminal.follow : Nonterminal → Terminal → Bool
  | .unary, t => t = .word .and ∨ t = .word .or ∨ t = .kind .closeParen ∨ t = .last
  | .and, t | .andRest, t => t = .word .or ∨ t = .kind .closeParen ∨ t = .last
  | .or, t | .orRest, t => t = .kind .closeParen ∨ t = .last

/-- Whether a text goes on with what may follow a nonterminal. -/
def Follows (n : Nonterminal) (ts : List Terminal) : Prop :=
  ∃ t us, ts = t :: us ∧ n.follow t = true

/-- A word names one kind. -/
theorem KindWord.eq_of_word {w w' : KindWord} (h : w.word = w'.word) : w = w' := by
  rcases w with ⟨word, kind, spells, takesId⟩
  rcases w' with ⟨word', kind', spells', takesId'⟩
  have hword : word = word' := h
  subst hword
  have hkind : kind = kind' := Option.some.inj (spells.symm.trans spells')
  subst hkind
  rfl

/-- The word of a kind is reserved for it. -/
theorem KindWord.namesKind (w : KindWord) : Condition.namesKind w.word = true := by
  rw [Condition.namesKind, w.spells]
  exact w.takesId

/-- The terminals tell where a subject phrase ends, and which it is. -/
theorem SubjectPhrase.eq_of_append {p p' : SubjectPhrase} {ts ts' : List Terminal}
    (h : p.terminals ++ ts = p'.terminals ++ ts') : p = p' ∧ ts = ts' := by
  cases p with
  | named w id =>
      cases p' with
      | named w' id' =>
          simp only [terminals, List.cons_append, List.nil_append, List.cons.injEq,
            Terminal.kind.injEq, Token.Kind.identifier.injEq] at h
          rcases h with ⟨hw, hid, hts⟩
          exact ⟨by rw [KindWord.eq_of_word hw, hid], hts⟩
      | alone w' =>
          simp only [terminals, List.cons_append, List.nil_append, List.cons.injEq,
            Terminal.kind.injEq, Token.Kind.identifier.injEq] at h
          -- a kind's word is never a name of its own
          have := w.namesKind
          rw [h.1, w'.property] at this
          cases this
  | alone w =>
      cases p' with
      | named w' id' =>
          simp only [terminals, List.cons_append, List.nil_append, List.cons.injEq,
            Terminal.kind.injEq, Token.Kind.identifier.injEq] at h
          have := w'.namesKind
          rw [← h.1, w.property] at this
          cases this
      | alone w' =>
          simp only [terminals, List.cons_append, List.nil_append, List.cons.injEq,
            Terminal.kind.injEq, Token.Kind.identifier.injEq] at h
          exact ⟨by rw [Subtype.ext h.1], h.2⟩

/-- The terminals tell where a field phrase ends, and which it is. -/
theorem FieldPhrase.eq_of_append {f f' : FieldPhrase} {ts ts' : List Terminal}
    (h : f.terminals ++ ts = f'.terminals ++ ts') : f = f' ∧ ts = ts' := by
  cases f with
  | attr dot name =>
      cases f' with
      | attr dot' name' =>
          cases dot <;> cases dot' <;>
            simp_all [terminals, afterDot, optionalDot]
      | _ => simp [terminals, afterDot] at h
  | _ => cases f' <;> simp_all [terminals, afterDot]

/-- A row of fields ends where no point follows. -/
theorem fields_eq_of_append {fs fs' : List FieldPhrase} {k k' : Keyword} {ts ts' : List Terminal}
    (h : fs.flatMap FieldPhrase.terminals ++ .word k :: ts =
      fs'.flatMap FieldPhrase.terminals ++ .word k' :: ts') : fs = fs' ∧ k = k' ∧ ts = ts' := by
  have hhead : ∀ (f : FieldPhrase) (us vs : List Terminal) (k : Keyword),
      f.terminals ++ us ≠ .word k :: vs := by
    intro f us vs k
    simp [FieldPhrase.terminals]
  -- a field begins with a point and the word after the row does not
  induction fs generalizing fs' with
  | nil =>
      cases fs' with
      | nil => simpa using h
      | cons f' fs' =>
          rw [List.flatMap_nil, List.nil_append, List.flatMap_cons, List.append_assoc] at h
          exact absurd h.symm (hhead _ _ _ _)
  | cons f fs ih =>
      cases fs' with
      | nil =>
          rw [List.flatMap_nil, List.nil_append, List.flatMap_cons, List.append_assoc] at h
          exact absurd h (hhead _ _ _ _)
      | cons f' fs' =>
          rw [List.flatMap_cons, List.flatMap_cons, List.append_assoc, List.append_assoc] at h
          rcases FieldPhrase.eq_of_append h with ⟨hf, hrest⟩
          rcases ih hrest with ⟨hfs, hk, hts⟩
          exact ⟨by rw [hf, hfs], hk, hts⟩

/-- An integer numeral is determined by its number. -/
theorem IntegerNumeral.eq_of_number {i i' : IntegerNumeral} (h : i.number = i'.number) :
    i = i' := by
  rcases i with ⟨number, value, whole, small⟩
  rcases i' with ⟨number', value', whole', small'⟩
  have hnumber : number = number' := h
  subst hnumber
  have hvalue : value = value' := Option.some.inj (whole.symm.trans whole')
  subst hvalue
  rfl

/-- Two comparisons other than `has` have different keywords. -/
theorem comparisonKeyword_injective {c c' : Comparison} (hc : c ≠ .has) (hc' : c' ≠ .has)
    (h : comparisonKeyword c = comparisonKeyword c') : c = c' := by
  cases c <;> cases c' <;> simp_all [comparisonKeyword]

/-- Numbers are not compared by `has`. -/
theorem ne_has_of_appliesToNumbers {c : Comparison} (h : c.appliesToNumbers = true) : c ≠ .has := by
  rintro rfl
  cases h

/-- The terminals tell where the comparison with an integer ends, and which it is. -/
theorem tailTerminals_eq_of_append {c c' : NumericComparison} {i i' : IntegerNumeral}
    {ts ts' : List Terminal}
    (h : Phrase.tailTerminals c i ++ ts = Phrase.tailTerminals c' i' ++ ts') :
    c = c' ∧ i = i' ∧ ts = ts' := by
  simp only [Phrase.tailTerminals, List.cons_append, List.nil_append, List.cons.injEq,
    Terminal.kind.injEq, Token.Kind.keyword.injEq, Token.Kind.number.injEq] at h
  rcases h with ⟨hc, hi, hts⟩
  have hword := comparisonKeyword_injective (ne_has_of_appliesToNumbers c.property)
    (ne_has_of_appliesToNumbers c'.property) hc
  exact ⟨Subtype.ext hword, IntegerNumeral.eq_of_number hi, hts⟩

/-- The word `scene` in front of a scene is told from a scene of that name by the word that
follows. -/
theorem scene_eq_of_append {m m' : Option SceneWord} {p p' : ScenePhrase} {k k' : Keyword}
    {ts ts' : List Terminal}
    (h : Phrase.markTerminals m ++ (p.terminals ++ .word k :: ts) =
      Phrase.markTerminals m' ++ (p'.terminals ++ .word k' :: ts')) :
    m = m' ∧ p = p' ∧ .word k :: ts = .word k' :: ts' := by
  -- a mark against none would make the name of the scene the word that follows it
  cases m <;> cases m' <;> cases p <;> cases p' <;>
    simp_all [Phrase.markTerminals, ScenePhrase.terminals, Subtype.ext_iff]

/-- Nothing that an operand could begin with follows a phrase. -/
theorem Follows.ne_value {ts us : List Terminal} (h : Follows .unary ts) (v : ValuePhrase) :
    ts ≠ v.terminals ++ us := by
  rintro rfl
  rcases h with ⟨t, us, heq, ht⟩
  cases v with
  | bool b =>
      simp only [ValuePhrase.terminals, List.cons_append, List.cons.injEq] at heq
      rw [← heq.1] at ht
      cases b <;> simp [Nonterminal.follow] at ht
  | _ =>
      simp only [ValuePhrase.terminals, List.cons_append, List.cons.injEq] at heq
      rw [← heq.1] at ht
      simp [Nonterminal.follow] at ht

/-- The terminals tell where a value phrase ends, if they go on as behind a phrase. -/
theorem ValuePhrase.eq_of_append {v v' : ValuePhrase} {ts ts' : List Terminal}
    (hts : Follows .unary ts) (hts' : Follows .unary ts')
    (h : v.terminals ++ ts = v'.terminals ++ ts') : v = v' ∧ ts = ts' := by
  cases v with
  | bool b =>
      cases v' with
      | bool b' => cases b <;> cases b' <;> simp_all [terminals]
      | _ => simp [terminals] at h
  | number n => cases v' <;> simp_all [terminals]
  | text s => cases v' <;> simp_all [terminals]
  | named w id =>
      cases v' with
      | named w' id' =>
          simp only [terminals, List.cons_append, List.nil_append, List.cons.injEq,
            Terminal.kind.injEq, Token.Kind.identifier.injEq] at h
          rcases h with ⟨hw, hid, hrest⟩
          exact ⟨by rw [KindWord.eq_of_word hw, hid], hrest⟩
      | bare w' =>
          simp only [terminals, List.cons_append, List.nil_append, List.cons.injEq] at h
          -- a value does not follow a bare one, so the second name is the first one's id
          exact absurd h.2.symm (hts'.ne_value (.bare id))
      | _ => simp [terminals] at h
  | bare w =>
      cases v' with
      | named w' id' =>
          simp only [terminals, List.cons_append, List.nil_append, List.cons.injEq] at h
          exact absurd h.2 (hts.ne_value (.bare id'))
      | bare w' => simp_all [terminals]
      | _ => simp [terminals] at h

/-- The forms that a predicate has. -/
inductive Form where
  | has
  | distance
  | visits
  | property
  deriving DecidableEq, Repr

namespace Phrase

def form : Phrase → Form
  | has .. => .has
  | distance .. => .distance
  | visits .. => .visits
  | compares .. => .property
  | isEmpty .. => .property

/-- The form of a predicate by how it begins. -/
def formOf : List Terminal → Form
  | .has :: _ => .has
  | .kind (.keyword .distanceFrom) :: _ => .distance
  | .kind .dot :: .kind (.keyword .distanceFrom) :: _ => .distance
  | .kind (.keyword .visits) :: _ => .visits
  | .kind .dot :: .kind (.keyword .visits) :: _ => .visits
  | _ => .property

/-- Fields before a comparison give the form of a property. -/
theorem formOf_fields (fields : List FieldPhrase) (c : Comparison) (ts : List Terminal) :
    formOf (fields.flatMap FieldPhrase.terminals ++ .word (comparisonKeyword c) :: ts) =
      .property := by
  cases fields with
  | nil => cases c <;> rfl
  | cons f fields => cases f <;> rfl

/-- However a predicate goes on, its form shows. -/
theorem formOf_predicate (p : Phrase) (ts : List Terminal) :
    formOf (p.predicate ++ ts) = p.form := by
  cases p with
  | has subject other => rfl
  | distance origin dot goal comparison value => cases dot <;> rfl
  | visits subject dot mark scene comparison value => cases dot <;> rfl
  | compares subject fields comparison value =>
      rw [predicate, List.append_assoc, List.cons_append]
      exact formOf_fields _ _ _
  | isEmpty subject fields =>
      rw [predicate, List.append_assoc, List.cons_append]
      exact formOf_fields _ _ _

end Phrase

/-- A keyword tells whether a dot was before it. -/
theorem optionalDot_eq_of_append {dot dot' : Bool} {k : Keyword} {ts ts' : List Terminal}
    (h : optionalDot dot ++ .word k :: ts = optionalDot dot' ++ .word k :: ts') :
    dot = dot' ∧ ts = ts' := by
  cases dot <;> cases dot' <;> simp_all [optionalDot]

/-- A phrase ends where something follows that no phrase goes on with. -/
theorem Phrase.eq_of_append {p p' : Phrase} {ts ts' : List Terminal} (hts : Follows .unary ts)
    (hts' : Follows .unary ts') (h : p.terminals ++ ts = p'.terminals ++ ts') :
    p = p' ∧ ts = ts' := by
  rw [terminals, terminals, List.append_assoc, List.append_assoc] at h
  rcases SubjectPhrase.eq_of_append h with ⟨hsubject, hpredicate⟩
  have hform := congrArg formOf hpredicate
  rw [formOf_predicate, formOf_predicate] at hform
  -- only phrases of one form are left; the two ways to write a property differ in the operand
  cases p with
  | has subject other =>
      cases p' with
      | has subject' other' =>
          rcases SubjectPhrase.eq_of_append (List.cons.inj hpredicate).2 with ⟨hother, hrest⟩
          exact ⟨congrArg₂ has hsubject hother, hrest⟩
      | _ => cases hform
  | distance origin dot goal comparison value =>
      cases p' with
      | distance origin' dot' goal' comparison' value' =>
          have horigin : origin = origin' := hsubject
          simp only [predicate, List.append_assoc, List.cons_append] at hpredicate
          rcases optionalDot_eq_of_append hpredicate with ⟨hdot, hgoal⟩
          rcases SubjectPhrase.eq_of_append hgoal with ⟨hgoal, htail⟩
          rcases tailTerminals_eq_of_append htail with ⟨hcomparison, hvalue, hrest⟩
          rw [horigin, hdot, hgoal, hcomparison, hvalue]
          exact ⟨rfl, hrest⟩
      | _ => cases hform
  | visits subject dot mark scene comparison value =>
      cases p' with
      | visits subject' dot' mark' scene' comparison' value' =>
          have hsame : subject = subject' := hsubject
          simp only [predicate, List.append_assoc, List.cons_append] at hpredicate
          rcases optionalDot_eq_of_append hpredicate with ⟨hdot, hscene⟩
          rcases scene_eq_of_append hscene with ⟨hmark, hscene, htail⟩
          rcases tailTerminals_eq_of_append htail with ⟨hcomparison, hvalue, hrest⟩
          rw [hsame, hdot, hmark, hscene, hcomparison, hvalue]
          exact ⟨rfl, hrest⟩
      | _ => cases hform
  | compares subject fields comparison value =>
      cases p' with
      | compares subject' fields' comparison' value' =>
          have hsame : subject = subject' := hsubject
          simp only [predicate, List.append_assoc, List.cons_append] at hpredicate
          rcases fields_eq_of_append hpredicate with ⟨hfields, hword, hvalue⟩
          have hcomparison := comparisonKeyword_injective comparison.property comparison'.property
            hword
          rcases ValuePhrase.eq_of_append hts hts' hvalue with ⟨hvalue, hrest⟩
          rw [hsame, hfields, Subtype.ext hcomparison, hvalue]
          exact ⟨rfl, hrest⟩
      | isEmpty subject' fields' =>
          simp only [predicate, List.append_assoc, List.cons_append, List.nil_append] at hpredicate
          exact absurd (fields_eq_of_append hpredicate).2.2.symm (hts'.ne_value value)
      | _ => cases hform
  | isEmpty subject fields =>
      cases p' with
      | isEmpty subject' fields' =>
          simp only [predicate, List.append_assoc, List.cons_append, List.nil_append] at hpredicate
          rcases fields_eq_of_append hpredicate with ⟨hfields, -, hrest⟩
          exact ⟨congrArg₂ isEmpty hsubject hfields, hrest⟩
      | compares subject' fields' comparison' value' =>
          simp only [predicate, List.append_assoc, List.cons_append, List.nil_append] at hpredicate
          exact absurd (fields_eq_of_append hpredicate).2.2 (hts.ne_value value')
      | _ => cases hform

namespace Nonterminal

/-- What follows an `or` chain may follow its last operand. -/
theorem follow_and_of_or {t : Terminal} (h : Nonterminal.or.follow t = true) :
    Nonterminal.and.follow t = true := by
  simp only [follow, decide_eq_true_eq] at h ⊢
  exact .inr h

/-- What follows an `and` chain may follow its last operand. -/
theorem follow_unary_of_and {t : Terminal} (h : Nonterminal.and.follow t = true) :
    Nonterminal.unary.follow t = true := by
  simp only [follow, decide_eq_true_eq] at h ⊢
  exact .inr h

end Nonterminal

/-- The rest of an `or` chain follows an operand of it. -/
theorem Follows.and_of_orRest {ts : List Terminal} (h : Follows .orRest ts)
    (rest : Derivation .orRest) : Follows .and (rest.terminals ++ ts) := by
  cases rest with
  | orEnd =>
      rcases h with ⟨t, us, rfl, ht⟩
      exact ⟨t, us, rfl, Nonterminal.follow_and_of_or ht⟩
  | orMore next rest => exact ⟨.word .or, _, rfl, rfl⟩

/-- The rest of an `and` chain follows an operand of it. -/
theorem Follows.unary_of_andRest {ts : List Terminal} (h : Follows .andRest ts)
    (rest : Derivation .andRest) : Follows .unary (rest.terminals ++ ts) := by
  cases rest with
  | andEnd =>
      rcases h with ⟨t, us, rfl, ht⟩
      exact ⟨t, us, rfl, Nonterminal.follow_unary_of_and ht⟩
  | andMore next rest => exact ⟨.word .and, _, rfl, rfl⟩

/-- No chain of `or` goes on where the rest of it ends. -/
theorem Follows.ne_or {ts us : List Terminal} (h : Follows .orRest ts) : ts ≠ .word .or :: us := by
  rintro rfl
  rcases h with ⟨t, us, heq, ht⟩
  rw [← (List.cons.inj heq).1] at ht
  cases ht

/-- No chain of `and` goes on where the rest of it ends. -/
theorem Follows.ne_and {ts us : List Terminal} (h : Follows .andRest ts) :
    ts ≠ .word .and :: us := by
  rintro rfl
  rcases h with ⟨t, us, heq, ht⟩
  rw [← (List.cons.inj heq).1] at ht
  cases ht

/-- A closing parenthesis may follow a condition. -/
theorem follows_closeParen (ts : List Terminal) : Follows .or (.kind .closeParen :: ts) :=
  ⟨_, ts, rfl, rfl⟩

/-- A phrase begins with a name. -/
theorem Phrase.exists_name (p : Phrase) : ∃ w ts, p.terminals = .name w :: ts := by
  rw [terminals]
  cases p.subject with
  | named w id => exact ⟨_, _, rfl⟩
  | alone w => exact ⟨_, _, rfl⟩

namespace Derivation

/-- A nonterminal derives a text up to one place only, and in one way. -/
theorem eq_of_append {n : Nonterminal} {d d' : Derivation n} {ts ts' : List Terminal}
    (hts : Follows n ts) (hts' : Follows n ts')
    (h : d.terminals ++ ts = d'.terminals ++ ts') : d = d' ∧ ts = ts' := by
  -- each part is followed by what the rest of the derivation begins with, so the induction
  -- hypotheses apply from left to right
  induction d generalizing ts ts' with
  | or first rest ihf ihr =>
      cases d' with
      | or first' rest' =>
          rw [terminals, terminals, List.append_assoc, List.append_assoc] at h
          rcases ihf (Follows.and_of_orRest hts rest) (Follows.and_of_orRest hts' rest') h with
            ⟨hfirst, hrest⟩
          rcases ihr hts hts' hrest with ⟨hrest, hts⟩
          exact ⟨congrArg₂ or hfirst hrest, hts⟩
  | orEnd =>
      cases d' with
      | orEnd => exact ⟨rfl, h⟩
      | orMore next' rest' => exact absurd h hts.ne_or
  | orMore next rest ihn ihr =>
      cases d' with
      | orEnd => exact absurd h.symm hts'.ne_or
      | orMore next' rest' =>
          rw [terminals, terminals, List.cons_append, List.cons_append, List.cons.injEq,
            List.append_assoc, List.append_assoc] at h
          rcases ihn (Follows.and_of_orRest hts rest) (Follows.and_of_orRest hts' rest') h.2 with
            ⟨hnext, hrest⟩
          rcases ihr hts hts' hrest with ⟨hrest, hts⟩
          exact ⟨congrArg₂ orMore hnext hrest, hts⟩
  | and first rest ihf ihr =>
      cases d' with
      | and first' rest' =>
          rw [terminals, terminals, List.append_assoc, List.append_assoc] at h
          rcases ihf (Follows.unary_of_andRest hts rest) (Follows.unary_of_andRest hts' rest') h
            with ⟨hfirst, hrest⟩
          rcases ihr hts hts' hrest with ⟨hrest, hts⟩
          exact ⟨congrArg₂ and hfirst hrest, hts⟩
  | andEnd =>
      cases d' with
      | andEnd => exact ⟨rfl, h⟩
      | andMore next' rest' => exact absurd h hts.ne_and
  | andMore next rest ihn ihr =>
      cases d' with
      | andEnd => exact absurd h.symm hts'.ne_and
      | andMore next' rest' =>
          rw [terminals, terminals, List.cons_append, List.cons_append, List.cons.injEq,
            List.append_assoc, List.append_assoc] at h
          rcases ihn (Follows.unary_of_andRest hts rest) (Follows.unary_of_andRest hts' rest') h.2
            with ⟨hnext, hrest⟩
          rcases ihr hts hts' hrest with ⟨hrest, hts⟩
          exact ⟨congrArg₂ andMore hnext hrest, hts⟩
  | not inner ih =>
      cases d' with
      | not inner' =>
          rcases ih hts hts' (List.cons.inj h).2 with ⟨hinner, hts⟩
          exact ⟨congrArg not hinner, hts⟩
      | group inner' => simp [terminals] at h
      | phrase p' =>
          rcases p'.exists_name with ⟨w, us, hname⟩
          simp [terminals, hname] at h
  | group inner ih =>
      cases d' with
      | not inner' => simp [terminals] at h
      | group inner' =>
          simp only [terminals, List.cons_append, List.append_assoc, List.nil_append,
            List.cons.injEq, true_and] at h
          rcases ih (follows_closeParen ts) (follows_closeParen ts') h with ⟨hinner, hts⟩
          exact ⟨congrArg group hinner, (List.cons.inj hts).2⟩
      | phrase p' =>
          rcases p'.exists_name with ⟨w, us, hname⟩
          simp [terminals, hname] at h
  | phrase p =>
      cases d' with
      | not inner' =>
          rcases p.exists_name with ⟨w, us, hname⟩
          simp [terminals, hname] at h
      | group inner' =>
          rcases p.exists_name with ⟨w, us, hname⟩
          simp [terminals, hname] at h
      | phrase p' =>
          rcases Phrase.eq_of_append hts hts' h with ⟨hp, hts⟩
          exact ⟨congrArg phrase hp, hts⟩

/-- No sentence has two derivations. -/
theorem terminals_injective {d d' : Derivation .or} (h : d.terminals = d'.terminals) : d = d' := by
  have hlast : Follows .or [.last] := ⟨_, [], rfl, rfl⟩
  exact (eq_of_append hlast hlast (congrArg (· ++ [.last]) h)).1

end Derivation

end GameCondition.Grammar
