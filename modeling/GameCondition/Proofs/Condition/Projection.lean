import GameCondition.Condition.Projection
import GameCondition.Proofs.Number.Equality
import GameCondition.Proofs.Token.Scanning

/-! # Conditions told apart by their JSON

The JSON of a condition leaves out where it was read and nothing else. Readers of JSON compare
numbers as numbers, so the two zeros are the same to them, and an infinite number is null; the text
that stands beside a number still tells them apart. So conditions with the same JSON are the same up
to places, unless they hold a NaN (`Condition.toJson_eq_iff`).
-/

namespace GameCondition

/-! ## Equality of JSON -/

namespace Json

mutual

/-- Equality of JSON as its readers see it: decimals are compared as numbers. What is unreadable
equals nothing. -/
def same : Json → Json → Bool
  | null, null => true
  | bool a, bool b => a == b
  | integer a, integer b => a == b
  | decimal a, decimal b => a.equal b
  | text a, text b => a == b
  | list as, list bs => itemsSame as bs
  | object ms, object ns => membersSame ms ns
  | _, _ => false

/-- Equality of lists, item by item. -/
def itemsSame : List Json → List Json → Bool
  | [], [] => true
  | a :: as, b :: bs => a.same b && itemsSame as bs
  | _, _ => false

/-- Equality of objects in the order of their keys, member by member. -/
def membersSame : List (String × Json) → List (String × Json) → Bool
  | [], [] => true
  | (k, v) :: ms, (l, w) :: ns => k == l && v.same w && membersSame ms ns
  | _, _ => false

end

/-- Objects that are the same have the same members. -/
theorem same_lookup {ms ns : List (String × Json)} (h : membersSame ms ns = true) (key : String) :
    ((ms.lookup key).getD null).same ((ns.lookup key).getD null) = true := by
  induction ms generalizing ns with
  | nil =>
    cases ns with
    | nil => rfl
    | cons n ns => cases h
  | cons m ms ih =>
    cases ns with
    | nil => cases h
    | cons n ns =>
      obtain ⟨k, v⟩ := m
      obtain ⟨l, w⟩ := n
      rw [membersSame, Bool.and_eq_true, Bool.and_eq_true, beq_iff_eq] at h
      obtain ⟨⟨rfl, hvalue⟩, hrest⟩ := h
      rw [List.lookup_cons, List.lookup_cons]
      cases key == k with
      | true => exact hvalue
      | false => exact ih hrest

/-- Members that are the same have the same keys in the same order. -/
theorem keys_eq_of_membersSame {ms ns : List (String × Json)} (h : membersSame ms ns = true) :
    ms.map (·.1) = ns.map (·.1) := by
  induction ms generalizing ns with
  | nil =>
    cases ns with
    | nil => rfl
    | cons n ns => cases h
  | cons m ms ih =>
    cases ns with
    | nil => cases h
    | cons n ns =>
      rw [membersSame, Bool.and_eq_true, Bool.and_eq_true, beq_iff_eq] at h
      rw [List.map_cons, List.map_cons, h.1.1, ih h.2]

/-- The members of an object; other values have none. -/
def members : Json → List (String × Json)
  | object ms => ms
  | _ => []

/-- The same objects have the same members. -/
theorem same_members {v w : Json} (h : v.same w = true) :
    membersSame v.members w.members = true := by
  revert h
  fun_cases same v w with
  | case7 ms ns => exact id
  | case8 => exact fun h => nomatch h
  | _ => exact fun _ => rfl

/-- A member is the value under its key, or null. -/
theorem member_eq (v : Json) (key : String) :
    v.member key = (v.members.lookup key).getD null := by
  cases v <;> rfl

/-- The same objects have the same value under each key. -/
theorem same_member {v w : Json} (h : v.same w = true) (key : String) :
    (v.member key).same (w.member key) = true := by
  rw [member_eq, member_eq]
  exact same_lookup (same_members h) key

/-- The same objects have the same keys. -/
theorem same_keys {v w : Json} (h : v.same w = true) :
    v.members.map (·.1) = w.members.map (·.1) :=
  keys_eq_of_membersSame (same_members h)

/-- Strings are the same if they are equal. -/
theorem same_text_iff {s t : String} : (text s).same (text t) = true ↔ s = t := by
  rw [same, beq_iff_eq]

/-- Whole numbers are the same if they are equal. -/
theorem same_integer_iff {i j : Int} : (integer i).same (integer j) = true ↔ i = j := by
  rw [same, beq_iff_eq]

/-- Strings that may be missing are the same if they are equal. -/
theorem same_ofText?_iff {s t : Option String} :
    (ofText? s).same (ofText? t) = true ↔ s = t := by
  cases s <;> cases t <;> simp [ofText?, same]

/-- A number is the same as itself in JSON, also where it is written as null. -/
theorem same_ofNumber_self (n : Number) : (ofNumber n).same (ofNumber n) = true := by
  cases n with
  | finite negative rank => exact (Number.equal_self _).trans rfl
  | _ => rfl

end Json

/-! ## The texts of numbers -/

namespace Number

/-- A finite number is written without the letter that an infinite one has. -/
theorem noLetter_text_finite (negative : Bool) (rank : Fin infinityRank) :
    'i' ∉ (finite negative rank).text := by
  obtain ⟨whole, part, hplain, -⟩ := exists_plainDecimal negative rank
  have hwhole : 'i' ∉ whole := fun h => absurd (hplain.whole_digits _ h) (by decide)
  have hpart : 'i' ∉ part := fun h => absurd (hplain.part_digits _ h) (by decide)
  rw [text, hplain.text, pointed]
  cases negative <;> cases part <;> simp_all

/-- The text of a number that is not NaN is the text of no other. -/
theorem text_injective {m n : Number} (hm : m.isNan = false) (hn : n.isNan = false)
    (h : m.text = n.text) : m = n := by
  have hletter : ∀ negative, 'i' ∈ (infinite negative).text := by
    intro negative
    cases negative <;> decide
  cases m with
  | nan negative => cases hm
  | infinite negative =>
    cases n with
    | nan negative' => cases hn
    | infinite negative' =>
      revert h
      cases negative <;> cases negative' <;> decide
    | finite negative' rank' =>
      exact absurd (h ▸ hletter negative) (noLetter_text_finite negative' rank')
  | finite negative rank =>
    cases n with
    | nan negative' => cases hn
    | infinite negative' =>
      exact absurd (h ▸ hletter negative') (noLetter_text_finite negative rank)
    | finite negative' rank' =>
      -- both are scanned from the same text
      have hscan := terminals_number (n := finite negative rank) rfl (stopsAt_nil isNumberChar)
      rw [h, terminals_number rfl (stopsAt_nil isNumberChar)] at hscan
      simpa using (List.cons.inj hscan).1.symm

/-- Numbers with one text are equal, unless they are none. -/
theorem toString_injective {m n : Number} (hm : m.isNan = false) (hn : n.isNan = false)
    (h : toString m = toString n) : m = n :=
  text_injective hm hn (String.ofList_injective h)

end Number

/-! ## Subjects and operands -/

/-- Kinds of subjects have different words. -/
theorem SubjectKind.word_injective {k l : SubjectKind} (h : k.word = l.word) : k = l := by
  revert h
  cases k <;> cases l <;> decide

/-- Comparisons have different words. -/
theorem Comparison.word_injective {c d : Comparison} (h : c.word = d.word) : c = d := by
  revert h
  cases c <;> cases d <;> decide

namespace Subject

theorem member_toJson (s : Subject) :
    s.toJson.member "id" = .ofText? s.id ∧ s.toJson.member "kind" = .text s.kind.word :=
  ⟨rfl, rfl⟩

/-- What has the same JSON is equal. -/
theorem eq_of_same {s t : Subject} (h : s.toJson.same t.toJson = true) : s = t := by
  have hid : s.id = t.id := Json.same_ofText?_iff.mp (Json.same_member h "id")
  have hkind : s.kind = t.kind :=
    SubjectKind.word_injective (Json.same_text_iff.mp (Json.same_member h "kind"))
  cases s
  cases t
  exact congr (congrArg mk hkind) hid

/-- A condition has the same JSON as itself. -/
theorem same_toJson_self (s : Subject) : s.toJson.same s.toJson = true := by
  simp [toJson, Json.same, Json.membersSame, Json.same_ofText?_iff]

end Subject

namespace Operand

/-- Whether an operand is NaN. -/
def isNan (o : Operand) : Bool :=
  o.number?.any Number.isNan

theorem member_toJson (o : Operand) :
    o.toJson.member "kind" = .text o.kindName ∧ o.toJson.member "value" = .text o.value := by
  cases o <;> exact ⟨rfl, rfl⟩

/-- The keys tell numbers and truth values from what else an operand may be. -/
theorem isSome_eq_of_same {o p : Operand} (h : o.toJson.same p.toJson = true) :
    o.number?.isSome = p.number?.isSome ∧ o.bool?.isSome = p.bool?.isSome := by
  have hkeys := Json.same_keys h
  revert hkeys
  cases o <;> cases p <;> simp [toJson, Json.withMember?, number?, bool?, Json.members]

theorem eq_of_same {o p : Operand} (ho : o.isNan = false) (hp : p.isNan = false)
    (h : o.toJson.same p.toJson = true) : o = p := by
  obtain ⟨hnumber, hbool⟩ := isSome_eq_of_same h
  have hkind := Json.same_member h "kind"
  have hvalue := Json.same_member h "value"
  rw [o.member_toJson.1, p.member_toJson.1, Json.same_text_iff] at hkind
  rw [o.member_toJson.2, p.member_toJson.2, Json.same_text_iff] at hvalue
  cases o with
  | element id =>
    cases p with
    | element id' => exact congrArg element hvalue
    | text t => simp [kindName] at hkind
    | number n => cases hnumber
    | bool b => cases hbool
  | bool a =>
    cases p with
    | bool b =>
      have hboolValue := Json.same_member h "boolValue"
      exact congrArg bool (beq_iff_eq.mp hboolValue)
    | _ => cases hbool
  | number m =>
    cases p with
    | number n =>
      -- of the two zeros only the texts differ
      exact congrArg number (Number.toString_injective ho hp hvalue)
    | _ => cases hnumber
  | text s =>
    cases p with
    | element id' => simp [kindName] at hkind
    | text t => exact congrArg text hvalue
    | number n => cases hnumber
    | bool b => cases hbool

theorem same_toJson_self (o : Operand) : o.toJson.same o.toJson = true := by
  cases o <;> simp [toJson, Json.withMember?, number?, bool?, Json.same, Json.membersSame,
    Json.same_ofNumber_self]

end Operand

/-! ## Leaves and trees -/

namespace Relation

theorem member_toJson (r : Relation) : r.toJson.member "type" = .text "RELATION" ∧
    r.toJson.member "subject" = r.subject.toJson ∧ r.toJson.member "object" = r.operand.toJson ∧
    r.toJson.member "relation" = .text r.comparison.word ∧
    r.toJson.member "attributeName" = .ofText? r.attr ∧
    r.toJson.member "propertyName" = .ofText? r.property := by
  obtain ⟨subject, comparison, operand, attr, property, span⟩ := r
  cases attr <;> cases property <;> exact ⟨rfl, rfl, rfl, rfl, rfl, rfl⟩

theorem eq_of_same {r r' : Relation} (hr : r.operand.isNan = false)
    (hr' : r'.operand.isNan = false) (h : r.toJson.same r'.toJson = true) :
    { r with span := .atStart } = { r' with span := .atStart } := by
  obtain ⟨-, hsubject, hoperand, hcomparison, hattr, hproperty⟩ := r.member_toJson
  obtain ⟨-, hsubject', hoperand', hcomparison', hattr', hproperty'⟩ := r'.member_toJson
  have hmember := Json.same_member h
  congr 1
  · exact Subject.eq_of_same (hsubject ▸ hsubject' ▸ hmember "subject")
  · refine Comparison.word_injective (Json.same_text_iff.mp ?_)
    exact hcomparison ▸ hcomparison' ▸ hmember "relation"
  · exact Operand.eq_of_same hr hr' (hoperand ▸ hoperand' ▸ hmember "object")
  · exact Json.same_ofText?_iff.mp (hattr ▸ hattr' ▸ hmember "attributeName")
  · exact Json.same_ofText?_iff.mp (hproperty ▸ hproperty' ▸ hmember "propertyName")

theorem same_toJson_self (r : Relation) : r.toJson.same r.toJson = true := by
  obtain ⟨subject, comparison, operand, attr, property, span⟩ := r
  cases attr <;> cases property <;> simp [toJson, Json.withMember?, Json.same, Json.membersSame,
    subject.same_toJson_self, operand.same_toJson_self]

end Relation

namespace Condition

/-- Whether a literal in a condition is NaN. -/
def holdsNan : Condition → Bool
  | and l r _ => l.holdsNan || r.holdsNan
  | or l r _ => l.holdsNan || r.holdsNan
  | not c _ => c.holdsNan
  | relation r => r.operand.isNan
  | _ => false

/-- A condition shows its kind in its JSON. -/
theorem member_type_toJson (c : Condition) : c.toJson.member "type" = .text c.tag := by
  cases c with
  | relation r => exact r.member_toJson.1
  | _ => rfl

/-- Places do not show in JSON. -/
theorem toJson_unplaced (c : Condition) : c.unplaced.toJson = c.toJson := by
  induction c with
  | and l r s ihl ihr => simp only [unplaced, toJson, ihl, ihr]
  | or l r s ihl ihr => simp only [unplaced, toJson, ihl, ihr]
  | not c s ih => simp only [unplaced, toJson, ih]
  | _ => rfl

theorem same_toJson_self (c : Condition) : c.toJson.same c.toJson = true := by
  induction c with
  | and l r s ihl ihr => simp [toJson, Json.same, Json.membersSame, ihl, ihr]
  | or l r s ihl ihr => simp [toJson, Json.same, Json.membersSame, ihl, ihr]
  | not c s ih => simp [toJson, Json.same, Json.membersSame, ih]
  | relation r => exact r.same_toJson_self
  | visits v => simp [toJson, Json.same, Json.membersSame, v.subject.same_toJson_self]
  | distance d =>
    simp [toJson, Json.same, Json.membersSame, d.origin.same_toJson_self,
      d.goal.same_toJson_self]

/-- Conditions of different kinds have different JSON. -/
theorem tag_eq_of_same {a b : Condition} (h : a.toJson.same b.toJson = true) : a.tag = b.tag := by
  have htype := Json.same_member h "type"
  rwa [member_type_toJson, member_type_toJson, Json.same_text_iff] at htype

/-- The JSON of a condition tells what the condition is, but for its places. -/
theorem unplaced_eq_of_same {a b : Condition} (ha : a.holdsNan = false) (hb : b.holdsNan = false)
    (h : a.toJson.same b.toJson = true) : a.unplaced = b.unplaced := by
  -- by induction on the first tree; the tags make the second one of the same constructor
  induction a generalizing b with
  | and l r s ihl ihr =>
    have htag := tag_eq_of_same h
    cases b with
    | and l' r' s' =>
      rw [holdsNan, Bool.or_eq_false_iff] at ha hb
      rw [unplaced, unplaced, ihl ha.1 hb.1 (Json.same_member h "left"),
        ihr ha.2 hb.2 (Json.same_member h "right")]
    | _ => simp [tag] at htag
  | or l r s ihl ihr =>
    have htag := tag_eq_of_same h
    cases b with
    | or l' r' s' =>
      rw [holdsNan, Bool.or_eq_false_iff] at ha hb
      rw [unplaced, unplaced, ihl ha.1 hb.1 (Json.same_member h "left"),
        ihr ha.2 hb.2 (Json.same_member h "right")]
    | _ => simp [tag] at htag
  | not c s ih =>
    have htag := tag_eq_of_same h
    cases b with
    | not c' s' =>
      rw [holdsNan] at ha hb
      rw [unplaced, unplaced, ih ha hb (Json.same_member h "inner")]
    | _ => simp [tag] at htag
  | relation r =>
    have htag := tag_eq_of_same h
    cases b with
    | relation r' => exact congrArg relation (Relation.eq_of_same ha hb h)
    | _ => simp [tag] at htag
  | visits v =>
    have htag := tag_eq_of_same h
    cases b with
    | visits v' =>
      -- each field is told by a member of its own
      refine congrArg visits ?_
      congr 1
      · exact Subject.eq_of_same (Json.same_member h "subject")
      · exact Json.same_text_iff.mp (Json.same_member h "sceneName")
      · exact Comparison.word_injective (Json.same_text_iff.mp (Json.same_member h "comparison"))
      · exact Json.same_integer_iff.mp (Json.same_member h "value")
    | _ => simp [tag] at htag
  | distance d =>
    have htag := tag_eq_of_same h
    cases b with
    | distance d' =>
      refine congrArg distance ?_
      congr 1
      · exact Subject.eq_of_same (Json.same_member h "subjectA")
      · exact Subject.eq_of_same (Json.same_member h "subjectB")
      · exact Comparison.word_injective (Json.same_text_iff.mp (Json.same_member h "comparison"))
      · exact Json.same_integer_iff.mp (Json.same_member h "value")
    | _ => simp [tag] at htag

/-- Of conditions without NaN those have the same JSON that are the same up to places, whether the
JSON is compared exactly or its numbers as numbers. -/
theorem toJson_eq_iff {a b : Condition} (ha : a.holdsNan = false) (hb : b.holdsNan = false) :
    (a.toJson.same b.toJson = true ↔ a.unplaced = b.unplaced) ∧
      (a.toJson = b.toJson ↔ a.unplaced = b.unplaced) := by
  have hexact : a.unplaced = b.unplaced → a.toJson = b.toJson := by
    intro h
    rw [← a.toJson_unplaced, h, b.toJson_unplaced]
  have hsame : a.toJson = b.toJson → a.toJson.same b.toJson = true := by
    intro h
    rw [h]
    exact b.same_toJson_self
  refine ⟨⟨unplaced_eq_of_same ha hb, fun h => hsame (hexact h)⟩, ?_, hexact⟩
  exact fun h => unplaced_eq_of_same ha hb (hsame h)

/-- A scale shows a zero. -/
def showsZero (negative : Bool) (span : Span) : Condition :=
  relation ⟨.item "scale", .is, .number (.finite negative ⟨0, by decide⟩), none, some "weight", span⟩

/-- Two zeros of one sign at different places, and one of the other sign. -/
theorem toJson_eq_iff_showsZero :
    (showsZero true .atStart).holdsNan = false ∧ (showsZero true ⟨4, 9, 1, 5⟩).holdsNan = false ∧
      (showsZero false .atStart).holdsNan = false ∧
      (showsZero true .atStart).toJson = (showsZero true ⟨4, 9, 1, 5⟩).toJson ∧
      (showsZero true .atStart).toJson.same (showsZero false .atStart).toJson = false := by
  have hzero : (showsZero true .atStart).holdsNan = false := rfl
  have helsewhere : (showsZero true ⟨4, 9, 1, 5⟩).holdsNan = false := rfl
  have hpositive : (showsZero false .atStart).holdsNan = false := rfl
  refine ⟨hzero, helsewhere, hpositive, ?_, ?_⟩
  · exact (toJson_eq_iff hzero helsewhere).2.mpr rfl
  · rw [← Bool.not_eq_true, (toJson_eq_iff hzero hpositive).1]
    decide

end Condition

end GameCondition
