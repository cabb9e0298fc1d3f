import GameCondition.Proofs.Condition.LetterCase
import GameCondition.Proofs.Condition.Likeness
import GameCondition.Proofs.Token.AsciiCase

/-! # Reading in any ASCII case

Texts that differ in nothing but the ASCII case of letters outside string literals are alike to the
reader (`asciiCase`), for it looks at reserved words, kinds of subjects and the words `has` and
`scene` in any case. So under every limit both are refused, with one code at one place, or both are
read, as conditions that differ in the ASCII case of their names only (`read_lowerAsciiOutside`).
-/

namespace GameCondition

namespace Likeness

theorem alike_of_lowerAscii_eq {t t' : Token} (h : t.lowerAscii = t'.lowerAscii) :
    t.kind.Alike (fun w w' => lowerAscii w = lowerAscii w') t'.kind := by
  have hkind : t.kind.lowerAscii = t'.kind.lowerAscii := congrArg Token.kind h
  revert hkind
  generalize t.kind = k
  generalize t'.kind = k'
  intro hkind
  -- only names are told apart by their case
  cases k with
  | identifier w =>
    cases k' with
    | identifier w' => exact .identifier (Token.Kind.identifier.inj hkind)
    | _ => cases hkind
  | _ =>
    cases k' with
    | identifier w' => cases hkind
    | _ => cases hkind <;> exact .other (by simp)

theorem has_of_lowerAscii_eq {t t' : Token} (h : t.lowerAscii = t'.lowerAscii) :
    t.terminal = .has ↔ t'.terminal = .has := by
  have htext : t.text.map Char.toLower = t'.text.map Char.toLower := congrArg Token.text h
  have hkind : t.kind = .keyword .isIn ↔ t'.kind = .keyword .isIn := by
    have halike := alike_of_lowerAscii_eq h
    revert halike
    generalize t.kind = k
    generalize t'.kind = k'
    rintro (⟨-⟩ | ⟨-⟩)
    · simp
    · exact Iff.rfl
  simp only [Token.terminal_eq_has, Token.isSpelled, sameAscii, String.toList_ofList, htext, hkind]

theorem span_of_lowerAscii_eq {t t' : Token} (h : t.lowerAscii = t'.lowerAscii) :
    t.span = t'.span := by
  have hspan := congrArg Token.span h
  exact hspan

/-- A difference in the ASCII case of names. -/
def asciiCase : Likeness where
  token t t' := t.lowerAscii = t'.lowerAscii
  name w w' := lowerAscii w = lowerAscii w'
  place := Eq
  kind := alike_of_lowerAscii_eq
  has := has_of_lowerAscii_eq
  span := span_of_lowerAscii_eq
  through := congrArg₂ Span.through
  refl w := Eq.refl (lowerAscii w)
  ascii := sameAscii_iff_lowerAscii.mpr

/-- Texts that are the same with ASCII in lower case outside literals have like streams. -/
theorem streams_of_lowerAsciiOutside {cs ds : List Char}
    (h : lowerAsciiOutside cs = lowerAsciiOutside ds) :
    asciiCase.Streams (.ofText cs) (.ofText ds) := by
  have htokens : List.Forall₂ Eq ((tokenize cs).map Token.lowerAscii)
      ((tokenize ds).map Token.lowerAscii) := by
    rw [List.forall₂_eq_eq_eq, ← tokenize_lowerAsciiOutside, h, tokenize_lowerAsciiOutside]
  rw [List.forall₂_map_left_iff, List.forall₂_map_right_iff] at htokens
  exact streams_ofText htokens

/-! ## What is alike -/

theorem place_eq {a b : Span} (h : asciiCase.place a b) : a = b := h

theorem lowerAscii_eq {w w' : String} (h : asciiCase.name w w') : lowerAscii w = lowerAscii w' := h

theorem map_lowerAscii_eq {name name' : Option String}
    (h : Option.Rel asciiCase.name name name') : name.map lowerAscii = name'.map lowerAscii := by
  cases h with
  | some h => exact congrArg some h
  | none => rfl

theorem Subjects.mapNames_eq {s s' : Subject} (h : asciiCase.Subjects s s') :
    s.mapNames lowerAscii = s'.mapNames lowerAscii := by
  rw [Subject.mapNames, Subject.mapNames, h.kind, map_lowerAscii_eq h.id]

theorem Operands.mapNames_eq {o o' : Operand} (h : asciiCase.Operands o o') :
    o.mapNames lowerAscii = o'.mapNames lowerAscii := by
  cases h with
  | element h => exact congrArg Operand.element h
  | literal => rfl

/-- Like conditions are the same but for the ASCII case of their names. -/
theorem Conditions.mapNames_eq {c c' : Condition} (h : asciiCase.Conditions c c') :
    c.mapNames lowerAscii = c'.mapNames lowerAscii := by
  induction h with
  | and _ _ hspan ihl ihr =>
    rw [Condition.mapNames, Condition.mapNames, ihl, ihr, place_eq hspan]
  | or _ _ hspan ihl ihr =>
    rw [Condition.mapNames, Condition.mapNames, ihl, ihr, place_eq hspan]
  | not _ hspan ih => rw [Condition.mapNames, Condition.mapNames, ih, place_eq hspan]
  | relation comparison hsubject hoperand hattr hproperty hspan =>
    simp only [Condition.mapNames, Relation.mapNames, hsubject.mapNames_eq, hoperand.mapNames_eq,
      map_lowerAscii_eq hattr, map_lowerAscii_eq hproperty, place_eq hspan]
  | visits comparison value hsubject hscene hspan =>
    simp only [Condition.mapNames, hsubject.mapNames_eq, lowerAscii_eq hscene, place_eq hspan]
  | distance comparison value horigin hgoal hspan =>
    simp only [Condition.mapNames, horigin.mapNames_eq, hgoal.mapNames_eq, place_eq hspan]

/-- Like failures are reported with one code at one place. -/
theorem Failures.diagnostic_eq {e e' : Failure} (h : asciiCase.Failures e e') (limit : Nat) :
    (e.diagnostic limit).code = (e'.diagnostic limit).code ∧
      (e.diagnostic limit).span = (e'.diagnostic limit).span := by
  cases h with
  | misfit h =>
    cases h with
    | misfit cause cause' h => exact ⟨rfl, asciiCase.span h⟩
  | tooDeep h => exact ⟨rfl, asciiCase.span h⟩

end Likeness

namespace Condition

/-- Texts that are the same with ASCII in lower case outside literals are both refused, with one
code at one place, or both read, as conditions that differ in the ASCII case of names only. -/
theorem read_lowerAsciiOutside {a b : String}
    (h : lowerAsciiOutside a.toList = lowerAsciiOutside b.toList) (limit : Nat) :
    (∃ d d', read limit a = .error d ∧ read limit b = .error d' ∧
      d.code = d'.code ∧ d.span = d'.span) ∨
    (∃ c c', read limit a = .ok c ∧ read limit b = .ok c' ∧
      c.mapNames lowerAscii = c'.mapNames lowerAscii) := by
  have hstep := (Likeness.streams_of_lowerAsciiOutside h).readAll limit
  unfold read
  revert hstep
  generalize readAll limit (.ofText a.toList) = x
  generalize readAll limit (.ofText b.toList) = y
  rintro (⟨hc⟩ | ⟨he⟩)
  · exact .inr ⟨_, _, rfl, rfl, hc.mapNames_eq⟩
  · exact .inl ⟨_, _, rfl, rfl, he.diagnostic_eq limit⟩

theorem read_quoted_in_capitals :
    lowerAsciiOutside "Door.NAME is \"Oak\"".toList =
      lowerAsciiOutside "DOOR.name IS \"Oak\"".toList ∧
    ((∃ d d', read 64 "Door.NAME is \"Oak\"" = .error d ∧
        read 64 "DOOR.name IS \"Oak\"" = .error d' ∧ d.code = d'.code ∧ d.span = d'.span) ∨
      (∃ c c', read 64 "Door.NAME is \"Oak\"" = .ok c ∧ read 64 "DOOR.name IS \"Oak\"" = .ok c' ∧
        c.mapNames lowerAscii = c'.mapNames lowerAscii)) := by
  have hsame : lowerAsciiOutside "Door.NAME is \"Oak\"".toList =
      lowerAsciiOutside "DOOR.name IS \"Oak\"".toList := by
    decide +kernel
  exact ⟨hsame, read_lowerAsciiOutside hsame 64⟩

end Condition

end GameCondition
