import GameCondition.Proofs.Canonical.NormalForm
import GameCondition.Proofs.Canonical.Phrases
import GameCondition.Proofs.Text.Segments
import Mathlib.Algebra.Order.BigOperators.Group.List
import Mathlib.Algebra.Order.Group.Nat

/-! # When canonical text is a fixed point

The plain stretches of canonical text are in normal form as far as determiners, white space and
operators go (`isNormal_of_mem_segments`). The rules for subjects are no such matter: one that is
done may leave a text in which another applies, as in *the name of the friend of the player*, which
becomes `name of player.friend`. Text without such a place is a fixed point, and no other is, since
these rules shorten a text and no rule makes it longer (`canonicalize_canonicalize_iff`).
-/

namespace GameCondition

namespace Canonical

/-! ## Plain stretches -/

/-- None of the rules for subjects applies anywhere in a plain stretch. -/
structure SubjectsAreSettled (cs : List Char) : Prop where
  currentScene : AppliesNowhere currentScene none cs
  possessive : AppliesNowhere possessive none cs
  owned : AppliesNowhere owned none cs

variable {cs : List Char}

instance (cs : List Char) : Decidable (SubjectsAreSettled cs) :=
  decidable_of_iff (AppliesNowhere currentScene none cs ∧ AppliesNowhere possessive none cs ∧
    AppliesNowhere owned none cs)
    ⟨fun h => ⟨h.1, h.2.1, h.2.2⟩, fun h => ⟨h.currentScene, h.possessive, h.owned⟩⟩

theorem longestFirst_empty : Vocabulary.empty.longestFirst = [] := by
  simp [Vocabulary.longestFirst, Vocabulary.empty, Vocabulary.ofElements, Dict.keys, Dict.empty]

theorem replacePhrases_empty (cs : List Char) : replacePhrases Vocabulary.empty cs = cs := by
  refine rewriteBy_of_appliesNowhere ?_
  rw [longestFirst_empty]
  generalize (none : Option Char) = before
  induction cs generalizing before with
  | nil => trivial
  | cons c cs ih => exact ⟨rfl, ih (some c)⟩

theorem rewriteSegment_empty (cs : List Char) : rewriteSegment Vocabulary.empty cs =
    joinOperators (dropDeterminers (rewriteSubjects cs)) :=
  replacePhrases_empty _

/-- Where the subjects are settled their rules do nothing. -/
theorem SubjectsAreSettled.rewriteSubjects (h : SubjectsAreSettled cs) :
    rewriteSubjects cs = cs := by
  rw [Canonical.rewriteSubjects, rewriteBy_of_appliesNowhere h.currentScene,
    rewriteBy_of_appliesNowhere h.possessive, rewriteBy_of_appliesNowhere h.owned]

/-- The rules for subjects shorten a text in which the subjects are not settled. -/
theorem length_rewriteSubjects_lt (h : ¬ SubjectsAreSettled cs) :
    (rewriteSubjects cs).length < cs.length := by
  have hpossessiveLe := length_rewriteBy_le possessive_plain.1 (rewriteBy currentScene cs)
  have hownedLe := length_rewriteBy_le owned_plain.1
    (rewriteBy possessive (rewriteBy currentScene cs))
  rw [rewriteSubjects]
  by_cases hscene : AppliesNowhere currentScene none cs
  · rw [rewriteBy_of_appliesNowhere hscene] at hpossessiveLe hownedLe ⊢
    by_cases hpossessive : AppliesNowhere possessive none cs
    · rw [rewriteBy_of_appliesNowhere hpossessive]
      have howned : ¬ AppliesNowhere owned none cs := fun howned => h ⟨hscene, hpossessive, howned⟩
      exact length_rewriteBy_lt owned_plain.1 owned_plain.2 howned
    · have hlt := length_rewriteBy_lt possessive_plain.1 possessive_plain.2 hpossessive
      omega
  · have hlt := length_rewriteBy_lt currentScene_plain.1 currentScene_plain.2 hscene
    omega

theorem length_steps_le (cs : List Char) :
    (joinOperators (dropDeterminers cs)).length ≤ cs.length := by
  have hdeterminer := length_rewriteBy_le determiner_plain cs
  have hspace := length_rewriteBy_le whiteSpace_plain (rewriteBy determiner cs)
  have hoperator := length_rewriteBy_le operator_plain (dropDeterminers cs)
  exact hoperator.trans (hspace.trans hdeterminer)

theorem length_rewriteSegment_le (cs : List Char) :
    (rewriteSegment Vocabulary.empty cs).length ≤ cs.length := by
  rw [rewriteSegment_empty]
  refine (length_steps_le _).trans ?_
  by_cases h : SubjectsAreSettled cs
  · rw [h.rewriteSubjects]
  · exact Nat.le_of_lt (length_rewriteSubjects_lt h)

/-- A plain stretch in normal form stays as it is just if its subjects are settled. -/
theorem rewriteSegment_eq_self_iff (h : IsNormal cs) :
    rewriteSegment Vocabulary.empty cs = cs ↔ SubjectsAreSettled cs := by
  rw [rewriteSegment_empty]
  constructor
  · intro heq
    by_contra hsettled
    have hlt := length_rewriteSubjects_lt hsettled
    have hle := length_steps_le (rewriteSubjects cs)
    rw [heq] at hle
    omega
  · intro hsettled
    rw [hsettled.rewriteSubjects, h.joinOperators_dropDeterminers]

theorem noQuote_rewriteSegment_empty : ∀ cs, (∀ c ∈ cs, c ≠ '"') →
    ∀ c ∈ rewriteSegment Vocabulary.empty cs, c ≠ '"' :=
  noQuote_rewriteSegment (List.forall_mem_nil _)

/-- No rule for subjects applies where the text goes on with white space. -/
theorem subjects_none (before : Option Char) {c : Char} (hc : isWhite c = true) (cs : List Char) :
    currentScene before (c :: cs) = none ∧ possessive before (c :: cs) = none ∧
      owned before (c :: cs) = none := by
  have hword := isWordChar_of_isWhite hc
  have hletter : ∀ d : Char, foldsToLetter d = true → foldChar d ≠ foldChar c := by
    intro d hd heq
    have hfolds : foldsToLetter c = true := by rwa [foldsToLetter, ← heq]
    rw [isWhite_of_foldsToLetter hfolds] at hc
    cases hc
  have hcurrent : takeFolded? "current".toList (c :: cs) = none := if_neg (hletter 'c' (by decide))
  have hattribute : takeFolded? "attribute".toList (c :: cs) = none :=
    if_neg (hletter 'a' (by decide))
  have hrun : takeRun? isWordChar (c :: cs) = none := by simp [takeRun?, hword]
  refine ⟨?_, ?_, ?_⟩
  · rw [currentScene, takeBoth?, hcurrent]
    rfl
  · rw [possessive, hrun]
    rfl
  · rw [owned, ownedAttribute?, takeAttribute?, takeBoth?, hattribute, ownedField?, takeOwned?, hrun]
    exact ite_self none

theorem subjectsAreSettled_of_isBlank (h : isBlank cs = true) : SubjectsAreSettled cs := by
  suffices hall : ∀ before, AppliesNowhere currentScene before cs ∧
      AppliesNowhere possessive before cs ∧ AppliesNowhere owned before cs from
    ⟨(hall none).1, (hall none).2.1, (hall none).2.2⟩
  induction cs with
  | nil => exact fun _ => ⟨trivial, trivial, trivial⟩
  | cons c cs ih =>
    intro before
    obtain ⟨hc, hcs⟩ := List.forall_mem_cons.mp (isBlank_iff.mp h)
    obtain ⟨hscene, hpossessive, howned⟩ := subjects_none before hc cs
    obtain ⟨hscenes, hpossessives, howneds⟩ := ih (isBlank_iff.mpr hcs) (some c)
    exact ⟨⟨hscene, hscenes⟩, ⟨hpossessive, hpossessives⟩, ⟨howned, howneds⟩⟩

/-! ## Whole texts -/

/-- The plain stretches of canonical text are in normal form. -/
theorem isNormal_of_mem_segments {source : List Char} (hsource : isBlank source = false)
    (h : .plain cs ∈ segments (ofText Vocabulary.empty source)) : IsNormal cs := by
  rw [ofText, hsource, if_neg Bool.false_ne_true,
    segments_trim_rewritePlain noQuote_rewriteSegment_empty (getLast?_trim source)] at h
  obtain ⟨a, b, ha, hb, hmem⟩ := exists_of_plain_mem_trim h
  obtain ⟨s, -, heq⟩ := List.mem_map.mp (List.mem_filter.mp hmem).1
  cases s with
  | quoted => cases heq
  | plain text =>
    have hnormal := isNormal_joinOperators_dropDeterminers (rewriteSubjects text)
    rw [← rewriteSegment_empty, Segment.plain.inj heq] at hnormal
    exact hnormal.of_white_append ha hb

theorem length_rewritten_le (s : Segment) :
    (s.rewritten (rewriteSegment Vocabulary.empty)).length ≤ s.text.length := by
  cases s with
  | plain cs => exact length_rewriteSegment_le cs
  | quoted cs => exact Nat.le_refl _

/-- Rewriting leaves a text in normal form alone just if its subjects are settled. -/
theorem trim_rewritePlain_eq_self_iff {text : List Char} (htrim : trim text = text)
    (hnormal : ∀ cs, .plain cs ∈ segments text → IsNormal cs) :
    trim (rewritePlain (rewriteSegment Vocabulary.empty) text) = text ↔
      ∀ cs, .plain cs ∈ segments text → SubjectsAreSettled cs := by
  constructor
  · intro heq cs hcs
    rw [← rewriteSegment_eq_self_iff (hnormal cs hcs)]
    by_contra hne
    -- one stretch that becomes shorter makes the text shorter
    have hlt : (rewriteSegment Vocabulary.empty cs).length < cs.length := by
      rw [rewriteSegment_eq_self_iff (hnormal cs hcs)] at hne
      rw [rewriteSegment_empty]
      exact (length_steps_le _).trans_lt (length_rewriteSubjects_lt hne)
    have hwhole : (rewritePlain (rewriteSegment Vocabulary.empty) text).length <
        ((segments text).flatMap Segment.text).length := by
      rw [rewritePlain, List.length_flatMap, List.length_flatMap]
      exact List.sum_lt_sum _ _ (fun s _ => length_rewritten_le s) ⟨.plain cs, hcs, hlt⟩
    have hle := length_trim_le (rewritePlain (rewriteSegment Vocabulary.empty) text)
    rw [heq] at hle
    rw [flatMap_text_segments] at hwhole
    omega
  · intro hsettled
    have hsame : ∀ s ∈ segments text,
        s.rewritten (rewriteSegment Vocabulary.empty) = s.text := by
      intro s hs
      cases s with
      | plain cs => exact (rewriteSegment_eq_self_iff (hnormal cs hs)).mpr (hsettled cs hs)
      | quoted cs => rfl
    rw [rewritePlain, List.flatMap_congr hsame, flatMap_text_segments, htrim]

theorem ofText_ofText_iff (source : List Char) :
    ofText Vocabulary.empty (ofText Vocabulary.empty source) = ofText Vocabulary.empty source ↔
      ∀ cs, .plain cs ∈ segments (ofText Vocabulary.empty source) → SubjectsAreSettled cs := by
  cases hsource : isBlank source with
  | true =>
    have hsame : ofText Vocabulary.empty source = source := by rw [ofText, if_pos hsource]
    rw [hsame, hsame]
    refine iff_of_true rfl fun cs hcs => subjectsAreSettled_of_isBlank ?_
    rw [isBlank_iff] at hsource ⊢
    intro c hc
    refine hsource c ?_
    rw [← flatMap_text_segments source]
    exact List.mem_flatMap.mpr ⟨_, hcs, hc⟩
  | false =>
    have hnormal : ∀ cs, .plain cs ∈ segments (ofText Vocabulary.empty source) → IsNormal cs :=
      fun cs => isNormal_of_mem_segments hsource
    have htrim : trim (ofText Vocabulary.empty source) = ofText Vocabulary.empty source := by
      rw [ofText, hsource, if_neg Bool.false_ne_true, trim_trim]
    generalize ofText Vocabulary.empty source = text at hnormal htrim ⊢
    rw [← trim_rewritePlain_eq_self_iff htrim hnormal]
    cases hblank : isBlank text with
    | true =>
      -- blank text that is trimmed is empty
      have hdrop := List.dropWhile_eq_nil_iff.mpr (isBlank_iff.mp hblank)
      rw [trim_eq, hdrop, List.rdropWhile_nil] at htrim
      rw [← htrim]
      simp [ofText, isBlank, rewritePlain, segments, trim]
    | false => rw [ofText, hblank, if_neg Bool.false_ne_true, htrim]

end Canonical

/-- Canonical text is a fixed point of the empty vocabulary just if no rule for subjects applies
anywhere in its plain stretches: the other rules find nothing in it. -/
theorem Vocabulary.canonicalize_canonicalize_iff (source : String) :
    empty.canonicalize (empty.canonicalize source) = empty.canonicalize source ↔
      ∀ cs, .plain cs ∈ segments (empty.canonicalize source).toList →
        Canonical.SubjectsAreSettled cs := by
  rw [canonicalize, canonicalize, String.toList_ofList, ← Canonical.ofText_ofText_iff,
    String.ofList_inj]

example : Canonical.SubjectsAreSettled "player.state is_not open and x has".toList := by
  decide

/-- There is canonical text that is no fixed point: the friend is found when the name is not looked
for any more. -/
theorem Vocabulary.not_canonicalize_canonicalize :
    ¬ ∀ source, empty.canonicalize (empty.canonicalize source) = empty.canonicalize source := by
  intro h
  have hfriend := h "the name of the friend of the player is ann"
  revert hfriend
  decide +kernel

end GameCondition
