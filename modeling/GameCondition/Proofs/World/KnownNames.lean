import GameCondition.Engine
import GameCondition.Proofs.Condition.Warnings
import GameCondition.Proofs.Text.LetterCase
import GameCondition.Proofs.Vocabulary.Table
import GameCondition.World.Naming

/-! # Known names and names that resolve

The names that a check knows are lowered as texts, the ids of a world are compared character by
character, and the two do not always agree: a capital sigma at the end of a word is lowered to
another letter in a text. So a check may warn of an item that is there, and pass over one that is
not (`not_warns_iff_unresolved`). Where no capital sigma ends a word they agree
(`warns_iff_unresolved`).
-/

namespace GameCondition

namespace World

variable (w : World)

/-- The elements that a check of a world knows. -/
theorem elements_knownNames : w.vocabulary.knownNames.elements = .ofList (w.elements.map (·.id)) := by
  rw [vocabulary, Vocabulary.knownNames, Vocabulary.elementIds, Vocabulary.ofElements, List.map_map]
  rfl

theorem knows_iff {id : String} : w.vocabulary.knownNames.elements.contains id = true ↔
    ∃ e ∈ w.elements, lowered e.id = lowered id := by
  rw [elements_knownNames, NameSet.contains_ofList]
  simp

/-- An item may be any element. -/
theorem resolve?_item (id : String) : w.resolve? (.item id) = w.find? id := by
  show w.element? .item id = w.find? id
  rw [element?]
  cases w.find? id <;> rfl

theorem resolve?_item_eq_none_iff {id : String} :
    w.resolve? (.item id) = none ↔ ¬ ∃ e ∈ w.elements, sameName e.id id = true := by
  rw [resolve?_item, find?, List.find?_eq_none]
  simp

/-- Of an item that a leaf is about a check warns just if the world does not resolve it exactly
where an id that is the same lowered as a text is there just if one is there that is the same
character by character. That is so if no capital sigma ends a word of any of the names. -/
theorem warns_iff_unresolved {c l : Condition} (hl : l ∈ c.leaves) {id : String}
    (hid : .item id ∈ l.subjects) :
    ((KnownNames.unknownElement id l.span ∈ w.vocabulary.knownNames.warnings c ↔
        w.resolve? (.item id) = none) ↔
      ((∃ e ∈ w.elements, lowered e.id = lowered id) ↔
        ∃ e ∈ w.elements, sameName e.id id = true)) ∧
    ((∀ name ∈ id :: w.elements.map (·.id), ¬ HasFinalSigma name.toList) →
      (KnownNames.unknownElement id l.span ∈ w.vocabulary.knownNames.warnings c ↔
        w.resolve? (.item id) = none)) := by
  -- the names are lowered whole for the warning, and character by character in the world
  have hexact : (KnownNames.unknownElement id l.span ∈ w.vocabulary.knownNames.warnings c ↔
        w.resolve? (.item id) = none) ↔
      ((∃ e ∈ w.elements, lowered e.id = lowered id) ↔
        ∃ e ∈ w.elements, sameName e.id id = true) := by
    rw [KnownNames.mem_warnings_item _ hl hid, resolve?_item_eq_none_iff, ← Bool.not_eq_true,
      knows_iff, not_iff_not]
  refine ⟨hexact, ?_⟩
  intro hsigma
  rw [hexact]
  rw [List.forall_mem_cons, List.forall_mem_map] at hsigma
  refine exists_congr fun e => and_congr_right fun he => ?_
  exact lowered_eq_iff_sameName (hsigma.2 e he) hsigma.1

/-- A world with a single thing. -/
def single (id : String) : World :=
  empty.addElement (.ofId id .item)

/-- Whether a thing is open. -/
def isOpen (id : String) : Condition :=
  .relation ⟨.item id, .is, .element "open", none, none, .atStart⟩

theorem warns_iff_unresolved_single :
    isOpen "DESK" ∈ (isOpen "DESK").leaves ∧ .item "DESK" ∈ (isOpen "DESK").subjects ∧
      (∀ name ∈ "DESK" :: (single "Desk").elements.map (·.id), ¬ HasFinalSigma name.toList) ∧
      (KnownNames.unknownElement "DESK" (isOpen "DESK").span ∈
          (single "Desk").vocabulary.knownNames.warnings (isOpen "DESK") ↔
        (single "Desk").resolve? (.item "DESK") = none) := by
  have hleaf : isOpen "DESK" ∈ (isOpen "DESK").leaves := by decide
  have hsubject : .item "DESK" ∈ (isOpen "DESK").subjects := by decide
  have hsigma : ∀ name ∈ "DESK" :: (single "Desk").elements.map (·.id),
      ¬ HasFinalSigma name.toList := by
    decide
  exact ⟨hleaf, hsubject, hsigma, (warns_iff_unresolved _ hleaf hsubject).2 hsigma⟩

/-- A check may warn of an item that is there: in small letters the last letter of its id is
another in a text than by itself. -/
theorem not_warns_iff_unresolved :
    ¬ ∀ (w : World) (c l : Condition) (id : String), l ∈ c.leaves → .item id ∈ l.subjects →
      (KnownNames.unknownElement id l.span ∈ w.vocabulary.knownNames.warnings c ↔
        w.resolve? (.item id) = none) := by
  intro h
  have hwarned : KnownNames.unknownElement "οδοσ" (isOpen "οδοσ").span ∈
      (single "ΟΔΟΣ").vocabulary.knownNames.warnings (isOpen "οδοσ") := by
    decide +kernel
  have hthere : ((single "ΟΔΟΣ").resolve? (.item "οδοσ")).isNone = false := by
    decide +kernel
  have hnone := (h (single "ΟΔΟΣ") (isOpen "οδοσ") (isOpen "οδοσ") "οδοσ" (by decide)
    (by decide)).mp hwarned
  rw [hnone] at hthere
  cases hthere

end World

end GameCondition
