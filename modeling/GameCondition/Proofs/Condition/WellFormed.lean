import GameCondition.Proofs.Condition.Reprinting

/-! # What was read is well formed

Whatever judges, checks, prints or projects a condition relies on its names being such as a text
can have, and on its numbers being numbers. A condition that was read keeps to that
(`Condition.isWellFormed_of_read`): its names are words of the text, and the digits of a text never
spell what is not a number.
-/

namespace GameCondition

open Grammar

/-! ## Well-formed conditions -/

/-- Whether a number is none. -/
def Number.isNaN : Number → Bool
  | nan _ => true
  | _ => false

/-- Whether the names of a relation fit their places, and its operand is none but a number. -/
structure Relation.IsWellFormed (r : Relation) : Prop extends r.IsWritable where
  number : ∀ n, r.operand = .number n → n.isNaN = false

/-- Whether all leaves of a condition are well formed. Of counts and distances nothing more is asked
than that they can be written. -/
def Condition.IsWellFormed : Condition → Prop
  | .and l r _ => l.IsWellFormed ∧ r.IsWellFormed
  | .or l r _ => l.IsWellFormed ∧ r.IsWellFormed
  | .not c _ => c.IsWellFormed
  | .relation r => r.IsWellFormed
  | .visits v => v.IsWritable
  | .distance d => d.IsWritable

namespace Condition

theorem isWellFormed_iff_leaves {c : Condition} :
    c.IsWellFormed ↔ ∀ leaf ∈ c.leaves, leaf.IsWellFormed := by
  induction c with
  | and l r span ihl ihr => simp [IsWellFormed, leaves, ihl, ihr, or_imp, forall_and]
  | or l r span ihl ihr => simp [IsWellFormed, leaves, ihl, ihr, or_imp, forall_and]
  | not c span ih => simp [IsWellFormed, leaves, ih]
  | _ => simp [leaves]

end Condition

/-! ## Numbers in a text -/

theorem Number.isNaN_ofRank (negative : Bool) (rank : Nat) :
    (ofRank negative rank).isNaN = false := by
  unfold ofRank
  split <;> rfl

/-- Digits spell a number. -/
theorem Number.isNaN_ofScientific (negative : Bool) (coefficient : Nat) (exponent : Int) :
    (ofScientific negative coefficient exponent).isNaN = false := by
  unfold ofScientific ofRatio
  dsimp only
  repeat' split
  · exact isNaN_ofRank _ _
  · rfl
  · exact isNaN_ofRank _ _
  · exact isNaN_ofRank _ _
  · exact isNaN_ofRank _ _

theorem Lexeme.isNaN_of_kind {c : Char} {cs : List Char} {n : Number}
    (h : (Lexeme.ofText c cs).kind = .number n) : n.isNaN = false := by
  have hnumber : ∀ negative first, (Lexeme.number negative first cs).kind = .number n →
      n.isNaN = false := by
    intro negative first hkind
    rw [Lexeme.number, Token.Kind.number.injEq] at hkind
    rw [← hkind]
    exact Number.isNaN_ofScientific _ _ _
  unfold ofText at h
  repeat' split at h
  · cases h
  · cases h
  · cases h
  · unfold string at h
    dsimp only at h
    split at h <;> cases h
  · exact hnumber _ _ h
  · exact hnumber _ _ h
  · unfold word at h
    dsimp only at h
    split at h <;> cases h
  · cases h

/-- What a text has for a number is one. -/
theorem isNaN_of_mem_terminals {cs : List Char} {n : Number}
    (h : Terminal.kind (.number n) ∈ terminals cs) : n.isNaN = false := by
  refine terminals_induction
    (motive := fun ts => Terminal.kind (.number n) ∈ ts → n.isNaN = false) ?_ ?_ cs h
  · intro h
    simp at h
  · intro c ds ts ih h
    rcases List.mem_cons.mp h with h | h
    · exact Lexeme.isNaN_of_kind (Token.terminal_eq_kind_iff.mp h.symm).1
    · exact ih h

/-! ## Leaves of a text -/

namespace Condition

/-- The numbers of a phrase stand in it. -/
theorem mem_terminals_of_number {p : Phrase} {r : Relation} {n : Number}
    (hleaf : p.leaf = (relation r).unplaced) (hn : r.operand = .number n) :
    Terminal.kind (.number n) ∈ p.terminals := by
  rcases exists_compares_of_leaf hleaf hn with ⟨subject, fs, c, rfl⟩
  simp [Phrase.terminals, Phrase.predicate, ValuePhrase.terminals]

/-- Every condition that is read from a text is well formed. -/
theorem isWellFormed_of_read {limit : Nat} {source : String} {c : Condition}
    (h : read limit source = .ok c) : c.IsWellFormed := by
  have hwritable := isWritable_iff_leaves.mp (isWritable_of_read h)
  refine isWellFormed_iff_leaves.mpr fun leaf hleaf => ?_
  have hw := hwritable leaf hleaf
  rcases exists_phrase_of_read h leaf hleaf with ⟨p, hpleaf, hterminals⟩
  cases leaf with
  | relation r =>
      refine ⟨hw, fun n hn => ?_⟩
      exact isNaN_of_mem_terminals (hterminals _ (mem_terminals_of_number hpleaf hn))
  | visits v => exact hw
  | distance d => exact hw
  | _ => cases p <;> cases hpleaf

/-- That the dog of a person is hers. -/
def annHasRex : Condition :=
  .and (.relation ⟨⟨.npc, some "ann"⟩, .is, .element "rex", none, some "dog", ⟨0, 18, 1, 1⟩⟩)
    (.relation ⟨⟨.npc, some "ann"⟩, .has, .element "rex", none, none, ⟨23, 38, 1, 24⟩⟩)
    ⟨0, 38, 1, 1⟩

theorem isWellFormed_of_read_annHasRex :
    read 64 "npc ann.dog is rex and npc ann has rex" = .ok annHasRex ∧ annHasRex.IsWellFormed := by
  have hread : read 64 "npc ann.dog is rex and npc ann has rex" = .ok annHasRex := by
    decide +kernel
  exact ⟨hread, isWellFormed_of_read hread⟩

end Condition

end GameCondition
