import GameCondition.Memo
import GameCondition.Proofs.Text.Folding
import GameCondition.Proofs.Text.Segments
import Mathlib.Data.List.Forall2

/-! # Keys of a memory

A key is one text, in which the literals are no longer told from what is between them. Lowering
makes and removes no quote and empties no stretch, so the key is cut where the text is
(`segments_memoKey`). Two texts share a key only if they agree segment by segment, in literals to
the letter and elsewhere but for case, and a key is its own key (`memoKey_eq_iff_and_memoKey`).
-/

namespace GameCondition

/-! ## Segments of a key -/

/-- Rewriting that empties no stretch keeps every segment. -/
theorem WellCut.rewriteSegments_eq_map {f : List Char → List Char} {ss : List Segment}
    (h : WellCut ss) (hf : ∀ cs, cs ≠ [] → f cs ≠ []) :
    GameCondition.rewriteSegments f ss = ss.map (Segment.rewrite f) := by
  induction h with
  | nil => rfl
  | plain hne _ _ _ ih => rw [rewriteSegments_plain_cons, if_neg (hf _ hne), ih]; rfl
  | closed _ _ ih => rw [rewriteSegments_quoted_cons, ih]; rfl
  | unclosed _ => rw [rewriteSegments_quoted_cons]; rfl

/-- The segments of a key are those of the text in lower case. -/
theorem segments_memoKey (text : String) : segments (memoKey text).toList =
    (segments text.toList).map (Segment.rewrite lowerText) := by
  rw [memoKey, String.toList_ofList, segments_rewritePlain noQuote_lowerText]
  exact (wellCut_segments _).rewriteSegments_eq_map fun _ => lowerText_ne_nil

/-- The segments of a text tell the text. -/
theorem segments_inj {a b : List Char} : segments a = segments b ↔ a = b := by
  constructor
  · intro h
    rw [← flatMap_text_segments a, h, flatMap_text_segments]
  · exact congrArg segments

/-! ## Texts with one key -/

/-- Whether two segments are told apart by nothing but the case of plain letters. -/
def Segment.SameKey : Segment → Segment → Prop
  | .plain a, .plain b => lowerText a = lowerText b
  | .quoted a, .quoted b => a = b
  | _, _ => False

instance (s t : Segment) : Decidable (s.SameKey t) := by
  unfold Segment.SameKey
  split <;> infer_instance

theorem Segment.sameKey_iff {s t : Segment} :
    s.SameKey t ↔ s.rewrite lowerText = t.rewrite lowerText := by
  cases s <;> cases t <;> simp [Segment.SameKey, Segment.rewrite]

theorem Segment.sameKey_eq :
    Segment.SameKey = fun s t => s.rewrite lowerText = t.rewrite lowerText :=
  funext₂ fun _ _ => propext Segment.sameKey_iff

/-- Two texts have one key iff they have equally many segments and those in the same place are
equal, where case counts in literals only; and the key of a key is that key. -/
theorem memoKey_eq_iff_and_memoKey (a b : String) :
    (memoKey a = memoKey b ↔
      List.Forall₂ Segment.SameKey (segments a.toList) (segments b.toList)) ∧
    memoKey (memoKey a) = memoKey a := by
  constructor
  · calc memoKey a = memoKey b
        ↔ segments (memoKey a).toList = segments (memoKey b).toList := by
          rw [segments_inj, String.toList_inj]
      _ ↔ (segments a.toList).map (Segment.rewrite lowerText) =
            (segments b.toList).map (Segment.rewrite lowerText) := by
          rw [segments_memoKey, segments_memoKey]
      _ ↔ List.Forall₂ (fun s t => s.rewrite lowerText = t.rewrite lowerText)
            (segments a.toList) (segments b.toList) := by
          rw [← List.forall₂_eq_eq_eq, List.forall₂_map_left_iff, List.forall₂_map_right_iff]
      _ ↔ List.Forall₂ Segment.SameKey (segments a.toList) (segments b.toList) := by
          rw [Segment.sameKey_eq]
  · have htwice : lowerText ∘ lowerText = lowerText := funext lowerText_lowerText
    rw [memoKey, memoKey, String.toList_ofList, rewritePlain_rewritePlain noQuote_lowerText rfl,
      htwice]

/-- A literal that is never closed keeps its case, and so does what an escaped quote is in front
of. -/
example : memoKey "X IS \"a\\\" B\" AND \"C" = "x is \"a\\\" B\" and \"C" := by
  decide +kernel

end GameCondition
