import GameCondition.Proofs.Canonical.Phrases
import GameCondition.Proofs.Text.Segments

/-! # Literals in canonical text

Making a text canonical keeps its string literals, each as it is and all in their order
(`literals_canonicalize`). What is put into a plain stretch has no quotes, so a stretch stays
plain whatever becomes of it; one that becomes empty lies beside literals that are cut apart by
their own quotes; and the white space at the end of a text is outside of literals once the text
was trimmed, even if the last of them is never closed.
-/

namespace GameCondition

/-- The literals among some segments. -/
def quotedOnes (ss : List Segment) : List Segment :=
  ss.filter fun s => !s.isPlain

/-- The literals of a text in their order. -/
def literals (cs : List Char) : List Segment :=
  quotedOnes (segments cs)

theorem quotedOnes_plain_cons (cs : List Char) (ss : List Segment) :
    quotedOnes (.plain cs :: ss) = quotedOnes ss := rfl

theorem quotedOnes_quoted_cons (cs : List Char) (ss : List Segment) :
    quotedOnes (.quoted cs :: ss) = .quoted cs :: quotedOnes ss := rfl

/-- Rewriting plain stretches keeps the literals, also where a stretch becomes empty. -/
theorem quotedOnes_rewriteSegments {ss : List Segment} (h : WellCut ss)
    (f : List Char → List Char) : quotedOnes (rewriteSegments f ss) = quotedOnes ss := by
  induction h with
  | nil => rfl
  | plain _ _ _ _ ih =>
    rw [rewriteSegments_plain_cons, quotedOnes_plain_cons, ← ih]
    split
    · rfl
    · rw [quotedOnes_plain_cons]
  | closed _ _ ih =>
    rw [rewriteSegments_quoted_cons, quotedOnes_quoted_cons, quotedOnes_quoted_cons, ih]
  | unclosed =>
    rw [rewriteSegments_quoted_cons]
    rfl

/-- Trimming the front of segments keeps the literals. -/
theorem quotedOnes_trimFront (ss : List Segment) : quotedOnes (trimFront ss) = quotedOnes ss := by
  unfold trimFront
  split
  · split
    · rw [quotedOnes_plain_cons]
    · rw [quotedOnes_plain_cons, quotedOnes_plain_cons]
  · rfl

/-- Trimming the end of segments keeps the literals. -/
theorem quotedOnes_trimBack (ss : List Segment) : quotedOnes (trimBack ss) = quotedOnes ss := by
  induction ss using trimBack.induct with
  | case1 => rfl
  | case2 cs hblank =>
    rw [trimBack, if_pos hblank]
    rfl
  | case3 cs hblank =>
    rw [trimBack, if_neg hblank]
    rfl
  | case4 s ss hlast ih =>
    rw [trimBack]
    · cases s with
      | plain cs => exact ih
      | quoted cs => rw [quotedOnes_quoted_cons, quotedOnes_quoted_cons, ih]
    · exact hlast

/-- A text without quotes has no literals. -/
theorem literals_of_noQuote {cs : List Char} (hcs : ∀ c ∈ cs, c ≠ '"') : literals cs = [] := by
  rw [literals]
  by_cases hne : cs = []
  · rw [hne, segments]
    rfl
  · rw [segments_of_noQuote hne hcs]
    rfl

namespace Canonical

/-- A text that was trimmed has the same literals after it is rewritten and trimmed again. -/
theorem literals_trim_rewritePlain {f : List Char → List Char}
    (hf : ∀ cs, (∀ c ∈ cs, c ≠ '"') → ∀ c ∈ f cs, c ≠ '"') {cs : List Char}
    (hlast : cs.getLast?.any isWhite = false) :
    literals (trim (rewritePlain f cs)) = literals cs := by
  rw [literals, segments_trim_rewritePlain hf hlast, quotedOnes_trimBack, quotedOnes_trimFront,
    quotedOnes_rewriteSegments (wellCut_segments cs) f, literals]

theorem literals_ofText {es : List ContentElement}
    (hids : ∀ e ∈ es, ∀ c ∈ e.id.toList, c ≠ '"') (cs : List Char) :
    literals (ofText (.ofElements es) cs) = literals (trim cs) := by
  cases hblank : isBlank cs with
  | true =>
    -- blank text stays as it is, and has no quotes in it
    have hwhite : ∀ c ∈ cs, c ≠ '"' := by
      rintro c hc rfl
      exact absurd (isBlank_iff.mp hblank '"' hc) (by decide)
    have htrim : ∀ c ∈ trim cs, c ≠ '"' := fun c hc => hwhite c (mem_of_mem_trim hc)
    rw [ofText, if_pos hblank, literals_of_noQuote hwhite, literals_of_noQuote htrim]
  | false =>
    rw [ofText, hblank, if_neg Bool.false_ne_true]
    exact literals_trim_rewritePlain (noQuote_rewriteSegment hids) (getLast?_trim cs)

end Canonical

/-- Canonical text has the literals of the text that an author wrote, if no id has a quote in it. -/
theorem Vocabulary.literals_canonicalize (es : List ContentElement)
    (hids : ∀ e ∈ es, ∀ c ∈ e.id.toList, c ≠ '"') (source : String) :
    literals ((ofElements es).canonicalize source).toList = literals (trimmed source).toList := by
  rw [canonicalize, trimmed, String.toList_ofList, String.toList_ofList]
  exact Canonical.literals_ofText hids source.toList

/-- Two literals, one with a quote in it and one that is never closed, beside a phrase that becomes
an id. -/
theorem Vocabulary.literals_canonicalize_unclosed :
    (∀ e ∈ [ContentElement.named "lamp" "The Brass Lamp"], ∀ c ∈ e.id.toList, c ≠ '"') ∧
      literals ((ofElements [.named "lamp" "The Brass Lamp"]).canonicalize
          " \"the \\\" lamp\" the  brass lamp is \"is not ").toList =
        literals (trimmed " \"the \\\" lamp\" the  brass lamp is \"is not ").toList ∧
      (ofElements [.named "lamp" "The Brass Lamp"]).canonicalize
          " \"the \\\" lamp\" the  brass lamp is \"is not " =
        "\"the \\\" lamp\" lamp is \"is not" :=
  have hids : ∀ e ∈ [ContentElement.named "lamp" "The Brass Lamp"],
      ∀ c ∈ e.id.toList, c ≠ '"' := by
    simp [ContentElement.named]
  ⟨hids, literals_canonicalize _ hids _, by decide +kernel⟩

end GameCondition
