import GameCondition.Proofs.Text.Phrases

/-! # Rules for words

A rule that replaces nothing but whole words goes through a text word by word (`wordRule`). If words
are replaced by words, and those are kept or replaced by themselves, then a text is rewritten as far
as it will go in one pass, however the words are connected (`rewriteBy_wordRule_twice`).
-/

namespace GameCondition

/-- A word of free text. -/
def IsWord (w : List Char) : Prop :=
  w ≠ [] ∧ ∀ c ∈ w, isWordChar c = true

instance (w : List Char) : Decidable (IsWord w) :=
  decidable_of_iff (w ≠ [] ∧ w.all isWordChar = true) (by rw [List.all_eq_true, IsWord])

theorem IsWord.head?_append {w : List Char} (h : IsWord w) (rest : List Char) :
    (w ++ rest).head?.any isWordChar = true := by
  obtain ⟨c, w, rfl⟩ := List.exists_cons_of_ne_nil h.1
  exact h.2 c List.mem_cons_self

theorem IsWord.getLast? {w : List Char} (h : IsWord w) : w.getLast?.any isWordChar = true := by
  rw [List.getLast?_eq_some_getLast h.1]
  exact h.2 _ (List.getLast_mem h.1)

theorem IsWord.head?_white {w : List Char} (h : IsWord w) (rest : List Char) :
    (w ++ rest).head?.any isWhite = false := by
  obtain ⟨c, w, rfl⟩ := List.exists_cons_of_ne_nil h.1
  exact isWhite_of_isWordChar (h.2 c List.mem_cons_self)

theorem IsWord.getLast?_or {w : List Char} (h : IsWord w) (before : Option Char) :
    w.getLast?.or before = w.getLast? := by
  rw [List.getLast?_eq_some_getLast h.1, Option.some_or]

theorem IsWord.isUnspaced {w : List Char} (h : IsWord w) : IsUnspaced w :=
  ⟨h.1, fun c hc => isWhite_of_isWordChar (h.2 c hc)⟩

theorem ne_quote_of_isWordChar {c : Char} (h : isWordChar c = true) : c ≠ '"' := by
  rintro rfl
  exact absurd h (by decide)

/-- What is a word of letters but for case is a word. -/
theorem isWord_of_map_foldChar {v w : List Char} (hv : isLetterWord v = true)
    (h : w.map foldChar = v.map foldChar) : IsWord w := by
  rw [← isLetterWord_of_map_foldChar h, isLetterWord_iff] at hv
  exact ⟨hv.1, fun c hc => isWordChar_of_foldsToLetter (hv.2 c hc)⟩

/-- The words at the beginning of a text are one, if both end there. -/
theorem IsWord.append_inj {w w' rest rest' : List Char} (hw : IsWord w) (hw' : IsWord w')
    (hrest : rest.head?.any isWordChar = false) (hrest' : rest'.head?.any isWordChar = false)
    (h : w ++ rest = w' ++ rest') : w = w' ∧ rest = rest' :=
  run_append_inj hw.1 hw.2 hrest hw'.1 hw'.2 hrest' h

variable {before before' : Option Char} {cs out w text rest : List Char}

/-! ## Rules that apply where words begin -/

/-- Whether a rule applies nowhere but where a word begins. -/
def Rule.OpensWords (rule : Rule) : Prop :=
  ∀ before cs r, rule before cs = some r →
    before.any isWordChar = false ∧ cs.head?.any isWordChar = true

namespace Rule.OpensWords

variable {rule : Rule} (h : rule.OpensWords)

include h

theorem eq_none_inside (hbefore : before.any isWordChar = true) (cs : List Char) :
    rule before cs = none := by
  rw [Option.eq_none_iff_forall_ne_some]
  intro r hr
  rw [(h before cs r hr).1] at hbefore
  cases hbefore

theorem eq_none_apart (hcs : cs.head?.any isWordChar = false) : rule before cs = none := by
  rw [Option.eq_none_iff_forall_ne_some]
  intro r hr
  rw [(h before cs r hr).2] at hcs
  cases hcs

/-- Nothing is replaced inside a word. -/
theorem passesOver_inside (hbefore : before.any isWordChar = true)
    (hw : ∀ c ∈ w, isWordChar c = true) : PassesOver rule rest before w := by
  induction w generalizing before with
  | nil => trivial
  | cons c w ih =>
    obtain ⟨hc, hw⟩ := List.forall_mem_cons.mp hw
    exact ⟨h.eq_none_inside hbefore _, ih hc hw⟩

/-- A word is passed over if the rule does not apply where it begins. -/
theorem passesOver_word (hw : IsWord w) (hnone : rule before (w ++ rest) = none) :
    PassesOver rule rest before w := by
  obtain ⟨c, w, rfl⟩ := List.exists_cons_of_ne_nil hw.1
  obtain ⟨hc, htail⟩ := List.forall_mem_cons.mp hw.2
  exact ⟨hnone, h.passesOver_inside hc htail⟩

/-- What is between words is passed over. -/
theorem passesOver_apart {gap : List Char} (hgap : ∀ c ∈ gap, isWordChar c = false) :
    PassesOver rule rest before gap := by
  induction gap generalizing before with
  | nil => trivial
  | cons c gap ih =>
    obtain ⟨hc, hgap⟩ := List.forall_mem_cons.mp hgap
    exact ⟨h.eq_none_apart hc, ih hgap⟩

/-- Where no word begins the rewritten text begins with none either. -/
theorem head?_of_rewrites (hr : Rewrites rule before cs out)
    (hcs : cs.head?.any isWordChar = false) : out.head?.any isWordChar = false := by
  cases hr with
  | nil => rfl
  | keep => exact hcs
  | replace _ hsome _ =>
    rw [h.eq_none_apart hcs] at hsome
    cases hsome

/-- Behind a character of a word the rewritten text begins with the same characters of words, and
they end where they ended. -/
theorem beginsAlike (hr : Rewrites rule before cs out) (hbefore : before.any isWordChar = true) :
    BeginsAlike (fun c => isWordChar c = true) cs out := by
  refine hr.beginsAlike (P := fun before => before.any isWordChar = true) hbefore
    (fun _ hc => hc) ?_
  intro before taken text rest hbefore hsome
  rw [h.eq_none_inside hbefore] at hsome
  cases hsome

end Rule.OpensWords

/-! ## Words and what is put for them -/

/-- The rule that replaces those words for which there is something to put. -/
def wordRule (f : List Char → Option (List Char)) : Rule := fun before cs => do
  if before.any isWordChar then none
  else
    let (w, rest) ← takeRun? isWordChar cs
    return ⟨← f w, rest⟩

variable {f : List Char → Option (List Char)}

/-- A word is replaced where it is not part of a longer one. -/
theorem wordRule_eq_some : wordRule f before cs = some ⟨text, rest⟩ ↔
    ∃ w, cs = w ++ rest ∧ IsWord w ∧ before.any isWordChar = false ∧
      rest.head?.any isWordChar = false ∧ f w = some text := by
  simp only [wordRule, Option.ite_none_left_eq_some, Option.bind_eq_bind, Option.bind_eq_some_iff,
    Option.pure_def, Option.some.injEq, Prod.exists, Replacement.mk.injEq, takeRun?_eq_some,
    Bool.not_eq_true]
  constructor
  · rintro ⟨hbefore, w, rest, ⟨hcs, hne, hall, hrest⟩, text, hf, rfl, rfl⟩
    exact ⟨w, hcs, ⟨hne, hall⟩, hbefore, hrest, hf⟩
  · rintro ⟨w, hcs, hw, hbefore, hrest, hf⟩
    exact ⟨hbefore, w, rest, ⟨hcs, hw.1, hw.2, hrest⟩, text, hf, rfl, rfl⟩

theorem wordRule_advances (f : List Char → Option (List Char)) : (wordRule f).Advances := by
  rintro before cs ⟨text, rest⟩ h
  obtain ⟨w, hcs, hw, -⟩ := wordRule_eq_some.mp h
  exact ⟨w, hw.1, hcs⟩

theorem wordRule_eq_none_iff : wordRule f before cs = none ↔
    ∀ w rest, cs = w ++ rest → IsWord w → before.any isWordChar = false →
      rest.head?.any isWordChar = false → f w = none := by
  rw [Option.eq_none_iff_forall_ne_some]
  constructor
  · intro h w rest hcs hw hbefore hrest
    rw [Option.eq_none_iff_forall_ne_some]
    intro text htext
    exact h ⟨text, rest⟩ (wordRule_eq_some.mpr ⟨w, hcs, hw, hbefore, hrest, htext⟩)
  · rintro h ⟨text, rest⟩ hsome
    obtain ⟨w, hcs, hw, hbefore, hrest, htext⟩ := wordRule_eq_some.mp hsome
    rw [h w rest hcs hw hbefore hrest] at htext
    cases htext

theorem wordRule_opensWords (f : List Char → Option (List Char)) : (wordRule f).OpensWords := by
  rintro before cs ⟨text, rest⟩ h
  obtain ⟨w, rfl, hw, hbefore, -⟩ := wordRule_eq_some.mp h
  exact ⟨hbefore, hw.head?_append rest⟩

/-- A word for which there is nothing to put is passed over. -/
theorem passesOver_wordRule (hw : IsWord w) (hrest : rest.head?.any isWordChar = false)
    (hf : f w = none) : PassesOver (wordRule f) rest before w := by
  refine (wordRule_opensWords f).passesOver_word hw (wordRule_eq_none_iff.mpr ?_)
  intro w' rest' hcs hw' _ hrest'
  obtain ⟨rfl, -⟩ := hw.append_inj hw' hrest hrest' hcs
  exact hf

/-! ## Rewritten words -/

variable (hf : ∀ w text, IsWord w → f w = some text →
  IsWord text ∧ (f text = none ∨ f text = some text))

include hf

/-- What was rewritten stays as it is when it is rewritten again. -/
theorem rewriteFrom_wordRule_of_rewrites (h : Rewrites (wordRule f) before cs out)
    (hbefore : before'.any isWordChar = before.any isWordChar) :
    rewriteFrom (wordRule f) 0 before' out = out := by
  induction h generalizing before' with
  | nil => rfl
  | @keep before c cs out hnone hrest ih =>
    have hkeep : wordRule f before' (c :: out) = none := by
      rw [wordRule_eq_none_iff]
      rintro w rest hout hw hopens hcloses
      obtain ⟨d, w, rfl⟩ := List.exists_cons_of_ne_nil hw.1
      rw [List.cons_append, List.cons.injEq] at hout
      obtain ⟨rfl, rfl⟩ := hout
      obtain ⟨hc, htail⟩ := List.forall_mem_cons.mp hw.2
      -- the same word was there before, and nothing was put for it
      obtain ⟨rest', rfl, hcloses'⟩ :=
        (wordRule_opensWords f).beginsAlike hrest hc w rest rfl htail hcloses
      exact wordRule_eq_none_iff.mp hnone (c :: w) rest' rfl hw (hbefore ▸ hopens) hcloses'
    rw [rewriteFrom, hkeep]
    dsimp only
    rw [ih rfl]
  | @replace before taken text rest out hne hr hrest ih =>
    obtain ⟨w, heq, hw, hopens, hcloses, htext⟩ := wordRule_eq_some.mp hr
    obtain rfl := List.append_cancel_right heq
    obtain ⟨hword, hagain⟩ := hf taken text hw htext
    have hout := (wordRule_opensWords f).head?_of_rewrites hrest hcloses
    have hrest' : rewriteFrom (wordRule f) 0 text.getLast? out = out :=
      ih (by rw [hword.getLast?, hw.getLast?])
    rcases hagain with hnone | hsome
    · rw [rewriteFrom_of_passesOver (passesOver_wordRule hword hout hnone), hword.getLast?_or,
        hrest']
    · rw [rewriteFrom_taken hword.1 (wordRule_eq_some.mpr
        ⟨text, rfl, hword, hbefore.trans hopens, hout, hsome⟩), hrest']

/-- If what is put for a word is a word and stays as it is, a text need not be rewritten twice. -/
theorem rewriteBy_wordRule_twice (cs : List Char) :
    rewriteBy (wordRule f) (rewriteBy (wordRule f) cs) = rewriteBy (wordRule f) cs :=
  rewriteFrom_wordRule_of_rewrites hf (Rewrites.rewriteBy (wordRule_advances f) cs) rfl

end GameCondition
