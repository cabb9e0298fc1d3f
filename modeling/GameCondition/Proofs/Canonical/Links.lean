import GameCondition.Proofs.Canonical.Rules

/-! # Words and their owners

What `of` links. The rule for `W of the S` looks at a word and then at what follows it
(`takeOwned?_word_append`), so it applies nowhere in a text in which no word is followed by an owner
(`Unowned`), and there is none without an `of` between white space (`unowned_of_not_linked`). The
step before, which writes `currentScene`, brings in no such `of` (`Linked.of_rewrites`).
-/

namespace GameCondition.Canonical

variable {before : Option Char} {cs out w a rest : List Char}

/-! ## Owners behind a word -/

/-- Takes up `of the S` and gives `S` and the rest. -/
def takeOwner? (cs : List Char) : Option (List Char × List Char) := do
  let cs ← takeOf? cs
  let (subject, cs) ← takeRun? isWordChar cs
  return (← owner? subject, cs)

theorem takeRun?_word_append (hw : IsWord w) (hrest : rest.head?.any isWordChar = false) :
    takeRun? isWordChar (w ++ rest) = some (w, rest) :=
  takeRun?_eq_some.mpr ⟨rfl, hw.1, hw.2, hrest⟩

/-- Behind a word an owner is looked for. -/
theorem takeOwned?_word_append (hw : IsWord w) (hrest : rest.head?.any isWordChar = false) :
    takeOwned? (w ++ rest) =
      (takeOwner? rest).map fun (subject, behind) => (w, subject, behind) := by
  simp only [takeOwned?, takeRun?_word_append hw hrest, takeOwner?, Option.bind_eq_bind,
    Option.bind_some, Option.map_bind, Option.pure_def, Function.comp_def, Option.map_some]

/-- Whether no word of a text is followed by an owner, whatever is cut off in front. -/
def Unowned : List Char → Prop
  | [] => True
  | c :: cs => takeOwned? (c :: cs) = none ∧ Unowned cs

namespace Unowned

theorem takeOwned?_eq_none (h : Unowned (a ++ cs)) : takeOwned? cs = none := by
  induction a with
  | nil =>
    cases cs with
    | nil => rfl
    | cons c cs => exact h.1
  | cons c a ih => exact ih h.2

theorem owned_eq_none (h : Unowned cs) : owned before cs = none := by
  refine owned_eq_none_of_takeOwned? fun taken rest hcs => ?_
  rw [hcs] at h
  exact h.takeOwned?_eq_none

theorem appliesNowhere (h : Unowned cs) : AppliesNowhere owned before cs := by
  induction cs generalizing before with
  | nil => trivial
  | cons c cs ih => exact ⟨h.owned_eq_none, ih h.2⟩

theorem apart_cons {c : Char} (hc : isWordChar c = false) (h : Unowned cs) :
    Unowned (c :: cs) := by
  refine ⟨?_, h⟩
  have hrun : takeRun? isWordChar (c :: cs) = none := by simp [takeRun?, hc]
  rw [takeOwned?, hrun]
  rfl

theorem word_append (hw : IsWord w) (hrest : rest.head?.any isWordChar = false)
    (howner : takeOwner? rest = none) (h : Unowned rest) : Unowned (w ++ rest) := by
  obtain ⟨hne, hall⟩ := hw
  clear hne
  induction w with
  | nil => exact h
  | cons c w ih =>
    refine ⟨?_, ih (List.forall_mem_cons.mp hall).2⟩
    have howned := takeOwned?_word_append ⟨List.cons_ne_nil c w, hall⟩ hrest
    rwa [howner] at howned

end Unowned

/-! ## Links -/

/-- Whether `of` stands somewhere in a text between white space. -/
def Linked (cs : List Char) : Prop :=
  ∃ a gap link gap' b, cs = a ++ ((gap ++ (link ++ gap')) ++ b) ∧ gap ≠ [] ∧
    (∀ c ∈ gap, isWhite c = true) ∧ link.map foldChar = "of".toList.map foldChar ∧ gap' ≠ [] ∧
    ∀ c ∈ gap', isWhite c = true

theorem Linked.append_left (h : Linked cs) (a : List Char) : Linked (a ++ cs) := by
  obtain ⟨a', gap, link, gap', b, rfl, hlink⟩ := h
  exact ⟨a ++ a', gap, link, gap', b, (List.append_assoc ..).symm, hlink⟩

/-- An owner has a link in front of it. -/
theorem linked_of_takeOwned? {r : List Char × List Char × List Char}
    (h : takeOwned? cs = some r) : Linked cs := by
  simp only [takeOwned?, Option.bind_eq_bind, Option.bind_eq_some_iff, Prod.exists] at h
  obtain ⟨word, cs₁, hword, cs₂, hof, -⟩ := h
  obtain ⟨rfl, -⟩ := takeRun?_eq_some.mp hword
  obtain ⟨gap, link, gap', behind, rfl, hne, hwhite, hlink, hne', hwhite', -⟩ :=
    exists_of_takeOf? hof
  exact ⟨word, gap, link, gap', behind, by simp only [List.append_assoc], hne, hwhite, hlink, hne',
    hwhite'⟩

theorem unowned_of_not_linked (h : ¬ Linked cs) : Unowned cs := by
  induction cs with
  | nil => trivial
  | cons c cs ih =>
    refine ⟨?_, ih fun hcs => h (hcs.append_left [c])⟩
    rw [Option.eq_none_iff_forall_ne_some]
    exact fun r hr => h (linked_of_takeOwned? hr)

/-- Where there is a link, `of` is a word. -/
theorem Linked.exists_mem_words (h : Linked cs) :
    ∃ u ∈ words cs, u.map foldChar = "of".toList.map foldChar := by
  obtain ⟨a, gap, link, gap', b, rfl, hne, hwhite, hlink, hne', hwhite'⟩ := h
  have hword : IsWord link := isWord_of_map_foldChar (by decide) hlink
  refine ⟨link, ?_, hlink⟩
  rw [List.append_assoc, List.append_assoc, words_append_white_append hne hwhite,
    words_append_white_append hne' hwhite', words_of_isUnspaced hword.isUnspaced]
  simp

/-! ## Links in a rewritten text -/

/-- Up to the first `c` a text is not rewritten. -/
theorem exists_of_rewrites_currentScene {taken : List Char}
    (h : Rewrites currentScene before cs out) (htaken : ∀ c ∈ taken, foldChar c ≠ 'c')
    (hout : out = taken ++ rest) : ∃ rest', cs = taken ++ rest' := by
  -- by induction on the rewriting; what is put in begins with a letter that the text has not
  induction h generalizing taken with
  | nil =>
    obtain ⟨rfl, -⟩ := List.nil_eq_append_iff.mp hout
    exact ⟨[], rfl⟩
  | @keep before c cs out _ _ ih =>
    cases taken with
    | nil => exact ⟨c :: cs, rfl⟩
    | cons d taken =>
      rw [List.cons_append, List.cons.injEq] at hout
      obtain ⟨rfl, hout⟩ := hout
      obtain ⟨rest', rfl⟩ := ih (List.forall_mem_cons.mp htaken).2 hout
      exact ⟨rest', rfl⟩
  | replace _ hr _ _ =>
    cases taken with
    | nil => exact ⟨_, rfl⟩
    | cons d taken =>
      obtain ⟨_, _, _, -, -, -, -, -, -, -, rfl⟩ := currentScene_eq_some_iff.mp hr
      have hd : 'c' = d := (List.cons.inj hout).1
      rw [← hd] at htaken
      exact absurd (by decide) (htaken 'c' List.mem_cons_self)

/-- No link is brought into a text by the rule for the current scene. -/
theorem Linked.of_rewrites (h : Rewrites currentScene before cs out) (hlinked : Linked out) :
    Linked cs := by
  obtain ⟨a, gap, link, gap', b, hout, hne, hwhite, hlink, hne', hwhite'⟩ := hlinked
  have hnone : ∀ c ∈ gap ++ (link ++ gap'), foldChar c ≠ 'c' := by
    have hgap : ∀ c, isWhite c = true → foldChar c ≠ 'c' := by
      intro c hc hfold
      rw [← isWhite_foldChar, hfold] at hc
      exact absurd hc (by decide)
    simp only [List.forall_mem_append]
    refine ⟨fun c hc => hgap c (hwhite c hc), fun c hc hfold => ?_,
      fun c hc => hgap c (hwhite' c hc)⟩
    have hmem : foldChar c ∈ "of".toList.map foldChar := hlink ▸ List.mem_map_of_mem hc
    rw [hfold] at hmem
    exact absurd hmem (by decide)
  induction h generalizing a with
  | nil =>
    have hgap := (List.append_eq_nil_iff.mp (List.append_eq_nil_iff.mp hout.symm).2).1
    exact absurd (List.append_eq_nil_iff.mp hgap).1 hne
  | @keep before c cs out hkeep hrest ih =>
    cases a with
    | nil =>
      obtain ⟨rest', hrest'⟩ := exists_of_rewrites_currentScene (.keep hkeep hrest) hnone hout
      exact ⟨[], gap, link, gap', rest', hrest', hne, hwhite, hlink, hne', hwhite'⟩
    | cons d a =>
      rw [List.cons_append, List.cons.injEq] at hout
      exact (ih a hout.2).append_left [c]
  | @replace before taken text rest out _ hr _ ih =>
    obtain ⟨_, _, _, -, -, -, -, -, -, -, rfl⟩ := currentScene_eq_some_iff.mp hr
    rcases List.append_eq_append_iff.mp hout with ⟨a', -, hbehind⟩ | ⟨t, htext, hbehind⟩
    · exact (ih a' hbehind).append_left taken
    · cases t with
      | nil => exact (ih [] hbehind.symm).append_left taken
      | cons d t =>
        -- the link would begin with white space inside `currentScene`
        obtain ⟨e, gap, rfl⟩ := List.exists_cons_of_ne_nil hne
        have hde : e = d := (List.cons.inj hbehind).1
        have hd : d ∈ "currentScene".toList := by
          rw [htext]
          exact List.mem_append_right a List.mem_cons_self
        have hink : ∀ d ∈ "currentScene".toList, isWhite d = false := by decide
        have hwhite := hwhite e List.mem_cons_self
        rw [hde, hink d hd] at hwhite
        cases hwhite

end GameCondition.Canonical
