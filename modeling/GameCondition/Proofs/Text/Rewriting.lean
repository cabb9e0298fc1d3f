import GameCondition.Text.Rewriting

/-! # What rewriting by a rule does

`Rewrites` relates a text to what a rule makes of it, one character or one replacement at a time.
`rewriteBy` does so for every rule that takes something up (`Rule.Advances`,
`Rewrites.rewriteFrom`), so facts about it are inductions over `Rewrites`: it does nothing where
the rule applies nowhere, it brings in no characters that the rule does not, and a rule that
shortens makes the text shorter wherever it applies.
-/

namespace GameCondition

variable {rule : Rule} {before : Option Char} {cs out : List Char}

/-! ## Steps of a rewriting -/

/-- What a rule replaces is the beginning of the text, and is not empty. -/
def Rule.Advances (rule : Rule) : Prop :=
  ∀ before cs r, rule before cs = some r → ∃ taken, taken ≠ [] ∧ cs = taken ++ r.rest

/-- A rule rewrites the text after a place to another text. -/
inductive Rewrites (rule : Rule) : Option Char → List Char → List Char → Prop where
  | nil (before : Option Char) : Rewrites rule before [] []
  | keep {before : Option Char} {c : Char} {cs out : List Char} :
      rule before (c :: cs) = none → Rewrites rule (some c) cs out →
      Rewrites rule before (c :: cs) (c :: out)
  | replace {before : Option Char} {taken text rest out : List Char} :
      taken ≠ [] → rule before (taken ++ rest) = some ⟨text, rest⟩ →
      Rewrites rule taken.getLast? rest out → Rewrites rule before (taken ++ rest) (text ++ out)

theorem getLast?_cons_or (c : Char) (cs : List Char) (before : Option Char) :
    (c :: cs).getLast?.or before = cs.getLast?.or (some c) := by
  rw [List.getLast?_cons]
  cases cs.getLast? <;> rfl

/-- Replaced characters are passed over. -/
theorem rewriteFrom_length_append (taken rest : List Char) :
    rewriteFrom rule taken.length before (taken ++ rest) =
      rewriteFrom rule 0 (taken.getLast?.or before) rest := by
  induction taken generalizing before with
  | nil => rfl
  | cons c taken ih =>
    rw [List.length_cons, List.cons_append, rewriteFrom, ih, getLast?_cons_or]

theorem rewriteFrom_replace {c : Char} {taken text rest : List Char}
    (h : rule before (c :: taken ++ rest) = some ⟨text, rest⟩) :
    rewriteFrom rule 0 before (c :: taken ++ rest) =
      text ++ rewriteFrom rule 0 (c :: taken).getLast? rest := by
  have hskip : (taken ++ rest).length - rest.length = taken.length := by
    rw [List.length_append, Nat.add_sub_cancel]
  rw [List.cons_append] at h ⊢
  rw [rewriteFrom, h]
  dsimp only
  rw [hskip, rewriteFrom_length_append, List.getLast?_cons]
  cases taken.getLast? <;> rfl

theorem rewriteFrom_taken {taken text rest : List Char} (hne : taken ≠ [])
    (h : rule before (taken ++ rest) = some ⟨text, rest⟩) :
    rewriteFrom rule 0 before (taken ++ rest) =
      text ++ rewriteFrom rule 0 taken.getLast? rest := by
  obtain ⟨c, taken, rfl⟩ := List.exists_cons_of_ne_nil hne
  exact rewriteFrom_replace h

/-- `rewriteBy` does what `Rewrites` says. -/
theorem Rewrites.rewriteFrom (hrule : rule.Advances) (before : Option Char) (cs : List Char) :
    Rewrites rule before cs (rewriteFrom rule 0 before cs) := by
  -- by induction on the length, since a replacement may take any number of characters
  induction hn : cs.length using Nat.strongRecOn generalizing before cs with
  | ind n ih =>
    cases cs with
    | nil => exact .nil before
    | cons c cs =>
      cases hr : rule before (c :: cs) with
      | none =>
        rw [GameCondition.rewriteFrom, hr]
        exact .keep hr (ih cs.length (by simp [← hn]) _ _ rfl)
      | some r =>
        obtain ⟨taken, htaken, hcs⟩ := hrule _ _ _ hr
        cases taken with
        | nil => exact absurd rfl htaken
        | cons d taken =>
          have hlength : r.rest.length < n := by
            rw [← hn, hcs, List.length_append, List.length_cons]
            omega
          rw [hcs] at hr ⊢
          rw [rewriteFrom_replace hr]
          exact .replace htaken hr (ih _ hlength _ _ rfl)

/-- Rewriting begins at the beginning of the text. -/
theorem Rewrites.rewriteBy (hrule : rule.Advances) (cs : List Char) :
    Rewrites rule none cs (rewriteBy rule cs) :=
  Rewrites.rewriteFrom hrule none cs

/-- A rule rewrites a text to no other than that which `rewriteFrom` gives. -/
theorem Rewrites.eq_rewriteFrom (h : Rewrites rule before cs out) :
    out = GameCondition.rewriteFrom rule 0 before cs := by
  induction h with
  | nil => rfl
  | keep hnone _ ih => rw [GameCondition.rewriteFrom, hnone, ih]
  | @replace before taken text rest out hne hr _ ih =>
    rw [rewriteFrom_taken hne hr, ih]

/-- `rewriteBy` gives a text if the rule rewrites the text to that. -/
theorem rewriteBy_eq_iff (hrule : rule.Advances) :
    rewriteBy rule cs = out ↔ Rewrites rule none cs out := by
  constructor
  · rintro rfl
    exact Rewrites.rewriteBy hrule cs
  · intro h
    exact h.eq_rewriteFrom.symm

/-! ## Texts in which a rule applies nowhere -/

/-- A rule applies at no place of a text. -/
def AppliesNowhere (rule : Rule) : Option Char → List Char → Prop
  | _, [] => True
  | before, c :: cs => rule before (c :: cs) = none ∧ AppliesNowhere rule (some c) cs

instance decidableAppliesNowhere (rule : Rule) :
    ∀ before cs, Decidable (AppliesNowhere rule before cs)
  | _, [] => inferInstanceAs (Decidable True)
  | before, c :: cs =>
    have := decidableAppliesNowhere rule (some c) cs
    inferInstanceAs (Decidable (rule before (c :: cs) = none ∧ AppliesNowhere rule (some c) cs))

theorem rewriteFrom_of_appliesNowhere (h : AppliesNowhere rule before cs) :
    rewriteFrom rule 0 before cs = cs := by
  induction cs generalizing before with
  | nil => rfl
  | cons c cs ih =>
    obtain ⟨hnone, hcs⟩ := h
    rw [rewriteFrom, hnone]
    dsimp only
    rw [ih hcs]

/-- A text in which a rule applies nowhere stays as it is. -/
theorem rewriteBy_of_appliesNowhere (h : AppliesNowhere rule none cs) : rewriteBy rule cs = cs :=
  rewriteFrom_of_appliesNowhere h

/-- A rule applies at no place of the first of two texts, as far as the second lets it see. -/
def PassesOver (rule : Rule) (rest : List Char) : Option Char → List Char → Prop
  | _, [] => True
  | before, c :: cs => rule before (c :: (cs ++ rest)) = none ∧ PassesOver rule rest (some c) cs

/-- What a rule passes over stays as it is. -/
theorem rewriteFrom_of_passesOver {rest : List Char} (h : PassesOver rule rest before cs) :
    rewriteFrom rule 0 before (cs ++ rest) =
      cs ++ rewriteFrom rule 0 (cs.getLast?.or before) rest := by
  induction cs generalizing before with
  | nil => rfl
  | cons c cs ih =>
    obtain ⟨hnone, hcs⟩ := h
    rw [List.cons_append, rewriteFrom, hnone]
    dsimp only
    rw [ih hcs, getLast?_cons_or, List.cons_append]

theorem PassesOver.append {a b rest : List Char} (ha : PassesOver rule (b ++ rest) before a)
    (hb : PassesOver rule rest (a.getLast?.or before) b) :
    PassesOver rule rest before (a ++ b) := by
  induction a generalizing before with
  | nil => exact hb
  | cons c a ih =>
    obtain ⟨hnone, htail⟩ := ha
    rw [getLast?_cons_or] at hb
    rw [← List.append_assoc] at hnone
    exact ⟨hnone, ih htail hb⟩

/-- A rule that applies at no white space passes over it. -/
theorem passesOver_white {gap : List Char}
    (hrule : ∀ before c cs, isWhite c = true → rule before (c :: cs) = none)
    (hgap : ∀ c ∈ gap, isWhite c = true) (before : Option Char) (rest : List Char) :
    PassesOver rule rest before gap := by
  induction gap generalizing before with
  | nil => trivial
  | cons c gap ih =>
    rw [List.forall_mem_cons] at hgap
    exact ⟨hrule before c (gap ++ rest) hgap.1, ih hgap.2 (some c)⟩

theorem rewriteFrom_white {gap : List Char}
    (hrule : ∀ before c cs, isWhite c = true → rule before (c :: cs) = none)
    (hgap : ∀ c ∈ gap, isWhite c = true) (before : Option Char) :
    rewriteFrom rule 0 before gap = gap := by
  have hpass := rewriteFrom_of_passesOver (passesOver_white hrule hgap before [])
  rwa [List.append_nil, rewriteFrom, List.append_nil] at hpass

/-! ## Characters and lengths -/

/-- Every character of the rewritten text was there before or comes from a replacement. -/
theorem Rewrites.forall_mem {P : Char → Prop} (h : Rewrites rule before cs out)
    (hrule : ∀ before taken text rest, rule before (taken ++ rest) = some ⟨text, rest⟩ →
      (∀ c ∈ taken, P c) → ∀ c ∈ text, P c)
    (hcs : ∀ c ∈ cs, P c) : ∀ c ∈ out, P c := by
  induction h with
  | nil => exact hcs
  | keep _ _ ih =>
    rw [List.forall_mem_cons] at hcs ⊢
    exact ⟨hcs.1, ih hcs.2⟩
  | replace _ hr _ ih =>
    rw [List.forall_mem_append] at hcs ⊢
    exact ⟨hrule _ _ _ _ hr hcs.1, ih hcs.2⟩

/-- A rule whose replacements are no longer than what they stand for lengthens no text. -/
theorem Rewrites.length_le (h : Rewrites rule before cs out)
    (hrule : ∀ before cs r, rule before cs = some r →
      r.text.length + r.rest.length ≤ cs.length) : out.length ≤ cs.length := by
  induction h with
  | nil => exact Nat.le_refl _
  | keep _ _ ih => exact Nat.succ_le_succ ih
  | replace _ hr _ ih =>
    have hlength := hrule _ _ _ hr
    rw [List.length_append]
    dsimp only at hlength
    omega

/-- A rule whose replacements are shorter than what they stand for shortens every text in which it
applies somewhere. -/
theorem Rewrites.length_lt (h : Rewrites rule before cs out)
    (hrule : ∀ before cs r, rule before cs = some r →
      r.text.length + r.rest.length < cs.length)
    (happlies : ¬ AppliesNowhere rule before cs) : out.length < cs.length := by
  induction h with
  | nil => exact absurd trivial happlies
  | keep hnone _ ih =>
    refine Nat.succ_lt_succ (ih fun hnowhere => ?_)
    exact happlies ⟨hnone, hnowhere⟩
  | replace _ hr hrest _ =>
    have hlength := hrule _ _ _ hr
    have hout := hrest.length_le fun before cs r hr => Nat.le_of_lt (hrule before cs r hr)
    rw [List.length_append]
    dsimp only at hlength
    omega

/-! ## Taking up characters -/

variable {cs taken rest : List Char}

theorem takeFolded?_eq_some {w : List Char} :
    takeFolded? w cs = some (taken, rest) ↔
      cs = taken ++ rest ∧ taken.map foldChar = w.map foldChar := by
  -- by induction on the word, one character of the text for each of its own
  induction w generalizing cs taken with
  | nil =>
    constructor
    · rintro ⟨⟩
      exact ⟨rfl, rfl⟩
    · rintro ⟨rfl, htaken⟩
      rw [List.map_eq_nil_iff.mp htaken]
      rfl
  | cons a w ih =>
    cases cs with
    | nil =>
      constructor
      · rintro ⟨⟩
      · rintro ⟨hcs, htaken⟩
        rw [(List.nil_eq_append_iff.mp hcs).1] at htaken
        cases htaken
    | cons c cs =>
      simp only [takeFolded?, Option.ite_none_right_eq_some, Option.map_eq_some_iff]
      constructor
      · rintro ⟨hfold, ⟨taken', rest'⟩, htaken', heq⟩
        cases heq
        obtain ⟨rfl, hmap⟩ := ih.mp htaken'
        exact ⟨rfl, by rw [List.map_cons, List.map_cons, hmap, hfold]⟩
      · rintro ⟨hcs, hmap⟩
        cases taken with
        | nil => cases hmap
        | cons d taken =>
          rw [List.cons_append, List.cons.injEq] at hcs
          rw [List.map_cons, List.map_cons, List.cons.injEq] at hmap
          obtain ⟨rfl, hcs⟩ := hcs
          exact ⟨hmap.1.symm, ⟨taken, rest⟩, ih.mpr ⟨hcs, hmap.2⟩, rfl⟩

theorem takeRun?_eq_some {p : Char → Bool} :
    takeRun? p cs = some (taken, rest) ↔
      cs = taken ++ rest ∧ taken ≠ [] ∧ (∀ c ∈ taken, p c = true) ∧ rest.head?.any p = false := by
  unfold takeRun?
  simp only [List.isEmpty_iff, Option.ite_none_left_eq_some, Option.some.injEq, Prod.mk.injEq]
  constructor
  · rintro ⟨hne, rfl, rfl⟩
    refine ⟨(List.takeWhile_append_dropWhile).symm, hne, ?_, ?_⟩
    · intro c hc
      exact List.all_eq_true.mp List.all_takeWhile c hc
    · have hhead := List.head?_dropWhile_not p cs
      cases h : (cs.dropWhile p).head? with
      | none => rfl
      | some d => simpa [h] using hhead
  · rintro ⟨rfl, hne, hall, hrest⟩
    -- the run ends where the rest begins, not before
    have hstop : rest.takeWhile p = [] ∧ rest.dropWhile p = rest := by
      cases rest with
      | nil => exact ⟨rfl, rfl⟩
      | cons d rest =>
        have hd : p d = false := hrest
        simp [hd]
    rw [List.takeWhile_append_of_pos hall, List.dropWhile_append_of_pos hall, hstop.1, hstop.2]
    simp [hne]

/-- Runs at the beginning of a text are one, if both end there. -/
theorem run_append_inj {p : Char → Bool} {a a' rest rest' : List Char} (hne : a ≠ [])
    (ha : ∀ c ∈ a, p c = true) (hrest : rest.head?.any p = false) (hne' : a' ≠ [])
    (ha' : ∀ c ∈ a', p c = true) (hrest' : rest'.head?.any p = false)
    (h : a ++ rest = a' ++ rest') : a = a' ∧ rest = rest' := by
  have hrun := takeRun?_eq_some.mpr ⟨rfl, hne, ha, hrest⟩
  rw [takeRun?_eq_some.mpr ⟨h, hne', ha', hrest'⟩, Option.some.injEq, Prod.mk.injEq] at hrun
  exact ⟨hrun.1.symm, hrun.2.symm⟩

theorem takeBoth?_eq_some {first second : List Char → Option (List Char × List Char)} :
    takeBoth? first second cs = some (taken, rest) ↔
      ∃ a cs' b, first cs = some (a, cs') ∧ second cs' = some (b, rest) ∧ taken = a ++ b := by
  simp only [takeBoth?, Option.bind_eq_bind, Option.bind_eq_some_iff, Option.pure_def,
    Option.some.injEq, Prod.mk.injEq, Prod.exists]
  constructor
  · rintro ⟨a, cs', hfirst, b, rest', hsecond, rfl, rfl⟩
    exact ⟨a, cs', b, hfirst, hsecond, rfl⟩
  · rintro ⟨a, cs', b, hfirst, hsecond, rfl⟩
    exact ⟨a, cs', hfirst, b, rest, hsecond, rfl, rfl⟩

end GameCondition
