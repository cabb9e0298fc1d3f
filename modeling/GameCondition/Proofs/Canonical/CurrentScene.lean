import GameCondition.Proofs.Canonical.Rules

/-! # The current scene beside a word

The rule for the current scene takes up two words, or one with underscores in it. It looks at a word
alone where no `scene` follows (`currentScene_word_append_iff`), so each such word is rewritten by
itself (`rewriteFrom_currentScene_word`).
-/

namespace GameCondition.Canonical

variable {before : Option Char} {cs w rest text behind : List Char}

/-! ## Where the rule applies -/

/-- The rule for the current scene applies only at a `c`. -/
theorem currentScene_eq_none {c : Char} (hc : foldChar c ≠ 'c') :
    currentScene before (c :: cs) = none := by
  rw [Option.eq_none_iff_forall_ne_some]
  rintro ⟨text, rest⟩ h
  obtain ⟨a, gap, s, heq, ha, -⟩ := currentScene_eq_some_iff.mp h
  obtain ⟨d, a, rfl⟩ := List.exists_cons_of_ne_nil (isWord_of_map_foldChar (by decide) ha).1
  obtain ⟨rfl, -⟩ := List.cons.inj heq
  exact hc (List.cons.inj ha).1

/-- What has no `c` in it is passed over. -/
theorem passesOver_currentScene {a : List Char} (h : ∀ c ∈ a, foldChar c ≠ 'c') :
    PassesOver currentScene rest before a := by
  induction a generalizing before with
  | nil => trivial
  | cons c a ih =>
    obtain ⟨hc, ha⟩ := List.forall_mem_cons.mp h
    exact ⟨currentScene_eq_none hc, ih ha⟩

theorem currentScene_opensWords : currentScene.OpensWords := by
  rintro before cs ⟨text, rest⟩ h
  obtain ⟨a, gap, s, rfl, ha, -, -, -, hbefore, -⟩ := currentScene_eq_some_iff.mp h
  exact ⟨hbefore, (isWord_of_map_foldChar (by decide) ha).head?_append _⟩

/-! ## Words that spell the current scene -/

/-- Whether the next letter, behind what may stand between `current` and `scene`, is that `scene`
begins with. -/
def meetsScene (cs : List Char) : Bool :=
  (cs.dropWhile isSceneGap).head?.any fun c => foldChar c == 's'

/-- A word that spells the current scene, with underscores in it. -/
def SpellsScene (w : List Char) : Prop :=
  ∃ a gap s, w = a ++ (gap ++ s) ∧ a.map foldChar = "current".toList.map foldChar ∧ gap ≠ [] ∧
    (∀ c ∈ gap, isSceneGap c = true) ∧ s.map foldChar = "scene".toList.map foldChar

theorem meetsScene_append {gap s : List Char} (hgap : ∀ c ∈ gap, isSceneGap c = true)
    (hs : s.map foldChar = "scene".toList.map foldChar) :
    meetsScene (gap ++ (s ++ rest)) = true := by
  obtain ⟨c, s, rfl⟩ := List.exists_cons_of_ne_nil (isWord_of_map_foldChar (by decide) hs).1
  have hc : foldChar c = 's' := (List.cons.inj hs).1
  rw [meetsScene, List.dropWhile_append_of_pos hgap, List.cons_append,
    List.dropWhile_cons_of_neg (by simp [isSceneGap_of_foldChar hc])]
  simp [hc]

/-- What spells the current scene from the beginning of a word on does not go beyond it. -/
theorem eq_nil_of_spellsScene {t : List Char} (hspells : SpellsScene (w ++ t))
    (ht : (t ++ rest).head?.any isWordChar = false) (hscene : meetsScene (t ++ rest) = false) :
    t = [] := by
  obtain ⟨a, gap, s, heq, ha, -, hgap, hs⟩ := hspells
  have hapart : ∀ {d u}, t = d :: u → isWordChar d = true → False := by
    rintro d u rfl hd
    have hd' : isWordChar d = false := ht
    rw [hd'] at hd
    cases hd
  have hmeets : ∀ {gap' : List Char}, (∀ c ∈ gap', isSceneGap c = true) → t = gap' ++ s →
      False := by
    rintro gap' hgap' rfl
    rw [List.append_assoc, meetsScene_append hgap' hs] at hscene
    cases hscene
  rcases List.append_eq_append_iff.mp heq with ⟨b, rfl, hb⟩ | ⟨b, rfl, hb⟩
  · -- `current` would go beyond the word, or end with it and have `scene` behind it
    cases b with
    | nil => exact (hmeets hgap hb).elim
    | cons d b =>
      have hword := isWord_of_map_foldChar (by decide) ha
      exact (hapart hb (hword.2 d (List.mem_append_right w List.mem_cons_self))).elim
  · rcases List.append_eq_append_iff.mp hb with ⟨b', rfl, rfl⟩ | ⟨b', rfl, hb'⟩
    · cases t with
      | nil => rfl
      | cons d t =>
        have hword := isWord_of_map_foldChar (by decide) hs
        exact (hapart rfl (hword.2 d (List.mem_append_right b' List.mem_cons_self))).elim
    · exact (hmeets (fun c hc => hgap c (List.mem_append_right b hc)) hb').elim

/-- Where no `scene` follows a word, the rule for the current scene looks at that word alone. -/
theorem currentScene_word_append_iff (hw : IsWord w) (hrest : rest.head?.any isWordChar = false)
    (hscene : meetsScene rest = false) :
    currentScene before (w ++ rest) = some ⟨text, behind⟩ ↔
      SpellsScene w ∧ before.any isWordChar = false ∧ text = "currentScene".toList ∧
        behind = rest := by
  rw [currentScene_eq_some_iff]
  constructor
  · rintro ⟨a, gap, s, heq, ha, hne, hgap, hs, hbefore, hbehind, rfl⟩
    have hspells : SpellsScene (a ++ (gap ++ s)) := ⟨a, gap, s, rfl, ha, hne, hgap, hs⟩
    have htaken : w ++ rest = (a ++ (gap ++ s)) ++ behind := by
      simpa only [List.append_assoc] using heq
    rcases List.append_eq_append_iff.mp htaken with ⟨t, ht, rfl⟩ | ⟨t, rfl, rfl⟩
    · rw [ht] at hspells
      obtain rfl := eq_nil_of_spellsScene hspells hrest hscene
      rw [List.append_nil] at ht hspells
      exact ⟨hspells, hbefore, rfl, rfl⟩
    · -- the rest of the word would be part of a word behind `scene`
      cases t with
      | nil => exact ⟨by rwa [List.append_nil], hbefore, rfl, rfl⟩
      | cons d t =>
        have hd : isWordChar d = false := hbehind
        rw [hw.2 d (List.mem_append_right _ List.mem_cons_self)] at hd
        cases hd
  · rintro ⟨⟨a, gap, s, rfl, ha, hne, hgap, hs⟩, hbefore, rfl, rfl⟩
    exact ⟨a, gap, s, by simp only [List.append_assoc], ha, hne, hgap, hs, hbefore, hrest, rfl⟩

theorem currentScene_word_iff (hw : IsWord w) : currentScene before w = some ⟨text, behind⟩ ↔
    SpellsScene w ∧ before.any isWordChar = false ∧ text = "currentScene".toList ∧
      behind = [] := by
  have hiff : currentScene before (w ++ []) = some ⟨text, behind⟩ ↔ _ :=
    currentScene_word_append_iff hw rfl rfl
  rwa [List.append_nil] at hiff

/-! ## Words rewritten by themselves -/

/-- A word after the first step. -/
def settled (w : List Char) : List Char :=
  if (currentScene none w).isSome then "currentScene".toList else w

theorem isWord_settled (hw : IsWord w) : IsWord (settled w) := by
  unfold settled
  split
  · decide
  · exact hw

/-- A word that no `scene` follows is rewritten by itself. -/
theorem rewriteFrom_currentScene_word (hw : IsWord w) (hbefore : before.any isWordChar = false)
    (hrest : rest.head?.any isWordChar = false) (hscene : meetsScene rest = false) :
    rewriteFrom currentScene 0 before (w ++ rest) =
      settled w ++ rewriteFrom currentScene 0 w.getLast? rest := by
  by_cases hspells : SpellsScene w
  · have hsome := (currentScene_word_append_iff hw hrest hscene).mpr ⟨hspells, hbefore, rfl, rfl⟩
    have hsettled : settled w = "currentScene".toList := by
      rw [settled, (currentScene_word_iff hw).mpr ⟨hspells, rfl, rfl, rfl⟩]
      rfl
    rw [rewriteFrom_taken hw.1 hsome, hsettled]
  · have hnone : currentScene before (w ++ rest) = none := by
      rw [Option.eq_none_iff_forall_ne_some]
      rintro ⟨text, behind⟩ hsome
      exact hspells ((currentScene_word_append_iff hw hrest hscene).mp hsome).1
    have hsettled : settled w = w := by
      refine if_neg fun hsome => ?_
      obtain ⟨⟨text, behind⟩, hsome⟩ := Option.isSome_iff_exists.mp hsome
      exact hspells ((currentScene_word_iff hw).mp hsome).1
    rw [rewriteFrom_of_passesOver (currentScene_opensWords.passesOver_word hw hnone), hsettled,
      hw.getLast?_or]

end GameCondition.Canonical
