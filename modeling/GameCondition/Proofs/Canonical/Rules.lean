import GameCondition.Canonical
import GameCondition.Proofs.Text.WordRules

/-! # The rules of the canonical form

What each rule takes up and what it puts for that. All of them are plain (`Rule.IsPlain`): they
put nothing longer than what they take up, and no quotes of their own. Those for subjects put
something shorter (`Rule.Shortens`).
-/

namespace GameCondition

/-! ## Plain rules -/

/-- What a rule puts is no longer than what it takes up, and has no quotes that were not there. -/
def Rule.IsPlain (rule : Rule) : Prop :=
  ∀ before cs text rest, rule before cs = some ⟨text, rest⟩ → ∃ taken, taken ≠ [] ∧
    cs = taken ++ rest ∧ text.length ≤ taken.length ∧ ∀ c ∈ text, c ∈ taken ∨ c ≠ '"'

/-- What a rule puts is shorter than what it takes up. -/
def Rule.Shortens (rule : Rule) : Prop :=
  ∀ before cs text rest, rule before cs = some ⟨text, rest⟩ →
    text.length + rest.length < cs.length

section PlainRules

variable {rule : Rule} (hrule : rule.IsPlain)
include hrule

/-- A plain rule gets on. -/
theorem Rule.IsPlain.advances : rule.Advances := by
  rintro before cs ⟨text, rest⟩ h
  obtain ⟨taken, hne, hcs, -⟩ := hrule _ _ _ _ h
  exact ⟨taken, hne, hcs⟩

/-- A plain rule lengthens no text. -/
theorem length_rewriteBy_le (cs : List Char) : (rewriteBy rule cs).length ≤ cs.length := by
  refine (Rewrites.rewriteBy hrule.advances cs).length_le ?_
  rintro before cs ⟨text, rest⟩ h
  obtain ⟨taken, -, rfl, hlength, -⟩ := hrule _ _ _ _ h
  rw [List.length_append]
  exact Nat.add_le_add_right hlength rest.length

/-- A plain rule brings no quotes into a text. -/
theorem noQuote_rewriteBy {cs : List Char} (hcs : ∀ c ∈ cs, c ≠ '"') :
    ∀ c ∈ rewriteBy rule cs, c ≠ '"' := by
  refine (Rewrites.rewriteBy hrule.advances cs).forall_mem ?_ hcs
  intro before taken text rest h htaken c hc
  obtain ⟨taken', -, heq, -, hall⟩ := hrule _ _ _ _ h
  obtain rfl := List.append_cancel_right heq
  rcases hall c hc with hmem | hne
  · exact htaken c hmem
  · exact hne

/-- A rule that shortens makes a text shorter unless it applies nowhere. -/
theorem length_rewriteBy_lt (hshort : rule.Shortens) {cs : List Char}
    (happlies : ¬ AppliesNowhere rule none cs) : (rewriteBy rule cs).length < cs.length := by
  refine (Rewrites.rewriteBy hrule.advances cs).length_lt ?_ happlies
  rintro before cs ⟨text, rest⟩ h
  exact hshort _ _ _ _ h

end PlainRules

namespace Canonical

variable {before : Option Char} {cs taken text rest : List Char}

/-! ## Subjects -/

/-- An `s` is no gap in the name of the current scene. -/
theorem isSceneGap_of_foldChar {c : Char} (h : foldChar c = 's') : isSceneGap c = false := by
  rw [isSceneGap, Bool.or_eq_false_iff]
  constructor
  · rw [← isWhite_foldChar, h]
    decide
  · rw [beq_eq_false_iff_ne]
    rintro rfl
    exact absurd h (by decide)

/-- `currentScene` is put for the words `current` and `scene` with a gap between them. -/
theorem currentScene_eq_some_iff : currentScene before cs = some ⟨text, rest⟩ ↔
    ∃ a gap s, cs = a ++ (gap ++ (s ++ rest)) ∧
      a.map foldChar = "current".toList.map foldChar ∧ gap ≠ [] ∧
      (∀ c ∈ gap, isSceneGap c = true) ∧ s.map foldChar = "scene".toList.map foldChar ∧
      before.any isWordChar = false ∧ rest.head?.any isWordChar = false ∧
      text = "currentScene".toList := by
  -- the gap ends where `scene` begins, and both ends are edges as these are words
  have hgap : ∀ {s rest : List Char}, s.map foldChar = "scene".toList.map foldChar →
      (s ++ rest).head?.any isSceneGap = false := by
    intro s rest hs
    obtain ⟨c, s, rfl⟩ := List.exists_cons_of_ne_nil (isWord_of_map_foldChar (by decide) hs).1
    exact isSceneGap_of_foldChar (List.cons.inj hs).1
  have hedges : ∀ {a gap s rest : List Char}, a.map foldChar = "current".toList.map foldChar →
      s.map foldChar = "scene".toList.map foldChar →
      ((atWordEdge before (a ++ (gap ++ (s ++ rest))) = true ∧
        atWordEdge (a ++ (gap ++ s)).getLast? rest = true) ↔
          before.any isWordChar = false ∧ rest.head?.any isWordChar = false) := by
    intro a gap s rest ha hs
    have hs := isWord_of_map_foldChar (by decide) hs
    have hlast : (a ++ (gap ++ s)).getLast?.any isWordChar = true := by
      rw [List.getLast?_append, List.getLast?_append, List.getLast?_eq_some_getLast hs.1]
      exact hs.2 _ (List.getLast_mem hs.1)
    rw [atWordEdge, atWordEdge, (isWord_of_map_foldChar (by decide) ha).head?_append, hlast]
    simp
  simp only [currentScene, Option.bind_eq_bind, Option.bind_eq_some_iff, Prod.exists,
    Option.ite_none_right_eq_some, Option.pure_def, Option.some.injEq, Replacement.mk.injEq,
    Bool.and_eq_true, takeBoth?_eq_some, takeFolded?_eq_some, takeRun?_eq_some]
  constructor
  · rintro ⟨_, _, ⟨a, _, _, ⟨rfl, ha⟩, ⟨gap, _, s, ⟨rfl, hne, hall, -⟩, ⟨rfl, hs⟩, rfl⟩, rfl⟩,
      hatEdges, rfl, rfl⟩
    obtain ⟨hbefore, hrest⟩ := (hedges ha hs).mp hatEdges
    exact ⟨a, gap, s, rfl, ha, hne, hall, hs, hbefore, hrest, rfl⟩
  · rintro ⟨a, gap, s, rfl, ha, hne, hall, hs, hbefore, hrest, rfl⟩
    exact ⟨_, _, ⟨a, _, _, ⟨rfl, ha⟩, ⟨gap, _, s, ⟨rfl, hne, hall, hgap hs⟩, ⟨rfl, hs⟩, rfl⟩, rfl⟩,
      (hedges ha hs).mpr ⟨hbefore, hrest⟩, rfl, rfl⟩

/-- What `currentScene` is put for. -/
theorem currentScene_eq_some (h : currentScene before cs = some ⟨text, rest⟩) :
    ∃ taken, cs = taken ++ rest ∧ text.length < taken.length ∧
      ∀ c ∈ text, c ∈ taken ∨ c ≠ '"' := by
  obtain ⟨a, gap, s, rfl, ha, hne, -, hs, -, -, rfl⟩ := currentScene_eq_some_iff.mp h
  have ha : a.length = 7 := by simpa using congrArg List.length ha
  have hs : s.length = 5 := by simpa using congrArg List.length hs
  have hpos := List.length_pos_iff.mpr hne
  have htext : "currentScene".toList.length = 12 := rfl
  refine ⟨a ++ (gap ++ s), by simp only [List.append_assoc], ?_, ?_⟩
  · simp only [List.length_append]
    omega
  · exact fun c hc => .inr (ne_of_mem_of_not_mem hc (by decide))

/-- What belongs to a word is no apostrophe. -/
theorem isApostrophe_of_isWordChar {c : Char} (h : isWordChar c = true) :
    isApostrophe c = false := by
  have hcurly : isWordChar '’' = false := by decide +kernel
  rw [isApostrophe, Bool.or_eq_false_iff, beq_eq_false_iff_ne, beq_eq_false_iff_ne]
  constructor
  · rintro rfl
    exact absurd h (by decide)
  · rintro rfl
    rw [hcurly] at h
    cases h

/-- A possessive ends with an apostrophe and an `s`, where no word goes on. -/
theorem possessiveEnd?_eq_some : possessiveEnd? cs = some rest ↔
    ∃ a s behind, cs = a :: s :: behind ∧ isApostrophe a = true ∧ foldChar s = 's' ∧
      behind.head?.any isWordChar = false ∧ rest = behind.dropWhile isWhite := by
  unfold possessiveEnd?
  split
  case h_1 a s behind =>
    have hedge : foldChar s = 's' →
        (atWordEdge (some s) behind = true ↔ behind.head?.any isWordChar = false) := by
      intro hs
      have hs : isWordChar s = true := isWordChar_of_foldsToLetter (by rw [foldsToLetter, hs]; rfl)
      rw [atWordEdge, Option.any_some, hs]
      simp
    simp only [Option.ite_none_right_eq_some, Bool.and_eq_true, beq_iff_eq, Option.some.injEq,
      List.cons.injEq]
    constructor
    · rintro ⟨⟨⟨ha, hs⟩, hends⟩, rfl⟩
      exact ⟨a, s, behind, ⟨rfl, rfl, rfl⟩, ha, hs, (hedge hs).mp hends, rfl⟩
    · rintro ⟨_, _, _, ⟨rfl, rfl, rfl⟩, ha, hs, hends, rfl⟩
      exact ⟨⟨⟨ha, hs⟩, (hedge hs).mpr hends⟩, rfl⟩
  case h_2 hcs =>
    constructor
    · intro h
      cases h
    · rintro ⟨a, s, behind, rfl, -⟩
      exact absurd rfl (hcs a s behind)

/-- `X.` is put for a word with an apostrophe and an `s` behind it. -/
theorem possessive_eq_some_iff : possessive before cs = some ⟨text, rest⟩ ↔
    ∃ word a s behind, cs = word ++ a :: s :: behind ∧ IsWord word ∧
      before.any isWordChar = false ∧ isApostrophe a = true ∧ foldChar s = 's' ∧
      behind.head?.any isWordChar = false ∧ text = word ++ ['.'] ∧
      rest = behind.dropWhile isWhite := by
  -- the word ends before the apostrophe, so the run that is taken is the word
  have hapart : ∀ {a s : Char} {behind : List Char}, isApostrophe a = true →
      (a :: s :: behind).head?.any isWordChar = false := by
    intro a s behind ha
    refine Bool.eq_false_iff.mpr fun hword => ?_
    rw [isApostrophe_of_isWordChar hword] at ha
    cases ha
  have hedge : ∀ {word behind : List Char}, IsWord word →
      (atWordEdge before (word ++ behind) = true ↔ before.any isWordChar = false) := by
    intro word behind hword
    rw [atWordEdge, hword.head?_append]
    simp
  simp only [possessive, Option.bind_eq_bind, Option.bind_eq_some_iff, Prod.exists,
    Option.ite_none_right_eq_some, Option.pure_def, Option.some.injEq, Replacement.mk.injEq,
    takeRun?_eq_some, possessiveEnd?_eq_some]
  constructor
  · rintro ⟨word, _, ⟨rfl, hne, hall, -⟩, hopens, _, ⟨a, s, behind, rfl, ha, hs, hends, rfl⟩, rfl,
      rfl⟩
    have hword : IsWord word := ⟨hne, hall⟩
    exact ⟨word, a, s, behind, rfl, hword, (hedge hword).mp hopens, ha, hs, hends, rfl, rfl⟩
  · rintro ⟨word, a, s, behind, rfl, hword, hbefore, ha, hs, hends, rfl, rfl⟩
    exact ⟨word, _, ⟨rfl, hword.1, hword.2, hapart ha⟩, (hedge hword).mpr hbefore, _,
      ⟨a, s, behind, rfl, ha, hs, hends, rfl⟩, rfl, rfl⟩

/-- What `X.` is put for. -/
theorem possessive_eq_some (h : possessive before cs = some ⟨text, rest⟩) :
    ∃ taken, cs = taken ++ rest ∧ text.length < taken.length ∧
      ∀ c ∈ text, c ∈ taken ∨ c ≠ '"' := by
  obtain ⟨word, a, s, behind, rfl, -, -, -, -, -, rfl, rfl⟩ := possessive_eq_some_iff.mp h
  refine ⟨word ++ a :: s :: behind.takeWhile isWhite, ?_, by simp, ?_⟩
  · rw [List.append_assoc, List.cons_append, List.cons_append, List.takeWhile_append_dropWhile]
  · rw [List.forall_mem_append]
    exact ⟨fun c hc => .inl (List.mem_append_left _ hc), by simp⟩

/-- Without an apostrophe there is no possessive. -/
theorem possessive_eq_none (h : ∀ c ∈ cs, isApostrophe c = false) :
    possessive before cs = none := by
  rw [Option.eq_none_iff_forall_ne_some]
  rintro ⟨text, rest⟩ hsome
  obtain ⟨word, a, s, behind, rfl, -, -, ha, -⟩ := possessive_eq_some_iff.mp hsome
  rw [h a (List.mem_append_right word List.mem_cons_self)] at ha
  cases ha

/-- Where there is no apostrophe there is nothing to do. -/
theorem appliesNowhere_possessive (h : ∀ c ∈ cs, isApostrophe c = false) :
    AppliesNowhere possessive before cs := by
  induction cs generalizing before with
  | nil => trivial
  | cons c cs ih => exact ⟨possessive_eq_none h, ih fun d hd => h d (List.mem_cons_of_mem c hd)⟩

/-- What `of` is taken up with. -/
theorem exists_of_takeOf? (h : takeOf? cs = some rest) :
    ∃ gap link gap' behind, cs = gap ++ (link ++ (gap' ++ behind)) ∧ gap ≠ [] ∧
      (∀ c ∈ gap, isWhite c = true) ∧ link.map foldChar = "of".toList.map foldChar ∧ gap' ≠ [] ∧
      (∀ c ∈ gap', isWhite c = true) ∧
      (behind = rest ∨ ∃ article gap'', behind = article ++ (gap'' ++ rest) ∧
        article.map foldChar = "the".toList.map foldChar ∧ gap'' ≠ [] ∧
        ∀ c ∈ gap'', isWhite c = true) := by
  simp only [takeOf?, Option.bind_eq_bind, Option.bind_eq_some_iff, Prod.exists] at h
  obtain ⟨gap, cs₁, hgap, link, cs₂, hlink, gap', behind, hgap', h⟩ := h
  obtain ⟨rfl, hne, hwhite, -⟩ := takeRun?_eq_some.mp hgap
  obtain ⟨rfl, hof⟩ := takeFolded?_eq_some.mp hlink
  obtain ⟨rfl, hne', hwhite', -⟩ := takeRun?_eq_some.mp hgap'
  refine ⟨gap, link, gap', behind, rfl, hne, hwhite, hof, hne', hwhite', ?_⟩
  split at h
  · next article behind' hthe =>
    obtain ⟨first, cs₄, last, hfirst, hlast, rfl⟩ := takeBoth?_eq_some.mp hthe
    obtain ⟨rfl, harticle⟩ := takeFolded?_eq_some.mp hfirst
    obtain ⟨rfl, hne'', hwhite'', -⟩ := takeRun?_eq_some.mp hlast
    obtain rfl := Option.some.inj h
    exact .inr ⟨first, last, rfl, harticle, hne'', hwhite''⟩
  · exact .inl (Option.some.inj h)

/-- `of` is taken with the blanks around it. -/
theorem takeOf?_eq_some (h : takeOf? cs = some rest) :
    ∃ taken, cs = taken ++ rest ∧ 4 ≤ taken.length := by
  obtain ⟨gap, link, gap', behind, rfl, hne, -, hof, hne', -, hbehind⟩ := exists_of_takeOf? h
  have hof : link.length = 2 := by simpa using congrArg List.length hof
  have hpos := List.length_pos_iff.mpr hne
  have hpos' := List.length_pos_iff.mpr hne'
  rcases hbehind with rfl | ⟨article, gap'', rfl, -⟩
  · refine ⟨gap ++ (link ++ gap'), by simp only [List.append_assoc], ?_⟩
    simp only [List.length_append]
    omega
  · refine ⟨gap ++ (link ++ (gap' ++ (article ++ gap''))), by simp only [List.append_assoc], ?_⟩
    simp only [List.length_append]
    omega

/-- A subject is as long as the word that stands for it, and has no quotes of its own. -/
theorem owner?_eq_some {word subject : List Char} (h : owner? word = some subject) :
    subject.length = word.length ∧ ∀ c ∈ subject, c ∈ word ∨ c ≠ '"' := by
  obtain ⟨-, h⟩ := Option.ite_none_right_eq_some.mp h
  obtain rfl := Option.some.inj h
  split
  · rename_i hsame
    have hlength := congrArg List.length (sameAscii_iff.mp hsame)
    rw [List.length_map, List.length_map, String.toList_ofList] at hlength
    exact ⟨hlength.symm, fun c hc => .inr (ne_of_mem_of_not_mem hc (by decide))⟩
  · exact ⟨rfl, fun c hc => .inl hc⟩

/-- What is owned is a word, a link and a subject, in this order. -/
theorem takeOwned?_eq_some {word subject : List Char}
    (h : takeOwned? cs = some (word, subject, rest)) :
    ∃ link name, cs = word ++ (link ++ (name ++ rest)) ∧ 4 ≤ link.length ∧
      subject.length = name.length ∧ ∀ c ∈ subject, c ∈ name ∨ c ≠ '"' := by
  simp only [takeOwned?, Option.bind_eq_bind, Option.bind_eq_some_iff, Prod.exists,
    Option.pure_def, Option.some.injEq, Prod.mk.injEq] at h
  obtain ⟨word, cs₁, hword, cs₂, hof, name, rest, hname, subject, hsubject, rfl, rfl, rfl⟩ := h
  obtain ⟨rfl, -⟩ := takeRun?_eq_some.mp hword
  obtain ⟨link, rfl, hlink⟩ := takeOf?_eq_some hof
  obtain ⟨rfl, -⟩ := takeRun?_eq_some.mp hname
  obtain ⟨hlength, hall⟩ := owner?_eq_some hsubject
  exact ⟨link, name, rfl, hlink, hlength, hall⟩

/-- `attribute` is taken with the blanks behind it. -/
theorem takeAttribute?_eq_some (h : takeAttribute? cs = some rest) :
    ∃ taken, cs = taken ++ rest ∧ 10 ≤ taken.length := by
  simp only [takeAttribute?, Option.bind_eq_bind, Option.bind_eq_some_iff, Prod.exists,
    Option.pure_def, Option.some.injEq] at h
  obtain ⟨taken, rest, htaken, rfl⟩ := h
  obtain ⟨word, cs₁, gap, hword, hgap, rfl⟩ := takeBoth?_eq_some.mp htaken
  obtain ⟨rfl, hattribute⟩ := takeFolded?_eq_some.mp hword
  obtain ⟨rfl, hne, -⟩ := takeRun?_eq_some.mp hgap
  have hattribute : word.length = 9 := by simpa using congrArg List.length hattribute
  have hpos := List.length_pos_iff.mpr hne
  refine ⟨word ++ gap, by simp only [List.append_assoc], ?_⟩
  rw [List.length_append]
  omega

/-- Nothing is owned at a place where, whatever is cut off in front, no word has an owner. -/
theorem owned_eq_none_of_takeOwned? (h : ∀ taken rest, cs = taken ++ rest → takeOwned? rest = none) :
    owned before cs = none := by
  have hfield : ownedField? cs = none := by
    rw [ownedField?, h [] cs rfl]
    rfl
  have hattribute : ownedAttribute? cs = none := by
    rw [ownedAttribute?]
    cases htake : takeAttribute? cs with
    | none => rfl
    | some rest =>
      obtain ⟨taken, hcs, -⟩ := takeAttribute?_eq_some htake
      simp [h taken rest hcs]
  rw [owned, hfield, hattribute]
  exact ite_self none

/-- A subject, a link without quotes and a word have no quotes of their own where the word and the
name of the subject were taken up. -/
theorem noQuote_owned {word link name subject dot : List Char}
    (hsubject : ∀ c ∈ subject, c ∈ name ∨ c ≠ '"') (hdot : ∀ c ∈ dot, c ≠ '"') :
    ∀ c ∈ subject ++ (dot ++ word), c ∈ word ++ (link ++ name) ∨ c ≠ '"' := by
  simp only [List.mem_append]
  rintro c (hc | hc | hc)
  · exact (hsubject c hc).imp_left fun hmem => .inr (.inr hmem)
  · exact .inr (hdot c hc)
  · exact .inl (.inl hc)

/-- What `S.W` and `S.attribute W` are put for. -/
theorem owned_eq_some (h : owned before cs = some ⟨text, rest⟩) :
    ∃ taken, cs = taken ++ rest ∧ text.length < taken.length ∧
      ∀ c ∈ text, c ∈ taken ∨ c ≠ '"' := by
  obtain ⟨-, h⟩ := Option.ite_none_right_eq_some.mp h
  -- an owned attribute is tried first, then an owned field
  rcases Option.or_eq_some_iff.mp (Option.orElse_eq_or.symm.trans h) with h | ⟨-, h⟩
  · simp only [ownedAttribute?, Option.bind_eq_bind, Option.bind_eq_some_iff, Prod.exists,
      Option.pure_def, Option.some.injEq, Replacement.mk.injEq] at h
    obtain ⟨cs₁, hattribute, word, subject, rest, howned, rfl, rfl⟩ := h
    obtain ⟨opening, rfl, hopening⟩ := takeAttribute?_eq_some hattribute
    obtain ⟨link, name, rfl, hlink, hname, hall⟩ := takeOwned?_eq_some howned
    refine ⟨opening ++ (word ++ (link ++ name)), by simp only [List.append_assoc], ?_, ?_⟩
    · have hdot : ".attribute ".toList.length = 11 := rfl
      -- what opens and links the phrase is longer than what is put between owner and word
      simp only [List.length_append, hname, hdot]
      omega
    · intro c hc
      rw [List.append_assoc] at hc
      have hdot : ∀ c ∈ ".attribute ".toList, c ≠ '"' := by simp
      exact (noQuote_owned hall hdot c hc).imp_left (List.mem_append_right opening)
  · simp only [ownedField?, Option.bind_eq_bind, Option.bind_eq_some_iff, Prod.exists,
      Option.pure_def, Option.some.injEq, Replacement.mk.injEq] at h
    obtain ⟨word, subject, rest, howned, rfl, rfl⟩ := h
    obtain ⟨link, name, rfl, hlink, hname, hall⟩ := takeOwned?_eq_some howned
    refine ⟨word ++ (link ++ name), by simp only [List.append_assoc], ?_, ?_⟩
    · simp only [List.length_append, List.length_cons, hname]
      omega
    · have hdot : ∀ c ∈ ['.'], c ≠ '"' := by simp
      exact noQuote_owned hall hdot

/-- A rule that puts something shorter without quotes of its own is plain, and shortens. -/
theorem isPlain_and_shortens {rule : Rule}
    (hrule : ∀ before cs text rest, rule before cs = some ⟨text, rest⟩ →
      ∃ taken, cs = taken ++ rest ∧ text.length < taken.length ∧
        ∀ c ∈ text, c ∈ taken ∨ c ≠ '"') : rule.IsPlain ∧ rule.Shortens := by
  constructor
  · intro before cs text rest h
    obtain ⟨taken, hcs, hlength, hall⟩ := hrule before cs text rest h
    have hne := List.ne_nil_of_length_pos (Nat.zero_lt_of_lt hlength)
    exact ⟨taken, hne, hcs, Nat.le_of_lt hlength, hall⟩
  · intro before cs text rest h
    obtain ⟨taken, rfl, hlength, -⟩ := hrule before cs text rest h
    rw [List.length_append]
    exact Nat.add_lt_add_right hlength rest.length

theorem currentScene_plain : Rule.IsPlain currentScene ∧ Rule.Shortens currentScene :=
  isPlain_and_shortens fun _ _ _ _ => currentScene_eq_some

theorem possessive_plain : Rule.IsPlain possessive ∧ Rule.Shortens possessive :=
  isPlain_and_shortens fun _ _ _ _ => possessive_eq_some

theorem owned_plain : Rule.IsPlain owned ∧ Rule.Shortens owned :=
  isPlain_and_shortens fun _ _ _ _ => owned_eq_some

/-! ## Determiners, white space and operators -/

/-- The determiners as phrases of one word. -/
def determinerPhrases : List (List (List Char)) :=
  determiners.map fun w => [w]

/-- Determiners are letters. -/
theorem isLetterPhrase_of_mem_determinerPhrases :
    ∀ phrase ∈ determinerPhrases, IsLetterPhrase phrase := by
  decide

/-- Operator phrases are words of letters. -/
theorem isLetterPhrase_of_mem_operatorPhrases :
    ∀ phrase ∈ operatorPhrases, IsLetterPhrase phrase := by
  decide

/-- The rule for determiners applies where one stands. -/
theorem determiner_eq_none_iff : determiner before cs = none ↔
    ¬ Stands determinerPhrases before cs := by
  rw [← findSome?_takeBounded?_eq_none isLetterPhrase_of_mem_determinerPhrases, determinerPhrases,
    List.findSome?_map, determiner]
  change Option.bind (determiners.findSome? fun w => takeBounded? before [w] cs) _ = none ↔
    (determiners.findSome? fun w => takeBounded? before [w] cs) = none
  cases determiners.findSome? fun w => takeBounded? before [w] cs <;> simp

/-- The rule for operators applies where the phrase of one stands. -/
theorem operator_eq_none_iff : operator before cs = none ↔
    ¬ Stands operatorPhrases before cs := by
  rw [← findSome?_takeBounded?_eq_none isLetterPhrase_of_mem_operatorPhrases, operator]
  cases operatorPhrases.findSome? fun phrase => takeBounded? before phrase cs <;> simp

/-- What a determiner is replaced by, and where it stood. -/
theorem determiner_eq_some (h : determiner before cs = some ⟨text, rest⟩) :
    ∃ phrase ∈ determinerPhrases, ∃ taken gap, cs = taken ++ (gap ++ rest) ∧
      Spelled phrase taken ∧ (∀ c ∈ gap, isWhite c = true) ∧ text = [] ∧
      before.any isWordChar = false ∧ (gap ++ rest).head?.any isWordChar = false := by
  simp only [determiner, Option.bind_eq_bind, Option.bind_eq_some_iff, Option.pure_def,
    Option.some.injEq, Prod.exists, Replacement.mk.injEq] at h
  obtain ⟨taken, behind, hfound, rfl, rfl⟩ := h
  obtain ⟨w, hw, hbounded⟩ := List.exists_of_findSome?_eq_some hfound
  have hphrase : [w] ∈ determinerPhrases := List.mem_map_of_mem hw
  obtain ⟨rfl, hspelled, hopens, hcloses⟩ :=
    (takeBounded?_eq_some (isLetterPhrase_of_mem_determinerPhrases _ hphrase)).mp hbounded
  refine ⟨[w], hphrase, taken, behind.takeWhile isWhite, ?_, hspelled, ?_, rfl, hopens, ?_⟩
  · rw [List.takeWhile_append_dropWhile]
  · exact fun c hc => List.all_eq_true.mp List.all_takeWhile c hc
  · rwa [List.takeWhile_append_dropWhile]

/-- What an operator is replaced by, and where it stood. -/
theorem operator_eq_some (h : operator before cs = some ⟨text, rest⟩) :
    ∃ phrase ∈ operatorPhrases, ∃ taken, cs = taken ++ rest ∧ Spelled phrase taken ∧
      text = operatorWord taken ∧ before.any isWordChar = false ∧
      rest.head?.any isWordChar = false := by
  simp only [operator, Option.bind_eq_bind, Option.bind_eq_some_iff, Option.pure_def,
    Option.some.injEq, Prod.exists, Replacement.mk.injEq] at h
  obtain ⟨taken, rest, hfound, rfl, rfl⟩ := h
  obtain ⟨phrase, hphrase, hbounded⟩ := List.exists_of_findSome?_eq_some hfound
  obtain ⟨rfl, hspelled, hopens, hcloses⟩ :=
    (takeBounded?_eq_some (isLetterPhrase_of_mem_operatorPhrases _ hphrase)).mp hbounded
  exact ⟨phrase, hphrase, taken, rfl, hspelled, rfl, hopens, hcloses⟩

/-- The rule for white space takes a whole run of it and puts a blank. -/
theorem whiteSpace_eq_some : whiteSpace before cs = some ⟨text, rest⟩ ↔
    ∃ taken, cs = taken ++ rest ∧ taken ≠ [] ∧ (∀ c ∈ taken, isWhite c = true) ∧
      rest.head?.any isWhite = false ∧ text = [' '] := by
  simp only [whiteSpace, Option.bind_eq_bind, Option.bind_eq_some_iff, Option.pure_def,
    Option.some.injEq, Prod.exists, Replacement.mk.injEq, takeRun?_eq_some]
  constructor
  · rintro ⟨taken, _, ⟨hcs, hne, hall, hrest⟩, rfl, rfl⟩
    exact ⟨taken, hcs, hne, hall, hrest, rfl⟩
  · rintro ⟨taken, hcs, hne, hall, hrest, rfl⟩
    exact ⟨taken, rest, ⟨hcs, hne, hall, hrest⟩, rfl, rfl⟩

/-- The rule for white space applies to all of it. -/
theorem isWhite_of_whiteSpace_eq_none {c : Char} (h : whiteSpace before (c :: cs) = none) :
    isWhite c = false := by
  refine Bool.eq_false_iff.mpr fun hc => ?_
  simp [whiteSpace, takeRun?, hc] at h

/-! ## The word for an operator -/

/-- The word for words of letters is one word, with an underscore if there are several, and is no
longer than they are with white space between them. -/
theorem operatorWord_spelled {phrase : List (List Char)} (h : Spelled phrase taken)
    (hphrase : IsLetterPhrase phrase) :
    operatorWord taken ≠ [] ∧ (∀ c ∈ operatorWord taken, isWordChar c = true) ∧
      (operatorWord taken).length ≤ taken.length ∧ (2 ≤ phrase.length → '_' ∈ operatorWord taken) := by
  obtain ⟨hne, hwords⟩ := hphrase
  unfold operatorWord
  induction h with
  | nil => exact absurd rfl hne
  | @last w a hmap =>
    have ha := hwords w List.mem_cons_self
    rw [← isLetterWord_of_map_foldChar hmap, isLetterWord_iff] at ha
    obtain ⟨hlength, hall⟩ := lowerText_of_foldsToLetter ha.2
    rw [words_of_isUnspaced ⟨ha.1, fun c hc => isWhite_of_foldsToLetter (ha.2 c hc)⟩]
    refine ⟨?_, hall, Nat.le_of_eq hlength, by simp⟩
    exact List.ne_nil_of_length_pos (hlength ▸ List.length_pos_iff.mpr ha.1)
  | @cons w v a gap taken vs hmap hgap hwhite htail ih =>
    have ha := hwords w List.mem_cons_self
    rw [← isLetterWord_of_map_foldChar hmap, isLetterWord_iff] at ha
    obtain ⟨hlength, hall⟩ := lowerText_of_foldsToLetter ha.2
    have htailWords : ∀ u ∈ v :: vs, isLetterWord u = true :=
      fun u hu => hwords u (List.mem_cons_of_mem w hu)
    obtain ⟨htailNe, htailAll, htailLength, -⟩ := ih (List.cons_ne_nil v vs) htailWords
    have hhead : (gap ++ taken).head?.all isWhite = true := by
      obtain ⟨d, ds, rfl⟩ := List.exists_cons_of_ne_nil hgap
      exact hwhite d List.mem_cons_self
    rw [words_append ha.1 (fun c hc => isWhite_of_foldsToLetter (ha.2 c hc)) hhead,
      words_white_append hwhite, List.map_cons]
    -- the words of the tail are not empty, so an underscore comes before them
    cases htailWord : (words taken).map lowerText with
    | nil => exact absurd (congrArg (joinWords '_') htailWord) htailNe
    | cons u us =>
      rw [htailWord] at htailNe htailAll htailLength
      have hpos := List.length_pos_iff.mpr hgap
      refine ⟨by simp [joinWords], ?_, ?_, fun _ => by simp [joinWords]⟩
      · simp only [joinWords, List.forall_mem_append, List.forall_mem_cons]
        exact ⟨hall, by decide, htailAll⟩
      · simp only [joinWords, List.length_append, List.length_cons, hlength]
        omega

/-- An operator phrase has more than one word. -/
theorem length_of_mem_operatorPhrases : ∀ phrase ∈ operatorPhrases, 2 ≤ phrase.length := by
  decide

/-- What the word for an operator is. -/
theorem operatorWord_of_mem {phrase : List (List Char)} (hphrase : phrase ∈ operatorPhrases)
    (h : Spelled phrase taken) :
    (∀ c ∈ operatorWord taken, isWordChar c = true) ∧
      (operatorWord taken).length ≤ taken.length ∧ '_' ∈ operatorWord taken := by
  obtain ⟨-, hall, hlength, hunderscore⟩ :=
    operatorWord_spelled h (isLetterPhrase_of_mem_operatorPhrases phrase hphrase)
  exact ⟨hall, hlength, hunderscore (length_of_mem_operatorPhrases phrase hphrase)⟩

theorem determiner_plain : Rule.IsPlain determiner := by
  intro before cs text rest h
  obtain ⟨phrase, hphrase, taken, gap, rfl, hspelled, -, rfl, -⟩ := determiner_eq_some h
  have hne := hspelled.ne_nil (isLetterPhrase_of_mem_determinerPhrases phrase hphrase).isPhrase
  exact ⟨taken ++ gap, List.append_ne_nil_of_left_ne_nil hne gap, (List.append_assoc ..).symm,
    Nat.zero_le _, List.forall_mem_nil _⟩

theorem whiteSpace_plain : Rule.IsPlain whiteSpace := by
  intro before cs text rest h
  obtain ⟨taken, rfl, hne, -, -, rfl⟩ := whiteSpace_eq_some.mp h
  exact ⟨taken, hne, rfl, List.length_pos_iff.mpr hne, by simp⟩

theorem operator_plain : Rule.IsPlain operator := by
  intro before cs text rest h
  obtain ⟨phrase, hphrase, taken, rfl, hspelled, rfl, -⟩ := operator_eq_some h
  obtain ⟨hword, hlength, -⟩ := operatorWord_of_mem hphrase hspelled
  have hne := hspelled.ne_nil (isLetterPhrase_of_mem_operatorPhrases phrase hphrase).isPhrase
  refine ⟨taken, hne, rfl, hlength, fun c hc => .inr ?_⟩
  rintro rfl
  exact absurd (hword _ hc) (by decide)

/-- The steps before phrases bring no quotes into a text. -/
theorem noQuote_joinOperators_dropDeterminers_rewriteSubjects (hcs : ∀ c ∈ cs, c ≠ '"') :
    ∀ c ∈ joinOperators (dropDeterminers (rewriteSubjects cs)), c ≠ '"' := by
  have hscene := noQuote_rewriteBy currentScene_plain.1 hcs
  have hpossessive := noQuote_rewriteBy possessive_plain.1 hscene
  have howned := noQuote_rewriteBy owned_plain.1 hpossessive
  have hdeterminer := noQuote_rewriteBy determiner_plain howned
  have hspace := noQuote_rewriteBy whiteSpace_plain hdeterminer
  exact noQuote_rewriteBy operator_plain hspace

end Canonical

end GameCondition
