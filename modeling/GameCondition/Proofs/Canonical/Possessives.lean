import GameCondition.Proofs.Canonical.CurrentScene
import GameCondition.Proofs.Canonical.Links
import GameCondition.Proofs.Canonical.Names

/-! # Two phrasings of possession

What belongs to a subject may be written `W of the S` or `the S's W`. The rules for subjects are
followed one by one on both texts. The first treats the word by itself, the others make `S.W` of the
one text (`rewriteSubjects_ofThe`) and `the S.W` of the other (`rewriteSubjects_possessive`). The
determiner is dropped, so both have one canonical form (`canonicalize_ofThe_eq_possessive`).
-/

namespace GameCondition.Canonical

variable {before : Option Char} {cs w S p r rest text behind : List Char}

/-! ## The first step -/

/-- What may stand in front of a word that belongs to a subject. -/
def openings : List (List Char) :=
  [[], "attribute ".toList]

/-- An owner is a word that no pass changes and that names itself as owner. -/
theorem ownerWords_spec : ∀ S ∈ ownerWords, IsWord S ∧ settled S = S ∧ owner? S = some S := by
  decide

/-- No opening has the letter that `current` begins with. -/
theorem foldChar_of_mem_openings : ∀ p ∈ openings, ∀ c ∈ p, foldChar c ≠ 'c' := by
  decide

/-- An opening does not end inside a word. -/
theorem getLast?_of_mem_openings (hp : p ∈ openings) (hbefore : before.any isWordChar = false) :
    (p.getLast?.or before).any isWordChar = false := by
  rcases List.mem_pair.mp hp with rfl | rfl
  · exact hbefore
  · rfl

/-- No current scene begins in the verb behind the attribute. -/
theorem rewriteFrom_currentScene_is (before : Option Char) (r : List Char) :
    rewriteFrom currentScene 0 before (" is".toList ++ r) =
      " is".toList ++ rewriteFrom currentScene 0 (some 's') r :=
  rewriteFrom_of_passesOver (passesOver_currentScene (by decide))

section CurrentSceneStep

variable (hw : IsWord w) (hS : S ∈ ownerWords) (hp : p ∈ openings)

include hw hS hp

/-- In the phrasing with `of`, the attribute is settled and the rest rewritten. -/
theorem rewriteBy_currentScene_ofThe (r : List Char) :
    rewriteBy currentScene (p ++ (w ++ (" of the ".toList ++ (S ++ (" is".toList ++ r))))) =
      p ++ (settled w ++ (" of the ".toList ++ (S ++ (" is".toList ++
        rewriteFrom currentScene 0 (some 's') r)))) := by
  obtain ⟨hSword, hSsettled, -⟩ := ownerWords_spec S hS
  have hpc := foldChar_of_mem_openings p hp
  rw [rewriteBy, rewriteFrom_of_passesOver (passesOver_currentScene hpc),
    rewriteFrom_currentScene_word hw (getLast?_of_mem_openings hp rfl) rfl rfl,
    rewriteFrom_of_passesOver (passesOver_currentScene (by decide)),
    rewriteFrom_currentScene_word hSword rfl rfl rfl, hSsettled, rewriteFrom_currentScene_is]

/-- In the possessive phrasing likewise. -/
theorem rewriteBy_currentScene_possessive (r : List Char) :
    rewriteBy currentScene
        ("the ".toList ++ (S ++ ("'s ".toList ++ (p ++ (w ++ (" is".toList ++ r)))))) =
      "the ".toList ++ (S ++ ("'s ".toList ++ (p ++ (settled w ++ (" is".toList ++
        rewriteFrom currentScene 0 (some 's') r))))) := by
  obtain ⟨hSword, hSsettled, -⟩ := ownerWords_spec S hS
  have hpc := foldChar_of_mem_openings p hp
  rw [rewriteBy, rewriteFrom_of_passesOver (passesOver_currentScene (by decide)),
    rewriteFrom_currentScene_word hSword rfl rfl rfl, hSsettled,
    rewriteFrom_of_passesOver (passesOver_currentScene (by decide)),
    rewriteFrom_of_passesOver (passesOver_currentScene hpc),
    rewriteFrom_currentScene_word hw (getLast?_of_mem_openings hp rfl) rfl rfl,
    rewriteFrom_currentScene_is]

end CurrentSceneStep

/-! ## The second step -/

/-- The possessive pass rewrites only where a word begins. -/
theorem possessive_opensWords : possessive.OpensWords := by
  rintro before cs ⟨text, rest⟩ h
  obtain ⟨word, a, s, behind, rfl, hword, hbefore, -⟩ := possessive_eq_some_iff.mp h
  exact ⟨hbefore, hword.head?_append _⟩

/-- A word without an apostrophe behind it is none that something belongs to. -/
theorem possessive_word_append (hw : IsWord w) (hrest : rest.head?.any isWordChar = false)
    (hapart : rest.head?.any isApostrophe = false) : possessive before (w ++ rest) = none := by
  rw [Option.eq_none_iff_forall_ne_some]
  rintro ⟨text, behind⟩ h
  obtain ⟨word, a, s, behind, heq, hword, -, ha, -⟩ := possessive_eq_some_iff.mp h
  have hcloses : (a :: s :: behind).head?.any isWordChar = false := by
    refine Bool.eq_false_iff.mpr fun hletter => ?_
    rw [isApostrophe_of_isWordChar hletter] at ha
    cases ha
  obtain ⟨rfl, rfl⟩ := hw.append_inj hword hrest hcloses heq
  have hnone : isApostrophe a = false := hapart
  rw [hnone] at ha
  cases ha

/-- The second step makes `the S.` of `the S's`. -/
theorem rewriteBy_possessive (hS : S ∈ ownerWords) (hhead : rest.head?.any isWhite = false)
    (hrest : ∀ c ∈ rest, isApostrophe c = false) :
    rewriteBy possessive ("the ".toList ++ (S ++ ("'s ".toList ++ rest))) =
      "the ".toList ++ (S ++ '.' :: rest) := by
  obtain ⟨hSword, -⟩ := ownerWords_spec S hS
  have hpass : PassesOver possessive (S ++ ("'s ".toList ++ rest)) none "the ".toList := by
    have hthe : PassesOver possessive ([' '] ++ (S ++ ("'s ".toList ++ rest))) none "the".toList :=
      possessive_opensWords.passesOver_word (by decide)
        (possessive_word_append (by decide) rfl rfl)
    exact hthe.append (possessive_opensWords.passesOver_apart (by decide))
  have htaken : possessive (some ' ') ((S ++ "'s ".toList) ++ rest) = some ⟨S ++ ['.'], rest⟩ := by
    refine possessive_eq_some_iff.mpr ⟨S, '\'', 's', ' ' :: rest, ?_, hSword, by decide, by decide,
      by decide, rfl, rfl, ?_⟩
    · simp
    · rw [List.dropWhile_cons_of_pos (by decide), dropWhile_eq_self hhead]
  have hne : S ++ "'s ".toList ≠ [] := List.append_ne_nil_of_left_ne_nil hSword.1 _
  rw [rewriteBy, rewriteFrom_of_passesOver hpass, ← List.append_assoc S]
  change _ ++ rewriteFrom possessive 0 (some ' ') ((S ++ "'s ".toList) ++ rest) = _
  rw [rewriteFrom_taken hne htaken,
    rewriteFrom_of_appliesNowhere (appliesNowhere_possessive hrest), List.append_assoc,
    List.singleton_append]

/-! ## The third step -/

/-- A word with a blank behind it is taken up with the blank. -/
theorem takeBoth?_blank_append (hrest : rest.head?.any isWhite = false) (w : List Char) :
    takeBoth? (takeFolded? w) (takeRun? isWhite) (w ++ ' ' :: rest) = some (w ++ [' '], rest) := by
  have hblank : takeRun? isWhite (' ' :: rest) = some ([' '], rest) :=
    takeRun?_eq_some.mpr ⟨rfl, List.cons_ne_nil ' ' [], by decide, hrest⟩
  exact takeBoth?_eq_some.mpr ⟨w, _, [' '], takeFolded?_eq_some.mpr ⟨rfl, rfl⟩, hblank, rfl⟩

/-- An owner is taken behind `of the`. -/
theorem takeOwner?_ofThe (hS : S ∈ ownerWords) (hrest : rest.head?.any isWordChar = false) :
    takeOwner? (" of the ".toList ++ (S ++ rest)) = some (S, rest) := by
  obtain ⟨hSword, -, howner⟩ := ownerWords_spec S hS
  have hblank : takeRun? isWhite (" of the ".toList ++ (S ++ rest)) =
      some ([' '], "of".toList ++ (" the ".toList ++ (S ++ rest))) := rfl
  have hof : takeFolded? "of".toList ("of".toList ++ (" the ".toList ++ (S ++ rest))) =
      some ("of".toList, " the ".toList ++ (S ++ rest)) := rfl
  have hblank' : takeRun? isWhite (" the ".toList ++ (S ++ rest)) =
      some ([' '], "the".toList ++ ' ' :: (S ++ rest)) := rfl
  have hthe := takeBoth?_blank_append (hSword.head?_white rest) "the".toList
  simp only [takeOwner?, takeOf?, hblank, hof, hblank', hthe, howner,
    takeRun?_word_append hSword hrest, Option.bind_eq_bind, Option.bind_some, Option.pure_def]

/-- No owner is taken before a verb. -/
theorem takeOwner?_is (rest : List Char) : takeOwner? (" is".toList ++ rest) = none := rfl

/-- No owner is taken before a dot. -/
theorem takeOwner?_dot (rest : List Char) : takeOwner? ('.' :: rest) = none := rfl

/-- No owner has an owner itself. -/
theorem takeOwner?_owner : ∀ S ∈ ownerWords, ∀ rest : List Char,
    takeOwner? (' ' :: (S ++ rest)) = none := by
  simp only [ownerWords, List.forall_mem_cons]
  exact ⟨fun _ => rfl, fun _ => rfl, fun _ => rfl, fun _ => rfl, fun _ => rfl, fun _ => rfl,
    fun _ => rfl, List.forall_mem_nil _⟩

/-- Behind `attribute` there is no owner, even if the name of the attribute is `of`. -/
theorem takeOwner?_attribute (hw : IsWord w) (hrest : rest.head?.any isWordChar = false) :
    takeOwner? (' ' :: (w ++ (" is".toList ++ rest))) = none := by
  rw [Option.eq_none_iff_forall_ne_some]
  rintro ⟨subject, behind⟩ h
  simp only [takeOwner?, Option.bind_eq_bind, Option.bind_eq_some_iff, Prod.exists,
    Option.pure_def, Option.some.injEq, Prod.mk.injEq] at h
  obtain ⟨cs, hof, name, _, hname, _, howner, -⟩ := h
  obtain ⟨gap, link, gap', after, heq, hne, hwhite, hlink, hne', hwhite', hafter⟩ :=
    exists_of_takeOf? hof
  -- the link is the word, and `is` comes after it, which neither is nor has an owner
  have hlinkWord : IsWord link := isWord_of_map_foldChar (by decide) hlink
  have hisWord : IsWord "is".toList := by decide
  obtain ⟨-, hword⟩ := run_append_inj (a := [' ']) (List.cons_ne_nil ' ' []) (by decide)
    (hw.head?_white _) hne hwhite (hlinkWord.head?_white _) heq
  obtain ⟨-, hgap⟩ :=
    hw.append_inj hlinkWord rfl (head?_any_white_append hne' hwhite' after) hword
  have his : after.head?.any isWhite = false → "is".toList ++ rest = after := fun hafter =>
    (run_append_inj (a := [' ']) (List.cons_ne_nil ' ' []) (by decide)
      (hisWord.head?_white rest) hne' hwhite' hafter hgap).2
  rcases hafter with rfl | ⟨article, gap'', rfl, harticle, hne'', hwhite''⟩
  · obtain ⟨rfl, hnameNe, hnameWord, hends⟩ := takeRun?_eq_some.mp hname
    have hnameWord : IsWord name := ⟨hnameNe, hnameWord⟩
    obtain ⟨rfl, -⟩ := hisWord.append_inj hnameWord hrest hends (his (hnameWord.head?_white _))
    have hnone : owner? "is".toList = none := by decide
    rw [hnone] at howner
    cases howner
  · have harticleWord : IsWord article := isWord_of_map_foldChar (by decide) harticle
    obtain ⟨rfl, -⟩ := hisWord.append_inj harticleWord hrest
      (head?_any_white_append hne'' hwhite'' cs) (his (harticleWord.head?_white _))
    exact absurd harticle (by decide)

/-- `attribute` is taken up in front of a word. -/
theorem takeAttribute?_append (hrest : rest.head?.any isWhite = false) :
    takeAttribute? ("attribute ".toList ++ rest) = some rest := by
  have htaken := takeBoth?_blank_append hrest "attribute".toList
  rw [takeAttribute?]
  change (takeBoth? (takeFolded? "attribute".toList) (takeRun? isWhite)
    ("attribute".toList ++ ' ' :: rest)).bind _ = _
  rw [htaken]
  rfl

/-- `attribute` may be the word itself, and what is behind the white space then follows. -/
theorem takeRun?_of_takeAttribute? (hw : IsWord w) (hrest : rest.head?.any isWordChar = false)
    (h : takeAttribute? (w ++ rest) = some behind) :
    ∃ gap, takeRun? isWhite rest = some (gap, behind) := by
  simp only [takeAttribute?, Option.bind_eq_bind, Option.bind_eq_some_iff, Prod.exists,
    Option.pure_def, Option.some.injEq, takeBoth?_eq_some, takeFolded?_eq_some] at h
  obtain ⟨_, _, ⟨a, cs, gap, ⟨heq, ha⟩, hgap, -⟩, rfl⟩ := h
  obtain ⟨rfl, hne, hwhite, -⟩ := takeRun?_eq_some.mp hgap
  obtain ⟨-, rfl⟩ := hw.append_inj (isWord_of_map_foldChar (by decide) ha) hrest
    (head?_any_white_append hne hwhite _) heq
  exact ⟨gap, hgap⟩

/-- Behind `attribute` something that has an owner is looked for. -/
theorem ownedAttribute?_of_takeAttribute? (h : takeAttribute? cs = some rest) :
    ownedAttribute? cs = (takeOwned? rest).map fun (word, subject, behind) =>
      ⟨subject ++ ".attribute ".toList ++ word, behind⟩ := by
  rw [ownedAttribute?, h]
  change (takeOwned? rest).bind _ = _
  cases takeOwned? rest <;> rfl

/-- A word with an owner behind it is no owned attribute. -/
theorem ownedAttribute?_ofThe (hw : IsWord w) (cs : List Char) :
    ownedAttribute? (w ++ (" of the ".toList ++ cs)) = none := by
  cases htake : takeAttribute? (w ++ (" of the ".toList ++ cs)) with
  | none =>
    rw [ownedAttribute?, htake]
    rfl
  | some behind =>
    obtain ⟨gap, hgap⟩ := takeRun?_of_takeAttribute? hw rfl htake
    have hof : takeRun? isWhite (" of the ".toList ++ cs) =
        some ([' '], "of".toList ++ (" the ".toList ++ cs)) := rfl
    rw [hof, Option.some.injEq, Prod.mk.injEq] at hgap
    obtain ⟨-, rfl⟩ := hgap
    have hnone : takeOwner? (" the ".toList ++ cs) = none := rfl
    have howned := takeOwned?_word_append (w := "of".toList) (by decide)
      (show (" the ".toList ++ cs).head?.any isWordChar = false from rfl)
    rw [ownedAttribute?_of_takeAttribute? htake, howned, hnone]
    rfl

/-- The third step makes `S.W` of `W of the S`. -/
theorem owned_ofThe (hw : IsWord w) (hS : S ∈ ownerWords) (hp : p ∈ openings)
    (hrest : rest.head?.any isWordChar = false) :
    owned none (p ++ (w ++ (" of the ".toList ++ (S ++ rest)))) =
      some ⟨S ++ '.' :: (p ++ w), rest⟩ := by
  have howned : takeOwned? (w ++ (" of the ".toList ++ (S ++ rest))) = some (w, S, rest) := by
    rw [takeOwned?_word_append hw rfl, takeOwner?_ofThe hS hrest]
    rfl
  rcases List.mem_pair.mp hp with rfl | rfl
  · have hedge : atWordEdge none (w ++ (" of the ".toList ++ (S ++ rest))) = true := by
      rw [atWordEdge, hw.head?_append]
      rfl
    rw [List.nil_append, List.nil_append, owned, if_pos hedge, ownedAttribute?_ofThe hw,
      ownedField?, howned]
    rfl
  · rw [owned, if_pos (by rfl),
      ownedAttribute?_of_takeAttribute? (takeAttribute?_append (hw.head?_white _)), howned]
    change some (⟨S ++ ".attribute ".toList ++ w, rest⟩ : Replacement) = _
    rw [List.append_assoc]
    rfl

/-- Nothing is owned where the determiner and the dot are. -/
theorem unowned_the (hw : IsWord w) (hS : S ∈ ownerWords) (hp : p ∈ openings)
    (hrest : rest.head?.any isWordChar = false) (hunowned : Unowned (" is".toList ++ rest)) :
    Unowned ("the ".toList ++ (S ++ '.' :: (p ++ (w ++ (" is".toList ++ rest))))) := by
  have hword : Unowned (w ++ (" is".toList ++ rest)) :=
    hunowned.word_append hw rfl (takeOwner?_is rest)
  have hopening : Unowned (p ++ (w ++ (" is".toList ++ rest))) := by
    rcases List.mem_pair.mp hp with rfl | rfl
    · exact hword
    · exact (hword.apart_cons (by decide)).word_append (w := "attribute".toList) (by decide) rfl
        (takeOwner?_attribute hw hrest)
  have hsubject := (hopening.apart_cons (c := '.') (by decide)).word_append (ownerWords_spec S hS).1
    rfl (takeOwner?_dot _)
  exact (hsubject.apart_cons (c := ' ') (by decide)).word_append (w := "the".toList) (by decide) rfl
    (takeOwner?_owner S hS _)

/-- The attribute of an owner is written behind the owner and a dot. -/
theorem rewriteBy_owned_ofThe (hw : IsWord w) (hS : S ∈ ownerWords) (hp : p ∈ openings)
    (hrest : rest.head?.any isWordChar = false) (hunowned : Unowned rest) :
    rewriteBy owned (p ++ (w ++ (" of the ".toList ++ (S ++ rest)))) =
      S ++ '.' :: (p ++ (w ++ rest)) := by
  have htaken : owned none ((p ++ (w ++ (" of the ".toList ++ S))) ++ rest) =
      some ⟨S ++ '.' :: (p ++ w), rest⟩ := by
    simpa only [List.append_assoc] using owned_ofThe hw hS hp hrest
  have hne : p ++ (w ++ (" of the ".toList ++ S)) ≠ [] :=
    List.append_ne_nil_of_right_ne_nil p (List.append_ne_nil_of_left_ne_nil hw.1 _)
  have hrewrite := rewriteFrom_taken hne htaken
  rw [rewriteFrom_of_appliesNowhere hunowned.appliesNowhere] at hrewrite
  simpa only [rewriteBy, List.append_assoc, List.cons_append] using hrewrite

/-! ## What is said of the subject -/

/-- Text that may stand behind `is`: it does not go on with a word, has no apostrophes, and nothing
in it has an owner. -/
structure IsPredicate (r : List Char) : Prop where
  closes : r.head?.any isWordChar = false
  noApostrophe : ∀ c ∈ r, isApostrophe c = false
  notLinked : ¬ Linked (" is".toList ++ r)

namespace IsPredicate

/-- Text without `of` among its words is such, also when white space at its end is dropped. -/
theorem of_words (hcloses : r.head?.any isWordChar = false)
    (hapostrophe : ∀ c ∈ r, isApostrophe c = false)
    (hof : ∀ u ∈ words (" is".toList ++ r), sameFolded u "of".toList = false) :
    IsPredicate (r.rdropWhile isWhite) := by
  have hbegins := List.rdropWhile_prefix isWhite r
  refine ⟨?_, fun c hc => hapostrophe c (hbegins.subset hc), fun hlinked => ?_⟩
  · obtain ⟨gap, hgap⟩ := hbegins
    rw [← hgap] at hcloses
    cases hdrop : r.rdropWhile isWhite with
    | nil => rfl
    | cons c cs =>
      rw [hdrop] at hcloses
      exact hcloses
  · obtain ⟨u, hu, hfold⟩ := hlinked.exists_mem_words
    have hback : ∀ c ∈ r.rtakeWhile isWhite, isWhite c = true :=
      fun c hc => List.mem_rtakeWhile_imp hc
    have hwords := words_append_white hback (" is".toList ++ r.rdropWhile isWhite)
    rw [List.append_assoc, List.rdropWhile_append_rtakeWhile] at hwords
    have hu := hof u (hwords ▸ hu)
    rw [sameFolded, beq_eq_false_iff_ne] at hu
    exact hu hfold

variable (hr : IsPredicate r)

include hr

/-- The first step leaves a predicate of a predicate. -/
theorem rewriteFrom_currentScene : IsPredicate (rewriteFrom currentScene 0 (some 's') r) := by
  have hadvances := currentScene_plain.1.advances
  have hrewrites := Rewrites.rewriteFrom hadvances (some 's') r
  refine ⟨currentScene_opensWords.head?_of_rewrites hrewrites hr.closes, ?_, fun hlinked => ?_⟩
  · refine hrewrites.forall_mem (fun before taken text rest hsome _ => ?_) hr.noApostrophe
    obtain ⟨-, -, -, -, -, -, -, -, -, -, rfl⟩ := currentScene_eq_some_iff.mp hsome
    decide
  · rw [← rewriteFrom_currentScene_is none] at hlinked
    exact hr.notLinked (hlinked.of_rewrites (Rewrites.rewriteFrom hadvances none _))

/-- Nothing is owned in the predicate. -/
theorem unowned : Unowned (" is".toList ++ r) :=
  unowned_of_not_linked hr.notLinked

/-- The attribute and its predicate have no apostrophe. -/
theorem noApostrophe_append (hw : IsWord w) (hp : p ∈ openings) :
    ∀ c ∈ p ++ (w ++ (" is".toList ++ r)), isApostrophe c = false := by
  have hopening : ∀ p ∈ openings, ∀ c ∈ p, isApostrophe c = false := by decide
  simp only [List.forall_mem_append]
  exact ⟨hopening p hp, fun c hc => isApostrophe_of_isWordChar (hw.2 c hc), by decide,
    hr.noApostrophe⟩

end IsPredicate

/-! ## All steps -/

/-- An attribute's opening does not begin with white space. -/
theorem head?_opening (hp : p ∈ openings) (hw : IsWord w) (rest : List Char) :
    (p ++ (w ++ rest)).head?.any isWhite = false := by
  rcases List.mem_pair.mp hp with rfl | rfl
  · exact hw.head?_white rest
  · rfl

variable (hr : IsPredicate r) (hw : IsWord w) (hS : S ∈ ownerWords) (hp : p ∈ openings)

include hr hw hS hp

/-- `W of the S` becomes `S.W`. -/
theorem rewriteSubjects_ofThe :
    rewriteSubjects (p ++ (w ++ (" of the ".toList ++ (S ++ (" is".toList ++ r))))) =
      S ++ '.' :: (p ++ (settled w ++ (" is".toList ++
        rewriteFrom currentScene 0 (some 's') r))) := by
  have hr' := hr.rewriteFrom_currentScene
  have hw' := isWord_settled hw
  have hSword := (ownerWords_spec S hS).1
  have hnowhere : AppliesNowhere possessive none (p ++ (settled w ++ (" of the ".toList ++
      (S ++ (" is".toList ++ rewriteFrom currentScene 0 (some 's') r))))) := by
    refine appliesNowhere_possessive ?_
    have hrest := hr'.noApostrophe_append hw' hp
    simp only [List.forall_mem_append] at hrest ⊢
    exact ⟨hrest.1, hrest.2.1, by decide, fun c hc => isApostrophe_of_isWordChar (hSword.2 c hc),
      hrest.2.2⟩
  rw [rewriteSubjects, rewriteBy_currentScene_ofThe hw hS hp, rewriteBy_of_appliesNowhere hnowhere,
    rewriteBy_owned_ofThe hw' hS hp rfl hr'.unowned]

/-- `the S's W` becomes `the S.W`. -/
theorem rewriteSubjects_possessive :
    rewriteSubjects
        ("the ".toList ++ (S ++ ("'s ".toList ++ (p ++ (w ++ (" is".toList ++ r)))))) =
      "the ".toList ++ (S ++ '.' :: (p ++ (settled w ++ (" is".toList ++
        rewriteFrom currentScene 0 (some 's') r)))) := by
  have hr' := hr.rewriteFrom_currentScene
  have hw' := isWord_settled hw
  have hunowned := unowned_the hw' hS hp hr'.closes hr'.unowned
  rw [rewriteSubjects, rewriteBy_currentScene_possessive hw hS hp,
    rewriteBy_possessive hS (head?_opening hp hw' _) (hr'.noApostrophe_append hw' hp),
    rewriteBy_of_appliesNowhere hunowned.appliesNowhere]

omit hr hw hS hp

/-- For determiners only matters whether the character before a text is part of a word. -/
theorem rewriteFrom_determiner_congr {before before' : Option Char}
    (h : before.any isWordChar = before'.any isWordChar) (cs : List Char) :
    rewriteFrom determiner 0 before cs = rewriteFrom determiner 0 before' cs := by
  cases cs with
  | nil => rfl
  | cons c cs =>
    have hdeterminer : determiner before (c :: cs) = determiner before' (c :: cs) := by
      unfold determiner takeBounded? atWordEdge
      rw [h]
    rw [rewriteFrom, rewriteFrom, hdeterminer]

/-- A determiner in front of a text is dropped. -/
theorem dropDeterminers_the (hrest : rest.head?.any isWhite = false) :
    dropDeterminers ("the ".toList ++ rest) = dropDeterminers rest := by
  have htaken : determiner none ("the ".toList ++ rest) = some ⟨[], rest⟩ := by
    have hfound : (determiners.findSome? fun w => takeBounded? none [w] ("the ".toList ++ rest)) =
        some ("the".toList, ' ' :: rest) := rfl
    rw [determiner, hfound]
    change some (⟨[], (' ' :: rest).dropWhile isWhite⟩ : Replacement) = _
    rw [List.dropWhile_cons_of_pos (by decide), dropWhile_eq_self hrest]
  have hbehind : rewriteFrom determiner 0 (some ' ') rest = rewriteFrom determiner 0 none rest :=
    rewriteFrom_determiner_congr (by decide) rest
  rw [dropDeterminers, rewriteBy, rewriteBy, rewriteFrom_taken (by decide) htaken, List.nil_append]
  change rewriteFrom whiteSpace 0 none (rewriteFrom determiner 0 (some ' ') rest) = _
  rw [hbehind]
  rfl

include hr hw hS hp

/-- The two phrasings are one plain segment in the end. -/
theorem rewriteSegment_ofThe (v : Vocabulary) :
    rewriteSegment v (p ++ (w ++ (" of the ".toList ++ (S ++ (" is".toList ++ r))))) =
      rewriteSegment v
        ("the ".toList ++ (S ++ ("'s ".toList ++ (p ++ (w ++ (" is".toList ++ r)))))) := by
  rw [rewriteSegment, rewriteSegment, rewriteSubjects_ofThe hr hw hS hp,
    rewriteSubjects_possessive hr hw hS hp,
    dropDeterminers_the ((ownerWords_spec S hS).1.head?_white _)]

omit hr hw hS hp

/-! ## The canonical form -/

/-- Only behind `is` may there be white space to trim. -/
theorem ofText_is (v : Vocabulary) (front : List Char)
    (hhead : (front ++ (" is".toList ++ r)).head?.any isWhite = false)
    (hquote : ∀ c ∈ front ++ (" is".toList ++ r), c ≠ '"') :
    ofText v (front ++ (" is".toList ++ r)) =
      trim (rewriteSegment v (front ++ (" is".toList ++ r.rdropWhile isWhite))) := by
  have hwords : words (front ++ (" is".toList ++ r)) ≠ [] :=
    words_ne_nil_of_mem (c := 'i') (by simp) (by decide)
  have hlast : (front ++ " is".toList).getLast?.any isWhite = false := by
    rw [List.getLast?_append]
    rfl
  have htrim : trim (front ++ (" is".toList ++ r)) =
      front ++ (" is".toList ++ r.rdropWhile isWhite) := by
    rw [trim_eq, dropWhile_eq_self hhead, ← List.append_assoc, rdropWhile_append (.inl hlast),
      List.append_assoc]
  rw [ofText_of_noQuote v hwords hquote, htrim]

/-- The two phrasings are one text, if the predicate has no quotes. -/
theorem ofText_ofThe (v : Vocabulary) (hr : IsPredicate (r.rdropWhile isWhite)) (hw : IsWord w)
    (hS : S ∈ ownerWords) (hp : p ∈ openings) (hquote : ∀ c ∈ r, c ≠ '"') :
    ofText v (p ++ (w ++ (" of the ".toList ++ (S ++ (" is".toList ++ r))))) =
      ofText v ("the ".toList ++ (S ++ ("'s ".toList ++ (p ++ (w ++ (" is".toList ++ r)))))) := by
  have hopening : ∀ p ∈ openings, ∀ c ∈ p, c ≠ '"' := by decide
  have hquote' : ∀ {u : List Char}, IsWord u → ∀ c ∈ u, c ≠ '"' :=
    fun hu c hc => ne_quote_of_isWordChar (hu.2 c hc)
  have hSword := (ownerWords_spec S hS).1
  have hofThe := ofText_is v (r := r) (p ++ (w ++ (" of the ".toList ++ S)))
  have hpossessive := ofText_is v (r := r) ("the ".toList ++ (S ++ ("'s ".toList ++ (p ++ w))))
  simp only [List.append_assoc, List.forall_mem_append] at hofThe hpossessive
  rw [hofThe (head?_opening hp hw _) ⟨hopening p hp, hquote' hw, by decide, hquote' hSword,
      by decide, hquote⟩,
    hpossessive rfl ⟨by decide, hquote' hSword, by decide, hopening p hp, hquote' hw, by decide,
      hquote⟩,
    rewriteSegment_ofThe hr hw hS hp]

end GameCondition.Canonical

namespace GameCondition.Vocabulary

open Canonical

/-- Whether something is said of what belongs to a subject as `W of the S` or as `the S's W`, the
canonical form is the same, also where the word is that of an attribute. -/
theorem canonicalize_ofThe_eq_possessive (v : Vocabulary) {w S r : String}
    (hw : IsWord w.toList) (hS : S.toList ∈ ownerWords) (hr : " is ".toList <+: r.toList)
    (hquote : ∀ c ∈ r.toList, c ≠ '"') (hapostrophe : ∀ c ∈ r.toList, isApostrophe c = false)
    (hof : ∀ u ∈ words r.toList, sameFolded u "of".toList = false) :
    v.canonicalize (w ++ " of the " ++ S ++ r) = v.canonicalize ("the " ++ S ++ "'s " ++ w ++ r) ∧
      v.canonicalize ("attribute " ++ w ++ " of the " ++ S ++ r) =
        v.canonicalize ("the " ++ S ++ "'s attribute " ++ w ++ r) := by
  obtain ⟨t, ht⟩ := hr
  have hr : r.toList = " is".toList ++ ' ' :: t := ht.symm
  rw [hr] at hquote hapostrophe hof
  simp only [List.forall_mem_append] at hquote hapostrophe
  have hpredicate : IsPredicate ((' ' :: t).rdropWhile isWhite) :=
    .of_words rfl hapostrophe.2 hof
  have hattribute : "'s attribute ".toList = "'s ".toList ++ "attribute ".toList := rfl
  simp only [canonicalize, String.toList_append, List.append_assoc, hr, hattribute]
  have hsame : ∀ p ∈ openings, _ := fun p hp => ofText_ofThe v hpredicate hw hS hp hquote.2
  exact ⟨congrArg String.ofList (hsame [] List.mem_cons_self),
    congrArg String.ofList (hsame "attribute ".toList (List.mem_cons_of_mem _ List.mem_cons_self))⟩

/-- The word that belongs to a subject may be *of* itself, and behind `is` the current scene may be
spelled as two words. -/
theorem canonicalize_ofThe_eq_possessive_currentScene :
    (IsWord "OF".toList ∧ "currentScene".toList ∈ ownerWords ∧
      " is ".toList <+: " is Current  scene\t".toList) ∧
    (∀ c ∈ " is Current  scene\t".toList, c ≠ '"') ∧
    (∀ c ∈ " is Current  scene\t".toList, isApostrophe c = false) ∧
    (∀ u ∈ words " is Current  scene\t".toList, sameFolded u "of".toList = false) ∧
    (ofElements ironElements).canonicalize
        ("OF" ++ " of the " ++ "currentScene" ++ " is Current  scene\t") =
      (ofElements ironElements).canonicalize
        ("the " ++ "currentScene" ++ "'s " ++ "OF" ++ " is Current  scene\t") ∧
    (ofElements ironElements).canonicalize
        ("attribute " ++ "OF" ++ " of the " ++ "currentScene" ++ " is Current  scene\t") =
      (ofElements ironElements).canonicalize
        ("the " ++ "currentScene" ++ "'s attribute " ++ "OF" ++ " is Current  scene\t") := by
  have hw : IsWord "OF".toList := by decide
  have hS : "currentScene".toList ∈ ownerWords := by decide
  have hr : " is ".toList <+: " is Current  scene\t".toList := by decide
  have hquote : ∀ c ∈ " is Current  scene\t".toList, c ≠ '"' := by decide
  have hapostrophe : ∀ c ∈ " is Current  scene\t".toList, isApostrophe c = false := by decide
  have hof : ∀ u ∈ words " is Current  scene\t".toList, sameFolded u "of".toList = false := by
    decide
  exact ⟨⟨hw, hS, hr⟩, hquote, hapostrophe, hof,
    canonicalize_ofThe_eq_possessive (ofElements ironElements) hw hS hr hquote hapostrophe hof⟩

end GameCondition.Vocabulary
