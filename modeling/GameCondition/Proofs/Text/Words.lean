import GameCondition.Proofs.Text.Folding
import GameCondition.Proofs.Text.Segments
import GameCondition.Vocabulary.Basic

/-! # Words of a text

A text is white space with words in it, each of which ends where white space begins or the text
does (`words_induction`). Words with blanks between them are the words of the text that they make
up (`words_joinWords`). Trimming a text keeps its words (`words_trim`), and lowering a word gives a
word (`IsUnspaced.lowerText`).
-/

namespace GameCondition

/-- A word: something without white space in it. -/
def IsUnspaced (w : List Char) : Prop :=
  w ≠ [] ∧ ∀ c ∈ w, isWhite c = false

/-- Text without white space has none at its ends. -/
theorem ink_ends_of_forall {cs : List Char} (h : ∀ c ∈ cs, isWhite c = false) :
    cs.head?.any isWhite = false ∧ cs.getLast?.any isWhite = false := by
  constructor
  · rw [Option.any_eq_false]
    intro c hc
    exact h c (List.mem_of_head? hc)
  · rw [Option.any_eq_false]
    intro c hc
    exact h c (List.mem_of_getLast? hc)

/-- No word goes on behind white space. -/
theorem getLast?_or_white {gap : List Char} {before : Option Char}
    (hgap : ∀ c ∈ gap, isWhite c = true) (hbefore : gap = [] → before.any isWordChar = false) :
    (gap.getLast?.or before).any isWordChar = false := by
  cases hlast : gap.getLast? with
  | none => exact hbefore (List.getLast?_eq_none_iff.mp hlast)
  | some d => exact isWordChar_of_isWhite (hgap d (List.mem_of_getLast? hlast))

/-- White space at the front is no part of a word. -/
theorem head?_any_white_append {gap : List Char} (hne : gap ≠ [])
    (hgap : ∀ c ∈ gap, isWhite c = true) (cs : List Char) :
    (gap ++ cs).head?.any isWordChar = false := by
  obtain ⟨c, gap, rfl⟩ := List.exists_cons_of_ne_nil hne
  exact isWordChar_of_isWhite (hgap c List.mem_cons_self)

/-! ## Taking words off a text -/

/-- White space at the front adds no word. -/
theorem words_white_cons {c : Char} (hc : isWhite c = true) (cs : List Char) :
    words (c :: cs) = words cs := by
  rw [words.eq_def]
  exact if_pos hc

/-- White space in front of a text adds no words. -/
theorem words_white_append {gap : List Char} (hgap : ∀ c ∈ gap, isWhite c = true)
    (cs : List Char) : words (gap ++ cs) = words cs := by
  induction gap with
  | nil => rfl
  | cons c gap ih =>
    rw [List.forall_mem_cons] at hgap
    rw [List.cons_append, words_white_cons hgap.1, ih hgap.2]

/-- White space has no words. -/
theorem words_of_white {gap : List Char} (hgap : ∀ c ∈ gap, isWhite c = true) :
    words gap = [] := by
  have hwords := words_white_append hgap []
  rwa [List.append_nil] at hwords

/-- A word ends where white space begins. -/
theorem words_append {w rest : List Char} (hne : w ≠ []) (hw : ∀ c ∈ w, isWhite c = false)
    (hrest : rest.head?.all isWhite = true) : words (w ++ rest) = w :: words rest := by
  induction w with
  | nil => exact absurd rfl hne
  | cons c w ih =>
    rw [List.forall_mem_cons] at hw
    rw [List.cons_append, words.eq_def]
    dsimp only
    rw [hw.1, if_neg Bool.false_ne_true]
    cases w with
    | nil =>
      cases rest with
      | nil => rfl
      | cons d rest =>
        have hd : isWhite d = true := hrest
        simp only [List.nil_append, hd, if_true]
    | cons d w =>
      have hd : isWhite d = false := hw.2 d List.mem_cons_self
      have htail := ih (List.cons_ne_nil d w) hw.2
      simp only [List.cons_append, hd, Bool.false_eq_true, if_false] at htail ⊢
      rw [htail]

/-- Texts with the same words that both begin with white space, or both do not, have the same words
behind any character. -/
theorem words_cons_congr {cs ds : List Char}
    (hhead : cs.head?.map isWhite = ds.head?.map isWhite) (hwords : words cs = words ds)
    (c : Char) : words (c :: cs) = words (c :: ds) := by
  rw [words.eq_def, words.eq_def (c :: ds)]
  cases cs with
  | nil =>
    cases ds with
    | nil => rfl
    | cons e ds => cases hhead
  | cons d cs =>
    cases ds with
    | nil => cases hhead
    | cons e ds =>
      have hwhite : isWhite d = isWhite e := Option.some.inj hhead
      dsimp only
      rw [hwords, hwhite]

/-- What holds of white space, and of a text if it holds of the text behind its first word, holds of
every text. -/
theorem words_induction {motive : List Char → Prop}
    (white : ∀ gap, (∀ c ∈ gap, isWhite c = true) → motive gap)
    (word : ∀ gap w rest, (∀ c ∈ gap, isWhite c = true) → IsUnspaced w →
      rest.head?.all isWhite = true → motive rest → motive (gap ++ (w ++ rest)))
    (cs : List Char) : motive cs := by
  induction hn : cs.length using Nat.strongRecOn generalizing cs with
  | ind n ih =>
    have hgap : ∀ c ∈ cs.takeWhile isWhite, isWhite c = true :=
      fun c hc => List.mem_takeWhile_imp hc
    have hcs : cs.takeWhile isWhite ++ cs.dropWhile isWhite = cs :=
      List.takeWhile_append_dropWhile
    have hhead := List.head?_dropWhile_not isWhite cs
    generalize cs.takeWhile isWhite = gap at hgap hcs
    generalize cs.dropWhile isWhite = behind at hcs hhead
    subst hcs
    cases behind with
    | nil =>
      rw [List.append_nil]
      exact white gap hgap
    | cons c behind =>
      -- the word goes up to the next white space
      have hc : isWhite c = false := by simpa using hhead
      have hw : ∀ d ∈ behind.takeWhile fun d => !isWhite d, isWhite d = false :=
        fun d hd => by simpa using List.mem_takeWhile_imp hd
      have hbehind : (behind.takeWhile fun d => !isWhite d) ++
          (behind.dropWhile fun d => !isWhite d) = behind := List.takeWhile_append_dropWhile
      have hrest := List.head?_dropWhile_not (fun d => !isWhite d) behind
      generalize behind.takeWhile (fun d => !isWhite d) = w at hw hbehind
      generalize behind.dropWhile (fun d => !isWhite d) = rest at hbehind hrest
      subst hbehind
      refine word gap (c :: w) rest hgap ⟨List.cons_ne_nil c w, ?_⟩ ?_ (ih _ ?_ rest rfl)
      · exact List.forall_mem_cons.mpr ⟨hc, hw⟩
      · cases rest with
        | nil => rfl
        | cons d rest => simpa using hrest
      · rw [← hn]
        simp only [List.length_append, List.length_cons]
        omega

/-- The words of a text have no white space. -/
theorem isUnspaced_of_mem_words {cs w : List Char} (h : w ∈ words cs) : IsUnspaced w := by
  induction cs using words_induction with
  | white gap hgap =>
    rw [words_of_white hgap] at h
    cases h
  | word gap v rest hgap hv hrest ih =>
    rw [words_white_append hgap, words_append hv.1 hv.2 hrest] at h
    rcases List.mem_cons.mp h with rfl | h
    · exact hv
    · exact ih h

/-- The characters of a word are those of the text. -/
theorem mem_of_mem_words {cs w : List Char} {c : Char} (hw : w ∈ words cs) (hc : c ∈ w) :
    c ∈ cs := by
  induction cs using words_induction with
  | white gap hgap =>
    rw [words_of_white hgap] at hw
    cases hw
  | word gap v rest hgap hv hrest ih =>
    rw [words_white_append hgap, words_append hv.1 hv.2 hrest] at hw
    rcases List.mem_cons.mp hw with rfl | hw
    · exact List.mem_append_right gap (List.mem_append_left rest hc)
    · exact List.mem_append_right gap (List.mem_append_right v (ih hw))

/-- Characters that are white where others are make up words where those do. -/
theorem words_map {f : Char → Char} (hf : ∀ c, isWhite (f c) = isWhite c) (cs : List Char) :
    words (cs.map f) = (words cs).map (List.map f) := by
  -- word by word, since the map leaves what is white space
  induction cs using words_induction with
  | white gap hgap =>
    have hwhite : ∀ c ∈ gap.map f, isWhite c = true := by
      rw [List.forall_mem_map]
      exact fun c hc => (hf c).trans (hgap c hc)
    rw [words_of_white hgap, words_of_white hwhite, List.map_nil]
  | word gap w rest hgap hw hrest ih =>
    have hwhite : ∀ c ∈ gap.map f, isWhite c = true := by
      rw [List.forall_mem_map]
      exact fun c hc => (hf c).trans (hgap c hc)
    have hink : ∀ c ∈ w.map f, isWhite c = false := by
      rw [List.forall_mem_map]
      exact fun c hc => (hf c).trans (hw.2 c hc)
    have hends : (rest.map f).head?.all isWhite = true := by
      rw [List.head?_map, Option.all_map]
      cases rest with
      | nil => rfl
      | cons c rest => exact (hf c).trans hrest
    have hne : w.map f ≠ [] := fun h => hw.1 (List.map_eq_nil_iff.mp h)
    rw [List.map_append, List.map_append, words_white_append hwhite, words_append hne hink hends,
      ih, words_white_append hgap, words_append hw.1 hw.2 hrest, List.map_cons]

/-- White space parts the words of a text. -/
theorem words_append_white_append {gap : List Char} (hne : gap ≠ [])
    (hgap : ∀ c ∈ gap, isWhite c = true) (cs ds : List Char) :
    words (cs ++ (gap ++ ds)) = words cs ++ words ds := by
  induction cs using words_induction with
  | white gap' hgap' =>
    rw [words_white_append hgap', words_white_append hgap, words_of_white hgap', List.nil_append]
  | word gap' w rest hgap' hw hrest ih =>
    have hends : (rest ++ (gap ++ ds)).head?.all isWhite = true := by
      cases rest with
      | nil =>
        obtain ⟨c, gap, rfl⟩ := List.exists_cons_of_ne_nil hne
        exact hgap c List.mem_cons_self
      | cons c rest => exact hrest
    rw [List.append_assoc, List.append_assoc, words_white_append hgap',
      words_append hw.1 hw.2 hends, ih, words_white_append hgap', words_append hw.1 hw.2 hrest,
      List.cons_append]

/-- White space behind a text adds no words. -/
theorem words_append_white {gap : List Char} (hgap : ∀ c ∈ gap, isWhite c = true)
    (cs : List Char) : words (cs ++ gap) = words cs := by
  cases gap with
  | nil => rw [List.append_nil]
  | cons c gap =>
    have hwords := words_append_white_append (List.cons_ne_nil c gap) hgap cs []
    rwa [List.append_nil, words, List.append_nil] at hwords

/-- A text with something else than white space in it has words. -/
theorem words_ne_nil_of_mem {c : Char} {cs : List Char} (hc : c ∈ cs) (hink : isWhite c = false) :
    words cs ≠ [] := by
  induction cs using words_induction with
  | white gap hgap => exact absurd (hgap c hc) (Bool.eq_false_iff.mp hink)
  | word gap w rest hgap hw hrest _ =>
    rw [words_white_append hgap, words_append hw.1 hw.2 hrest]
    exact List.cons_ne_nil w _

/-- Trimming a text keeps its words. -/
theorem words_trim (cs : List Char) : words (trim cs) = words cs := by
  have hfront : ∀ c ∈ cs.takeWhile isWhite, isWhite c = true :=
    fun c hc => List.mem_takeWhile_imp hc
  have hback : ∀ c ∈ (cs.dropWhile isWhite).rtakeWhile isWhite, isWhite c = true :=
    fun c hc => List.mem_rtakeWhile_imp hc
  have hwords := words_white_append hfront (cs.dropWhile isWhite)
  rw [List.takeWhile_append_dropWhile] at hwords
  have hwords' := words_append_white hback (trim cs)
  rw [trim_eq, List.rdropWhile_append_rtakeWhile] at hwords'
  rw [hwords, hwords', trim_eq]

/-! ## Words with blanks between them -/

theorem joinWords_cons_cons (separator : Char) (w v : List Char) (ws : List (List Char)) :
    joinWords separator (w :: v :: ws) = w ++ separator :: joinWords separator (v :: ws) :=
  rfl

theorem mem_joinWords {separator c : Char} {w : List Char} {ws : List (List Char)} (hw : w ∈ ws)
    (hc : c ∈ w) : c ∈ joinWords separator ws := by
  induction ws with
  | nil => cases hw
  | cons v ws ih =>
    cases ws with
    | nil =>
      rw [List.mem_singleton] at hw
      exact hw ▸ hc
    | cons u ws =>
      rw [joinWords_cons_cons]
      rcases List.mem_cons.mp hw with rfl | hw
      · exact List.mem_append_left _ hc
      · exact List.mem_append_right _ (List.mem_cons_of_mem separator (ih hw))

/-- What holds of the separator and of all words holds of the words joined. -/
theorem forall_mem_joinWords {P : Char → Prop} {separator : Char} {ws : List (List Char)}
    (hseparator : P separator) (h : ∀ w ∈ ws, ∀ c ∈ w, P c) :
    ∀ c ∈ joinWords separator ws, P c := by
  induction ws with
  | nil => exact List.forall_mem_nil P
  | cons w ws ih =>
    obtain ⟨hw, hws⟩ := List.forall_mem_cons.mp h
    cases ws with
    | nil => exact hw
    | cons v ws =>
      rw [joinWords_cons_cons, List.forall_mem_append, List.forall_mem_cons]
      exact ⟨hw, hseparator, ih hws⟩

/-- Joined words begin as the first of them. -/
theorem head?_joinWords {ws : List (List Char)} (h : ∀ w ∈ ws, IsUnspaced w) :
    (joinWords ' ' ws).head? = ws.flatten.head? := by
  cases ws with
  | nil => rfl
  | cons w ws =>
    obtain ⟨c, w, rfl⟩ := List.exists_cons_of_ne_nil (h w List.mem_cons_self).1
    cases ws <;> rfl

/-- Joined words do not begin with white space. -/
theorem exists_joinWords_eq_cons {w : List Char} {ws : List (List Char)}
    (h : ∀ v ∈ w :: ws, IsUnspaced v) :
    ∃ c cs, joinWords ' ' (w :: ws) = c :: cs ∧ isWhite c = false := by
  obtain ⟨hne, hink⟩ := h w List.mem_cons_self
  obtain ⟨c, w, rfl⟩ := List.exists_cons_of_ne_nil hne
  have hhead := head?_joinWords h
  rw [List.flatten_cons, List.cons_append, List.head?_cons, List.head?_eq_some_iff] at hhead
  obtain ⟨cs, hcs⟩ := hhead
  exact ⟨c, cs, hcs, hink c List.mem_cons_self⟩

/-- Joined words end as the last of them. -/
theorem getLast?_joinWords {ws : List (List Char)} (h : ∀ w ∈ ws, IsUnspaced w) :
    (joinWords ' ' ws).getLast? = ws.flatten.getLast? := by
  induction ws with
  | nil => rfl
  | cons w ws ih =>
    rw [List.forall_mem_cons] at h
    cases ws with
    | nil => rw [joinWords, List.flatten_cons, List.flatten_nil, List.append_nil]
    | cons v ws =>
      have hne : (v :: ws).flatten ≠ [] :=
        List.append_ne_nil_of_left_ne_nil (h.2 v List.mem_cons_self).1 _
      have hsome := List.getLast?_eq_some_getLast hne
      rw [joinWords_cons_cons, List.flatten_cons, List.getLast?_append, List.getLast?_append,
        List.getLast?_cons, ih h.2, hsome]
      rfl

/-- The words of a text that words make up with blanks between them. -/
theorem words_joinWords {ws : List (List Char)} (h : ∀ w ∈ ws, IsUnspaced w) :
    words (joinWords ' ' ws) = ws := by
  induction ws with
  | nil => rfl
  | cons w ws ih =>
    obtain ⟨hw, hws⟩ := List.forall_mem_cons.mp h
    cases ws with
    | nil =>
      have hends : ([] : List Char).head?.all isWhite = true := rfl
      have hwords := words_append hw.1 hw.2 hends
      rwa [List.append_nil] at hwords
    | cons v ws =>
      have hblank : isWhite ' ' = true := by decide
      have hends : (' ' :: joinWords ' ' (v :: ws)).head?.all isWhite = true := hblank
      rw [joinWords_cons_cons, words_append hw.1 hw.2 hends, words_white_cons hblank, ih hws]

/-- A text without white space is one word. -/
theorem words_of_isUnspaced {w : List Char} (h : IsUnspaced w) : words w = [w] :=
  words_joinWords (List.forall_mem_singleton.mpr h)

/-! ## Lowered words -/

theorem IsUnspaced.lowerText {w : List Char} (h : IsUnspaced w) : IsUnspaced (lowerText w) :=
  ⟨lowerText_ne_nil h.1, isWhite_of_mem_lowerText h.2⟩

/-- The words of a phrase are words. -/
theorem isUnspaced_of_mem_phraseWords {cs w : List Char} (h : w ∈ phraseWords cs) :
    IsUnspaced w := by
  obtain ⟨v, hv, rfl⟩ := List.mem_map.mp (List.mem_filter.mp h).1
  exact (isUnspaced_of_mem_words hv).lowerText

/-- The words of a phrase are those of its normal form. -/
theorem words_normalPhrase (s : String) :
    words (normalPhrase s).toList = phraseWords s.toList := by
  rw [normalPhrase, String.toList_ofList]
  exact words_joinWords fun _ => isUnspaced_of_mem_phraseWords

end GameCondition
