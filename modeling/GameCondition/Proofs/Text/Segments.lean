import GameCondition.Proofs.Text.CharClass
import GameCondition.Text.Segment
import Mathlib.Data.List.DropRight

/-! # Segments

The segments of a text are those lists of segments in which plain stretches are not empty, hold no
quote and are no neighbours, and every literal but the last is closed (`wellCut_segments`). Such a
list is what its text is cut into again (`segments_flatMap_text`), so the segments of a rewritten
or a trimmed text can be told from those of the text (`segments_rewritePlain`, `segments_trim`).
-/

namespace GameCondition

/-! ## Closed literals -/

/-- The rest of a literal after its first quote, whatever follows it. -/
def IsClosed (body : List Char) : Prop :=
  ∀ rest, cutLiteral (body ++ rest) = (body, rest)

/-- A literal is closed or takes up all of the text. -/
theorem isClosed_cutLiteral (cs : List Char) :
    IsClosed (cutLiteral cs).1 ∨ (cutLiteral cs).2 = [] := by
  fun_induction cutLiteral cs with
  | case1 => exact .inr rfl
  | case2 cs => exact .inl fun rest => rfl
  | case3 c cs ih =>
    rcases ih with hclosed | hrest
    · exact .inl fun rest => by simp [cutLiteral, hclosed rest]
    · exact .inr hrest
  | case4 c cs hquote hslash ih =>
    cases cs with
    | nil => exact .inr rfl
    | cons d ds =>
      rcases ih with hclosed | hrest
      · left
        intro rest
        rw [List.cons_append, cutLiteral, hclosed rest]
        · exact hquote
        · intro e es hc _
          exact hslash d ds hc rfl
      · exact .inr hrest

/-- A closed literal ends with a quote. -/
theorem getLast?_cutLiteral {cs : List Char} (h : (cutLiteral cs).2 ≠ []) :
    (cutLiteral cs).1.getLast? = some '"' := by
  fun_induction cutLiteral cs with
  | case1 => exact absurd rfl h
  | case2 => rfl
  | case3 c cs ih => simp [List.getLast?_cons, ih h]
  | case4 c cs _ _ ih => simp [List.getLast?_cons, ih h]

/-- A closed literal ends with a quote. -/
theorem IsClosed.getLast? {body : List Char} (h : IsClosed body) : body.getLast? = some '"' := by
  have hcut := h ['"']
  have hlast : (cutLiteral (body ++ ['"'])).1.getLast? = some '"' :=
    getLast?_cutLiteral (by rw [hcut]; simp)
  rwa [hcut] at hlast

/-! ## Lists of segments -/

/-- Whether a segment is plain. -/
def Segment.isPlain : Segment → Bool
  | .plain _ => true
  | .quoted _ => false

/-- What the segments of a text are like. -/
inductive WellCut : List Segment → Prop where
  | nil : WellCut []
  | plain {cs : List Char} {ss : List Segment} : cs ≠ [] → (∀ c ∈ cs, c ≠ '"') →
      ss.head?.any Segment.isPlain = false → WellCut ss → WellCut (.plain cs :: ss)
  | closed {body : List Char} {ss : List Segment} : IsClosed body → WellCut ss →
      WellCut (.quoted ('"' :: body) :: ss)
  | unclosed {body : List Char} : (cutLiteral body).2 = [] → WellCut [.quoted ('"' :: body)]

/-- A text is cut well. -/
theorem wellCut_segments (cs : List Char) : WellCut (segments cs) := by
  fun_induction segments cs with
  | case1 => exact .nil
  | case2 cs ih =>
    rcases isClosed_cutLiteral cs with hclosed | hrest
    · exact .closed hclosed ih
    · have hwhole : (cutLiteral cs).1 = cs := by
        have happend := cutLiteral_append cs
        rwa [hrest, List.append_nil] at happend
      rw [hrest, hwhole, segments]
      exact .unclosed hrest
  | case3 c cs hc ih =>
    generalize segments cs = ss at ih
    cases ih with
    | nil => exact .plain (by simp) (by simpa using hc) rfl .nil
    | plain _ hcs hnext htail =>
      exact .plain (by simp) (List.forall_mem_cons.mpr ⟨hc, hcs⟩) hnext htail
    | closed hclosed htail => exact .plain (by simp) (by simpa using hc) rfl (.closed hclosed htail)
    | unclosed hrest => exact .plain (by simp) (by simpa using hc) rfl (.unclosed hrest)

/-- Text without quotes in front of a literal is a segment of its own. -/
theorem segments_plain_append {cs rest : List Char} (hne : cs ≠ []) (hcs : ∀ c ∈ cs, c ≠ '"')
    (hrest : (segments rest).head?.any Segment.isPlain = false) :
    segments (cs ++ rest) = .plain cs :: segments rest := by
  induction cs with
  | nil => exact absurd rfl hne
  | cons c cs ih =>
    rw [List.forall_mem_cons] at hcs
    rw [List.cons_append, segments, if_neg hcs.1]
    cases cs with
    | nil =>
      rw [List.nil_append]
      cases hss : segments rest with
      | nil => rfl
      | cons s ss =>
        rw [hss] at hrest
        cases s with
        | plain _ => cases hrest
        | quoted _ => rfl
    | cons d cs => rw [ih (List.cons_ne_nil d cs) hcs.2, consPlain]

/-- Text without quotes is one plain stretch. -/
theorem segments_of_noQuote {cs : List Char} (hne : cs ≠ []) (hcs : ∀ c ∈ cs, c ≠ '"') :
    segments cs = [.plain cs] := by
  have hnil : segments [] = [] := by rw [segments]
  have hhead : (segments []).head?.any Segment.isPlain = false := by
    rw [hnil]
    rfl
  have hcut := segments_plain_append hne hcs hhead
  rwa [List.append_nil, hnil] at hcut

/-- A well cut list is what its text is cut into. -/
theorem segments_flatMap_text {ss : List Segment} (h : WellCut ss) :
    segments (ss.flatMap Segment.text) = ss := by
  induction h with
  | nil => rw [List.flatMap_nil, segments]
  | @plain cs ss hne hcs hnext _ ih =>
    rw [List.flatMap_cons, Segment.text, segments_plain_append hne hcs (ih.symm ▸ hnext), ih]
  | @closed body ss hclosed _ ih =>
    rw [List.flatMap_cons, Segment.text, List.cons_append, segments, if_pos rfl,
      hclosed (ss.flatMap Segment.text), ih]
  | @unclosed body hrest =>
    have hwhole : (cutLiteral body).1 = body := by
      have happend := cutLiteral_append body
      rwa [hrest, List.append_nil] at happend
    rw [List.flatMap_cons, List.flatMap_nil, Segment.text, List.append_nil, segments, if_pos rfl,
      hrest, hwhole, segments]

/-! ## Segments of a rewritten text -/

/-- A segment, rewritten unless it is quoted. -/
def Segment.rewrite (f : List Char → List Char) : Segment → Segment
  | .plain cs => .plain (f cs)
  | .quoted cs => .quoted cs

/-- Segments, rewritten unless they are quoted and without those that become empty. -/
def rewriteSegments (f : List Char → List Char) (ss : List Segment) : List Segment :=
  (ss.map (Segment.rewrite f)).filter fun s => !s.text.isEmpty

/-- A plain segment is rewritten, and is dropped if nothing of it is left. -/
theorem rewriteSegments_plain_cons (f : List Char → List Char) (cs : List Char)
    (ss : List Segment) : rewriteSegments f (.plain cs :: ss) =
      if f cs = [] then rewriteSegments f ss else .plain (f cs) :: rewriteSegments f ss := by
  by_cases hcs : f cs = []
  · simp [rewriteSegments, Segment.rewrite, Segment.text, hcs]
  · simp [rewriteSegments, Segment.rewrite, Segment.text, hcs]

/-- A literal stays. -/
theorem rewriteSegments_quoted_cons (f : List Char → List Char) (body : List Char)
    (ss : List Segment) : rewriteSegments f (.quoted ('"' :: body) :: ss) =
      .quoted ('"' :: body) :: rewriteSegments f ss := by
  simp [rewriteSegments, Segment.rewrite, Segment.text]

/-- Rewritten segments make up the rewritten text. -/
theorem flatMap_text_rewriteSegments (f : List Char → List Char) (ss : List Segment) :
    (rewriteSegments f ss).flatMap Segment.text = ss.flatMap (Segment.rewritten f) := by
  induction ss with
  | nil => rfl
  | cons s ss ih =>
    have hs : (s.rewrite f).text = s.rewritten f := by cases s <;> rfl
    rw [List.flatMap_cons, ← ih, ← hs, rewriteSegments, List.map_cons, List.filter_cons]
    split
    · rw [List.flatMap_cons]
      rfl
    · rename_i hempty
      have hempty : (s.rewrite f).text = [] := by simpa using hempty
      rw [hempty]
      rfl

variable {f : List Char → List Char}

/-- Rewriting that brings in no quotes leaves the segments well cut. -/
theorem WellCut.rewriteSegments {ss : List Segment} (h : WellCut ss)
    (hf : ∀ cs, (∀ c ∈ cs, c ≠ '"') → ∀ c ∈ f cs, c ≠ '"') : WellCut (rewriteSegments f ss) := by
  induction h with
  | nil => exact .nil
  | @plain cs ss _ hcs hnext htail ih =>
    rw [rewriteSegments_plain_cons]
    split
    · exact ih
    · rename_i hne
      refine .plain hne (hf cs hcs) ?_ ih
      -- a literal is the neighbour of a plain stretch, and it stays
      cases htail with
      | nil => rfl
      | plain => cases hnext
      | closed => rw [rewriteSegments_quoted_cons]; rfl
      | unclosed => rw [rewriteSegments_quoted_cons]; rfl
  | closed hclosed _ ih =>
    rw [rewriteSegments_quoted_cons]
    exact .closed hclosed ih
  | unclosed hrest =>
    rw [rewriteSegments_quoted_cons]
    exact .unclosed hrest

/-- The segments of a rewritten text are the rewritten segments. -/
theorem segments_rewritePlain (hf : ∀ cs, (∀ c ∈ cs, c ≠ '"') → ∀ c ∈ f cs, c ≠ '"')
    (cs : List Char) : segments (rewritePlain f cs) = rewriteSegments f (segments cs) := by
  rw [rewritePlain, ← flatMap_text_rewriteSegments]
  exact segments_flatMap_text ((wellCut_segments cs).rewriteSegments hf)

/-- What a rewritten text is rewritten to, if nothing is brought into an empty stretch. -/
theorem rewritePlain_rewritePlain {f g : List Char → List Char}
    (hf : ∀ cs, (∀ c ∈ cs, c ≠ '"') → ∀ c ∈ f cs, c ≠ '"') (hg : g [] = []) (cs : List Char) :
    rewritePlain g (rewritePlain f cs) = rewritePlain (g ∘ f) cs := by
  have hsegments : ∀ ss, (rewriteSegments f ss).flatMap (Segment.rewritten g) =
      ss.flatMap (Segment.rewritten (g ∘ f)) := by
    intro ss
    induction ss with
    | nil => rfl
    | cons s ss ih =>
      cases s with
      | plain cs =>
        rw [rewriteSegments_plain_cons, List.flatMap_cons, ← ih]
        split
        · next hempty => rw [Segment.rewritten, Function.comp_apply, hempty, hg, List.nil_append]
        · rfl
      | quoted cs =>
        rw [List.flatMap_cons, ← ih]
        cases cs <;> rfl
  rw [rewritePlain, segments_rewritePlain hf, hsegments, rewritePlain]

/-! ## Rewriting character by character -/

section

variable (g : Char → Char)

theorem rewritePlain_map_nil : rewritePlain (List.map g) [] = [] := by
  simp [rewritePlain, segments]

/-- A literal stays where characters are mapped. -/
theorem rewritePlain_map_quote (cs : List Char) : rewritePlain (List.map g) ('"' :: cs) =
    '"' :: ((cutLiteral cs).1 ++ rewritePlain (List.map g) (cutLiteral cs).2) := by
  simp [rewritePlain, segments, Segment.rewritten]

/-- Outside of literals each character is mapped. -/
theorem rewritePlain_map_cons {c : Char} (hc : c ≠ '"') (cs : List Char) :
    rewritePlain (List.map g) (c :: cs) = g c :: rewritePlain (List.map g) cs := by
  have hconsPlain : ∀ ss, (consPlain c ss).flatMap (Segment.rewritten (List.map g)) =
      g c :: ss.flatMap (Segment.rewritten (List.map g)) := by
    intro ss
    unfold consPlain
    split <;> simp [Segment.rewritten]
  rw [rewritePlain, segments, if_neg hc, hconsPlain]
  rfl

/-- Text without quotes is mapped as a whole. -/
theorem rewritePlain_map_append {a : List Char} (ha : ∀ c ∈ a, c ≠ '"') (cs : List Char) :
    rewritePlain (List.map g) (a ++ cs) = a.map g ++ rewritePlain (List.map g) cs := by
  induction a with
  | nil => rfl
  | cons c a ih =>
    rw [List.forall_mem_cons] at ha
    rw [List.cons_append, rewritePlain_map_cons g ha.1, ih ha.2]
    rfl

variable {g} {p : Char → Bool} (hp : ∀ c, p (g c) = p c) (hquote : p '"' = false)

include hp hquote

/-- Where a run of characters ends is not told by what the rewriting changes, as long as no quote
is in it. -/
theorem takeWhile_dropWhile_rewritePlain_map (cs : List Char) :
    (rewritePlain (List.map g) cs).takeWhile p = (cs.takeWhile p).map g ∧
      (rewritePlain (List.map g) cs).dropWhile p = rewritePlain (List.map g) (cs.dropWhile p) := by
  induction cs with
  | nil => simp [rewritePlain_map_nil]
  | cons c cs ih =>
    by_cases hc : c = '"'
    · subst hc
      simp [rewritePlain_map_quote, hquote]
    · rw [rewritePlain_map_cons g hc]
      cases hpc : p c with
      | true => simp [hp, hpc, ih.1, ih.2]
      | false => simp [hp, hpc, rewritePlain_map_cons g hc]

end

/-! ## White space at the ends of a text -/

/-- A text is blank if it is all white space. -/
theorem isBlank_iff {cs : List Char} : isBlank cs = true ↔ ∀ c ∈ cs, isWhite c = true :=
  List.all_eq_true

/-- Ink is left behind the white space in front. -/
theorem dropWhile_ne_nil {cs : List Char} (h : ¬ isBlank cs = true) :
    cs.dropWhile isWhite ≠ [] := by
  rw [isBlank_iff] at h
  exact fun hnil => h (List.dropWhile_eq_nil_iff.mp hnil)

/-- Ink is left before the white space at the end. -/
theorem rdropWhile_ne_nil {cs : List Char} (h : ¬ isBlank cs = true) :
    cs.rdropWhile isWhite ≠ [] := by
  rw [isBlank_iff] at h
  exact fun hnil => h (List.rdropWhile_eq_nil_iff.mp hnil)

theorem dropWhile_eq_self {cs : List Char} (h : cs.head?.any isWhite = false) :
    cs.dropWhile isWhite = cs := by
  cases cs with
  | nil => rfl
  | cons c cs =>
    have hc : isWhite c = false := h
    rw [List.dropWhile_cons, hc, if_neg Bool.false_ne_true]

/-- White space is dropped at the end of the last of two texts, if that has something else or the
first does not end with white space itself. -/
theorem rdropWhile_append {a b : List Char}
    (h : a.getLast?.any isWhite = false ∨ ¬ isBlank b = true) :
    (a ++ b).rdropWhile isWhite = a ++ b.rdropWhile isWhite := by
  rw [List.rdropWhile, List.rdropWhile, List.reverse_append, List.dropWhile_append]
  split
  · rename_i hempty
    have hblank := List.isEmpty_iff.mp hempty
    rw [List.dropWhile_eq_nil_iff] at hblank
    rcases h with ha | hb
    · rw [← List.head?_reverse] at ha
      rw [dropWhile_eq_self ha, List.dropWhile_eq_nil_iff.mpr hblank]
      simp
    · exact absurd (isBlank_iff.mpr fun c hc => hblank c (List.mem_reverse.mpr hc)) hb
  · rw [List.reverse_append, List.reverse_reverse]

theorem trim_eq (cs : List Char) : trim cs = (cs.dropWhile isWhite).rdropWhile isWhite := rfl

/-- No white space stands in front of a trimmed text. -/
theorem head?_trim (cs : List Char) : (trim cs).head?.any isWhite = false := by
  have hprefix := List.rdropWhile_prefix isWhite (cs.dropWhile isWhite)
  rw [← trim_eq] at hprefix
  have hhead := List.head?_dropWhile_not isWhite cs
  cases htrim : trim cs with
  | nil => rfl
  | cons c ds =>
    obtain ⟨rest, hrest⟩ := hprefix
    rw [htrim, List.cons_append] at hrest
    rw [← hrest] at hhead
    simpa using hhead

/-- No white space stands at the end of a trimmed text. -/
theorem getLast?_trim (cs : List Char) : (trim cs).getLast?.any isWhite = false := by
  rw [trim_eq]
  cases hlast : ((cs.dropWhile isWhite).rdropWhile isWhite).getLast? with
  | none => rfl
  | some c =>
    obtain ⟨hne, rfl⟩ := List.mem_getLast?_eq_getLast (Option.mem_def.mpr hlast)
    exact Bool.eq_false_iff.mpr (List.rdropWhile_last_not isWhite _ hne)

/-- Trimming adds no characters. -/
theorem mem_of_mem_trim {c : Char} {cs : List Char} (h : c ∈ trim cs) : c ∈ cs := by
  have hdrop := (List.rdropWhile_prefix isWhite _).subset (trim_eq cs ▸ h)
  exact (List.dropWhile_sublist isWhite).subset hdrop

theorem length_trim_le (cs : List Char) : (trim cs).length ≤ cs.length :=
  (List.rdropWhile_prefix isWhite _).length_le.trans (List.dropWhile_sublist isWhite).length_le

/-- Trimming drops the white space around a text that has none at its own ends. -/
theorem trim_white_append {a cs b : List Char} (ha : ∀ c ∈ a, isWhite c = true)
    (hb : ∀ c ∈ b, isWhite c = true) (hhead : cs.head?.any isWhite = false)
    (hlast : cs.getLast?.any isWhite = false) : trim (a ++ (cs ++ b)) = cs := by
  rw [trim_eq, List.dropWhile_append_of_pos ha]
  cases cs with
  | nil => rw [List.nil_append, List.dropWhile_eq_nil_iff.mpr hb, List.rdropWhile_nil]
  | cons c cs =>
    have hfront : (c :: cs ++ b).head?.any isWhite = false := hhead
    rw [dropWhile_eq_self hfront, rdropWhile_append (.inl hlast),
      List.rdropWhile_eq_nil_iff.mpr hb, List.append_nil]

/-- Trimming once is enough. -/
theorem trim_trim (cs : List Char) : trim (trim cs) = trim cs := by
  rw [trim_eq (trim cs), dropWhile_eq_self (head?_trim cs), trim_eq, List.rdropWhile_idempotent]

/-! ## Segments of a trimmed text -/

/-- Segments without the white space at their front. -/
def trimFront : List Segment → List Segment
  | .plain cs :: ss => if isBlank cs then ss else .plain (cs.dropWhile isWhite) :: ss
  | ss => ss

/-- Segments without the white space at their end. -/
def trimBack : List Segment → List Segment
  | [] => []
  | [.plain cs] => if isBlank cs then [] else [.plain (cs.rdropWhile isWhite)]
  | s :: ss => s :: trimBack ss

/-- Whether no literal ends with white space. -/
def EndInk (ss : List Segment) : Prop :=
  ∀ cs, .quoted cs ∈ ss → cs.getLast?.any isWhite = false

/-- A literal that is closed ends with its quote. -/
theorem getLast?_of_isClosed {body : List Char} (h : IsClosed body) :
    ('"' :: body).getLast? = some '"' := by
  rw [List.getLast?_cons, h.getLast?]
  rfl

/-- Trimming segments at the front is trimming their text. -/
theorem trimFront_spec {ss : List Segment} (h : WellCut ss) : WellCut (trimFront ss) ∧
    (trimFront ss).flatMap Segment.text = (ss.flatMap Segment.text).dropWhile isWhite := by
  cases h with
  | nil => exact ⟨.nil, rfl⟩
  | @plain cs ss hne hcs hnext htail =>
    rw [trimFront, List.flatMap_cons, Segment.text, List.dropWhile_append]
    split
    · rename_i hblank
      rw [List.dropWhile_eq_nil_iff.mpr (isBlank_iff.mp hblank), List.isEmpty_nil, if_pos rfl]
      refine ⟨htail, ?_⟩
      cases htail with
      | nil => rfl
      | plain => cases hnext
      | closed => rfl
      | unclosed => rfl
    · rename_i hblank
      have hdrop := dropWhile_ne_nil hblank
      rw [if_neg (by simpa using hdrop), List.flatMap_cons, Segment.text]
      refine ⟨.plain hdrop (fun c hc => ?_) hnext htail, rfl⟩
      exact hcs c ((List.dropWhile_sublist isWhite).subset hc)
  | closed hclosed htail => exact ⟨.closed hclosed htail, rfl⟩
  | unclosed hrest => exact ⟨.unclosed hrest, rfl⟩

/-- Trimming at the end leaves the segments before the last as they are. -/
theorem trimBack_cons (s : Segment) {ss : List Segment} (hne : ss ≠ []) :
    trimBack (s :: ss) = s :: trimBack ss := by
  cases ss with
  | nil => exact absurd rfl hne
  | cons _ _ => cases s <;> rfl

/-- Trimming segments at the end is trimming their text, if literals end with ink. -/
theorem trimBack_spec {ss : List Segment} (h : WellCut ss) (hink : EndInk ss) :
    WellCut (trimBack ss) ∧
      (trimBack ss).flatMap Segment.text = (ss.flatMap Segment.text).rdropWhile isWhite := by
  induction h with
  | nil => exact ⟨.nil, rfl⟩
  | @plain cs ss hne hcs hnext htail ih =>
    cases ss with
    | nil =>
      rw [trimBack, List.flatMap_cons, List.flatMap_nil, List.append_nil, Segment.text]
      split
      · rename_i hblank
        refine ⟨.nil, (List.rdropWhile_eq_nil_iff.mpr (isBlank_iff.mp hblank)).symm⟩
      · rename_i hblank
        refine ⟨.plain (rdropWhile_ne_nil hblank) (fun c hc => ?_) rfl .nil, List.append_nil _⟩
        exact hcs c ((List.rdropWhile_prefix isWhite cs).subset hc)
    | cons s ss =>
      obtain ⟨hcut, htext⟩ := ih fun cs hmem => hink cs (List.mem_cons_of_mem _ hmem)
      -- the neighbour is a literal, so what follows is not blank
      obtain ⟨body, rfl⟩ : ∃ body, s = .quoted ('"' :: body) := by
        cases htail with
        | plain => cases hnext
        | closed => exact ⟨_, rfl⟩
        | unclosed => exact ⟨_, rfl⟩
      rw [trimBack_cons _ (List.cons_ne_nil _ ss), List.flatMap_cons, List.flatMap_cons, htext]
      refine ⟨.plain hne hcs ?_ hcut, ?_⟩
      · cases ss <;> rfl
      · refine (rdropWhile_append (.inr fun hblank => ?_)).symm
        exact absurd (isBlank_iff.mp hblank '"' List.mem_cons_self) (by decide)
  | @closed body ss hclosed htail ih =>
    have hlast := getLast?_of_isClosed hclosed
    have hends : ('"' :: body).getLast?.any isWhite = false := by
      rw [hlast]
      decide
    cases ss with
    | nil => exact ⟨.closed hclosed .nil, (rdropWhile_append (b := []) (.inl hends)).symm⟩
    | cons s ss =>
      obtain ⟨hcut, htext⟩ := ih fun cs hmem => hink cs (List.mem_cons_of_mem _ hmem)
      rw [trimBack_cons _ (List.cons_ne_nil s ss), List.flatMap_cons, List.flatMap_cons, htext]
      exact ⟨.closed hclosed hcut, (rdropWhile_append (.inl hends)).symm⟩
  | @unclosed body hrest =>
    have hends := hink _ List.mem_cons_self
    exact ⟨.unclosed hrest, (rdropWhile_append (b := []) (.inl hends)).symm⟩

/-- The segments of a trimmed text are the trimmed segments, if no literal ends with white
space. -/
theorem segments_trim {cs : List Char} (hink : EndInk (segments cs)) :
    segments (trim cs) = trimBack (trimFront (segments cs)) := by
  obtain ⟨hfront, hfrontText⟩ := trimFront_spec (wellCut_segments cs)
  have hfrontInk : EndInk (trimFront (segments cs)) := by
    intro body hbody
    refine hink body ?_
    unfold trimFront at hbody
    split at hbody
    · rename_i heq
      rw [heq]
      split at hbody
      · exact List.mem_cons_of_mem _ hbody
      · simpa using hbody
    · exact hbody
  obtain ⟨hback, hbackText⟩ := trimBack_spec hfront hfrontInk
  rw [hfrontText, flatMap_text_segments, ← trim_eq] at hbackText
  rw [← hbackText]
  exact segments_flatMap_text hback

/-- What follows the first segment of a text is where the text ends. -/
theorem WellCut.getLast?_flatMap_cons {s : Segment} {ss : List Segment} (h : WellCut ss)
    (hne : ss ≠ []) :
    ((s :: ss).flatMap Segment.text).getLast? = (ss.flatMap Segment.text).getLast? := by
  have htext : ss.flatMap Segment.text ≠ [] := by
    cases h with
    | nil => exact absurd rfl hne
    | plain hcs => exact List.append_ne_nil_of_left_ne_nil hcs _
    | closed => exact List.cons_ne_nil _ _
    | unclosed => exact List.cons_ne_nil _ _
  rw [List.flatMap_cons, List.getLast?_append, List.getLast?_eq_some_getLast htext, Option.some_or]

/-- No literal of a text ends with white space if the text does not. -/
theorem WellCut.endInk {ss : List Segment} (h : WellCut ss)
    (hlast : (ss.flatMap Segment.text).getLast?.any isWhite = false) : EndInk ss := by
  induction h with
  | nil => exact fun _ h => nomatch h
  | @plain cs ss _ _ _ htail ih =>
    intro body hbody
    have hbody : .quoted body ∈ ss := by simpa using hbody
    rw [htail.getLast?_flatMap_cons (List.ne_nil_of_mem hbody)] at hlast
    exact ih hlast body hbody
  | @closed body ss hclosed htail ih =>
    intro body' hbody
    rcases List.mem_cons.mp hbody with heq | hbody
    · obtain rfl := Segment.quoted.inj heq
      rw [getLast?_of_isClosed hclosed]
      decide
    · rw [htail.getLast?_flatMap_cons (List.ne_nil_of_mem hbody)] at hlast
      exact ih hlast body' hbody
  | @unclosed body hrest =>
    intro body' hbody
    obtain rfl : body' = '"' :: body := by simpa using hbody
    simpa [Segment.text] using hlast

/-- Rewriting adds no literals. -/
theorem EndInk.rewriteSegments {ss : List Segment} (h : EndInk ss) :
    EndInk (rewriteSegments f ss) := by
  intro body hbody
  obtain ⟨s, hs, heq⟩ := List.mem_map.mp (List.mem_filter.mp hbody).1
  cases s with
  | plain => cases heq
  | quoted cs =>
    obtain rfl := Segment.quoted.inj heq
    exact h cs hs

/-- The segments of a text that was trimmed, rewritten and trimmed again. -/
theorem segments_trim_rewritePlain (hf : ∀ cs, (∀ c ∈ cs, c ≠ '"') → ∀ c ∈ f cs, c ≠ '"')
    {cs : List Char} (hlast : cs.getLast?.any isWhite = false) :
    segments (trim (rewritePlain f cs)) =
      trimBack (trimFront (rewriteSegments f (segments cs))) := by
  have hink : EndInk (segments cs) :=
    (wellCut_segments cs).endInk (by rwa [flatMap_text_segments])
  rw [segments_trim, segments_rewritePlain hf]
  rw [segments_rewritePlain hf]
  exact hink.rewriteSegments

/-- A plain segment of what is trimmed in front had at most white space more there. -/
theorem plain_mem_trimFront {ss : List Segment} {cs : List Char}
    (h : .plain cs ∈ trimFront ss) :
    ∃ a, (∀ c ∈ a, isWhite c = true) ∧ .plain (a ++ cs) ∈ ss := by
  have hself : .plain cs ∈ ss → ∃ a, (∀ c ∈ a, isWhite c = true) ∧ .plain (a ++ cs) ∈ ss :=
    fun hmem => ⟨[], List.forall_mem_nil _, hmem⟩
  unfold trimFront at h
  split at h
  case h_1 text ss =>
    split at h
    · exact hself (List.mem_cons_of_mem _ h)
    · rcases List.mem_cons.mp h with heq | hmem
      · obtain rfl := Segment.plain.inj heq
        refine ⟨text.takeWhile isWhite, fun c hc => List.mem_takeWhile_imp hc, ?_⟩
        rw [List.takeWhile_append_dropWhile]
        exact List.mem_cons_self
      · exact hself (List.mem_cons_of_mem _ hmem)
  case h_2 => exact hself h

/-- A plain segment of what is trimmed at the end had at most white space more there. -/
theorem plain_mem_trimBack {ss : List Segment} {cs : List Char} (h : .plain cs ∈ trimBack ss) :
    ∃ b, (∀ c ∈ b, isWhite c = true) ∧ .plain (cs ++ b) ∈ ss := by
  -- trimming drops a blank segment at the end, cuts a plain one or stops at a literal
  induction ss using trimBack.induct with
  | case1 => exact nomatch h
  | case2 text hblank =>
    rw [trimBack, if_pos hblank] at h
    exact nomatch h
  | case3 text hblank =>
    rw [trimBack, if_neg hblank, List.mem_singleton] at h
    obtain rfl := Segment.plain.inj h
    refine ⟨text.rtakeWhile isWhite, fun c hc => List.mem_rtakeWhile_imp hc, ?_⟩
    rw [List.rdropWhile_append_rtakeWhile]
    exact List.mem_cons_self
  | case4 s ss hlast ih =>
    rw [trimBack] at h
    · rcases List.mem_cons.mp h with rfl | hmem
      · refine ⟨[], List.forall_mem_nil _, ?_⟩
        rw [List.append_nil]
        exact List.mem_cons_self
      · obtain ⟨b, hb, hss⟩ := ih hmem
        exact ⟨b, hb, List.mem_cons_of_mem s hss⟩
    · exact hlast

/-- A plain stretch of a trimmed text is one of the text without white space at its ends. -/
theorem exists_of_plain_mem_trim {ss : List Segment} {cs : List Char}
    (h : .plain cs ∈ trimBack (trimFront ss)) :
    ∃ a b, (∀ c ∈ a, isWhite c = true) ∧ (∀ c ∈ b, isWhite c = true) ∧
      .plain (a ++ (cs ++ b)) ∈ ss := by
  obtain ⟨b, hb, hback⟩ := plain_mem_trimBack h
  obtain ⟨a, ha, hfront⟩ := plain_mem_trimFront hback
  exact ⟨a, b, ha, hb, hfront⟩

end GameCondition
