import GameCondition.Engine
import GameCondition.Proofs.Memo.History
import GameCondition.Proofs.World.LetterCase

/-! # The history of an engine

What an engine answers does not depend on its history but for the spelling of what it remembers:
of the canonical texts with one key that were asked for since the memory was last cleared, the
first that can be read answers for all of them. `Keeps` relates an engine to the texts it was asked
for; each call keeps the relation (`Keeps.perform`), and so do all (`keeps_after`).

Two spellings with one key need not mean the same: an exact name goes before one that differs in
case. Where the names of a world are apart, they do, unless more than the case of letters tells
them apart (`tryEvaluate_after`).
-/

namespace GameCondition

/-! ## One use of a memory -/

namespace Memo

variable {α ε : Type} {m : Memo α} {text : String}

/-- A kept value is given without compiling. -/
theorem getOrCompile_of_kept {value : α} (h : m.get? text = some value)
    (f : String → Except ε α) : m.getOrCompile text f = (.ok value, m.hit) := by
  simp [getOrCompile, getOrCompileM, h]

/-- What is not kept is compiled, and kept if it compiles. -/
theorem getOrCompile_of_not_kept (h : m.get? text = none) (f : String → Except ε α) :
    m.getOrCompile text f =
      (f text, match f text with
        | .ok value => m.miss.keep text value
        | .error _ => m.miss) := by
  cases hf : f text <;> simp [getOrCompile, getOrCompileM, h, hf]

end Memo

namespace Engine

/-! ## Calls -/

/-- A call on an engine. -/
inductive Call where
  | check (source : String)
  | compile (source : String)
  | evaluate (w : World) (source : String)
  | tryEvaluate (w : World) (source : String)
  | project (source : String)
  | clear
  | setVocabulary (v : Vocabulary)

/-- The engine after a call. -/
def perform (e : Engine) : Call → Engine
  | .check _ => e
  | .compile source => (e.compile source).2
  | .evaluate w source => (e.evaluate w source).2
  | .tryEvaluate w source => (e.tryEvaluate w source).2
  | .project source => (e.project source).2
  | .clear => e.clear
  | .setVocabulary v => e.setVocabulary v

/-- The engine after some calls. -/
def after (e : Engine) (calls : List Call) : Engine :=
  calls.foldl perform e

/-- A vocabulary, and the canonical texts that were asked for since the last clear. -/
structure Ledger where
  vocabulary : Vocabulary
  texts : List String

/-- The ledger after a call. -/
def Ledger.note (l : Ledger) : Call → Ledger
  | .check _ => l
  | .compile source | .evaluate _ source | .tryEvaluate _ source | .project source =>
    { l with texts := l.texts ++ [l.vocabulary.canonicalize source] }
  | .clear => { l with texts := [] }
  | .setVocabulary v => { l with vocabulary := v }

/-- The canonical texts that some calls asked for since the last clear. -/
def asked (v : Vocabulary) (calls : List Call) : List String :=
  (calls.foldl Ledger.note ⟨v, []⟩).texts

/-! ## What is remembered -/

/-- The first of some texts that is kept under the key of a text. -/
def firstKept? (limit : Nat) (texts : List String) (text : String) : Option String :=
  texts.find? fun t => memoKey t == memoKey text && (Condition.read limit t).isOk

/-- The canonical text that answers for a canonical text after some were asked for. -/
def spelling (s : Settings) (texts : List String) (canonical : String) : String :=
  if s.remembers then (firstKept? s.maxNestingDepth texts canonical).getD canonical else canonical

/-- Whether an engine remembers just what it was asked for. -/
structure Keeps (s : Settings) (l : Ledger) (e : Engine) : Prop where
  settings : e.settings = s
  vocabulary : e.vocabulary = l.vocabulary
  kept : s.remembers = true → ∀ text, e.memo.get? text =
    (firstKept? s.maxNestingDepth l.texts text).bind fun t =>
      (Condition.read s.maxNestingDepth t).toOption

/-- A further text is kept when it is read and none with its key was kept before. -/
theorem firstKept?_append (limit : Nat) (texts : List String) (canonical text : String) :
    firstKept? limit (texts ++ [canonical]) text =
      (firstKept? limit texts text).or
        (if memoKey canonical = memoKey text ∧ (Condition.read limit canonical).isOk = true then
          some canonical else none) := by
  simp [firstKept?, List.find?_append, List.find?_singleton]

/-- Texts with one key have one text kept for them. -/
theorem firstKept?_congr {limit : Nat} {texts : List String} {text text' : String}
    (h : memoKey text = memoKey text') :
    firstKept? limit texts text = firstKept? limit texts text' := by
  rw [firstKept?, firstKept?, h]

/-- What is kept is read. -/
theorem exists_of_firstKept? {limit : Nat} {texts : List String} {text t : String}
    (h : firstKept? limit texts text = some t) :
    ∃ c, Condition.read limit t = .ok c := by
  have hkept := List.find?_some h
  rw [Bool.and_eq_true] at hkept
  cases hread : Condition.read limit t with
  | ok c => exact ⟨c, rfl⟩
  | error d =>
    rw [hread] at hkept
    cases hkept.2

/-- An engine is made of settings that pass their check, with an empty memo. -/
theorem create_eq_ok_iff {v : Vocabulary} {s : Settings} {e : Engine} :
    create v s = .ok e ↔ s.check = .ok () ∧ e = ⟨v, s, .empty⟩ := by
  unfold create
  cases s.check with
  | error d => simp [bind, Except.bind]
  | ok u => simp [bind, Except.bind, pure, Except.pure, eq_comm]

/-- Settings are accepted with any vocabulary or with none. -/
theorem create_of_create {v : Vocabulary} {s : Settings} {e : Engine} (h : create v s = .ok e)
    (v' : Vocabulary) : create v' s = .ok ⟨v', s, .empty⟩ :=
  create_eq_ok_iff.mpr ⟨(create_eq_ok_iff.mp h).1, rfl⟩

namespace Keeps

variable {s : Settings} {l : Ledger} {e : Engine}

/-- A new engine keeps nothing. -/
theorem create {v : Vocabulary} (h : Engine.create v s = .ok e) : Keeps s ⟨v, []⟩ e := by
  obtain ⟨-, rfl⟩ := create_eq_ok_iff.mp h
  exact ⟨rfl, rfl, fun _ text => rfl⟩

/-- Nothing is remembered for a text none was kept for. -/
theorem get?_eq_none (h : Keeps s l e) (hremembers : s.remembers = true) {text : String}
    (hfirst : firstKept? s.maxNestingDepth l.texts text = none) : e.memo.get? text = none := by
  rw [h.kept hremembers, hfirst, Option.bind_none]

/-- What is remembered for a text is the condition of the text kept for it. -/
theorem get?_eq_some (h : Keeps s l e) (hremembers : s.remembers = true) {text t : String}
    {c : Condition} (hfirst : firstKept? s.maxNestingDepth l.texts text = some t)
    (hread : Condition.read s.maxNestingDepth t = .ok c) : e.memo.get? text = some c := by
  rw [h.kept hremembers, hfirst, Option.bind_some, hread]
  rfl

/-- A canonical text is answered by the spelling that is kept, and is itself kept if no other
is. -/
theorem compileCanonical (h : Keeps s l e) (canonical : String) :
    (e.compileCanonical canonical).1 =
        Condition.read s.maxNestingDepth (spelling s l.texts canonical) ∧
      Keeps s { l with texts := l.texts ++ [canonical] } (e.compileCanonical canonical).2 := by
  have hreading : e.read = Condition.read s.maxNestingDepth := by
    funext text
    rw [Engine.read, h.settings]
  unfold Engine.compileCanonical spelling
  rw [hreading, h.settings]
  cases hremembers : s.remembers with
  | false => exact ⟨rfl, h.settings, h.vocabulary, fun hcontra => by simp [hremembers] at hcontra⟩
  | true =>
    simp only [if_true]
    cases hfirst : firstKept? s.maxNestingDepth l.texts canonical with
    | some t =>
      obtain ⟨c, hread⟩ := exists_of_firstKept? hfirst
      have hget := h.get?_eq_some hremembers hfirst hread
      rw [Memo.getOrCompile_of_kept hget]
      refine ⟨hread.symm, rfl, h.vocabulary, fun _ text => ?_⟩
      -- the text comes too late to be kept
      have hsame : firstKept? s.maxNestingDepth (l.texts ++ [canonical]) text =
          firstKept? s.maxNestingDepth l.texts text := by
        rw [firstKept?_append]
        by_cases hkey : memoKey canonical = memoKey text
        · rw [← firstKept?_congr hkey, hfirst, Option.some_or]
        · simp [hkey]
      rw [Memo.get?_hit, hsame, h.kept hremembers]
    | none =>
      have hget := h.get?_eq_none hremembers hfirst
      rw [Memo.getOrCompile_of_not_kept hget]
      refine ⟨rfl, rfl, h.vocabulary, fun _ text => ?_⟩
      dsimp only
      rw [firstKept?_append]
      cases hread : Condition.read s.maxNestingDepth canonical with
      | error d => simp [Except.isOk, Except.toBool, h.kept hremembers]
      | ok c =>
        by_cases hkey : memoKey canonical = memoKey text
        · rw [← firstKept?_congr hkey, hfirst]
          simp [Memo.get?_keep, hkey, hread, Except.isOk, Except.toBool, Except.toOption]
        · simp [Memo.get?_keep, hkey, Ne.symm hkey, h.kept hremembers]

/-- Texts are canonicalized by the vocabulary of the ledger. -/
theorem canonicalize (h : Keeps s l e) (source : String) :
    e.canonicalize source = l.vocabulary.canonicalize source := by
  rw [Engine.canonicalize, h.vocabulary]

/-- Compiling a source adds its canonical text to the ledger. -/
theorem compile (h : Keeps s l e) (source : String) :
    Keeps s { l with texts := l.texts ++ [l.vocabulary.canonicalize source] }
      (e.compile source).2 := by
  have hcompile := (h.compileCanonical (l.vocabulary.canonicalize source)).2
  rw [← h.canonicalize] at hcompile ⊢
  exact hcompile

/-- Each call keeps the relation to what was asked for. -/
theorem perform (h : Keeps s l e) (c : Call) : Keeps s (l.note c) (e.perform c) := by
  cases c with
  | check source => exact h
  | compile source => exact h.compile source
  | evaluate w source =>
    have hsecond : (e.evaluate w source).2 = (e.compile source).2 := by
      unfold evaluate tryEvaluate
      split <;> simp_all
    rw [Engine.perform, hsecond]
    exact h.compile source
  | tryEvaluate w source => exact h.compile source
  | project source => exact h.compile source
  | clear => exact ⟨h.settings, h.vocabulary, fun _ text => rfl⟩
  | setVocabulary v => exact ⟨h.settings, rfl, h.kept⟩

end Keeps

/-- After any calls an engine remembers just what it was asked for. -/
theorem keeps_after {v : Vocabulary} {s : Settings} {e : Engine} (h : create v s = .ok e)
    (calls : List Call) : Keeps s (calls.foldl Ledger.note ⟨v, []⟩) (e.after calls) := by
  suffices hfrom : ∀ l e, Keeps s l e → Keeps s (calls.foldl Ledger.note l) (e.after calls) from
    hfrom _ _ (.create h)
  induction calls with
  | nil => exact fun _ _ hkeeps => hkeeps
  | cons c calls ih => exact fun l e hkeeps => ih _ _ (hkeeps.perform c)

/-! ## Answers -/

/-- Before any text was compiled each is spelled as it is. -/
theorem spelling_nil (s : Settings) (canonical : String) : spelling s [] canonical = canonical := by
  simp [spelling, firstKept?]

/-- What answers for a canonical text can be read, unless it is that text. -/
theorem spelling_eq_or_read (s : Settings) (texts : List String) (canonical : String) :
    spelling s texts canonical = canonical ∨
      ∃ c, Condition.read s.maxNestingDepth (spelling s texts canonical) = .ok c := by
  unfold spelling
  split
  · cases hfirst : firstKept? s.maxNestingDepth texts canonical with
    | none => exact .inl rfl
    | some t => exact .inr (exists_of_firstKept? hfirst)
  · exact .inl rfl

/-- Whether the condition of one text holds in a world, or why another cannot be read. -/
def verdict (limit : Nat) (w : World) (text canonical : String) : Except Error Bool :=
  ((Condition.read limit text).mapError fun d => d.toError canonical).map (Condition.holdsIn w)

/-- An evaluation gives the verdict on the spelling that was kept. -/
theorem Keeps.tryEvaluate {s : Settings} {l : Ledger} {e : Engine} (h : Keeps s l e) (w : World)
    (source : String) :
    (e.tryEvaluate w source).1 = verdict s.maxNestingDepth w
      (spelling s l.texts (l.vocabulary.canonicalize source))
      (l.vocabulary.canonicalize source) := by
  have hcompile := (h.compileCanonical (l.vocabulary.canonicalize source)).1
  rw [verdict, ← hcompile, ← h.canonicalize]
  rfl

/-- Spellings that are the same in lower case outside literals have one verdict where names are
apart. -/
theorem verdict_of_lowerOutside_eq {limit : Nat} {w : World} {a b canonical : String}
    (hw : w.NamesApart) (h : lowerOutside a.toList = lowerOutside b.toList) {c : Condition}
    (hread : Condition.read limit a = .ok c) :
    verdict limit w a canonical = verdict limit w b canonical := by
  obtain ⟨c', hread', hnames⟩ := Condition.read_of_lowerOutside_eq h hread
  have hholds : c'.holdsIn w = c.holdsIn w := by
    rw [← c'.holdsIn_unplaced w, ← c.holdsIn_unplaced w, ← Condition.holdsIn_lowerNames hw,
      hnames, Condition.holdsIn_lowerNames hw]
  simp [verdict, hread, hread', Except.map, Except.mapError, hholds]

/-- After any calls an engine answers a text as a new one with its vocabulary and settings would
answer the spelling that is kept of its canonical form. That is how a new one answers the text
itself, if no other spelling is kept, or if the one that is differs in the case of letters outside
literals only and no names of the world differ in case only. -/
theorem tryEvaluate_after {v : Vocabulary} {s : Settings} {e : Engine}
    (he : create v s = .ok e) (calls : List Call) (w : World) (source : String) :
    ∃ fresh, create (e.after calls).vocabulary s = .ok fresh ∧
      let canonical := fresh.canonicalize source
      let kept := spelling s (asked v calls) canonical
      ((e.after calls).tryEvaluate w source).1 = verdict s.maxNestingDepth w kept canonical ∧
        (kept = canonical ∨
            (w.NamesApart ∧ lowerOutside kept.toList = lowerOutside canonical.toList) →
          ((e.after calls).tryEvaluate w source).1 = (fresh.tryEvaluate w source).1) := by
  have hkeeps := keeps_after he calls
  have hfresh := create_of_create he (e.after calls).vocabulary
  have hnew := (Keeps.create hfresh).tryEvaluate w source
  have hanswer := hkeeps.tryEvaluate w source
  rw [spelling_nil] at hnew
  rw [← hkeeps.vocabulary] at hanswer
  refine ⟨_, hfresh, hanswer, fun hspelling => ?_⟩
  rw [hanswer, hnew]
  -- the answers agree when the spelling kept is the same, or means the same
  rcases hspelling with hsame | ⟨hw, hlower⟩
  · exact congrArg (verdict s.maxNestingDepth w · _) hsame
  · rcases spelling_eq_or_read s (asked v calls) _ with hsame | ⟨c, hread⟩
    · exact congrArg (verdict s.maxNestingDepth w · _) hsame
    · exact verdict_of_lowerOutside_eq hw hlower hread

/-- A new engine with the usual settings and no names. -/
def plainEngine : Engine :=
  ⟨.empty, .default, .empty⟩

/-- A text asked for once answers for all texts with its key. -/
theorem spelling_of_asked {t : String} {c : Condition} (canonical : String)
    (hread : Condition.read Settings.default.maxNestingDepth t = .ok c)
    (hkey : memoKey t = memoKey canonical) : spelling .default [t] canonical = t := by
  simp [spelling, firstKept?, Settings.default, hkey, Except.isOk, Except.toBool,
    show Condition.read Condition.defaultLimit t = .ok c from hread]

/-- A world with a desk that is open. -/
def openDesk : World :=
  World.empty.addElement ((Element.ofId "desk" .item).setFlag "open" true)

/-- A text asked in capitals first is spelled so from then on. -/
theorem tryEvaluate_after_capitals :
    create .empty .default = .ok plainEngine ∧
      spelling .default (asked .empty [.tryEvaluate openDesk "the Desk is OPEN"])
        "desk is open" = "Desk is OPEN" ∧
      openDesk.NamesApart ∧
      ∃ fresh, create (plainEngine.after
          [.tryEvaluate openDesk "the Desk is OPEN"]).vocabulary .default = .ok fresh ∧
        ((plainEngine.after [.tryEvaluate openDesk "the Desk is OPEN"]).tryEvaluate openDesk
          "desk is open").1 = (fresh.tryEvaluate openDesk "desk is open").1 := by
  have hcreate : create .empty .default = .ok plainEngine := rfl
  have hapart : openDesk.NamesApart :=
    ⟨by decide, by decide, by decide, by decide⟩
  have hread : Condition.read Settings.default.maxNestingDepth "Desk is OPEN" = .ok (.relation
      ⟨.item "Desk", .is, .element "OPEN", none, none, ⟨0, 12, 1, 1⟩⟩) := by decide +kernel
  have hasked : asked .empty [.tryEvaluate openDesk "the Desk is OPEN"] = ["Desk is OPEN"] := by
    decide +kernel
  have hspelling := spelling_of_asked "desk is open" hread (by decide +kernel)
  rw [← hasked] at hspelling
  obtain ⟨fresh, hfresh, -, hanswer⟩ := tryEvaluate_after hcreate
    [.tryEvaluate openDesk "the Desk is OPEN"] openDesk "desk is open"
  refine ⟨hcreate, hspelling, hapart, fresh, hfresh, hanswer (.inr ⟨hapart, ?_⟩)⟩
  have hcanonical : fresh.canonicalize "desk is open" = "desk is open" := by
    obtain ⟨-, rfl⟩ := create_eq_ok_iff.mp hfresh
    rw [canonicalize, (keeps_after hcreate _).vocabulary]
    decide +kernel
  rw [hcanonical, hspelling]
  decide +kernel

/-- A world with a hero who has two moods. -/
def moodyHero : World :=
  World.empty.addElement (((Element.ofId "hero" .npc).setProperty "Mood" (.text "calm")).setProperty
    "mood" (.text "angry"))

/-- Whether the hero is calm, by one of the moods. -/
def heroIsCalm (mood : String) : Condition :=
  .relation ⟨.item "hero", .is, .element "calm", none, some mood, ⟨0, 17, 1, 1⟩⟩

/-- Answers may depend on what was asked before: one of the hero's moods is taken for the other,
whose name has the same key. -/
theorem not_tryEvaluate_after :
    ¬ ∀ (v : Vocabulary) (s : Settings) (e : Engine), create v s = .ok e →
      ∀ (calls : List Call) (w : World) (source : String),
        ∃ fresh, create (e.after calls).vocabulary s = .ok fresh ∧
          ((e.after calls).tryEvaluate w source).1 = (fresh.tryEvaluate w source).1 := by
  intro h
  obtain ⟨fresh, hfresh, hsame⟩ := h .empty .default plainEngine rfl
    [.tryEvaluate moodyHero "hero.Mood is calm"] moodyHero "hero.mood is calm"
  have hmood : Condition.read Settings.default.maxNestingDepth "hero.Mood is calm" =
      .ok (heroIsCalm "Mood") := by decide +kernel
  have hmood' : Condition.read Settings.default.maxNestingDepth "hero.mood is calm" =
      .ok (heroIsCalm "mood") := by decide +kernel
  have hasked : asked .empty [.tryEvaluate moodyHero "hero.Mood is calm"] =
      ["hero.Mood is calm"] := by
    decide +kernel
  have hcanonical : Vocabulary.empty.canonicalize "hero.mood is calm" = "hero.mood is calm" := by
    decide +kernel
  have hkeeps := keeps_after (v := .empty) (s := .default) (e := plainEngine) rfl
    [.tryEvaluate moodyHero "hero.Mood is calm"]
  -- the first call keeps the condition with the capital, under a key without it
  have hold : ((plainEngine.after [.tryEvaluate moodyHero "hero.Mood is calm"]).tryEvaluate
      moodyHero "hero.mood is calm").1 = .ok true := by
    refine (hkeeps.tryEvaluate moodyHero "hero.mood is calm").trans ?_
    change verdict _ _ (spelling .default (asked .empty _)
      (Vocabulary.empty.canonicalize "hero.mood is calm")) _ = _
    have hholds : (heroIsCalm "Mood").holdsIn moodyHero = true := by decide
    rw [hcanonical, hasked, spelling_of_asked _ hmood (by decide +kernel), verdict, hmood]
    exact congrArg Except.ok hholds
  -- a fresh engine compiles the text as it is asked
  have hnew : (fresh.tryEvaluate moodyHero "hero.mood is calm").1 = .ok false := by
    refine ((Keeps.create hfresh).tryEvaluate moodyHero "hero.mood is calm").trans ?_
    rw [spelling_nil, hkeeps.vocabulary]
    change verdict _ _ (Vocabulary.empty.canonicalize "hero.mood is calm") _ = _
    have hholds : (heroIsCalm "mood").holdsIn moodyHero = false := by decide
    rw [hcanonical, verdict, hmood']
    exact congrArg Except.ok hholds
  rw [hold, hnew] at hsame
  cases hsame

end Engine

end GameCondition
