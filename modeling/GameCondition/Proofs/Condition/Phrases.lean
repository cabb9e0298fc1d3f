import GameCondition.Proofs.Condition.Grammar
import GameCondition.Proofs.Condition.Streams

/-! # Phrases are read as the grammar has them

Each reader of a part of a phrase is met by the grammar's account of it: what the reader gives was
derived from the terminals that it took (`readRelation_sound`), and the reader takes whatever is
derived, as long as nothing follows that the phrase would go on with (`readRelation_complete`).

The readers give places besides; these are left open.
-/

namespace GameCondition

/-- A computation in two steps gives a result when both steps do. -/
theorem except_bind_eq_ok {ε α β : Type} {x : Except ε α} {f : α → Except ε β} {b : β} :
    x >>= f = .ok b ↔ ∃ a, x = .ok a ∧ f a = .ok b := by
  cases x with
  | error e => simp [bind, Except.bind]
  | ok a => simp [bind, Except.bind]

namespace Condition

open Grammar

/-! ## Subjects -/

/-- What is read as an identifier is one. -/
theorem readIdentifier_sound {cause : Token → Misfit} {s s' : Stream} {name : String}
    (hs : s.Closed) (h : readIdentifier cause s = .ok (name, s')) : Takes s [.name name] s' := by
  unfold readIdentifier at h
  split at h
  · next word hkind =>
    cases h
    exact .step hs hkind rfl (.nil _)
  · cases h

/-- An identifier is read as one. -/
theorem readIdentifier_complete (cause : Token → Misfit) {s s' : Stream} {name : String}
    (h : Takes s [.name name] s') : readIdentifier cause s = .ok (name, s') := by
  rcases h.kind_and_rest with ⟨hkind, hrest⟩
  rw [readIdentifier, hkind, Takes.nil_iff.mp hrest]

/-- What is read as a subject is a phrase for it. -/
theorem readSubject_sound {s s' : Stream} {subject : Subject} (hs : s.Closed)
    (h : readSubject s = .ok (subject, s')) :
    ∃ p : SubjectPhrase, p.subject = subject ∧ Takes s p.terminals s' := by
  unfold readSubject at h
  split at h
  · next word hkind =>
    split at h
    · next kind hword =>
      split at h
      · next hid =>
        rcases except_bind_eq_ok.mp h with ⟨⟨id, s₁⟩, hread, hret⟩
        cases hret
        exact ⟨.named ⟨word, kind, hword, hid⟩ id, rfl,
          .step hs hkind rfl (readIdentifier_sound hs.advance hread)⟩
      · next hid =>
        cases h
        have hother : namesKind word = false := by simp [namesKind, hword, hid]
        exact ⟨.alone ⟨word, hother⟩, by simp [SubjectPhrase.subject, hword],
          .step hs hkind rfl (.nil _)⟩
    · next hword =>
      cases h
      have hother : namesKind word = false := by simp [namesKind, hword]
      exact ⟨.alone ⟨word, hother⟩, by simp [SubjectPhrase.subject, hword],
        .step hs hkind rfl (.nil _)⟩
  · cases h

/-- A phrase for a subject is read as that subject. -/
theorem readSubject_complete {p : SubjectPhrase} {s s' : Stream} (h : Takes s p.terminals s') :
    readSubject s = .ok (p.subject, s') := by
  cases p with
  | named w id =>
      rcases h.kind_and_rest with ⟨hkind, hrest⟩
      simp only [readSubject, hkind, w.spells, w.takesId, if_true,
        readIdentifier_complete _ hrest]
      rfl
  | alone w =>
      rcases h.kind_and_rest with ⟨hkind, hrest⟩
      have hother := w.property
      cases hword : SubjectKind.ofWord? w.val with
      | none => simp [readSubject, hkind, hword, SubjectPhrase.subject, Takes.nil_iff.mp hrest]
      | some kind =>
          have hid : kind.requiresId = false := by simpa [namesKind, hword] using hother
          simp [readSubject, hkind, hword, hid, SubjectPhrase.subject, Takes.nil_iff.mp hrest]

/-! ## Comparisons -/

/-- A stream stands at `has` if its terminal is `has`. -/
theorem atHas_iff {s : Stream} : atHas s = true ↔ s.current.terminal = .has := by
  rw [Token.terminal_eq_has]
  simp [atHas, Stream.kind]

/-- Each comparison but `has` is the one its word stands for. -/
theorem comparisonOf?_eq_some_iff {k : Keyword} {c : Comparison} :
    comparisonOf? k = some c ↔ c ≠ .has ∧ comparisonKeyword c = k := by
  cases k <;> cases c <;> decide

/-- What is read as a comparison is its keyword, and `has` is not read so. -/
theorem readComparison_sound {s s' : Stream} {c : Comparison} (hs : s.Closed)
    (h : readComparison s = .ok (c, s')) :
    c ≠ .has ∧ Takes s [.word (comparisonKeyword c)] s' := by
  unfold readComparison at h
  split at h
  · cases h
  · next hhas =>
    split at h
    · next word hkind =>
      split at h
      · next comparison hword =>
        cases h
        rcases comparisonOf?_eq_some_iff.mp hword with ⟨hne, rfl⟩
        -- the token is no `has`, so its kind is its terminal
        have hspelled : s.current.terminal = .word (comparisonKeyword c) := by
          refine Token.terminal_eq_kind_iff.mpr ⟨hkind, ?_⟩
          rintro ⟨hisIn, hspelled⟩
          exact hhas (atHas_iff.mpr (Token.terminal_eq_has.mpr ⟨hkind.trans hisIn, hspelled⟩))
        have hend : s.kind ≠ .endOfInput := by simp [hkind]
        exact ⟨hne, Takes.singleton_iff.mpr ⟨hspelled, hs.later_ne_nil hend, rfl⟩⟩
      · cases h
    · cases h

/-- The keyword of a comparison is read as it. -/
theorem readComparison_complete {s s' : Stream} {c : Comparison} (hc : c ≠ .has)
    (h : Takes s [.word (comparisonKeyword c)] s') : readComparison s = .ok (c, s') := by
  have hhas : ¬ atHas s = true := by
    rw [atHas_iff, (Takes.singleton_iff.mp h).1]
    simp
  rcases h.kind_and_rest with ⟨hkind, hrest⟩
  have hword : comparisonOf? (comparisonKeyword c) = some c :=
    comparisonOf?_eq_some_iff.mpr ⟨hc, rfl⟩
  simp only [readComparison, if_neg hhas, hkind, hword, Takes.nil_iff.mp hrest]

/-- What is read as a comparison of numbers is the keyword of one. -/
theorem readNumericComparison_sound {s s' : Stream} {c : Comparison} (hs : s.Closed)
    (h : readNumericComparison s = .ok (c, s')) :
    ∃ n : NumericComparison, n.val = c ∧ Takes s [.word (comparisonKeyword n.val)] s' := by
  rcases except_bind_eq_ok.mp h with ⟨⟨c₁, s₁⟩, hread, hret⟩
  dsimp only at hret
  split at hret
  · next hnumeric =>
    cases hret
    exact ⟨⟨c, hnumeric⟩, rfl, (readComparison_sound hs hread).2⟩
  · cases hret

/-- The keyword of a comparison of numbers is read as it. -/
theorem readNumericComparison_complete {s s' : Stream} {c : NumericComparison}
    (h : Takes s [.word (comparisonKeyword c.val)] s') :
    readNumericComparison s = .ok (c.val, s') := by
  have hread := readComparison_complete (ne_has_of_appliesToNumbers c.property) h
  exact except_bind_eq_ok.mpr ⟨_, hread, by simp [c.property, pure, Except.pure]⟩

/-- What is read as a whole number is a numeral for it. -/
theorem readInteger_sound {s s' : Stream} {i : Int} {span : Span} (hs : s.Closed)
    (h : readInteger s = .ok (i, span, s')) :
    ∃ n : IntegerNumeral, n.value = i ∧ Takes s [.kind (.number n.number)] s' := by
  unfold readInteger at h
  split at h
  · next n hkind =>
    split at h
    · next j hsmall =>
      cases h
      simp only [smallInteger?, Option.filter_eq_some_iff, decide_eq_true_eq] at hsmall
      exact ⟨⟨n, i, hsmall.1, hsmall.2⟩, rfl, .step hs hkind rfl (.nil _)⟩
    · cases h
  · cases h

/-- A numeral for a whole number is read as it. -/
theorem readInteger_complete {s s' : Stream} {n : IntegerNumeral}
    (h : Takes s [.kind (.number n.number)] s') :
    ∃ span, readInteger s = .ok (n.value, span, s') := by
  rcases h.kind_and_rest with ⟨hkind, hrest⟩
  have hsmall : smallInteger? n.number = some n.value := by
    simp only [smallInteger?, Option.filter_eq_some_iff, decide_eq_true_eq]
    exact ⟨n.whole, n.small⟩
  exact ⟨s.current.span, by simp [readInteger, hkind, hsmall, Takes.nil_iff.mp hrest]⟩

/-! ## Operands and fields -/

/-- The kind of a token that may follow a phrase. -/
theorem kind_of_follows {s : Stream} (h : Follows .unary s.ahead) :
    s.kind = .keyword .and ∨ s.kind = .keyword .or ∨ s.kind = .closeParen ∨
      s.kind = .endOfInput := by
  rcases h with ⟨t, us, hahead, ht⟩
  have hcurrent : s.current.terminal = t := (List.cons.inj hahead).1
  simp only [Nonterminal.follow, decide_eq_true_eq] at ht
  rcases ht with rfl | rfl | rfl | rfl <;>
    rw [Token.terminal_eq_kind (by simp)] at hcurrent <;> simp [Stream.kind, hcurrent]

/-- What is read as an operand is a phrase for it. -/
theorem readOperand_sound {s s' : Stream} {x : Operand} {span : Span} (hs : s.Closed)
    (h : readOperand s = .ok (x, span, s')) :
    ∃ v : ValuePhrase, v.operand = x ∧ Takes s v.terminals s' := by
  unfold readOperand at h
  split at h
  case h_1 hkind =>
    cases h
    exact ⟨.bool true, rfl, .step hs hkind rfl (.nil _)⟩
  case h_2 hkind =>
    cases h
    exact ⟨.bool false, rfl, .step hs hkind rfl (.nil _)⟩
  case h_3 n hkind =>
    cases h
    exact ⟨.number n, rfl, .step hs hkind rfl (.nil _)⟩
  case h_4 text hkind =>
    cases h
    exact ⟨.text text, rfl, .step hs hkind rfl (.nil _)⟩
  case h_5 word hkind =>
    split at h
    · next id hnames hnext =>
      cases h
      rw [Stream.nextKind_eq] at hnext
      -- the word before an id is that of a kind that requires one
      unfold namesKind at hnames
      split at hnames
      · next kind hword =>
        exact ⟨.named ⟨word, kind, hword, hnames⟩ id, rfl,
          .step hs hkind rfl (.step hs.advance hnext rfl (.nil _))⟩
      · cases hnames
    · cases h
      exact ⟨.bare word, rfl, .step hs hkind rfl (.nil _)⟩
  case h_6 => cases h

/-- A phrase for an operand is read as it, if what follows does not lengthen it. -/
theorem readOperand_complete {v : ValuePhrase} {s s' : Stream} (h : Takes s v.terminals s')
    (hs' : Follows .unary s'.ahead) : ∃ span, readOperand s = .ok (v.operand, span, s') := by
  cases v with
  | bool b =>
      rcases h.kind_and_rest with ⟨hkind, hrest⟩
      cases b <;> exact ⟨_, by rw [readOperand, hkind, Takes.nil_iff.mp hrest]; rfl⟩
  | number n =>
      rcases h.kind_and_rest with ⟨hkind, hrest⟩
      exact ⟨_, by rw [readOperand, hkind, Takes.nil_iff.mp hrest]; rfl⟩
  | text text =>
      rcases h.kind_and_rest with ⟨hkind, hrest⟩
      exact ⟨_, by rw [readOperand, hkind, Takes.nil_iff.mp hrest]; rfl⟩
  | named w id =>
      rcases h.kind_and_rest with ⟨hkind, hrest⟩
      rcases hrest.kind_and_rest with ⟨hid, hrest⟩
      rw [← Stream.nextKind_eq] at hid
      exact ⟨_, by
        rw [readOperand, hkind, Takes.nil_iff.mp hrest]; simp only [w.namesKind, hid]; rfl⟩
  | bare word =>
      rcases h.kind_and_rest with ⟨hkind, hrest⟩
      have hs'_eq := Takes.nil_iff.mp hrest
      -- a word for a kind stands for itself only if no name follows, and none does
      have hnext : ∀ id, s.nextKind ≠ .identifier id := by
        intro id hid
        rw [Stream.nextKind_eq, ← hs'_eq] at hid
        rcases kind_of_follows hs' with h | h | h | h <;> rw [h] at hid <;> cases hid
      refine ⟨s.current.span, ?_⟩
      simp only [readOperand, hkind]
      split
      · next id _ hid => exact absurd hid (hnext id)
      · rw [hs'_eq]
        rfl

/-- Nothing that may follow a phrase begins an operand. -/
theorem atOperand_of_follows {s : Stream} (h : Follows .unary s.ahead) : atOperand s = false := by
  rcases kind_of_follows h with h | h | h | h <;> simp [atOperand, h]

/-- A phrase for an operand begins where an operand can begin. -/
theorem atOperand_of_takes {v : ValuePhrase} {s s' : Stream} (h : Takes s v.terminals s') :
    atOperand s = true := by
  cases v with
  | bool b => cases b <;> simp [atOperand, h.kind_and_rest.1]
  | _ => simp [atOperand, h.kind_and_rest.1]

/-- What is read behind a point is a phrase for a field. -/
theorem readField_sound {fields fields' : Fields} {s s' : Stream} (hs : s.Closed)
    (h : readField fields s = .ok (fields', s')) :
    ∃ f : FieldPhrase, f.addTo fields = fields' ∧ Takes s f.afterDot s' := by
  unfold readField at h
  split at h
  case h_1 hkind =>
    rcases except_bind_eq_ok.mp h with ⟨⟨name, s₁⟩, hread, hret⟩
    cases hret
    split at hread
    · next hdot =>
      -- a dot behind `attribute` is part of the phrase
      exact ⟨.attr true name, rfl, .step hs hkind rfl (.step hs.advance hdot rfl
        (readIdentifier_sound hs.advance.advance hread))⟩
    · exact ⟨.attr false name, rfl, .step hs hkind rfl (readIdentifier_sound hs.advance hread)⟩
  case h_2 hkind =>
    cases h
    exact ⟨.state, rfl, .step hs hkind rfl (.nil _)⟩
  case h_3 hkind =>
    cases h
    exact ⟨.flag, rfl, .step hs hkind rfl (.nil _)⟩
  case h_4 hkind =>
    cases h
    exact ⟨.inventory, rfl, .step hs hkind rfl (.nil _)⟩
  case h_5 name hkind =>
    cases h
    exact ⟨.named name, rfl, .step hs hkind rfl (.nil _)⟩
  case h_6 => cases h

/-- A phrase for a field is read behind its point. -/
theorem readField_complete (fields : Fields) {f : FieldPhrase} {s s' : Stream}
    (h : Takes s f.afterDot s') : readField fields s = .ok (f.addTo fields, s') := by
  rcases f with ⟨dot, name⟩ | _ | _ | _ | name
  · rcases h.kind_and_rest with ⟨hkind, hrest⟩
    cases dot with
    | true =>
        rcases hrest.kind_and_rest with ⟨hdot, hrest⟩
        simp only [readField, hkind, hdot, if_true, readIdentifier_complete _ hrest]
        rfl
    | false =>
        have hdot : s.advance.kind ≠ .dot := by simp [hrest.kind_and_rest.1]
        simp only [readField, hkind, if_neg hdot, readIdentifier_complete _ hrest]
        rfl
  all_goals
    rcases h.kind_and_rest with ⟨hkind, hrest⟩
    rw [readField, hkind, Takes.nil_iff.mp hrest]
    rfl

/-- What is read as a row of fields is a row of phrases. -/
theorem readFields_sound {fields fields' : Fields} {s s' : Stream} (hs : s.Closed)
    (h : readFields fields s = .ok (fields', s')) :
    ∃ fs : List FieldPhrase, fs.foldl FieldPhrase.addTo fields = fields' ∧
      Takes s (fs.flatMap FieldPhrase.terminals) s' := by
  -- by induction on the calls of the reader, each of which takes one field
  fun_induction readFields fields s with
  | case1 fields s hdot e hread => cases h
  | case2 fields s hdot fields₁ s₁ hread ih =>
      rcases readField_sound hs.advance hread with ⟨f, rfl, hfirst⟩
      have hfield : Takes s f.terminals s₁ := .step hs hdot rfl hfirst
      rcases ih (hfield.closed hs) h with ⟨fs, rfl, hfs⟩
      exact ⟨f :: fs, rfl, hfield.append hfs⟩
  | case3 fields s hdot =>
      cases h
      exact ⟨[], rfl, .nil _⟩

/-- A row of phrases is read to its end, if no point follows. -/
theorem readFields_complete (fields : Fields) {fs : List FieldPhrase} {s s' : Stream}
    (h : Takes s (fs.flatMap FieldPhrase.terminals) s') (hs' : s'.kind ≠ .dot) :
    readFields fields s = .ok (fs.foldl FieldPhrase.addTo fields, s') := by
  induction fs generalizing fields s with
  | nil =>
      rw [Takes.nil_iff.mp h] at hs' ⊢
      rw [readFields, dif_neg hs']
      rfl
  | cons f fs ih =>
      rcases Takes.append_iff.mp h with ⟨s₁, hfield, hrest⟩
      rcases hfield.kind_and_rest with ⟨hdot, hafter⟩
      have hread := readField_complete fields hafter
      rw [readFields, dif_pos hdot]
      split
      · next e herror => simp [hread] at herror
      · next fields₁ s₂ hok =>
        rw [hread] at hok
        cases hok
        exact ih _ hrest

/-! ## Scenes and points that are passed over -/

theorem readScene_sound {s s' : Stream} {scene : String} (hs : s.Closed)
    (h : readScene s = .ok (scene, s')) :
    ∃ p : ScenePhrase, p.scene = scene ∧ Takes s p.terminals s' := by
  unfold readScene at h
  split at h
  · next name hkind =>
    cases h
    exact ⟨.bare scene, rfl, .step hs hkind rfl (.nil _)⟩
  · next name hkind =>
    cases h
    exact ⟨.quoted scene, rfl, .step hs hkind rfl (.nil _)⟩
  · cases h

/-- A phrase for a scene is read as it. -/
theorem readScene_complete {p : ScenePhrase} {s s' : Stream} (h : Takes s p.terminals s') :
    readScene s = .ok (p.scene, s') := by
  cases p with
  | bare name =>
      rcases h.kind_and_rest with ⟨hkind, hrest⟩
      rw [readScene, hkind, Takes.nil_iff.mp hrest]
      rfl
  | quoted name =>
      rcases h.kind_and_rest with ⟨hkind, hrest⟩
      rw [readScene, hkind, Takes.nil_iff.mp hrest]
      rfl

/-- The word that is passed over in front of a scene, if any, is `scene`. -/
theorem skipScene_sound {s : Stream} (hs : s.Closed) :
    ∃ mark, Takes s (Phrase.markTerminals mark) (skipScene s) := by
  unfold skipScene
  split
  · next word _ hkind _ =>
    split
    · next hscene => exact ⟨some ⟨word, hscene⟩, .step hs hkind rfl (.nil _)⟩
    · exact ⟨none, .nil _⟩
  · next word _ hkind _ =>
    split
    · next hscene => exact ⟨some ⟨word, hscene⟩, .step hs hkind rfl (.nil _)⟩
    · exact ⟨none, .nil _⟩
  · exact ⟨none, .nil _⟩

/-- The word `scene` is passed over if a name follows it, and is the name of a scene if not. -/
theorem skipScene_complete {mark : Option SceneWord} {p : ScenePhrase} {s s' : Stream}
    {k : Keyword} (h : Takes s (Phrase.markTerminals mark ++ p.terminals) s')
    (hs' : s'.kind = .keyword k) : Takes (skipScene s) p.terminals s' := by
  cases mark with
  | some w =>
      rcases h.kind_and_rest with ⟨hkind, hrest⟩
      have hskip : skipScene s = s.advance := by
        unfold skipScene
        rw [hkind, Stream.nextKind_eq]
        cases p with
        | bare name => simp [hrest.kind_and_rest.1, w.property]
        | quoted name => simp [hrest.kind_and_rest.1, w.property]
      rwa [hskip]
  | none =>
      -- the scene itself may be called so, and then a comparison follows instead of a name
      have hskip : skipScene s = s := by
        unfold skipScene
        rw [Stream.nextKind_eq]
        cases p with
        | bare name =>
            rcases h.kind_and_rest with ⟨hkind, hrest⟩
            rw [← Takes.nil_iff.mp hrest, hs', hkind]
        | quoted name => simp [h.kind_and_rest.1]
      rwa [hskip]

/-- A point is passed over in front of a distance or a count only. -/
theorem skipDot_cases (s : Stream) :
    skipDot s = s ∨ s.kind = .dot ∧ skipDot s = s.advance ∧
      (s.advance.kind = .keyword .distanceFrom ∨ s.advance.kind = .keyword .visits) := by
  unfold skipDot
  rw [Stream.nextKind_eq]
  split
  · next hkind hnext => exact .inr ⟨hkind, rfl, .inl hnext⟩
  · next hkind hnext => exact .inr ⟨hkind, rfl, .inr hnext⟩
  · exact .inl rfl

/-- At most a point is passed over. -/
theorem skipDot_sound {s : Stream} (hs : s.Closed) :
    ∃ dot, Takes s (optionalDot dot) (skipDot s) := by
  rcases skipDot_cases s with hstay | ⟨hdot, hskip, -⟩
  · exact ⟨false, Takes.nil_iff.mpr hstay⟩
  · exact ⟨true, hskip ▸ .step hs hdot rfl (.nil _)⟩

/-- A point in front of a count or of a distance is passed over. -/
theorem skipDot_complete {dot : Bool} {k : Keyword} {ts : List Terminal} {s s' : Stream}
    (hk : k = .distanceFrom ∨ k = .visits) (h : Takes s (optionalDot dot ++ .word k :: ts) s') :
    (skipDot s).kind = .keyword k ∧ Takes (skipDot s).advance ts s' := by
  cases dot with
  | true =>
      rcases h.kind_and_rest with ⟨hdot, hrest⟩
      rcases hrest.kind_and_rest with ⟨hkind, hrest⟩
      have hskip : skipDot s = s.advance := by
        unfold skipDot
        rw [Stream.nextKind_eq, hdot, hkind]
        rcases hk with rfl | rfl <;> rfl
      rw [hskip]
      exact ⟨hkind, hrest⟩
  | false =>
      rcases h.kind_and_rest with ⟨hkind, hrest⟩
      have hstay : skipDot s = s := by simp [skipDot, hkind]
      rw [hstay]
      exact ⟨hkind, hrest⟩

/-! ## Phrases -/

/-- What is read as a comparison and a whole number is written so. -/
theorem readTail_sound {s s₁ s' : Stream} {c : Comparison} {i : Int} {span : Span}
    (hs : s.Closed) (hcomparison : readNumericComparison s = .ok (c, s₁))
    (hvalue : readInteger s₁ = .ok (i, span, s')) :
    ∃ (n : NumericComparison) (v : IntegerNumeral), n.val = c ∧ v.value = i ∧
      Takes s (Phrase.tailTerminals n v) s' := by
  rcases readNumericComparison_sound hs hcomparison with ⟨n, hn, hword⟩
  rcases readInteger_sound (hword.closed hs) hvalue with ⟨v, hv, hnumber⟩
  exact ⟨n, v, hn, hv, hword.append hnumber⟩

/-- What is read behind `has` is a phrase for what is held. -/
theorem readHas_sound {subject : Subject} {start : Span} {s s' : Stream} {c : Condition}
    (hs : s.Closed) (h : readHas subject start s = .ok (c, s')) :
    ∃ other : SubjectPhrase, Takes s other.terminals s' ∧ c.unplaced =
      .relation ⟨subject, .has, .element other.subject.name, none, none, .atStart⟩ := by
  rcases except_bind_eq_ok.mp h with ⟨⟨other, s₁⟩, hread, hret⟩
  cases hret
  rcases readSubject_sound hs hread with ⟨p, rfl, htakes⟩
  exact ⟨p, htakes, rfl⟩

theorem readDistance_sound {origin : Subject} {start : Span} {s s' : Stream} {c : Condition}
    (hs : s.Closed) (h : readDistance origin start s = .ok (c, s')) :
    ∃ (goal : SubjectPhrase) (n : NumericComparison) (v : IntegerNumeral),
      Takes s (goal.terminals ++ Phrase.tailTerminals n v) s' ∧
      c.unplaced = .distance ⟨origin, goal.subject, n.val, v.value, .atStart⟩ := by
  rcases except_bind_eq_ok.mp h with ⟨⟨goal, s₁⟩, hgoal, hrest⟩
  rcases except_bind_eq_ok.mp hrest with ⟨⟨comparison, s₂⟩, hcomparison, hrest⟩
  rcases except_bind_eq_ok.mp hrest with ⟨⟨value, last, s₃⟩, hvalue, hret⟩
  cases hret
  rcases readSubject_sound hs hgoal with ⟨p, rfl, htakes⟩
  rcases readTail_sound (htakes.closed hs) hcomparison hvalue with ⟨n, v, rfl, rfl, htail⟩
  exact ⟨p, n, v, htakes.append htail, rfl⟩

theorem readVisits_sound {subject : Subject} {start : Span} {s s' : Stream} {c : Condition}
    (hs : s.Closed) (h : readVisits subject start s = .ok (c, s')) :
    ∃ (mark : Option SceneWord) (scene : ScenePhrase) (n : NumericComparison) (v : IntegerNumeral),
      Takes s (Phrase.markTerminals mark ++ scene.terminals ++ Phrase.tailTerminals n v) s' ∧
      c.unplaced = .visits ⟨subject, scene.scene, n.val, v.value, .atStart⟩ := by
  rcases except_bind_eq_ok.mp h with ⟨⟨scene, s₁⟩, hscene, hrest⟩
  rcases except_bind_eq_ok.mp hrest with ⟨⟨comparison, s₂⟩, hcomparison, hrest⟩
  rcases except_bind_eq_ok.mp hrest with ⟨⟨value, last, s₃⟩, hvalue, hret⟩
  cases hret
  rcases skipScene_sound hs with ⟨mark, hmark⟩
  rcases readScene_sound (hmark.closed hs) hscene with ⟨p, rfl, htakes⟩
  have hname := hmark.append htakes
  rcases readTail_sound (hname.closed hs) hcomparison hvalue with ⟨n, v, rfl, rfl, htail⟩
  exact ⟨mark, p, n, v, hname.append htail, rfl⟩

/-- What is read behind a subject as a relation is the phrase of one. -/
theorem readProperty_sound {p : SubjectPhrase} {start : Span} {s₀ s s' : Stream} {c : Condition}
    (hp : Takes s₀ p.terminals s) (hs : s.Closed)
    (h : readProperty p.subject start s = .ok (c, s')) :
    ∃ q : Phrase, c.unplaced = q.leaf ∧ Takes s₀ q.terminals s' := by
  rcases except_bind_eq_ok.mp h with ⟨⟨fields, s₁⟩, hfields, hrest⟩
  rcases except_bind_eq_ok.mp hrest with ⟨⟨comparison, s₂⟩, hcomparison, hrest⟩
  rcases readFields_sound hs hfields with ⟨fs, rfl, hfs⟩
  rcases readComparison_sound (hfs.closed hs) hcomparison with ⟨hne, hword⟩
  have hhead := hp.append (hfs.append hword)
  dsimp only at hrest
  split at hrest
  · next hempty =>
    cases hrest
    rcases hempty with ⟨rfl, -⟩
    exact ⟨.isEmpty p fs, rfl, hhead⟩
  · rcases except_bind_eq_ok.mp hrest with ⟨⟨operand, last, s₃⟩, hoperand, hret⟩
    cases hret
    rcases readOperand_sound (hword.closed (hfs.closed hs)) hoperand with ⟨v, rfl, hv⟩
    refine ⟨.compares p fs ⟨comparison, hne⟩ v, rfl, ?_⟩
    have hall := hhead.append hv
    simpa [Phrase.terminals, Phrase.subject, Phrase.predicate] using hall

/-- What is read as a leaf is a phrase with that leaf. -/
theorem readRelation_sound {s s' : Stream} {c : Condition} (hs : s.Closed)
    (h : readRelation s = .ok (c, s')) :
    ∃ p : Phrase, c.unplaced = p.leaf ∧ Takes s p.terminals s' := by
  rcases except_bind_eq_ok.mp h with ⟨⟨subject, s₁⟩, hsubject, hrest⟩
  rcases readSubject_sound hs hsubject with ⟨p, rfl, hp⟩
  have hs₁ := hp.closed hs
  dsimp only at hrest
  split at hrest
  · next hhas =>
    have hword : Takes s₁ [.has] s₁.advance := by
      have hkind : s₁.kind = .keyword .isIn := by
        simp only [atHas, Bool.and_eq_true, beq_iff_eq] at hhas
        exact hhas.1
      exact Takes.singleton_iff.mpr ⟨atHas_iff.mp hhas, hs₁.later_ne_nil (by simp [hkind]), rfl⟩
    rcases readHas_sound hs₁.advance hrest with ⟨other, hother, hleaf⟩
    exact ⟨.has p other, hleaf, hp.append (hword.append hother)⟩
  · rcases skipDot_sound hs₁ with ⟨dot, hdot⟩
    have hs₂ := hdot.closed hs₁
    split at hrest
    · next hkind =>
      rcases readDistance_sound hs₂.advance hrest with ⟨goal, n, v, htakes, hleaf⟩
      exact ⟨.distance p dot goal n v, hleaf, hp.append (hdot.append (.step hs₂ hkind rfl htakes))⟩
    · next hkind =>
      rcases readVisits_sound hs₂.advance hrest with ⟨mark, scene, n, v, htakes, hleaf⟩
      exact ⟨.visits p dot mark scene n v, hleaf,
        hp.append (hdot.append (.step hs₂ hkind rfl htakes))⟩
    · next hdistance hvisits =>
      -- a point is passed over only in front of the words that were ruled out
      have hstay : skipDot s₁ = s₁ := by
        rcases skipDot_cases s₁ with hstay | ⟨-, hskip, hkind | hkind⟩
        · exact hstay
        · exact absurd (hskip ▸ hkind) hdistance
        · exact absurd (hskip ▸ hkind) hvisits
      rw [hstay] at hrest
      exact readProperty_sound hp hs₁ hrest

/-- A comparison and a whole number are read as they are written. -/
theorem readTail_complete {n : NumericComparison} {v : IntegerNumeral} {s s' : Stream}
    (h : Takes s (Phrase.tailTerminals n v) s') :
    ∃ s₁ span, s.kind = .keyword (comparisonKeyword n.val) ∧
      readNumericComparison s = .ok (n.val, s₁) ∧ readInteger s₁ = .ok (v.value, span, s') := by
  rcases h.split_first with ⟨s₁, hword, hnumber⟩
  rcases readInteger_complete hnumber with ⟨span, hvalue⟩
  exact ⟨s₁, span, hword.kind_and_rest.1, readNumericComparison_complete hword, hvalue⟩

/-- The phrase of a distance is read as it. -/
theorem readDistance_complete {goal : SubjectPhrase} {n : NumericComparison} {v : IntegerNumeral}
    {s s' : Stream} (origin : Subject) (start : Span)
    (h : Takes s (goal.terminals ++ Phrase.tailTerminals n v) s') :
    ∃ c, readDistance origin start s = .ok (c, s') ∧
      c.unplaced = .distance ⟨origin, goal.subject, n.val, v.value, .atStart⟩ := by
  rcases Takes.append_iff.mp h with ⟨s₁, hgoal, htail⟩
  rcases readTail_complete htail with ⟨s₂, span, -, hcomparison, hvalue⟩
  refine ⟨.distance ⟨origin, goal.subject, n.val, v.value, start.through span⟩, ?_, rfl⟩
  exact except_bind_eq_ok.mpr ⟨_, readSubject_complete hgoal,
    except_bind_eq_ok.mpr ⟨_, hcomparison, except_bind_eq_ok.mpr ⟨_, hvalue, rfl⟩⟩⟩

/-- The phrase of a count is read as it. -/
theorem readVisits_complete {mark : Option SceneWord} {scene : ScenePhrase}
    {n : NumericComparison} {v : IntegerNumeral} {s s' : Stream} (subject : Subject) (start : Span)
    (h : Takes s (Phrase.markTerminals mark ++ scene.terminals ++ Phrase.tailTerminals n v) s') :
    ∃ c, readVisits subject start s = .ok (c, s') ∧
      c.unplaced = .visits ⟨subject, scene.scene, n.val, v.value, .atStart⟩ := by
  rcases Takes.append_iff.mp h with ⟨s₁, hscene, htail⟩
  rcases readTail_complete htail with ⟨s₂, span, hkind, hcomparison, hvalue⟩
  have hread := readScene_complete (skipScene_complete hscene hkind)
  refine ⟨.visits ⟨subject, scene.scene, n.val, v.value, start.through span⟩, ?_, rfl⟩
  exact except_bind_eq_ok.mpr ⟨_, hread,
    except_bind_eq_ok.mpr ⟨_, hcomparison, except_bind_eq_ok.mpr ⟨_, hvalue, rfl⟩⟩⟩

/-- A comparison is no point. -/
theorem kind_ne_dot_of_word {s : Stream} {k : Keyword} (h : s.kind = .keyword k) :
    s.kind ≠ .dot := by
  simp [h]

/-- A relation that asks for emptiness is read without an operand. -/
theorem readProperty_isEmpty {fs : List FieldPhrase} {s s' : Stream} (subject : Subject)
    (start : Span) (h : Takes s
      (fs.flatMap FieldPhrase.terminals ++ [Terminal.word (comparisonKeyword .isEmpty)]) s')
    (hs' : Follows .unary s'.ahead) :
    ∃ c, readProperty subject start s = .ok (c, s') ∧ c.unplaced =
      .relation ⟨subject, .isEmpty, .text "", (fieldsOf fs).attr, (fieldsOf fs).property,
        .atStart⟩ := by
  rcases Takes.append_iff.mp h with ⟨s₁, hfields, hword⟩
  have hread := readFields_complete ⟨none, none⟩ hfields
    (kind_ne_dot_of_word hword.kind_and_rest.1)
  have hcomparison := readComparison_complete (by simp) hword
  refine ⟨.relation ⟨subject, .isEmpty, .text "", (fieldsOf fs).attr, (fieldsOf fs).property,
    start.through s'.previous⟩, ?_, rfl⟩
  refine except_bind_eq_ok.mpr ⟨_, hread, except_bind_eq_ok.mpr ⟨_, hcomparison, ?_⟩⟩
  simp [atOperand_of_follows hs', fieldsOf, pure, Except.pure]

/-- A relation that compares is read with its operand. -/
theorem readProperty_compares {fs : List FieldPhrase} {n : FieldComparison} {v : ValuePhrase}
    {s s' : Stream} (subject : Subject) (start : Span)
    (h : Takes s (fs.flatMap FieldPhrase.terminals ++
      .word (comparisonKeyword n.val) :: v.terminals) s') (hs' : Follows .unary s'.ahead) :
    ∃ c, readProperty subject start s = .ok (c, s') ∧ c.unplaced =
      .relation ⟨subject, n.val, v.operand, (fieldsOf fs).attr, (fieldsOf fs).property,
        .atStart⟩ := by
  rcases Takes.append_iff.mp h with ⟨s₁, hfields, hrest⟩
  rcases hrest.split_first with ⟨s₂, hword, hv⟩
  have hread := readFields_complete ⟨none, none⟩ hfields
    (kind_ne_dot_of_word hword.kind_and_rest.1)
  have hcomparison := readComparison_complete n.property hword
  rcases readOperand_complete hv hs' with ⟨span, hoperand⟩
  refine ⟨.relation ⟨subject, n.val, v.operand, (fieldsOf fs).attr, (fieldsOf fs).property,
    start.through span⟩, ?_, rfl⟩
  refine except_bind_eq_ok.mpr ⟨_, hread, except_bind_eq_ok.mpr ⟨_, hcomparison, ?_⟩⟩
  simp only [atOperand_of_takes hv, not_true_eq_false, and_false, if_false]
  exact except_bind_eq_ok.mpr ⟨_, hoperand, rfl⟩

/-- A phrase that compares does not begin like one that does not. -/
theorem not_atHas_of_word {s : Stream} {k : Keyword} {ts : List Terminal} {fs : List FieldPhrase}
    {s' : Stream} (h : Takes s (fs.flatMap FieldPhrase.terminals ++ .word k :: ts) s') :
    atHas s = false := by
  rw [Bool.eq_false_iff, Ne, atHas_iff]
  cases fs with
  | nil => simp [(Takes.cons_iff.mp h).1]
  | cons f fs => simp [(Takes.cons_iff.mp h).1]

/-- In front of a count or of a distance there is no `has`. -/
theorem not_atHas_of_optionalDot {s : Stream} {k : Keyword} {ts : List Terminal} {dot : Bool}
    {s' : Stream} (h : Takes s (optionalDot dot ++ .word k :: ts) s') : atHas s = false := by
  rw [Bool.eq_false_iff, Ne, atHas_iff]
  cases dot with
  | true => simp [(Takes.cons_iff.mp h).1]
  | false => simp [(Takes.cons_iff.mp h).1]

/-- Where a comparison begins, nothing is passed over. -/
theorem skipDot_of_comparison {s s' : Stream} {c : Comparison} {ts : List Terminal}
    {fs : List FieldPhrase}
    (h : Takes s (fs.flatMap FieldPhrase.terminals ++ .word (comparisonKeyword c) :: ts) s') :
    skipDot s = s ∧ s.kind ≠ .keyword .distanceFrom ∧ s.kind ≠ .keyword .visits := by
  cases fs with
  | nil =>
      have hkind := h.kind_and_rest.1
      have hword : comparisonKeyword c ≠ .distanceFrom ∧ comparisonKeyword c ≠ .visits := by
        cases c <;> decide
      simp [skipDot, hkind, hword]
  | cons f fs =>
      rcases h.kind_and_rest with ⟨hdot, hrest⟩
      have hnext : s.advance.kind ≠ .keyword .distanceFrom ∧
          s.advance.kind ≠ .keyword .visits := by
        cases f <;> simp [hrest.kind_and_rest.1]
      refine ⟨?_, by simp [hdot], by simp [hdot]⟩
      rcases skipDot_cases s with hstay | ⟨-, -, hkind | hkind⟩
      · exact hstay
      · exact absurd hkind hnext.1
      · exact absurd hkind hnext.2

theorem readRelation_of_comparison {p : SubjectPhrase} {c : Comparison} {ts : List Terminal}
    {fs : List FieldPhrase} {s s₁ s' : Stream} (hp : Takes s p.terminals s₁)
    (h : Takes s₁ (fs.flatMap FieldPhrase.terminals ++ .word (comparisonKeyword c) :: ts) s') :
    readRelation s = readProperty p.subject s.current.span s₁ := by
  rcases skipDot_of_comparison h with ⟨hskip, hdistance, hvisits⟩
  unfold readRelation
  rw [readSubject_complete hp]
  simp only [bind, Except.bind, not_atHas_of_word h, Bool.false_eq_true, if_false, hskip]

/-- A phrase is read as its leaf where nothing follows that it would go on with. -/
theorem readRelation_complete {p : Phrase} {s s' : Stream} (h : Takes s p.terminals s')
    (hs' : Follows .unary s'.ahead) :
    ∃ c, readRelation s = .ok (c, s') ∧ c.unplaced = p.leaf := by
  rcases Takes.append_iff.mp h with ⟨s₁, hsubject, hpredicate⟩
  have hread := readSubject_complete hsubject
  -- the token behind the subject tells which phrase it is
  cases p with
  | has subject other =>
      rcases Takes.cons_iff.mp hpredicate with ⟨hhas, -, hother⟩
      refine ⟨.relation ⟨subject.subject, .has, .element other.subject.name, none, none,
        s.current.span.through s'.previous⟩, except_bind_eq_ok.mpr ⟨_, hread, ?_⟩, rfl⟩
      simp only [atHas_iff.mpr hhas, if_true]
      exact except_bind_eq_ok.mpr ⟨_, readSubject_complete hother, rfl⟩
  | distance origin dot goal n v =>
      rcases skipDot_complete (.inl rfl) hpredicate with ⟨hkind, hrest⟩
      rcases readDistance_complete origin.subject s.current.span hrest with ⟨c, hc, hleaf⟩
      refine ⟨c, except_bind_eq_ok.mpr ⟨_, hread, ?_⟩, hleaf⟩
      simp only [not_atHas_of_optionalDot hpredicate, Bool.false_eq_true, if_false, hkind]
      exact hc
  | visits subject dot mark scene n v =>
      rcases skipDot_complete (.inr rfl) hpredicate with ⟨hkind, hrest⟩
      rcases readVisits_complete subject.subject s.current.span hrest with ⟨c, hc, hleaf⟩
      refine ⟨c, except_bind_eq_ok.mpr ⟨_, hread, ?_⟩, hleaf⟩
      simp only [not_atHas_of_optionalDot hpredicate, Bool.false_eq_true, if_false, hkind]
      exact hc
  | compares subject fs n v =>
      rw [readRelation_of_comparison hsubject hpredicate]
      exact readProperty_compares subject.subject s.current.span hpredicate hs'
  | isEmpty subject fs =>
      rw [readRelation_of_comparison hsubject hpredicate]
      exact readProperty_isEmpty subject.subject s.current.span hpredicate hs'

end Condition

end GameCondition
