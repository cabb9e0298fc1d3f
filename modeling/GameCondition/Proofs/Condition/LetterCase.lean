import GameCondition.Proofs.Condition.Recognition
import GameCondition.Proofs.Token.LetterCase

/-! # Conditions in any case

Texts that are the same with the letters outside string literals in lower case are read alike: if
one is read as a condition then so is the other, and the two conditions differ in the case of
names only (`read_of_lowerOutside_eq`). No inverse of lowering is needed for that: each derivation
of a sentence has a like derivation of any sentence that differs from it in the case of names.
-/

namespace GameCondition

/-- Case does not tell which kind a word names. -/
@[simp] theorem SubjectKind.ofWord?_lowerName (word : String) :
    ofWord? (lowerName word) = ofWord? word := by
  rw [ofWord?, ofWord?, find?_sameAscii_lowerName (by decide)]

/-! ## Conditions with their names in lower case -/

/-- A subject with its id in lower case. -/
def Subject.lowerNames (s : Subject) : Subject :=
  { s with id := s.id.map lowerName }

/-- An operand, a name in lower case. -/
def Operand.lowerNames : Operand → Operand
  | element id => element (lowerName id)
  | operand => operand

/-- A relation with its names in lower case. -/
def Relation.lowerNames (r : Relation) : Relation :=
  { r with
    subject := r.subject.lowerNames
    operand := r.operand.lowerNames
    attr := r.attr.map lowerName
    property := r.property.map lowerName }

/-- A condition with its names in lower case. -/
def Condition.lowerNames : Condition → Condition
  | and l r s => and l.lowerNames r.lowerNames s
  | or l r s => or l.lowerNames r.lowerNames s
  | not c s => not c.lowerNames s
  | relation r => relation r.lowerNames
  | visits v => visits { v with subject := v.subject.lowerNames, scene := lowerName v.scene }
  | distance d => distance { d with origin := d.origin.lowerNames, goal := d.goal.lowerNames }

/-- A subject with its id rewritten. -/
def Subject.mapNames (f : String → String) (s : Subject) : Subject :=
  { s with id := s.id.map f }

/-- An operand, a name rewritten. -/
def Operand.mapNames (f : String → String) : Operand → Operand
  | element id => element (f id)
  | operand => operand

/-- A relation with its names rewritten. -/
def Relation.mapNames (f : String → String) (r : Relation) : Relation :=
  { r with
    subject := r.subject.mapNames f
    operand := r.operand.mapNames f
    attr := r.attr.map f
    property := r.property.map f }

/-- A condition with its names rewritten. -/
def Condition.mapNames (f : String → String) : Condition → Condition
  | and l r s => and (l.mapNames f) (r.mapNames f) s
  | or l r s => or (l.mapNames f) (r.mapNames f) s
  | not c s => not (c.mapNames f) s
  | relation r => relation (r.mapNames f)
  | visits v => visits { v with subject := v.subject.mapNames f, scene := f v.scene }
  | distance d => distance { d with origin := d.origin.mapNames f, goal := d.goal.mapNames f }

/-- What changes only the case of names is not seen in lower case. -/
theorem Operand.lowerNames_mapNames {f : String → String} (hf : ∀ s, lowerName (f s) = lowerName s)
    (o : Operand) : (o.mapNames f).lowerNames = o.lowerNames := by
  cases o with
  | element id => exact congrArg element (hf id)
  | _ => rfl

/-- In lower case names are the same whether they were rewritten to names alike or not. -/
theorem Condition.lowerNames_mapNames {f : String → String}
    (hf : ∀ s, lowerName (f s) = lowerName s) (c : Condition) :
    (c.mapNames f).lowerNames = c.lowerNames := by
  have hname : lowerName ∘ f = lowerName := funext hf
  have hsubject : ∀ s : Subject, (s.mapNames f).lowerNames = s.lowerNames := by
    intro s
    simp [Subject.mapNames, Subject.lowerNames, hname]
  induction c with
  | and l r s ihl ihr => rw [mapNames, lowerNames, lowerNames, ihl, ihr]
  | or l r s ihl ihr => rw [mapNames, lowerNames, lowerNames, ihl, ihr]
  | not c s ih => rw [mapNames, lowerNames, lowerNames, ih]
  | relation r =>
    simp [mapNames, lowerNames, Relation.mapNames, Relation.lowerNames, hname, hsubject,
      Operand.lowerNames_mapNames hf]
  | visits v => simp [mapNames, lowerNames, hf, hsubject]
  | distance d => simp [mapNames, lowerNames, hsubject]

/-- Fields with their names in lower case. -/
def Condition.Fields.lowerNames (fields : Fields) : Fields :=
  ⟨fields.attr.map lowerName, fields.property.map lowerName⟩

section

variable {fields fields' : Condition.Fields} {name name' : Option String}
  (h : fields'.lowerNames = fields.lowerNames) (hname : name'.map lowerName = name.map lowerName)

include h hname

/-- Attributes that agree in lower case may be set in fields that do. -/
theorem setAttr_lowerNames :
    { fields' with attr := name' }.lowerNames = { fields with attr := name }.lowerNames := by
  simp only [Condition.Fields.lowerNames, Condition.Fields.mk.injEq] at h ⊢
  exact ⟨hname, h.2⟩

/-- Properties that agree in lower case may be set in fields that do. -/
theorem setProperty_lowerNames :
    { fields' with property := name' }.lowerNames =
      { fields with property := name }.lowerNames := by
  simp only [Condition.Fields.lowerNames, Condition.Fields.mk.injEq] at h ⊢
  exact ⟨h.1, hname⟩

end

/-- Subjects that agree in lower case have names that do. -/
theorem Subject.lowerName_name {s s' : Subject} (h : s.lowerNames = s'.lowerNames) :
    lowerName s.name = lowerName s'.name := by
  simp only [lowerNames, Subject.mk.injEq] at h
  obtain ⟨hkind, hid⟩ := h
  have hgetD : ∀ s : Subject, lowerName s.name =
      (s.id.map lowerName).getD (lowerName s.kind.word) := by
    intro s
    rw [name, Option.getD_map]
  rw [hgetD, hgetD, hkind, hid]

namespace Grammar

/-! ## Sentences that differ in the case of names -/

/-- Whether two sentences differ in the case of names only. -/
def SameLowered (ts us : List Terminal) : Prop :=
  ts.map Terminal.lowerName = us.map Terminal.lowerName

namespace SameLowered

variable {t : Terminal} {ts ts' us : List Terminal}

/-- Nothing agrees with no terminals but none. -/
theorem nil (h : SameLowered [] us) : us = [] := by
  simpa [SameLowered, eq_comm] using h

/-- A first terminal agrees with a first terminal. -/
theorem cons (h : SameLowered (t :: ts) us) :
    ∃ t' us', us = t' :: us' ∧ t.lowerName = t'.lowerName ∧ SameLowered ts us' := by
  rw [SameLowered, List.map_cons, eq_comm, List.map_eq_cons_iff] at h
  obtain ⟨t', us', hus, ht, hts⟩ := h
  exact ⟨t', us', hus, ht.symm, hts.symm⟩

/-- What agrees with two parts has two parts that agree with them. -/
theorem append (h : SameLowered (ts ++ ts') us) :
    ∃ vs vs', us = vs ++ vs' ∧ SameLowered ts vs ∧ SameLowered ts' vs' := by
  rw [SameLowered, List.map_append, eq_comm, List.map_eq_append_iff] at h
  obtain ⟨vs, vs', hus, hvs, hvs'⟩ := h
  exact ⟨vs, vs', hus, hvs.symm, hvs'.symm⟩

/-- A name differs in case at most. -/
theorem name_cons {w : String} (h : SameLowered (.name w :: ts) us) :
    ∃ w' us', us = .name w' :: us' ∧ lowerName w' = lowerName w ∧ SameLowered ts us' := by
  obtain ⟨t', us', hus, ht, hts⟩ := h.cons
  cases t' with
  | has => cases ht
  | kind k =>
    cases k with
    | identifier w' =>
      simp only [Terminal.lowerName, Token.Kind.lowerName, Terminal.kind.injEq,
        Token.Kind.identifier.injEq] at ht
      exact ⟨w', us', hus, ht.symm, hts⟩
    | _ => cases ht

/-- What is no name does not differ. -/
theorem other_cons (ht : ∀ w, t ≠ .name w) (h : SameLowered (t :: ts) us) :
    ∃ us', us = t :: us' ∧ SameLowered ts us' := by
  obtain ⟨t', us', hus, hlower, hts⟩ := h.cons
  suffices hsame : t' = t from ⟨us', hsame ▸ hus, hts⟩
  have hself : t.lowerName = t := by
    cases t with
    | has => rfl
    | kind k =>
      cases k with
      | identifier w => exact absurd rfl (ht w)
      | _ => rfl
  rw [hself] at hlower
  cases t' with
  | has => exact hlower.symm
  | kind k =>
    cases k with
    | identifier w => exact absurd hlower (ht _)
    | _ => exact hlower.symm

/-- Terminals that are no names agree only with themselves. -/
theorem others (hts : ∀ t ∈ ts, ∀ w, t ≠ .name w) (h : SameLowered ts us) : us = ts := by
  induction ts generalizing us with
  | nil => exact h.nil
  | cons t ts ih =>
    rw [List.forall_mem_cons] at hts
    obtain ⟨us', rfl, hus'⟩ := h.other_cons hts.1
    rw [ih hts.2 hus']

end SameLowered

/-! ## Parts of a phrase -/

/-- A kind's word in another case is a word of that kind. -/
theorem KindWord.exists_of_lowerName_eq (w : KindWord) {word : String}
    (h : lowerName word = lowerName w.word) : ∃ w' : KindWord, w'.word = word ∧ w'.kind = w.kind := by
  have hspells : SubjectKind.ofWord? word = some w.kind := by
    rw [← SubjectKind.ofWord?_lowerName, h, SubjectKind.ofWord?_lowerName, w.spells]
  exact ⟨⟨word, w.kind, hspells, w.takesId⟩, rfl, rfl⟩

/-- A subject phrase in another case is one of the same subject in lower case. -/
theorem SubjectPhrase.exists_sameLowered (p : SubjectPhrase) {us : List Terminal}
    (h : SameLowered p.terminals us) :
    ∃ p' : SubjectPhrase, p'.terminals = us ∧ p'.subject.lowerNames = p.subject.lowerNames := by
  cases p with
  | named w id =>
    obtain ⟨word, us', rfl, hword, hrest⟩ := h.name_cons
    obtain ⟨id', us'', rfl, hid, hnil⟩ := hrest.name_cons
    obtain ⟨w', rfl, hkind⟩ := w.exists_of_lowerName_eq hword
    rw [hnil.nil]
    refine ⟨.named w' id', rfl, ?_⟩
    simp [subject, Subject.lowerNames, hkind, hid]
  | alone w =>
    obtain ⟨w', us', rfl, hw, hnil⟩ := h.name_cons
    rw [hnil.nil]
    have hkind : SubjectKind.ofWord? w' = SubjectKind.ofWord? w.val := by
      rw [← SubjectKind.ofWord?_lowerName, hw, SubjectKind.ofWord?_lowerName]
    have hother : Condition.namesKind w' = false := by
      rw [Condition.namesKind, hkind]
      exact w.property
    refine ⟨.alone ⟨w', hother⟩, rfl, ?_⟩
    simp only [subject, hkind]
    cases SubjectKind.ofWord? w.val with
    | some kind => rfl
    | none => simp [Subject.item, Subject.lowerNames, hw]

/-- An optional dot has no case. -/
theorem optionalDot_of_sameLowered {dot : Bool} {us : List Terminal}
    (h : SameLowered (optionalDot dot) us) : us = optionalDot dot :=
  h.others (by cases dot <;> simp [optionalDot])

/-- A scene phrase in another case is one of the same scene in lower case. -/
theorem ScenePhrase.exists_sameLowered (p : ScenePhrase) {us : List Terminal}
    (h : SameLowered p.terminals us) :
    ∃ p' : ScenePhrase, p'.terminals = us ∧ lowerName p'.scene = lowerName p.scene := by
  cases p with
  | bare name =>
    obtain ⟨name', us', rfl, hname, hnil⟩ := h.name_cons
    rw [hnil.nil]
    exact ⟨.bare name', rfl, hname⟩
  | quoted name =>
    obtain ⟨us', rfl, hnil⟩ := h.other_cons (by simp)
    rw [hnil.nil]
    exact ⟨.quoted name, rfl, rfl⟩

/-- The mark of a scene has no case. -/
theorem Phrase.exists_mark_of_sameLowered (mark : Option SceneWord) {us : List Terminal}
    (h : SameLowered (markTerminals mark) us) : ∃ mark', markTerminals mark' = us := by
  cases mark with
  | none => exact ⟨none, h.nil.symm⟩
  | some w =>
    obtain ⟨w', us', rfl, hw, hnil⟩ := h.name_cons
    rw [hnil.nil]
    have hscene : sameAscii w' "scene" = true := by
      rw [← sameAscii_lowerName (by decide), hw, sameAscii_lowerName (by decide), w.property]
    exact ⟨some ⟨w', hscene⟩, rfl⟩

/-- A field phrase in another case sets the same field in lower case. -/
theorem FieldPhrase.exists_sameLowered (f : FieldPhrase) {us : List Terminal}
    (h : SameLowered f.terminals us) :
    ∃ f' : FieldPhrase, f'.terminals = us ∧ ∀ fields fields' : Condition.Fields,
      fields'.lowerNames = fields.lowerNames →
        (f'.addTo fields').lowerNames = (f.addTo fields).lowerNames := by
  obtain ⟨us, rfl, hafter⟩ := h.other_cons (by simp)
  cases f with
  | attr dot name =>
    obtain ⟨us', rfl, hrest⟩ := hafter.other_cons (by simp)
    obtain ⟨vs, vs', rfl, hdot, hlast⟩ := hrest.append
    obtain ⟨name', ws, rfl, hname, hnil⟩ := hlast.name_cons
    rw [optionalDot_of_sameLowered hdot, hnil.nil]
    exact ⟨.attr dot name', rfl, fun _ _ hfields => setAttr_lowerNames hfields (congrArg some hname)⟩
  | named name =>
    obtain ⟨name', us', rfl, hname, hnil⟩ := hafter.name_cons
    rw [hnil.nil]
    exact ⟨.named name', rfl, fun _ _ hfields => setProperty_lowerNames hfields (congrArg some hname)⟩
  | state =>
    rw [hafter.others (by simp [afterDot])]
    exact ⟨.state, rfl, fun _ _ hfields => setProperty_lowerNames hfields rfl⟩
  | flag =>
    rw [hafter.others (by simp [afterDot])]
    exact ⟨.flag, rfl, fun _ _ hfields => setProperty_lowerNames hfields rfl⟩
  | inventory =>
    rw [hafter.others (by simp [afterDot])]
    exact ⟨.inventory, rfl, fun _ _ hfields => setProperty_lowerNames hfields rfl⟩

/-- Field phrases in another case set the same fields in lower case. -/
theorem exists_fields_of_sameLowered (fs : List FieldPhrase) {us : List Terminal}
    (h : SameLowered (fs.flatMap FieldPhrase.terminals) us) :
    ∃ fs' : List FieldPhrase, fs'.flatMap FieldPhrase.terminals = us ∧
      (fieldsOf fs').lowerNames = (fieldsOf fs).lowerNames := by
  suffices hfrom : ∃ fs' : List FieldPhrase, fs'.flatMap FieldPhrase.terminals = us ∧
      ∀ fields fields' : Condition.Fields, fields'.lowerNames = fields.lowerNames →
        (fs'.foldl FieldPhrase.addTo fields').lowerNames =
          (fs.foldl FieldPhrase.addTo fields).lowerNames by
    obtain ⟨fs', hterminals, hfields⟩ := hfrom
    exact ⟨fs', hterminals, hfields _ _ rfl⟩
  induction fs generalizing us with
  | nil => exact ⟨[], h.nil.symm, fun _ _ hfields => hfields⟩
  | cons f fs ih =>
    rw [List.flatMap_cons] at h
    obtain ⟨vs, vs', rfl, hf, hfs⟩ := h.append
    obtain ⟨f', rfl, hf'⟩ := f.exists_sameLowered hf
    obtain ⟨fs', rfl, hfs'⟩ := ih hfs
    exact ⟨f' :: fs', rfl, fun fields fields' hfields => hfs' _ _ (hf' _ _ hfields)⟩

/-- A value phrase in another case is one of the same operand in lower case. -/
theorem ValuePhrase.exists_sameLowered (p : ValuePhrase) {us : List Terminal}
    (h : SameLowered p.terminals us) :
    ∃ p' : ValuePhrase, p'.terminals = us ∧ p'.operand.lowerNames = p.operand.lowerNames := by
  cases p with
  | named w id =>
    obtain ⟨word, us', rfl, hword, hrest⟩ := h.name_cons
    obtain ⟨id', us'', rfl, hid, hnil⟩ := hrest.name_cons
    obtain ⟨w', rfl, -⟩ := w.exists_of_lowerName_eq hword
    rw [hnil.nil]
    exact ⟨.named w' id', rfl, congrArg Operand.element hid⟩
  | bare w =>
    obtain ⟨w', us', rfl, hw, hnil⟩ := h.name_cons
    rw [hnil.nil]
    exact ⟨.bare w', rfl, congrArg Operand.element hw⟩
  | bool b =>
    rw [h.others (by cases b <;> simp [terminals])]
    exact ⟨.bool b, rfl, rfl⟩
  | number n =>
    rw [h.others (by simp [terminals])]
    exact ⟨.number n, rfl, rfl⟩
  | text s =>
    rw [h.others (by simp [terminals])]
    exact ⟨.text s, rfl, rfl⟩

/-! ## Phrases -/

/-- A phrase in another case means the same leaf in lower case. -/
theorem Phrase.exists_sameLowered (p : Phrase) {us : List Terminal}
    (h : SameLowered p.terminals us) :
    ∃ p' : Phrase, p'.terminals = us ∧ p'.leaf.lowerNames = p.leaf.lowerNames := by
  obtain ⟨us, vs, rfl, hsubject, hpredicate⟩ := h.append
  obtain ⟨subject', rfl, hsubject'⟩ := p.subject.exists_sameLowered hsubject
  -- each phrase is cut at its words, which have no case, and put together again from the parts
  cases p with
  | has subject other =>
    obtain ⟨vs, rfl, hother⟩ := hpredicate.other_cons (by simp)
    obtain ⟨other', rfl, hother'⟩ := other.exists_sameLowered hother
    refine ⟨.has subject' other', rfl, ?_⟩
    simp only [leaf, Condition.lowerNames, Relation.lowerNames, Operand.lowerNames, hsubject',
      Subject.lowerName_name hother', Phrase.subject]
  | distance origin dot goal comparison value =>
    obtain ⟨vs, vs', rfl, hdot, hword⟩ := hpredicate.append
    obtain ⟨ws, rfl, hrest⟩ := hword.other_cons (by simp)
    obtain ⟨ws, ws', rfl, hgoal, htail⟩ := hrest.append
    obtain ⟨goal', rfl, hgoal'⟩ := goal.exists_sameLowered hgoal
    rw [optionalDot_of_sameLowered hdot, htail.others (by simp [tailTerminals])]
    refine ⟨.distance subject' dot goal' comparison value, rfl, ?_⟩
    simp only [leaf, Condition.lowerNames, hsubject', hgoal', Phrase.subject]
  | visits subject dot mark scene comparison value =>
    obtain ⟨vs, vs', rfl, hdot, hword⟩ := hpredicate.append
    obtain ⟨ws, rfl, hrest⟩ := hword.other_cons (by simp)
    obtain ⟨ws', ws, rfl, hplace, htail⟩ := hrest.append
    obtain ⟨vs', ws', rfl, hmark, hscene⟩ := hplace.append
    obtain ⟨mark', rfl⟩ := exists_mark_of_sameLowered mark hmark
    obtain ⟨scene', rfl, hscene'⟩ := scene.exists_sameLowered hscene
    rw [optionalDot_of_sameLowered hdot, htail.others (by simp [tailTerminals])]
    refine ⟨.visits subject' dot mark' scene' comparison value, rfl, ?_⟩
    simp only [leaf, Condition.lowerNames, hsubject', hscene', Phrase.subject]
  | compares subject fields comparison value =>
    obtain ⟨vs, vs', rfl, hfields, hword⟩ := hpredicate.append
    obtain ⟨fields', rfl, hfields'⟩ := exists_fields_of_sameLowered fields hfields
    obtain ⟨ws, rfl, hvalue⟩ := hword.other_cons (by simp)
    obtain ⟨value', rfl, hvalue'⟩ := value.exists_sameLowered hvalue
    refine ⟨.compares subject' fields' comparison value', rfl, ?_⟩
    simp only [Condition.Fields.lowerNames, Condition.Fields.mk.injEq] at hfields'
    simp only [leaf, Condition.lowerNames, Relation.lowerNames, hsubject', hvalue', hfields',
      Phrase.subject]
  | isEmpty subject fields =>
    obtain ⟨vs, vs', rfl, hfields, hcomparison⟩ := hpredicate.append
    obtain ⟨fields', rfl, hfields'⟩ := exists_fields_of_sameLowered fields hfields
    rw [hcomparison.others (by simp)]
    refine ⟨.isEmpty subject' fields', rfl, ?_⟩
    simp only [Condition.Fields.lowerNames, Condition.Fields.mk.injEq] at hfields'
    simp only [leaf, Condition.lowerNames, Relation.lowerNames, hsubject', hfields',
      Phrase.subject]

/-! ## Derivations -/

/-- Whether two meanings make conditions that differ in the case of names only. -/
def Nonterminal.SameMeaning : (n : Nonterminal) → n.Meaning → n.Meaning → Prop
  | .or, c, c' => c.lowerNames = c'.lowerNames
  | .orRest, f, f' => ∀ c c' : Condition, c.lowerNames = c'.lowerNames →
      (f c).lowerNames = (f' c').lowerNames
  | .and, c, c' => c.lowerNames = c'.lowerNames
  | .andRest, f, f' => ∀ c c' : Condition, c.lowerNames = c'.lowerNames →
      (f c).lowerNames = (f' c').lowerNames
  | .unary, c, c' => c.lowerNames = c'.lowerNames

/-- A sentence that differs from a derived one in the case of names only is derived alike. -/
theorem Derivation.exists_sameLowered {n : Nonterminal} (d : Derivation n) {us : List Terminal}
    (h : SameLowered d.terminals us) :
    ∃ d' : Derivation n, d'.terminals = us ∧ d'.nesting = d.nesting ∧
      n.SameMeaning d'.meaning d.meaning := by
  -- by induction on the derivation; the keywords between operands have no case
  induction d generalizing us with
  | or first rest ihf ihr =>
    obtain ⟨us, vs, rfl, hfirst, hrest⟩ := h.append
    obtain ⟨first', rfl, hnesting, hfirst⟩ := ihf hfirst
    obtain ⟨rest', rfl, hnesting', hrest⟩ := ihr hrest
    exact ⟨.or first' rest', rfl, congrArg₂ max hnesting hnesting', hrest _ _ hfirst⟩
  | orEnd => exact ⟨.orEnd, h.nil.symm, rfl, fun _ _ hleft => hleft⟩
  | orMore next rest ihn ihr =>
    obtain ⟨us', rfl, hoperands⟩ := h.other_cons (by simp)
    obtain ⟨vs, vs', rfl, hnext, hrest⟩ := hoperands.append
    obtain ⟨next', rfl, hnesting, hnext⟩ := ihn hnext
    obtain ⟨rest', rfl, hnesting', hrest⟩ := ihr hrest
    refine ⟨.orMore next' rest', rfl, by simp only [nesting, hnesting, hnesting'], ?_⟩
    -- the chain so far is alike as well, and so is what the next operand makes of it
    intro left left' hleft
    exact hrest _ _ (congrArg₂ (Condition.or · · .atStart) hleft hnext)
  | and first rest ihf ihr =>
    obtain ⟨us, vs, rfl, hfirst, hrest⟩ := h.append
    obtain ⟨first', rfl, hnesting, hfirst⟩ := ihf hfirst
    obtain ⟨rest', rfl, hnesting', hrest⟩ := ihr hrest
    exact ⟨.and first' rest', rfl, congrArg₂ max hnesting hnesting', hrest _ _ hfirst⟩
  | andEnd => exact ⟨.andEnd, h.nil.symm, rfl, fun _ _ hleft => hleft⟩
  | andMore next rest ihn ihr =>
    obtain ⟨us', rfl, hoperands⟩ := h.other_cons (by simp)
    obtain ⟨vs, vs', rfl, hnext, hrest⟩ := hoperands.append
    obtain ⟨next', rfl, hnesting, hnext⟩ := ihn hnext
    obtain ⟨rest', rfl, hnesting', hrest⟩ := ihr hrest
    refine ⟨.andMore next' rest', rfl, by simp only [nesting, hnesting, hnesting'], ?_⟩
    intro left left' hleft
    exact hrest _ _ (congrArg₂ (Condition.and · · .atStart) hleft hnext)
  | not inner ih =>
    obtain ⟨us', rfl, hoperand⟩ := h.other_cons (by simp)
    obtain ⟨inner', rfl, hnesting, hinner⟩ := ih hoperand
    exact ⟨.not inner', rfl, congrArg (1 + ·) hnesting, congrArg (Condition.not · .atStart) hinner⟩
  | group inner ih =>
    obtain ⟨us', rfl, hinside⟩ := h.other_cons (by simp)
    obtain ⟨vs, vs', rfl, hoperand, hclose⟩ := hinside.append
    obtain ⟨inner', rfl, hnesting, hinner⟩ := ih hoperand
    rw [hclose.others (by simp)]
    exact ⟨.group inner', rfl, congrArg (1 + ·) hnesting, hinner⟩
  | phrase p =>
    obtain ⟨p', rfl, hleaf⟩ := p.exists_sameLowered h
    exact ⟨.phrase p', rfl, rfl, hleaf⟩

end Grammar

/-- Texts that are the same in lower case outside literals are read alike. -/
theorem Condition.read_of_lowerOutside_eq {limit : Nat} {a b : String} {t : Condition}
    (h : lowerOutside a.toList = lowerOutside b.toList) (ht : read limit a = .ok t) :
    ∃ t', read limit b = .ok t' ∧ t'.unplaced.lowerNames = t.unplaced.lowerNames := by
  obtain ⟨d, hterminals, hmeaning, hnesting⟩ := read_iff.mp ⟨t, ht, rfl⟩
  have hsame : Grammar.SameLowered (d.terminals ++ [.last]) (terminals b.toList) := by
    rw [Grammar.SameLowered, hterminals, ← terminals_lowerOutside, h, terminals_lowerOutside]
  obtain ⟨us, last, hus, hd, hlast⟩ := hsame.append
  obtain ⟨d', hd', hnesting', hmeaning'⟩ := d.exists_sameLowered hd
  have hread : ∃ t', read limit b = .ok t' ∧ t'.unplaced = d'.meaning := by
    refine read_iff.mpr ⟨d', ?_, rfl, hnesting'.trans_le hnesting⟩
    rw [hd', hus, hlast.others (by simp)]
  obtain ⟨t', ht', hunplaced⟩ := hread
  refine ⟨t', ht', ?_⟩
  rw [hunplaced, ← hmeaning]
  exact hmeaning'

end GameCondition
