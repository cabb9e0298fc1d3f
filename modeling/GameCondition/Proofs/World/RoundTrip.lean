import GameCondition.Proofs.Json.RoundTrip
import GameCondition.Proofs.Token.Scanning
import GameCondition.World.Coding

/-! # Worlds round-trip through JSON

Each decoder undoes its encoder: a record is decoded from an object with just its fields
(`Json.fields?_object`), a dictionary from its entries, which are in ascending order already
(`Dict.ofList_entries`), and a value from the sort of JSON that only values of its own sort have
(`Value.ofJson?_toJson`). What is written for a world is legible JSON (`World.isLegible_toJson`), so
the world comes back from either layout of its text (`World.read_toJson`).
-/

namespace GameCondition

/-! ## Lists, dictionaries and records -/

/-- An entry above all others is put behind them. -/
theorem putEntry_of_lt {α : Type} {key : String} {value : α} {es : List (String × α)}
    (h : ∀ e ∈ es, e.1 < key) : putEntry key value es = es ++ [(key, value)] := by
  induction es with
  | nil => rfl
  | cons e es ih =>
      rcases List.forall_mem_cons.mp h with ⟨he, hes⟩
      have hlt : ¬key < e.1 := String.lt_asymm he
      have hne : key ≠ e.1 := by
        intro heq
        exact String.lt_irrefl _ (heq ▸ he)
      rw [putEntry, if_neg hlt, if_neg hne, ih hes]
      rfl

/-- With different keys each entry is found under its key. -/
theorem lookup_of_mem {α : Type} {es : List (String × α)} (h : (es.map (·.1)).Nodup)
    {e : String × α} (he : e ∈ es) : es.lookup e.1 = some e.2 := by
  induction es with
  | nil => cases he
  | cons e' es ih =>
      rw [List.map_cons, List.nodup_cons] at h
      rw [lookup_entry]
      rcases List.mem_cons.mp he with rfl | he
      · exact if_pos rfl
      · have hne : e.1 ≠ e'.1 := by
          intro heq
          exact h.1 (heq ▸ List.mem_map_of_mem he)
        rw [if_neg hne, ih h.2 he]

namespace Dict

variable {α : Type}

/-- Entries that go on ascending are put at the end. -/
theorem entries_foldl_insert {es : List (String × α)} (d : Dict α)
    (h : AscendingKeys (d.entries ++ es)) :
    (es.foldl (fun d e => d.insert e.1 e.2) d).entries = d.entries ++ es := by
  induction es generalizing d with
  | nil => simp
  | cons e es ih =>
      -- the next key is greater than all keys that were put before
      have hlast : (d.insert e.1 e.2).entries = d.entries ++ [e] := by
        apply putEntry_of_lt
        intro e' he'
        exact (List.pairwise_append.mp h).2.2 e' he' e List.mem_cons_self
      have happend : d.entries ++ e :: es = (d.insert e.1 e.2).entries ++ es := by
        rw [hlast, List.append_assoc]
        rfl
      rw [List.foldl_cons, happend]
      exact ih _ (happend ▸ h)

/-- The entries of a dictionary make up the dictionary. -/
theorem ofList_entries (d : Dict α) : ofList d.entries = d := by
  have h : (ofList d.entries).entries = d.entries := entries_foldl_insert empty d.ascending
  -- the order of the entries is a proposition, so they are all that there is to compare
  cases d with
  | mk entries ascending =>
      cases hd : ofList entries with
      | mk entries' ascending' =>
          rw [hd] at h
          cases h
          rfl

/-- A map is legible if its values are. -/
theorem isLegible_toJson {encode : α → Json} {d : Dict α}
    (h : ∀ e ∈ d.entries, (encode e.2).IsLegible) : (d.toJson encode).IsLegible := by
  apply Json.membersLegible_iff.mpr
  intro m hm
  rcases List.mem_map.mp hm with ⟨e, he, rfl⟩
  exact h e he

end Dict

namespace Json

/-- A list is read back if its items are. -/
theorem asList?_map {α : Type} {encode : α → Json} {decode : Json → Option α} {as : List α}
    (h : ∀ a ∈ as, decode (encode a) = some a) : asList? decode (list (as.map encode)) = some as :=
  mapM_map_eq_some h

/-- A map is read back if its values are. -/
theorem asDict?_toJson {α : Type} {encode : α → Json} {decode : Json → Option α} {d : Dict α}
    (h : ∀ e ∈ d.entries, decode (encode e.2) = some e.2) :
    asDict? decode (d.toJson encode) = some d := by
  have hentries : (d.entries.map fun e => (e.1, encode e.2)).mapM
      (fun m => (decode m.2).map fun v => (m.1, v)) = some d.entries := by
    apply mapM_map_eq_some
    intro e he
    rw [h e he]
    rfl
  rw [Dict.toJson, asDict?, hentries, Option.map_some, Dict.ofList_entries]

/-- The fields of an object that has just the members of a record. -/
theorem fields?_object {names : List String} {members : List (String × Json)}
    (hnames : members.map (·.1) = names) (h : names.Nodup) :
    (object members).fields? names = some (members.map fun m => some m.2) := by
  subst hnames
  -- no member is passed over
  have hknown : members.filter (fun m => (members.map (·.1)).contains m.1) = members := by
    apply List.filter_eq_self.mpr
    intro m hm
    rw [List.contains_iff_mem]
    exact List.mem_map_of_mem hm
  simp only [fields?, hknown, if_pos h, List.map_map]
  congr 1
  exact List.map_congr_left fun m hm => lookup_of_mem h hm

theorem asStringOrNull?_ofText? (s : Option String) : asStringOrNull? (ofText? s) = some s := by
  cases s <;> rfl

theorem isLegible_ofText? (s : Option String) : (ofText? s).IsLegible := by
  cases s <;> trivial

/-- A list is legible if its items are. -/
theorem isLegible_map {α : Type} {encode : α → Json} {as : List α}
    (h : ∀ a ∈ as, (encode a).IsLegible) : (list (as.map encode)).IsLegible := by
  apply itemsLegible_iff.mpr
  intro v hv
  rcases List.mem_map.mp hv with ⟨a, ha, rfl⟩
  exact h a ha

end Json

/-! ## Values -/

namespace Value

mutual

/-- Whether a value has no element and no infinite number or NaN at any level of its lists. -/
def IsPlain : Value → Prop
  | number n => n.isFinite = true
  | list items => ItemsPlain items
  | element _ => False
  | _ => True

/-- Whether every item of a list is plain. -/
def ItemsPlain : List Value → Prop
  | [] => True
  | v :: vs => v.IsPlain ∧ ItemsPlain vs

end

mutual

/-- The numbers of a value at all levels of its lists. -/
def numbers : Value → List Number
  | number n => [n]
  | list items => itemsNumbers items
  | _ => []

/-- The numbers of the items of a list. -/
def itemsNumbers : List Value → List Number
  | [] => []
  | v :: vs => v.numbers ++ itemsNumbers vs

end

mutual

/-- A plain value is decoded from its JSON. -/
theorem ofJson?_toJson (v : Value) (h : v.IsPlain) : ofJson? v.toJson = some v := by
  cases v with
  | nil => rfl
  | bool b => rfl
  | number n =>
      cases n with
      | finite negative rank => rfl
      | infinite negative => cases h
      | nan negative => cases h
  | text s => rfl
  | list items =>
      -- only lists become lists, so the decoder goes the same way back
      rw [toJson, ofJson?, itemsOfJson?_itemsToJson items h]
      rfl
  | element id => exact h.elim

/-- Items without elements and infinite numbers are read back. -/
theorem itemsOfJson?_itemsToJson (vs : List Value) (h : ItemsPlain vs) :
    itemsOfJson? (itemsToJson vs) = some vs := by
  cases vs with
  | nil => rfl
  | cons v vs =>
      rw [itemsToJson, itemsOfJson?, ofJson?_toJson v h.1, itemsOfJson?_itemsToJson vs h.2]
      rfl

end

mutual

/-- The JSON of a plain value is legible if its numbers read back. -/
theorem isLegible_toJson (v : Value) (h : v.IsPlain)
    (hnumbers : ∀ n ∈ v.numbers, Json.ReadsBack n) : v.toJson.IsLegible := by
  cases v with
  | nil => trivial
  | bool b => trivial
  | number n =>
      cases n with
      | finite negative rank => exact hnumbers _ List.mem_cons_self
      | infinite negative => cases h
      | nan negative => cases h
  | text s => trivial
  | list items => exact itemsLegible_itemsToJson items h hnumbers
  | element id => exact h.elim

/-- Items are legible if their numbers are read back. -/
theorem itemsLegible_itemsToJson (vs : List Value) (h : ItemsPlain vs)
    (hnumbers : ∀ n ∈ itemsNumbers vs, Json.ReadsBack n) :
    Json.ItemsLegible (itemsToJson vs) := by
  cases vs with
  | nil => trivial
  | cons v vs =>
      constructor
      · exact isLegible_toJson v h.1 fun n hn => hnumbers n (List.mem_append_left _ hn)
      · exact itemsLegible_itemsToJson vs h.2 fun n hn => hnumbers n (List.mem_append_right _ hn)

end

end Value

/-! ## Elements -/

/-- The word for a kind is read as that kind. -/
theorem ElementKind.ofJson?_word (k : ElementKind) : ofJson? (.text k.word) = some k := by
  cases k <;> rfl

namespace Element

/-- The values that an element has as properties and attributes. -/
def values (e : Element) : List Value :=
  (e.properties.entries ++ e.attributes.entries).map (·.2)

variable {e : Element}

/-- Properties are among the values of an element. -/
theorem mem_values_of_properties {p : String × Value} (h : p ∈ e.properties.entries) :
    p.2 ∈ e.values :=
  List.mem_map_of_mem (List.mem_append_left _ h)

/-- Attributes are among the values of an element. -/
theorem mem_values_of_attributes {p : String × Value} (h : p ∈ e.attributes.entries) :
    p.2 ∈ e.values :=
  List.mem_map_of_mem (List.mem_append_right _ h)

/-- An element with plain values is decoded from its JSON. -/
theorem ofJson?_toJson (h : ∀ v ∈ e.values, v.IsPlain) : ofJson? e.toJson = some e := by
  have haliases : Json.asList? Json.asString? (.list (e.aliases.map .text)) = some e.aliases :=
    Json.asList?_map fun a _ => rfl
  have hflags : Json.asDict? Json.asBool? (e.flags.toJson .bool) = some e.flags :=
    Json.asDict?_toJson fun p _ => rfl
  have hproperties : Json.asDict? Value.ofJson? (e.properties.toJson Value.toJson) =
      some e.properties :=
    Json.asDict?_toJson fun p hp => p.2.ofJson?_toJson (h p.2 (mem_values_of_properties hp))
  have hattributes : Json.asDict? Value.ofJson? (e.attributes.toJson Value.toJson) =
      some e.attributes :=
    Json.asDict?_toJson fun p hp => p.2.ofJson?_toJson (h p.2 (mem_values_of_attributes hp))
  -- the names of the members are those of the fields, each once
  have hfields : e.toJson.fields? ["id", "name", "kind", "aliases", "container", "state",
      "default_state", "flags", "properties", "attributes"] = some [
        some (.text e.id), some (.text e.givenName), some (.text e.kind.word),
        some (.list (e.aliases.map .text)), some (.ofText? e.container),
        some (.ofText? e.currentState), some (.ofText? e.defaultState),
        some (e.flags.toJson .bool), some (e.properties.toJson Value.toJson),
        some (e.attributes.toJson Value.toJson)] :=
    Json.fields?_object rfl (by decide)
  rw [ofJson?, hfields]
  simp only [Option.bind_eq_bind, Option.bind_some, Json.fieldOr, Json.asString?,
    ElementKind.ofJson?_word, haliases, Json.asStringOrNull?_ofText?, hflags, hproperties,
    hattributes]
  rfl

theorem isLegible_toJson (h : ∀ v ∈ e.values, v.toJson.IsLegible) : e.toJson.IsLegible := by
  have haliases : (Json.list (e.aliases.map .text)).IsLegible :=
    Json.isLegible_map fun a _ => trivial
  have hflags : (e.flags.toJson .bool).IsLegible := Dict.isLegible_toJson fun p _ => trivial
  have hproperties : (e.properties.toJson Value.toJson).IsLegible :=
    Dict.isLegible_toJson fun p hp => h p.2 (mem_values_of_properties hp)
  have hattributes : (e.attributes.toJson Value.toJson).IsLegible :=
    Dict.isLegible_toJson fun p hp => h p.2 (mem_values_of_attributes hp)
  exact ⟨trivial, trivial, trivial, haliases, Json.isLegible_ofText? _, Json.isLegible_ofText? _,
    Json.isLegible_ofText? _, hflags, hproperties, hattributes, trivial⟩

end Element

/-! ## Counts and distances -/

/-- Whether a whole number fits in 64 bits with its sign. -/
def FitsInt64 (i : Int) : Prop :=
  -Int.pow 2 63 ≤ i ∧ i < Int.pow 2 63

/-- Whole numbers of 64 bits are legible. -/
theorem FitsInt64.isLegible {i : Int} (h : FitsInt64 i) : (Json.integer i).IsLegible := by
  have hpow : Int.pow 2 63 ≤ Int.pow 2 64 := by decide
  exact ⟨h.1, h.2.trans_le hpow⟩

namespace Measure

variable {m : Measure}

theorem ofJson?_toJson (h : FitsInt64 m.value) : ofJson? m.toJson = some m := by
  have hvalue : Json.asInt64? (.integer m.value) = some m.value := if_pos h
  have hfields : m.toJson.fields? ["from", "to", "value"] =
      some [some (.text m.origin), some (.text m.goal), some (.integer m.value)] :=
    Json.fields?_object rfl (by decide)
  rw [ofJson?, hfields]
  simp only [Option.bind_eq_bind, Option.bind_some, Json.field, Json.asString?, hvalue]
  rfl

theorem isLegible_toJson (h : FitsInt64 m.value) : m.toJson.IsLegible :=
  ⟨trivial, trivial, h.isLegible, trivial⟩

end Measure

/-! ## Worlds -/

namespace World

/-- The values that the elements have as properties and attributes. -/
def values (w : World) : List Value :=
  w.elements.flatMap Element.values

/-- The visit counts and the distances. -/
def counts (w : World) : List Int :=
  (w.visits.entries.flatMap fun e => e.2.entries.map (·.2)) ++ w.measures.map (·.value)

variable {w : World}

/-- The values of an element are among those of the world. -/
theorem mem_values {e : Element} (he : e ∈ w.elements) {v : Value} (hv : v ∈ e.values) :
    v ∈ w.values :=
  List.mem_flatMap.mpr ⟨e, he, hv⟩

/-- The visits of a world are among its counts. -/
theorem fitsInt64_visits (h : ∀ i ∈ w.counts, FitsInt64 i) {e : String × Dict Int}
    (he : e ∈ w.visits.entries) {s : String × Int} (hs : s ∈ e.2.entries) : FitsInt64 s.2 := by
  refine h s.2 (List.mem_append_left _ (List.mem_flatMap.mpr ⟨e, he, ?_⟩))
  exact List.mem_map_of_mem hs

/-- The distances of a world are among its counts. -/
theorem fitsInt64_measure (h : ∀ i ∈ w.counts, FitsInt64 i) {m : Measure} (hm : m ∈ w.measures) :
    FitsInt64 m.value :=
  h m.value (List.mem_append_right _ (List.mem_map_of_mem hm))

/-- A world with plain values is decoded from its JSON. -/
theorem ofJson?_toJson (hplain : ∀ v ∈ w.values, v.IsPlain)
    (hcounts : ∀ i ∈ w.counts, FitsInt64 i) : ofJson? w.toJson = some w := by
  have helements : Json.asList? Element.ofJson? (.list (w.elements.map Element.toJson)) =
      some w.elements :=
    Json.asList?_map fun e he =>
      Element.ofJson?_toJson fun v hv => hplain v (mem_values he hv)
  have hvisits : Json.asDict? (Json.asDict? Json.asInt64?)
      (w.visits.toJson fun scenes => scenes.toJson .integer) = some w.visits := by
    apply Json.asDict?_toJson
    intro e he
    apply Json.asDict?_toJson
    intro s hs
    exact if_pos (fitsInt64_visits hcounts he hs)
  have hmeasures : Json.asList? Measure.ofJson? (.list (w.measures.map Measure.toJson)) =
      some w.measures :=
    Json.asList?_map fun m hm => Measure.ofJson?_toJson (fitsInt64_measure hcounts hm)
  have hfields : w.toJson.fields? ["elements", "player", "target", "target2", "current_scene",
      "session", "log", "visits", "distances"] = some [
        some (.list (w.elements.map Element.toJson)), some (.ofText? w.playerId),
        some (.ofText? w.targetId), some (.ofText? w.target2Id), some (.ofText? w.currentSceneId),
        some (.ofText? w.sessionId), some (.ofText? w.logId),
        some (w.visits.toJson fun scenes => scenes.toJson .integer),
        some (.list (w.measures.map Measure.toJson))] :=
    Json.fields?_object rfl (by decide)
  rw [ofJson?, hfields]
  simp only [Option.bind_eq_bind, Option.bind_some, Json.fieldOr, Json.asStringOrNull?_ofText?,
    helements, hvisits, hmeasures]
  rfl

theorem isLegible_toJson (hplain : ∀ v ∈ w.values, v.IsPlain)
    (hcounts : ∀ i ∈ w.counts, FitsInt64 i)
    (hnumbers : ∀ v ∈ w.values, ∀ n ∈ v.numbers, Json.ReadsBack n) :
    w.toJson.IsLegible := by
  have helements : (Json.list (w.elements.map Element.toJson)).IsLegible := by
    apply Json.isLegible_map
    intro e he
    apply Element.isLegible_toJson
    intro v hv
    have hmem := mem_values he hv
    exact v.isLegible_toJson (hplain v hmem) (hnumbers v hmem)
  have hvisits : (w.visits.toJson fun scenes => scenes.toJson .integer).IsLegible := by
    apply Dict.isLegible_toJson
    intro e he
    apply Dict.isLegible_toJson
    intro s hs
    exact (fitsInt64_visits hcounts he hs).isLegible
  have hmeasures : (Json.list (w.measures.map Measure.toJson)).IsLegible :=
    Json.isLegible_map fun m hm => Measure.isLegible_toJson (fitsInt64_measure hcounts hm)
  exact ⟨helements, Json.isLegible_ofText? _, Json.isLegible_ofText? _, Json.isLegible_ofText? _,
    Json.isLegible_ofText? _, Json.isLegible_ofText? _, Json.isLegible_ofText? _, hvisits,
    hmeasures, trivial⟩

/-- A world comes back from the text that is written for it in either layout. Its values have to be
plain, its counts fit in 64 bits, its numbers read back and its lists not nest too deep. -/
theorem read_toJson (w : World) (hplain : ∀ v ∈ w.values, v.IsPlain)
    (hcounts : ∀ i ∈ w.counts, FitsInt64 i)
    (hnumbers : ∀ v ∈ w.values, ∀ n ∈ v.numbers, Json.ReadsBack n)
    (hnesting : w.toJson.nesting ≤ Json.containerLimit) :
    (Json.read? w.toJson.compact).bind ofJson? = some w ∧
      (Json.read? w.toJson.wide).bind ofJson? = some w := by
  have hlegible := isLegible_toJson hplain hcounts hnumbers
  rw [Json.read?_compact hlegible hnesting, Json.read?_wide hlegible hnesting, Option.bind_some]
  exact ⟨ofJson?_toJson hplain hcounts, ofJson?_toJson hplain hcounts⟩

/-- A hero who has lists inside a list, and a hall. -/
theorem read_toJson_nested :
    let hero := (Element.ofId "hero" .player).setProperty "bag" (.list [.text "a \"rope\"\n",
      .number (.ofScientific true 25 (-1)), .list [.number (.ofInt 3), .nil, .bool true]])
    let w : World := { World.empty with
      elements := [(hero.setAttribute "mood" .nil).setFlag "lost" false, .ofId "hall" .scene]
      playerId := some "hero"
      visits := Dict.empty.insert "hero" (Dict.empty.insert "hall" 2)
      measures := [⟨"hero", "hall", -7⟩] }
    (Json.read? w.toJson.compact).bind ofJson? = some w ∧
      (Json.read? w.toJson.wide).bind ofJson? = some w := by
  intro hero w
  have hvalues : w.values = [.list [.text "a \"rope\"\n", .number (.ofScientific true 25 (-1)),
      .list [.number (.ofInt 3), .nil, .bool true]], .nil] := rfl
  have hcounts : w.counts = [2, -7] := rfl
  refine read_toJson w ?_ ?_ ?_ ?_
  · have hrope : (Number.ofScientific true 25 (-1)).isFinite = true := by decide +kernel
    have hthree : (Number.ofInt 3).isFinite = true := by decide +kernel
    rw [hvalues, List.forall_mem_cons, List.forall_mem_singleton]
    exact ⟨⟨trivial, hrope, ⟨hthree, trivial, trivial, trivial⟩, trivial⟩, trivial⟩
  · rw [hcounts]
    simp [FitsInt64]
  · rw [hvalues]
    decide +kernel
  · decide +kernel

end World

end GameCondition
