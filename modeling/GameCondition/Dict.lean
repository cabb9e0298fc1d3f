/-! # Dictionaries

A dictionary from strings is the list of its entries in ascending order of their keys, so equal
dictionaries have equal entries. Writing a key twice keeps the later value.
-/

namespace GameCondition

/-- Puts an entry into an ascending list, in place of one with the same key. -/
def putEntry {α : Type} (key : String) (value : α) : List (String × α) → List (String × α)
  | [] => [(key, value)]
  | e :: es =>
    if key < e.1 then (key, value) :: e :: es
    else if key = e.1 then (key, value) :: es
    else e :: putEntry key value es

/-- Whether the keys of a list ascend. -/
def AscendingKeys {α : Type} (es : List (String × α)) : Prop :=
  es.Pairwise fun a b => a.1 < b.1

theorem mem_putEntry {α : Type} {key : String} {value : α} {e : String × α}
    {es : List (String × α)} (h : e ∈ putEntry key value es) : e = (key, value) ∨ e ∈ es := by
  induction es with
  | nil => simpa [putEntry] using h
  | cons d ds ih =>
    rw [putEntry] at h
    split at h
    · simpa using h
    · split at h
      · rcases List.mem_cons.mp h with h | h
        · exact .inl h
        · exact .inr (List.mem_cons_of_mem _ h)
      · rcases List.mem_cons.mp h with h | h
        · exact .inr (h ▸ List.mem_cons_self)
        · exact (ih h).imp id (List.mem_cons_of_mem _)

theorem AscendingKeys.putEntry {α : Type} (key : String) (value : α) {es : List (String × α)}
    (h : AscendingKeys es) : AscendingKeys (putEntry key value es) := by
  induction es with
  | nil => simp [AscendingKeys, GameCondition.putEntry]
  | cons d ds ih =>
    have hd := List.pairwise_cons.mp h
    rw [AscendingKeys, GameCondition.putEntry]
    split
    next hlt =>
      refine List.pairwise_cons.mpr ⟨fun e he => ?_, h⟩
      rcases List.mem_cons.mp he with rfl | he
      · exact hlt
      · exact String.lt_trans hlt (hd.1 e he)
    next hlt =>
      split
      next heq => exact List.pairwise_cons.mpr ⟨fun e he => heq ▸ hd.1 e he, hd.2⟩
      next hne =>
        refine List.pairwise_cons.mpr ⟨fun e he => ?_, ih hd.2⟩
        rcases mem_putEntry he with rfl | he
        · exact Std.lt_of_le_of_ne (String.not_lt.mp hlt) (Ne.symm hne)
        · exact hd.1 e he

theorem lookup_entry {α : Type} (key : String) (e : String × α) (es : List (String × α)) :
    (e :: es).lookup key = if key = e.1 then some e.2 else es.lookup key := by
  rcases e with ⟨key', value⟩
  by_cases h : key = key'
  · simp [h]
  · simp [List.lookup_cons, beq_eq_false_iff_ne.mpr h, h]

/-- A key that was put has its new value, and any other the one it had. -/
theorem lookup_putEntry {α : Type} (key key' : String) (value : α) (es : List (String × α)) :
    (putEntry key value es).lookup key' = if key' = key then some value else es.lookup key' := by
  induction es with
  | nil => exact lookup_entry key' (key, value) []
  | cons e es ih =>
    rw [putEntry]
    split
    · exact lookup_entry key' (key, value) (e :: es)
    · split
      next heq =>
        rw [lookup_entry, lookup_entry key' e es, ← heq]
        by_cases h : key' = key
        · rw [if_pos h, if_pos h]
        · rw [if_neg h, if_neg h, if_neg h]
      next hne =>
        rw [lookup_entry, lookup_entry key' e es, ih]
        by_cases h : key' = e.1
        · rw [if_pos h, if_pos h, if_neg fun h' : key' = key => hne (h'.symm.trans h)]
        · rw [if_neg h, if_neg h]

theorem mem_map_fst_iff_lookup {α : Type} {key : String} {es : List (String × α)} :
    key ∈ es.map (·.1) ↔ (es.lookup key).isSome = true := by
  induction es with
  | nil => simp
  | cons e es ih =>
    rw [lookup_entry, List.map_cons, List.mem_cons, ih]
    by_cases h : key = e.1 <;> simp [h]

/-- A dictionary from strings. -/
structure Dict (α : Type) where
  entries : List (String × α)
  ascending : AscendingKeys entries

namespace Dict

variable {α β : Type}

instance [DecidableEq α] : DecidableEq (Dict α) := fun a b =>
  if h : a.entries = b.entries then
    isTrue (by cases a; cases b; cases h; rfl)
  else isFalse fun e => h (e ▸ rfl)

instance [Repr α] : Repr (Dict α) := ⟨fun d n => reprPrec d.entries n⟩

/-- The dictionary without entries. -/
def empty : Dict α := ⟨[], List.Pairwise.nil⟩

instance : Inhabited (Dict α) := ⟨empty⟩

/-- Gives a key a value. -/
def insert (d : Dict α) (key : String) (value : α) : Dict α :=
  ⟨putEntry key value d.entries, d.ascending.putEntry key value⟩

/-- The dictionary of a list of entries; of two with one key the later counts. -/
def ofList (es : List (String × α)) : Dict α :=
  es.foldl (fun d e => d.insert e.1 e.2) empty

/-- The value of a key. -/
def get? (d : Dict α) (key : String) : Option α :=
  d.entries.lookup key

/-- The keys in ascending order. -/
def keys (d : Dict α) : List String :=
  d.entries.map (·.1)

@[simp] theorem get?_empty (key : String) : (empty : Dict α).get? key = none := rfl

theorem get?_insert (d : Dict α) (key key' : String) (value : α) :
    (d.insert key value).get? key' = if key' = key then some value else d.get? key' :=
  lookup_putEntry key key' value d.entries

theorem mem_keys_iff {d : Dict α} {key : String} :
    key ∈ d.keys ↔ (d.get? key).isSome = true :=
  mem_map_fst_iff_lookup

theorem nodup_keys (d : Dict α) : d.keys.Nodup := by
  have hlt : d.keys.Pairwise (· < ·) := List.pairwise_map.mpr d.ascending
  exact hlt.imp fun {a b} (h : a < b) (heq : a = b) => String.lt_irrefl b (heq ▸ h)

end Dict

end GameCondition
