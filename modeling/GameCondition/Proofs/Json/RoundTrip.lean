import GameCondition.Proofs.Json.Scanning

/-! # Written JSON is read back

Both layouts of a value have the same tokens, those of the value (`tokens?_compactThen`,
`tokens?_wideThen`), and a run of the machine over the tokens of a value ends with that value
(`foldlM_tokensThen`). Hence a value is read back from either text if its scalars are legible and
it does not nest too deep (`read?_compact`, `read?_wide`).

Everything is said of a value and what follows it, as the writer puts it together: the induction
over a value needs the text and the tokens that come after it, and the containers around it.
-/

namespace GameCondition

/-- What undoes each item undoes the list. -/
theorem mapM_map_eq_some {α β : Type} {encode : α → β} {decode : β → Option α} {as : List α}
    (h : ∀ a ∈ as, decode (encode a) = some a) : (as.map encode).mapM decode = some as := by
  induction as with
  | nil => rfl
  | cons a as ih =>
      rcases List.forall_mem_cons.mp h with ⟨ha, has⟩
      rw [List.map_cons, List.mapM_cons, ha, ih has]
      rfl

namespace Json

/-! ## The tokens of a value -/

mutual

/-- The tokens of a value, and then the given ones. -/
def tokensThen : Json → List Token → List Token
  | list [], ts => .openList :: .closeList :: ts
  | list (v :: vs), ts => .openList :: tokensThen v (itemTokens vs ts)
  | object [], ts => .openObject :: .closeObject :: ts
  | object ((k, v) :: ms), ts =>
    .openObject :: .text (some k) :: .colon :: tokensThen v (memberTokens ms ts)
  | text s, ts => .text (some s) :: ts
  | null, ts => .scalar null :: ts
  | bool b, ts => .scalar (bool b) :: ts
  | integer i, ts => .scalar (integer i) :: ts
  | decimal x, ts => .scalar (decimal x) :: ts
  | unreadable, ts => .scalar unreadable :: ts

/-- The tokens of the further items of a list and of its end, and then the given ones. -/
def itemTokens : List Json → List Token → List Token
  | [], ts => .closeList :: ts
  | v :: vs, ts => .comma :: tokensThen v (itemTokens vs ts)

/-- The tokens of the further members of an object and of its end, and then the given ones. -/
def memberTokens : List (String × Json) → List Token → List Token
  | [], ts => .closeObject :: ts
  | (k, v) :: ms, ts =>
    .comma :: .text (some k) :: .colon :: tokensThen v (memberTokens ms ts)

end

mutual

/-- How deep containers nest in a value. -/
def nesting : Json → Nat
  | list items => itemsNesting items + 1
  | object members => membersNesting members + 1
  | _ => 0

/-- How deep containers nest in the items of a list. -/
def itemsNesting : List Json → Nat
  | [] => 0
  | v :: vs => max v.nesting (itemsNesting vs)

/-- How deep containers nest in the members of an object. -/
def membersNesting : List (String × Json) → Nat
  | [] => 0
  | (_, v) :: ms => max v.nesting (membersNesting ms)

end

/-! ## The machine on the tokens of a value -/

/-- The members that are kept of an object that is still open. -/
def openMembers (ms : List (String × Json)) : List (Option String × Json) :=
  (ms.map fun m => (some m.1, m.2)).reverse

/-- A member at the end of an object is the innermost one that is opened. -/
theorem openMembers_append (ms : List (String × Json)) (k : String) (v : Json) :
    openMembers (ms ++ [(k, v)]) = (some k, v) :: openMembers ms := by
  simp [openMembers]

/-- An object is made again of its opened members. -/
theorem objectOf_openMembers (ms : List (String × Json)) :
    objectOf (openMembers ms) = object ms := by
  have hkeys : ∀ decode : Option String × Json → Option (String × Json),
      (∀ m : String × Json, decode (some m.1, m.2) = some m) →
        (openMembers ms).reverse.mapM decode = some ms := by
    intro decode h
    rw [openMembers, List.reverse_reverse]
    exact mapM_map_eq_some fun m _ => h m
  rw [objectOf, hkeys _ fun m => rfl]

/-- Containers below the limit are left as they are. -/
theorem limited_of_lt {outer : Nat} (v : Json) (h : outer < containerLimit) :
    limited outer v = v :=
  if_pos h

/-- A list does not end where its first item begins. -/
theorem foldlM_firstItem (v : Json) (fs : List Frame) (ts : List Token) :
    (tokensThen v ts).foldlM State.step (.firstItem fs) =
      (tokensThen v ts).foldlM State.step (.value (.list [] :: fs)) := by
  fun_cases tokensThen v ts <;> rfl

mutual

/-- Where a value is expected, its tokens lead to what follows a whole value. -/
theorem foldlM_tokensThen (v : Json) (fs : List Frame) (ts : List Token)
    (h : v.nesting + fs.length ≤ containerLimit) :
    (tokensThen v ts).foldlM State.step (.value fs) = ts.foldlM State.step (.after v fs) := by
  cases v with
  | list items =>
      have hlimit : fs.length < containerLimit := by
        simp only [nesting] at h
        omega
      cases items with
      | nil =>
          change ts.foldlM State.step (.after (limited fs.length (list [])) fs) = _
          rw [limited_of_lt _ hlimit]
      | cons v vs =>
          simp only [nesting, itemsNesting] at h
          have hfirst := foldlM_tokensThen v (.list [] :: fs) (itemTokens vs ts)
            (by rw [List.length_cons]; omega)
          have hitems := foldlM_itemTokens v vs [] fs ts (by omega)
          -- behind the bracket an end would be taken too, but an item does not begin with one
          rw [← foldlM_firstItem] at hfirst
          exact hfirst.trans hitems
  | object members =>
      have hlimit : fs.length < containerLimit := by
        simp only [nesting] at h
        omega
      cases members with
      | nil =>
          change ts.foldlM State.step (.after (limited fs.length (object [])) fs) = _
          rw [limited_of_lt _ hlimit]
      | cons m ms =>
          rcases m with ⟨k, v⟩
          simp only [nesting, membersNesting] at h
          have hfirst := foldlM_tokensThen v (.object [] (some k) :: fs) (memberTokens ms ts)
            (by rw [List.length_cons]; omega)
          exact hfirst.trans (foldlM_memberTokens k v ms [] fs ts (by omega))
  | null => rfl
  | bool b => rfl
  | integer i => rfl
  | decimal x => rfl
  | text s => rfl
  | unreadable => rfl

/-- After an item the tokens of the further ones lead to the whole list. -/
theorem foldlM_itemTokens (v : Json) (vs done : List Json) (fs : List Frame) (ts : List Token)
    (h : itemsNesting vs + (fs.length + 1) ≤ containerLimit) :
    (itemTokens vs ts).foldlM State.step (.after v (.list done :: fs)) =
      ts.foldlM State.step (.after (list (done.reverse ++ v :: vs)) fs) := by
  cases vs with
  | nil =>
      change ts.foldlM State.step (.after (limited fs.length (list (v :: done).reverse)) fs) = _
      rw [limited_of_lt _ (by omega), List.reverse_cons]
  | cons u us =>
      simp only [itemsNesting] at h
      -- the comma puts the item before it among those that are kept
      have hnext := foldlM_tokensThen u (.list (v :: done) :: fs) (itemTokens us ts)
        (by rw [List.length_cons]; omega)
      have hitems := foldlM_itemTokens u us (v :: done) fs ts (by omega)
      rw [List.reverse_cons, List.append_assoc] at hitems
      exact hnext.trans hitems

/-- After a member the tokens of the further ones lead to the whole object. -/
theorem foldlM_memberTokens (k : String) (v : Json) (ms done : List (String × Json))
    (fs : List Frame) (ts : List Token)
    (h : membersNesting ms + (fs.length + 1) ≤ containerLimit) :
    (memberTokens ms ts).foldlM State.step (.after v (.object (openMembers done) (some k) :: fs)) =
      ts.foldlM State.step (.after (object (done ++ (k, v) :: ms)) fs) := by
  cases ms with
  | nil =>
      have hobject : objectOf ((some k, v) :: openMembers done) = object (done ++ [(k, v)]) := by
        rw [← openMembers_append, objectOf_openMembers]
      rw [← hobject, ← limited_of_lt (objectOf _) (by omega : fs.length < containerLimit)]
      rfl
  | cons m ms =>
      rcases m with ⟨k', u⟩
      simp only [membersNesting] at h
      -- the comma puts the member before it among those that are kept
      have hnext := foldlM_tokensThen u (.object ((some k, v) :: openMembers done) (some k') :: fs)
        (memberTokens ms ts) (by rw [List.length_cons]; omega)
      have hmembers := foldlM_memberTokens k' u ms (done ++ [(k, v)]) fs ts (by omega)
      rw [openMembers_append, List.append_assoc] at hmembers
      exact hnext.trans hmembers

end

/-! ## Legible values -/

/-- Whether the text of a number is read as the number. -/
def ReadsBack (x : Number) : Prop :=
  read? (numberText x) = some (decimal x)

/-- The number that a decimal is. -/
def decimal? : Json → Option Number
  | decimal x => some x
  | _ => none

/-- What reading a number's text back means. -/
theorem readsBack_iff {x : Number} :
    (read? (numberText x)).bind decimal? = some x ↔ ReadsBack x := by
  constructor
  · intro h
    rcases Option.bind_eq_some_iff.mp h with ⟨v, hread, hv⟩
    cases v with
    | decimal y =>
        cases hv
        exact hread
    | _ => cases hv
  · intro h
    rw [h]
    rfl

instance (x : Number) : Decidable (ReadsBack x) :=
  decidable_of_iff _ readsBack_iff

mutual

/-- Whether every scalar in a value has a text that is read as the scalar: whole numbers fit in 64
bits, with or without sign, and any other number reads back. -/
def IsLegible : Json → Prop
  | integer i => -Int.pow 2 63 ≤ i ∧ i < Int.pow 2 64
  | decimal x => ReadsBack x
  | list items => ItemsLegible items
  | object members => MembersLegible members
  | unreadable => False
  | _ => True

/-- Whether every item of a list is legible. -/
def ItemsLegible : List Json → Prop
  | [] => True
  | v :: vs => v.IsLegible ∧ ItemsLegible vs

/-- Whether every member of an object is legible. -/
def MembersLegible : List (String × Json) → Prop
  | [] => True
  | (_, v) :: ms => v.IsLegible ∧ MembersLegible ms

end

/-- Items are legible when each of them is. -/
theorem itemsLegible_iff {vs : List Json} : ItemsLegible vs ↔ ∀ v ∈ vs, v.IsLegible := by
  induction vs with
  | nil => simp [ItemsLegible]
  | cons v vs ih => simp [ItemsLegible, ih]

/-- Members are legible when the value of each of them is. -/
theorem membersLegible_iff {ms : List (String × Json)} :
    MembersLegible ms ↔ ∀ m ∈ ms, m.2.IsLegible := by
  induction ms with
  | nil => simp [MembersLegible]
  | cons m ms ih => simp [MembersLegible, ih]

/-! ## Layouts -/

variable {rest : List Char} {ts : List Token}

/-- A member's key gives its token and the colon's. -/
theorem tokens?_key (k : String) (h : tokens? rest = some ts) :
    tokens? (quote k ++ ':' :: rest) = some (.text (some k) :: .colon :: ts) :=
  tokens?_cons rfl (scanToken?_quote k _) (tokens?_cons rfl rfl h)

/-- The text of a scalar is its token. -/
theorem tokens?_scalarText {v : Json} (hv : v.IsLegible) (hlist : ∀ items, v ≠ list items)
    (hobject : ∀ members, v ≠ object members) (hrest : StopsAt extendsNumber rest)
    (h : tokens? rest = some ts) : tokens? (scalarText v ++ rest) = some (tokensThen v ts) := by
  cases v with
  | list items => exact absurd rfl (hlist items)
  | object members => exact absurd rfl (hobject members)
  | null => exact tokens?_cons rfl rfl h
  | bool b =>
    cases b with
    | false => exact tokens?_cons rfl rfl h
    | true => exact tokens?_cons rfl rfl h
  | integer i => exact tokens?_integer hv.1 hv.2 hrest h
  | decimal x => exact tokens?_decimal hv hrest h
  | text s => exact tokens?_cons rfl (scanToken?_quote s _) h
  | unreadable => exact hv.elim

/-- No number goes on into the items that follow it. -/
theorem stopsAt_compactItems (vs : List Json) (rest : List Char) :
    StopsAt extendsNumber (compactItems vs rest) := by
  cases vs with
  | nil => exact stopsAt_cons _ rfl
  | cons v vs => exact stopsAt_cons _ rfl

/-- No number goes on into the members that follow it. -/
theorem stopsAt_compactMembers (ms : List (String × Json)) (rest : List Char) :
    StopsAt extendsNumber (compactMembers ms rest) := by
  cases ms with
  | nil => exact stopsAt_cons _ rfl
  | cons m ms => exact stopsAt_cons _ rfl

mutual

/-- A legible value written without blanks gives its tokens, then those of the rest. -/
theorem tokens?_compactThen (v : Json) {rest : List Char} {ts : List Token} (hv : v.IsLegible)
    (hrest : StopsAt extendsNumber rest) (h : tokens? rest = some ts) :
    tokens? (compactThen v rest) = some (tokensThen v ts) := by
  cases v with
  | list items =>
      cases items with
      | nil => exact tokens?_cons rfl rfl (tokens?_cons rfl rfl h)
      | cons v vs =>
          -- from the end of the text to its beginning
          have hitems := tokens?_compactItems vs hv.2 h
          have hfirst := tokens?_compactThen v hv.1 (stopsAt_compactItems vs rest) hitems
          exact tokens?_cons rfl rfl hfirst
  | object members =>
      cases members with
      | nil => exact tokens?_cons rfl rfl (tokens?_cons rfl rfl h)
      | cons m ms =>
          rcases m with ⟨k, v⟩
          have hmembers := tokens?_compactMembers ms hv.2 h
          have hfirst := tokens?_compactThen v hv.1 (stopsAt_compactMembers ms rest) hmembers
          exact tokens?_cons rfl rfl (tokens?_key k hfirst)
  | null => exact tokens?_scalarText hv nofun nofun hrest h
  | bool b => exact tokens?_scalarText hv nofun nofun hrest h
  | integer i => exact tokens?_scalarText hv nofun nofun hrest h
  | decimal x => exact tokens?_scalarText hv nofun nofun hrest h
  | text s => exact tokens?_scalarText hv nofun nofun hrest h
  | unreadable => exact hv.elim

/-- Items written without blanks give theirs. -/
theorem tokens?_compactItems (vs : List Json) {rest : List Char} {ts : List Token}
    (hvs : ItemsLegible vs) (h : tokens? rest = some ts) :
    tokens? (compactItems vs rest) = some (itemTokens vs ts) := by
  cases vs with
  | nil => exact tokens?_cons rfl rfl h
  | cons v vs =>
      have hitems := tokens?_compactItems vs hvs.2 h
      have hfirst := tokens?_compactThen v hvs.1 (stopsAt_compactItems vs rest) hitems
      exact tokens?_cons rfl rfl hfirst

/-- Members written without blanks give theirs. -/
theorem tokens?_compactMembers (ms : List (String × Json)) {rest : List Char} {ts : List Token}
    (hms : MembersLegible ms) (h : tokens? rest = some ts) :
    tokens? (compactMembers ms rest) = some (memberTokens ms ts) := by
  cases ms with
  | nil => exact tokens?_cons rfl rfl h
  | cons m ms =>
      rcases m with ⟨k, v⟩
      have hmembers := tokens?_compactMembers ms hms.2 h
      have hfirst := tokens?_compactThen v hms.1 (stopsAt_compactMembers ms rest) hmembers
      exact tokens?_cons rfl rfl (tokens?_key k hfirst)

end

/-- A line break and its indentation give no token. -/
theorem tokens?_lineBreakThen (depth : Nat) (h : tokens? rest = some ts) :
    tokens? (lineBreakThen depth rest) = some ts := by
  have hblanks : ∀ c ∈ '\n' :: List.replicate (2 * depth) ' ', isSpace c = true := by
    intro c hc
    rcases List.mem_cons.mp hc with rfl | hc
    · rfl
    · rw [List.eq_of_mem_replicate hc]
      rfl
  exact tokens?_blanks hblanks h

/-- No number goes on into the items on the lines below it. -/
theorem stopsAt_wideItems (depth : Nat) (vs : List Json) (rest : List Char) :
    StopsAt extendsNumber (wideItems depth vs rest) := by
  cases vs with
  | nil => exact stopsAt_cons _ rfl
  | cons v vs => exact stopsAt_cons _ rfl

/-- No number goes on into the members on the lines below it. -/
theorem stopsAt_wideMembers (depth : Nat) (ms : List (String × Json)) (rest : List Char) :
    StopsAt extendsNumber (wideMembers depth ms rest) := by
  cases ms with
  | nil => exact stopsAt_cons _ rfl
  | cons m ms => exact stopsAt_cons _ rfl

/-- A member on a line of its own. -/
theorem tokens?_lineKey (depth : Nat) (k : String) (h : tokens? rest = some ts) :
    tokens? (lineBreakThen depth (quote k ++ ':' :: ' ' :: rest)) =
      some (.text (some k) :: .colon :: ts) := by
  have hblank : ∀ c ∈ [' '], isSpace c = true := List.forall_mem_singleton.mpr rfl
  exact tokens?_lineBreakThen depth (tokens?_key k (tokens?_blanks hblank h))

mutual

/-- A legible value written over lines gives the same tokens as without blanks. -/
theorem tokens?_wideThen (depth : Nat) (v : Json) {rest : List Char} {ts : List Token}
    (hv : v.IsLegible) (hrest : StopsAt extendsNumber rest) (h : tokens? rest = some ts) :
    tokens? (wideThen depth v rest) = some (tokensThen v ts) := by
  -- by recursion on the value, as it is written; empty containers take no lines
  cases v with
  | list items =>
      cases items with
      | nil => exact tokens?_cons rfl rfl (tokens?_cons rfl rfl h)
      | cons v vs =>
          have hitems := tokens?_wideItems depth vs hv.2 h
          have hfirst :=
            tokens?_wideThen (depth + 1) v hv.1 (stopsAt_wideItems depth vs rest) hitems
          exact tokens?_cons rfl rfl (tokens?_lineBreakThen (depth + 1) hfirst)
  | object members =>
      cases members with
      | nil => exact tokens?_cons rfl rfl (tokens?_cons rfl rfl h)
      | cons m ms =>
          rcases m with ⟨k, v⟩
          have hmembers := tokens?_wideMembers depth ms hv.2 h
          have hfirst :=
            tokens?_wideThen (depth + 1) v hv.1 (stopsAt_wideMembers depth ms rest) hmembers
          exact tokens?_cons rfl rfl (tokens?_lineKey (depth + 1) k hfirst)
  | null => exact tokens?_scalarText hv nofun nofun hrest h
  | bool b => exact tokens?_scalarText hv nofun nofun hrest h
  | integer i => exact tokens?_scalarText hv nofun nofun hrest h
  | decimal x => exact tokens?_scalarText hv nofun nofun hrest h
  | text s => exact tokens?_scalarText hv nofun nofun hrest h
  | unreadable => exact hv.elim

/-- Items written over lines give the same tokens. -/
theorem tokens?_wideItems (depth : Nat) (vs : List Json) {rest : List Char} {ts : List Token}
    (hvs : ItemsLegible vs) (h : tokens? rest = some ts) :
    tokens? (wideItems depth vs rest) = some (itemTokens vs ts) := by
  cases vs with
  | nil => exact tokens?_lineBreakThen depth (tokens?_cons rfl rfl h)
  | cons v vs =>
      have hitems := tokens?_wideItems depth vs hvs.2 h
      have hfirst := tokens?_wideThen (depth + 1) v hvs.1 (stopsAt_wideItems depth vs rest) hitems
      exact tokens?_cons rfl rfl (tokens?_lineBreakThen (depth + 1) hfirst)

/-- Members written over lines give the same tokens. -/
theorem tokens?_wideMembers (depth : Nat) (ms : List (String × Json)) {rest : List Char}
    {ts : List Token} (hms : MembersLegible ms) (h : tokens? rest = some ts) :
    tokens? (wideMembers depth ms rest) = some (memberTokens ms ts) := by
  cases ms with
  | nil => exact tokens?_lineBreakThen depth (tokens?_cons rfl rfl h)
  | cons m ms =>
      rcases m with ⟨k, v⟩
      have hmembers := tokens?_wideMembers depth ms hms.2 h
      have hfirst :=
        tokens?_wideThen (depth + 1) v hms.1 (stopsAt_wideMembers depth ms rest) hmembers
      exact tokens?_cons rfl rfl (tokens?_lineKey (depth + 1) k hfirst)

end

/-! ## Reading back -/

/-- A text with the tokens of a value is read as that value, if it is not nested too deep. -/
theorem read?_of_tokens? {cs : List Char} {v : Json} (hnesting : v.nesting ≤ containerLimit)
    (h : tokens? cs = some (tokensThen v [])) : read? cs = some v := by
  have hrun := foldlM_tokensThen v [] [] hnesting
  rw [read?, h, Option.bind_eq_bind, Option.bind_some, hrun]
  rfl

/-- A legible value that does not nest too deep is read back from its compact text. -/
theorem read?_compact {v : Json} (hv : v.IsLegible) (hnesting : v.nesting ≤ containerLimit) :
    read? v.compact = some v := by
  apply read?_of_tokens? hnesting
  exact tokens?_compactThen v hv (stopsAt_nil _) rfl

/-- A legible value that does not nest too deep is read back from its wide text. -/
theorem read?_wide {v : Json} (hv : v.IsLegible) (hnesting : v.nesting ≤ containerLimit) :
    read? v.wide = some v := by
  apply read?_of_tokens? hnesting
  exact tokens?_wideThen 0 v hv (stopsAt_nil _) rfl

end Json

end GameCondition
