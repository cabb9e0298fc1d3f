import GameCondition.Proofs.Token.LetterCase
import GameCondition.Proofs.Token.Quoted

/-! # Tokens in any ASCII case

Lowering the letters of ASCII outside string literals changes no token but for the case of its text
and of the name it may be, and it moves none (`tokenize_lowerAsciiOutside`): each letter has as many
bytes in either case, and none is a line feed. That no letter begins or ends a token by its case is
known of lower case at large, and a letter and what it is lowered to in ASCII have one partner.
-/

namespace GameCondition

/-! ## ASCII in lower case outside literals -/

/-- A text with each letter of ASCII outside string literals in lower case. -/
def lowerAsciiOutside (cs : List Char) : List Char :=
  rewritePlain (List.map Char.toLower) cs

theorem toLower_ne_quote {c : Char} (hc : c ≠ '"') : c.toLower ≠ '"' := by
  intro hquote
  have hpartner : lowerPartner c = '"' := by
    rw [← lowerPartner_toLower, hquote]
    decide
  exact hc ((lowerPartner_eq_iff (by decide)).mp hpartner)

/-- A text is the same in lower case whether or not ASCII in it was in lower case before. -/
theorem lowerOutside_lowerAsciiOutside (cs : List Char) :
    lowerOutside (lowerAsciiOutside cs) = lowerOutside cs := by
  have hquotes : ∀ ds : List Char, (∀ d ∈ ds, d ≠ '"') → ∀ d ∈ ds.map Char.toLower, d ≠ '"' := by
    intro ds hds d hd
    rcases List.mem_map.mp hd with ⟨e, he, rfl⟩
    exact toLower_ne_quote (hds e he)
  have htwice : List.map lowerPartner ∘ List.map Char.toLower = List.map lowerPartner := by
    funext ds
    simp [lowerPartner_toLower]
  rw [lowerOutside, lowerAsciiOutside, rewritePlain_rewritePlain hquotes rfl, htwice]
  rfl

theorem takeWhile_lowerAsciiOutside (cs : List Char) :
    (lowerAsciiOutside cs).takeWhile isWhite = (cs.takeWhile isWhite).map Char.toLower :=
  (takeWhile_dropWhile_rewritePlain_map isWhite_toLower rfl cs).1

theorem dropWhile_lowerAsciiOutside (cs : List Char) :
    (lowerAsciiOutside cs).dropWhile isWhite = lowerAsciiOutside (cs.dropWhile isWhite) :=
  (takeWhile_dropWhile_rewritePlain_map isWhite_toLower rfl cs).2

/-! ## Places -/

theorem Position.next_toLower (p : Position) (c : Char) : p.next c.toLower = p.next c := by
  have hsize : c.toLower.utf8Size = c.utf8Size := by
    by_cases hc : c.toNat < 128
    · exact forall_ascii (P := fun c => c.toLower.utf8Size = c.utf8Size) (by decide) hc
    · rw [toLower_of_not_ascii hc]
  have hfeed : c.toLower = '\n' ↔ c = '\n' := by
    by_cases hc : c.toNat < 128
    · exact forall_ascii (P := fun c => c.toLower = '\n' ↔ c = '\n') (by decide) hc
    · rw [toLower_of_not_ascii hc]
  rw [next, next, hsize]
  simp only [hfeed]

theorem Position.after_toLower (p : Position) (cs : List Char) :
    p.after (cs.map Char.toLower) = p.after cs := by
  rw [after, after, List.foldl_map]
  simp only [next_toLower]

/-! ## One token -/

/-- What a token is, a name with its letters of ASCII in lower case. -/
def Token.Kind.lowerAscii : Token.Kind → Token.Kind
  | identifier name => identifier (GameCondition.lowerAscii name)
  | kind => kind

/-- A token with the letters of ASCII in lower case. -/
def Token.lowerAscii (t : Token) : Token :=
  ⟨t.kind.lowerAscii, t.text.map Char.toLower, t.span⟩

/-- Kinds that are the same in lower case are the same in the case of ASCII, if names are the same
in it. -/
theorem Token.Kind.lowerAscii_eq_of_lowerName_eq {k k' : Token.Kind}
    (h : k.lowerName = k'.lowerName)
    (hname : ∀ w w', k = .identifier w → k' = .identifier w' →
      GameCondition.lowerAscii w = GameCondition.lowerAscii w') :
    k.lowerAscii = k'.lowerAscii := by
  cases k with
  | identifier w =>
    cases k' with
    | identifier w' => exact congrArg Token.Kind.identifier (hname w w' rfl rfl)
    | _ => cases h
  | _ =>
    cases k' with
    | identifier w' => cases h
    | _ => cases h <;> rfl

namespace Lexeme

variable {c : Char}

/-- A name is the text it is taken from. -/
theorem name_eq_of_kind {cs : List Char} {name : String}
    (h : (ofText c cs).kind = .identifier name) :
    name = String.ofList (c :: (ofText c cs).taken) := by
  have hstart := isIdentifierStart_of_kind h
  rw [ofText_word cs hstart] at h ⊢
  unfold word at h ⊢
  dsimp only at h ⊢
  split at h
  · cases h
  · exact (Token.Kind.identifier.inj h).symm

variable (hc : c ≠ '"') (cs : List Char)

include hc

/-- With all letters in lower case a token is the same whether or not ASCII was before. -/
theorem lowerNames_lowerAsciiOutside :
    (ofText c.toLower (lowerAsciiOutside cs)).lowerNames = (ofText c cs).lowerNames := by
  rw [← ofText_lowerOutside (toLower_ne_quote hc), ← ofText_lowerOutside hc, lowerPartner_toLower,
    lowerOutside_lowerAsciiOutside]

/-- A token outside of literals ends at the same place. -/
theorem taken_rest_lowerAsciiOutside :
    (ofText c.toLower (lowerAsciiOutside cs)).taken = (ofText c cs).taken.map Char.toLower ∧
      (ofText c.toLower (lowerAsciiOutside cs)).rest = lowerAsciiOutside (ofText c cs).rest := by
  have hlength := congrArg (fun l => l.taken.length) (lowerNames_lowerAsciiOutside hc cs)
  simp only [lowerNames, List.length_map] at hlength
  -- both cut the same text, and they cut it at the same length
  have hwhole : (ofText c.toLower (lowerAsciiOutside cs)).taken ++
        (ofText c.toLower (lowerAsciiOutside cs)).rest =
      (ofText c cs).taken.map Char.toLower ++ lowerAsciiOutside (ofText c cs).rest := by
    have happend := rewritePlain_map_append Char.toLower (noQuote_ofText hc cs).1 (ofText c cs).rest
    rw [taken_append_rest] at happend
    rw [taken_append_rest]
    exact happend
  exact List.append_inj hwhole (by rw [hlength, List.length_map])

theorem kind_lowerAsciiOutside :
    (ofText c.toLower (lowerAsciiOutside cs)).kind.lowerAscii = (ofText c cs).kind.lowerAscii := by
  refine Token.Kind.lowerAscii_eq_of_lowerName_eq
    (congrArg Lexeme.kind (lowerNames_lowerAsciiOutside hc cs)) ?_
  intro w w' hw hw'
  rw [name_eq_of_kind hw, name_eq_of_kind hw', (taken_rest_lowerAsciiOutside hc cs).1,
    GameCondition.lowerAscii, GameCondition.lowerAscii, String.ofList_inj, String.toList_ofList,
    String.toList_ofList, ← List.map_cons, map_toLower_map_toLower]

end Lexeme

/-! ## All tokens -/

namespace Cursor

/-- The same place, with what follows it in lower case. -/
def lowerAscii (k : Cursor) : Cursor :=
  ⟨k.position, lowerAsciiOutside k.rest⟩

theorem place_lowerAscii (k : Cursor) : k.lowerAscii.place = k.place := by
  rw [place, place, lowerAscii, takeWhile_lowerAsciiOutside, Position.after_toLower]

theorem dropWhile_rest_lowerAscii (k : Cursor) :
    k.lowerAscii.rest.dropWhile isWhite = lowerAsciiOutside (k.rest.dropWhile isWhite) :=
  dropWhile_lowerAsciiOutside k.rest

theorem next?_lowerAscii_of_none {k : Cursor} (h : k.next? = none) :
    k.lowerAscii.next? = none := by
  unfold next? at h
  split at h
  · next hdrop =>
    refine next?_of_white ?_
    rw [dropWhile_rest_lowerAscii, hdrop]
    exact rewritePlain_map_nil Char.toLower
  · cases h

/-- One step takes up like tokens and ends at the same place. -/
theorem next?_lowerAscii_of_some {k k' : Cursor} {t : Token} (h : k.next? = some (t, k')) :
    ∃ t', k.lowerAscii.next? = some (t', k'.lowerAscii) ∧ t'.lowerAscii = t.lowerAscii := by
  have hdrop' := k.dropWhile_rest_lowerAscii
  unfold next? at h ⊢
  split at h
  · cases h
  · next c cs hdrop =>
    cases h
    by_cases hc : c = '"'
    · -- a literal is kept as it is
      subst hc
      have hliteral : (cutLiteral cs).2 = [] → lowerAsciiOutside (cutLiteral cs).2 = [] := by
        intro hrest
        rw [hrest]
        exact rewritePlain_map_nil Char.toLower
      rw [hdrop, lowerAsciiOutside, rewritePlain_map_quote] at hdrop'
      rw [hdrop', place_lowerAscii]
      dsimp only
      rw [← lowerAsciiOutside, Lexeme.ofText_quote_append hliteral, Lexeme.taken_ofText_quote,
        Lexeme.rest_ofText_quote]
      exact ⟨_, rfl, rfl⟩
    · rcases Lexeme.taken_rest_lowerAsciiOutside hc cs with ⟨htaken, hrest⟩
      have hkind := Lexeme.kind_lowerAsciiOutside hc cs
      rw [hdrop, lowerAsciiOutside, rewritePlain_map_cons _ hc] at hdrop'
      rw [hdrop', place_lowerAscii]
      dsimp only
      rw [← lowerAsciiOutside, htaken, hrest, ← List.map_cons, Position.after_toLower]
      refine ⟨_, rfl, ?_⟩
      rw [Token.lowerAscii, Token.lowerAscii, hkind, map_toLower_map_toLower]

theorem tokens_lowerAscii (k : Cursor) :
    k.lowerAscii.tokens.map Token.lowerAscii = k.tokens.map Token.lowerAscii := by
  induction k using Cursor.tokens.induct with
  | case1 k hnone =>
    rw [tokens_of_next?_none hnone, tokens_of_next?_none (next?_lowerAscii_of_none hnone),
      k.place_lowerAscii]
  | case2 k t k' hsome ih =>
    rcases next?_lowerAscii_of_some hsome with ⟨t', hsome', ht⟩
    rw [tokens_of_next?_some hsome, tokens_of_next?_some hsome', List.map_cons, List.map_cons, ih,
      ht]

end Cursor

/-- With ASCII in lower case outside literals a text has the same tokens at the same places, but for
the case of ASCII. -/
theorem tokenize_lowerAsciiOutside (cs : List Char) :
    (tokenize (lowerAsciiOutside cs)).map Token.lowerAscii =
      (tokenize cs).map Token.lowerAscii :=
  (Cursor.start cs).tokens_lowerAscii

end GameCondition
