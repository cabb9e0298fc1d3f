import GameCondition.Proofs.Number.LetterCase
import GameCondition.Proofs.Token.Scanning

/-! # Scanning by byte offsets

A scanner that goes on by cutting the bytes of a character off its text, and cuts the texts of words
and numbers out of the source between two offsets, has to cut between characters; and each round of
its loops has to leave less text than there was. `Scan` runs such a scanner: it has no result where
a cut is inside a character or past the end, where a loop does not get on, and where the text of a
number does not spell one. Lines and columns have 32 bits and go round; that is not among the ways
of getting stuck, and nothing here reads them.

None of this comes about. Behind a beginning of the source the scanner takes up the lexeme there
(`Scan.run_kind`), and from the start of a text all its tokens (`Scan.run_tokens`).
-/

namespace GameCondition

/-! ## Digits with a point -/

namespace Number

/-- A digit stays one in lower case. -/
theorem isDigit_toLower {c : Char} (h : c.isDigit = true) : c.toLower.isDigit = true := by
  have hsmall : c.toNat < 128 := lt_of_le_of_lt (Char.isDigit_iff_toNat.mp h).2 (by decide)
  have hlower : c.isDigit = true → c.toLower.isDigit = true :=
    forall_ascii (P := fun c => c.isDigit = true → c.toLower.isDigit = true) (by decide) hsmall
  exact hlower h

/-- Digits, with a point among them, are read as the number nearest to what they spell. -/
theorem unsigned?_pointed (negative : Bool) {whole part : List Char} (hne : whole ≠ [])
    (hwhole : ∀ c ∈ whole, c.isDigit = true) (hpart : ∀ c ∈ part, c.isDigit = true) :
    unsigned? negative (whole ++ pointed part) =
      some (.ofScientific negative (digitsValue (whole ++ part)) (-part.length)) := by
  have hstop : StopsAt Char.isDigit (pointed part) := by
    cases part with
    | nil => exact stopsAt_nil _
    | cons d ds => exact stopsAt_cons _ rfl
  obtain ⟨htake, hdrop⟩ := takeWhile_append_of_stopsAt hwhole hstop
  have hfraction : fraction (pointed part) = (part, []) := by
    cases part with
    | nil => rfl
    | cons d ds =>
      have hall := takeWhile_append_of_stopsAt hpart (stopsAt_nil Char.isDigit)
      rw [List.append_nil] at hall
      exact Prod.ext hall.1 hall.2
  -- a digit begins none of the words that stand for numbers
  have hword : ∀ d ds, (whole ++ pointed part).map Char.toLower = d :: ds → d.isDigit = true := by
    intro d ds heq
    cases whole with
    | nil => exact absurd rfl hne
    | cons c cs =>
      rw [List.cons_append, List.map_cons] at heq
      rw [← (List.cons.inj heq).1]
      exact isDigit_toLower (hwhole c List.mem_cons_self)
  have hi : 'i'.isDigit ≠ true := by decide
  have hn : 'n'.isDigit ≠ true := by decide
  have hdecimal : decimal? negative (whole ++ pointed part) =
      some (.ofScientific negative (digitsValue (whole ++ part)) (-part.length)) := by
    rw [decimal?, htake, hdrop, hfraction]
    simp [exponent?, hne]
  rw [unsigned?, if_neg, if_neg, hdecimal]
  · exact fun h => hn (hword _ _ h)
  · rintro (h | h)
    · exact hi (hword _ _ h)
    · exact hi (hword _ _ h)

end Number

/-! ## The scanner -/

/-- A computation of a scanner that cuts texts at byte offsets. It has no result where there is no
such cut, and where a loop does not get on. -/
abbrev Scan := StateT Cursor Option

namespace Scan

/-- The number of characters that are left, which has to be smaller than it was. -/
def remaining (left : Nat) : Scan {n : Nat // n < left} := do
  let k ← get
  if h : k.rest.length < left then return ⟨k.rest.length, h⟩
  else failure

/-- Starts a loop with the number of characters that are left. -/
def withRest {α : Type} (loop : Nat → Scan α) : Scan α := do
  loop (← get).rest.length

/-- The character so many places ahead. -/
def peek (n : Nat) : Scan (Option Char) := do
  return (← get).rest[n]?

/-- Where the scanner stands. -/
def place : Scan Position := do
  return (← get).position

/-- Goes on behind a character, the bytes of which are cut off. -/
def advance : Scan Unit := do
  let k ← get
  match k.rest with
  | [] => return
  | c :: _ =>
    let (_, rest) ← cutAt c.utf8Size k.rest
    set (Cursor.mk (k.position.next c) rest)

/-- Goes on behind characters of a sort, each round with less text left. -/
def skipWithin (p : Char → Bool) (left : Nat) : Scan Unit := do
  if (← peek 0).any p then
    advance
    let ⟨n, _⟩ ← remaining left
    skipWithin p n

/-- Goes on behind characters of a sort. -/
def skip (p : Char → Bool) : Scan Unit :=
  withRest (skipWithin p)

/-- What is written with the backslash behind which the scanner stands: the quote or the backslash
that it escapes, which is taken along, or itself. -/
def escaped : Scan Char := do
  match ← peek 0 with
  | none => return '\\'
  | some c =>
    if c = '"' ∨ c = '\\' then
      advance
      return c
    else return '\\'

/-- Takes up a string of which the characters in `text` were taken already, each round with less
text left. -/
def literalWithin (text : List Char) (left : Nat) : Scan Token.Kind := do
  match ← peek 0 with
  | none => return .unknown .unterminatedString
  | some c =>
    if c = '"' then
      advance
      return .string (String.ofList text)
    else if c = '\\' then
      advance
      let c ← escaped
      let ⟨n, _⟩ ← remaining left
      literalWithin (text ++ [c]) n
    else
      advance
      let ⟨n, _⟩ ← remaining left
      literalWithin (text ++ [c]) n

/-- Takes up a string. -/
def string : Scan Token.Kind := do
  advance
  withRest (literalWithin [])

/-- Goes on behind a minus sign, if there is one. -/
def skipMinus : Scan Unit := do
  if (← peek 0) = some '-' then advance

/-- Goes on behind a point and the digits after it, if there are any. -/
def skipFraction : Scan Unit := do
  if (← peek 0) = some '.' ∧ (← peek 1).any Char.isDigit then
    advance
    skip Char.isDigit

variable (source : List Char)

/-- Takes up a number, the text of which is cut out of the source and has to spell one. -/
def number : Scan Token.Kind := do
  let start ← place
  skipMinus
  skip Char.isDigit
  skipFraction
  let text ← slice start.offset (← place).offset source
  return .number (← Number.ofText? text)

/-- Takes up a word, which is cut out of the source. -/
def word : Scan Token.Kind := do
  let start ← place
  skip isIdentifierChar
  let name := String.ofList (← slice start.offset (← place).offset source)
  match Keyword.ofWord? name with
  | some k => return .keyword k
  | none => return .identifier name

/-- Takes up the token that begins with a character. -/
def kind (c : Char) : Scan Token.Kind := do
  if c = '(' then
    advance
    return .openParen
  else if c = ')' then
    advance
    return .closeParen
  else if c = '.' then
    advance
    return .dot
  else if c = '"' then string
  else if c.isDigit then number source
  else if c = '-' ∧ (← peek 1).any Char.isDigit then number source
  else if isIdentifierStart c then word source
  else
    advance
    return .unknown (.unexpectedChar c)

/-- Takes up the next token, or the one at the end. -/
def token : Scan Token := do
  skip isWhite
  let start ← place
  match ← peek 0 with
  | none => return .atEnd start
  | some c =>
    let kind ← kind source c
    let span := Span.between start (← place)
    return ⟨kind, span.textIn source, span⟩

/-- Takes up all tokens, each round with less text left. -/
def tokensWithin (left : Nat) : Scan (List Token) := do
  let t ← token source
  if t.kind = .endOfInput then return [t]
  else
    let ⟨n, _⟩ ← remaining left
    return t :: (← tokensWithin n)

/-- Takes up all tokens. -/
def tokens : Scan (List Token) :=
  withRest (tokensWithin source)

/-! ## Single steps -/

variable {source} {before cs rest : List Char} {c : Char}

/-- A run goes on where its first part ends. -/
theorem run_bind_of_run {α β : Type} {m : Scan α} {f : α → Scan β} {a : α} {k k' : Cursor}
    (h : m.run k = some (a, k')) : (m >>= f).run k = (f a).run k' := by
  rw [StateT.run_bind, h]
  rfl

/-- A run goes on behind a result that is there. -/
theorem run_bind_of_some {α β : Type} {x : Option α} {a : α} (h : x = some a) (f : α → Scan β)
    (k : Cursor) : (liftM x >>= f : Scan β).run k = (f a).run k := by
  rw [h]
  rfl

theorem run_peek (n : Nat) (before rest : List Char) :
    (peek n).run (.behind before rest) = some (rest[n]?, .behind before rest) := rfl

/-- The place is that behind what was scanned. -/
theorem run_place (before rest : List Char) :
    place.run (.behind before rest) = some (Position.start.after before, .behind before rest) :=
  rfl

/-- The character that is passed over is cut off whole. -/
theorem run_advance (before cs : List Char) (c : Char) :
    advance.run (.behind before (c :: cs)) = some ((), .behind (before ++ [c]) cs) := by
  have hcut : cutAt c.utf8Size (c :: cs) = some ([c], cs) := cutAt_byteLength [c] cs
  have hplace : (Position.start.after before).next c = Position.start.after (before ++ [c]) :=
    (Position.after_append Position.start before [c]).symm
  simp [advance, Cursor.behind, hcut, hplace]

theorem run_withRest {α : Type} (loop : Nat → Scan α) (before rest : List Char) :
    (withRest loop).run (.behind before rest) = (loop rest.length).run (.behind before rest) := rfl

/-- Where less text is left than there was, its length is told. -/
theorem run_remaining {k : Cursor} {left : Nat} (h : k.rest.length < left) :
    (remaining left).run k = some (⟨k.rest.length, h⟩, k) := by
  show StateT.run (if h : _ then _ else _) k = _
  rw [dif_pos h]
  rfl

/-- A loop that got on goes on with the length of what is left. -/
theorem run_remaining_bind {α : Type} {left : Nat} (h : rest.length < left)
    (f : {n : Nat // n < left} → Scan α) (before : List Char) :
    (remaining left >>= f).run (.behind before rest) =
      (f ⟨rest.length, h⟩).run (.behind before rest) :=
  run_bind_of_run (run_remaining (k := .behind before rest) h)

/-- Characters of a sort are passed over to the last, as long as the bound counts them. -/
theorem run_skipWithin (p : Char → Bool) (before : List Char) {rest : List Char} {left : Nat}
    (hleft : rest.length ≤ left) : (skipWithin p left).run (.behind before rest) =
      some ((), .behind (before ++ rest.takeWhile p) (rest.dropWhile p)) := by
  induction rest generalizing before left with
  | nil =>
    rw [skipWithin, run_bind_of_run (run_peek 0 before []), List.takeWhile_nil, List.dropWhile_nil,
      List.append_nil]
    rfl
  | cons c cs ih =>
    rw [skipWithin, run_bind_of_run (run_peek 0 before (c :: cs)), List.getElem?_cons_zero,
      Option.any_some]
    by_cases hc : p c = true
    · rw [List.takeWhile_cons_of_pos hc, List.dropWhile_cons_of_pos hc, if_pos hc,
        run_bind_of_run (run_advance before cs c), run_remaining_bind hleft]
      dsimp only
      rw [ih _ (Nat.le_refl _), List.append_assoc, List.singleton_append]
    · rw [List.takeWhile_cons_of_neg hc, List.dropWhile_cons_of_neg hc, List.append_nil,
        if_neg hc]
      rfl

/-- Characters of a sort are passed over to the last. -/
theorem run_skip (p : Char → Bool) (before rest : List Char) :
    (skip p).run (.behind before rest) =
      some ((), .behind (before ++ rest.takeWhile p) (rest.dropWhile p)) :=
  run_skipWithin p before (Nat.le_refl _)

/-! ## Strings -/

/-- The token of a string, from the characters that were taken already and the value of the rest. -/
def literalKind (text : List Char) : Option (List Char) → Token.Kind
  | some value => .string (String.ofList (text ++ value))
  | none => .unknown .unterminatedString

/-- A character more in the value of a literal is a character more in front of it. -/
theorem literalKind_cons (text : List Char) (c : Char) (value : Option (List Char)) :
    literalKind text (value.map (c :: ·)) = literalKind (text ++ [c]) value := by
  cases value with
  | none => rfl
  | some value => simp [literalKind]

/-- Behind a backslash a quote or a backslash is taken as it is. -/
theorem run_escaped_of_special {c : Char} (hc : c = '"' ∨ c = '\\') (before cs : List Char) :
    escaped.run (.behind before (c :: cs)) = some (c, .behind (before ++ [c]) cs) := by
  rw [escaped, run_bind_of_run (run_peek 0 before _)]
  dsimp only [List.getElem?_cons_zero]
  rw [if_pos hc, run_bind_of_run (run_advance before cs c)]
  rfl

/-- Behind a backslash any other character is left, and the backslash stays. -/
theorem run_escaped_of_plain {cs : List Char} (hcs : ∀ c ds, cs = c :: ds → c ≠ '"' ∧ c ≠ '\\')
    (before : List Char) : escaped.run (.behind before cs) = some ('\\', .behind before cs) := by
  rw [escaped, run_bind_of_run (run_peek 0 before cs)]
  cases cs with
  | nil => rfl
  | cons c ds =>
    dsimp only [List.getElem?_cons_zero]
    have hc := hcs c ds rfl
    rw [if_neg (by simp [hc])]
    rfl

/-- A round that takes a backslash, and what is escaped by it. -/
theorem run_literalWithin_backslash (text before : List Char) {before' cs rest : List Char}
    {d : Char} {left : Nat} (hlt : rest.length < left)
    (hescaped : escaped.run (.behind (before ++ ['\\']) cs) = some (d, .behind before' rest)) :
    (literalWithin text left).run (.behind before ('\\' :: cs)) =
      (literalWithin (text ++ [d]) rest.length).run (.behind before' rest) := by
  rw [literalWithin, run_bind_of_run (run_peek 0 before _)]
  dsimp only [List.getElem?_cons_zero]
  rw [if_neg (by decide), if_pos rfl, run_bind_of_run (run_advance before cs _),
    run_bind_of_run hescaped, run_remaining_bind hlt]

/-- A round that takes any other character than a quote. -/
theorem run_literalWithin_plain (text before : List Char) {c : Char} {cs : List Char} {left : Nat}
    (hlt : cs.length < left) (hquote : c ≠ '"') (hbackslash : c ≠ '\\') :
    (literalWithin text left).run (.behind before (c :: cs)) =
      (literalWithin (text ++ [c]) cs.length).run (.behind (before ++ [c]) cs) := by
  rw [literalWithin, run_bind_of_run (run_peek 0 before _)]
  dsimp only [List.getElem?_cons_zero]
  rw [if_neg hquote, if_neg hbackslash, run_bind_of_run (run_advance before cs c),
    run_remaining_bind hlt]

/-- A literal is taken up to its end, as long as the bound counts its characters. -/
theorem run_literalWithin (text before : List Char) {rest : List Char} {left : Nat}
    (hleft : rest.length ≤ left) : (literalWithin text left).run (.behind before rest) =
      some (literalKind text (Lexeme.literal rest).value,
        .behind (before ++ (Lexeme.literal rest).taken) (Lexeme.literal rest).rest) := by
  fun_induction Lexeme.literal rest generalizing text before left with
  | case1 =>
    rw [literalWithin, run_bind_of_run (run_peek 0 before []), List.append_nil]
    rfl
  | case2 cs =>
    rw [literalWithin, run_bind_of_run (run_peek 0 before _)]
    dsimp only [List.getElem?_cons_zero]
    rw [if_pos rfl, run_bind_of_run (run_advance before cs _), literalKind, List.append_nil]
    rfl
  | case3 cs ih =>
    rw [run_literalWithin_backslash text before (Nat.lt_of_succ_lt hleft)
      (run_escaped_of_special (.inl rfl) _ cs), ih _ _ (Nat.le_refl _)]
    simp [Lexeme.Literal.cons, literalKind_cons]
  | case4 cs ih =>
    rw [run_literalWithin_backslash text before (Nat.lt_of_succ_lt hleft)
      (run_escaped_of_special (.inr rfl) _ cs), ih _ _ (Nat.le_refl _)]
    simp [Lexeme.Literal.cons, literalKind_cons]
  | case5 c cs hquote hescaped hbackslash ih =>
    by_cases hc : c = '\\'
    · -- a backslash that escapes nothing
      have hplain : ∀ d ds, cs = d :: ds → d ≠ '"' ∧ d ≠ '\\' := by
        intro d ds hcs
        constructor
        · rintro rfl
          exact hescaped ds hc hcs
        · rintro rfl
          exact hbackslash ds hc hcs
      subst hc
      rw [run_literalWithin_backslash text before hleft (run_escaped_of_plain hplain _),
        ih _ _ (Nat.le_refl _)]
      simp [Lexeme.Literal.cons, literalKind_cons]
    · rw [run_literalWithin_plain text before hleft hquote hc, ih _ _ (Nat.le_refl _)]
      simp [Lexeme.Literal.cons, literalKind_cons]

/-- A string is taken up as one lexeme. -/
theorem run_string (before cs : List Char) :
    string.run (.behind before ('"' :: cs)) = some ((Lexeme.string cs).kind,
      .behind (before ++ '"' :: (Lexeme.string cs).taken) (Lexeme.string cs).rest) := by
  rw [string, run_bind_of_run (run_advance before cs _), run_withRest,
    run_literalWithin _ _ (Nat.le_refl _), List.append_assoc]
  rfl

/-! ## Numbers and words -/

/-- A minus sign, if there is one. -/
def minus (negative : Bool) : List Char :=
  if negative then ['-'] else []

/-- A minus in front of a digit is passed over. -/
theorem run_skipMinus (negative : Bool) (hc : c.isDigit = true) (before cs : List Char) :
    skipMinus.run (.behind before (minus negative ++ c :: cs)) =
      some ((), .behind (before ++ minus negative) (c :: cs)) := by
  rw [skipMinus, run_bind_of_run (run_peek 0 before _)]
  cases negative with
  | true => exact run_advance before (c :: cs) '-'
  | false =>
    have hno : ¬ some c = some '-' := by
      intro hminus
      obtain rfl := Option.some.inj hminus
      exact absurd hc (by decide)
    have hnone : minus false = [] := rfl
    rw [hnone, List.nil_append, List.append_nil, List.getElem?_cons_zero, if_neg hno]
    rfl

/-- A point is passed over with the digits behind it, and only with them. -/
theorem run_skipFraction (before rest : List Char) :
    skipFraction.run (.behind before rest) =
      some ((), .behind (before ++ pointed (Lexeme.fraction rest).1)
        (Lexeme.fraction rest).2) := by
  rw [skipFraction, run_bind_of_run (run_peek 0 before rest),
    run_bind_of_run (run_peek 1 before rest)]
  fun_cases Lexeme.fraction rest with
  | case1 d cs hd =>
    rw [if_pos ⟨rfl, hd⟩, run_bind_of_run (run_advance before _ _), run_skip,
      List.takeWhile_cons_of_pos hd, List.dropWhile_cons_of_pos hd, List.append_assoc]
    rfl
  | case2 d cs hd =>
    rw [if_neg (fun h => hd h.2), pointed, List.isEmpty_nil, if_pos rfl, List.append_nil]
    rfl
  | case3 _ hrest =>
    have hno : ¬ (rest[0]? = some '.' ∧ (rest[1]?.any Char.isDigit) = true) := by
      rintro ⟨hdot, hdigit⟩
      cases rest with
      | nil => cases hdot
      | cons c cs =>
        obtain rfl := Option.some.inj hdot
        cases cs with
        | nil => cases hdigit
        | cons d ds => exact hrest d ds rfl
    rw [if_neg hno, pointed, List.isEmpty_nil, if_pos rfl, List.append_nil]
    rfl

/-- What was passed over is cut out of the source. -/
theorem slice_behind {text rest : List Char} (hsource : source = before ++ (text ++ rest)) :
    slice (Position.start.after before).offset (Position.start.after (before ++ text)).offset
      source = some text := by
  rw [Position.offset_after_start, Position.offset_after_start, hsource, slice_append]

/-- A fraction has only digits. -/
theorem isDigit_fraction (cs : List Char) : ∀ d ∈ (Lexeme.fraction cs).1, d.isDigit = true := by
  fun_cases Lexeme.fraction cs with
  | case1 d cs hd =>
    rw [List.forall_mem_cons]
    exact ⟨hd, fun c hc => List.mem_takeWhile_imp hc⟩
  | case2 => exact List.forall_mem_nil _
  | case3 => exact List.forall_mem_nil _

/-- The sign of a number is read in front of its digits. -/
theorem ofText?_signed (negative : Bool) {c : Char} (hc : c.isDigit = true) (cs : List Char) :
    Number.ofText? (minus negative ++ c :: cs) = Number.unsigned? negative (c :: cs) := by
  cases negative with
  | true => rfl
  | false =>
    have hminus : c ≠ '-' := by
      rintro rfl
      exact absurd hc (by decide)
    have hplus : c ≠ '+' := by
      rintro rfl
      exact absurd hc (by decide)
    show Number.ofText? (c :: cs) = _
    rw [Number.ofText?_cons, if_neg hminus, if_neg hplus]

/-- The text of a number is read as the number that the token is. -/
theorem ofText?_number (negative : Bool) {c : Char} (hc : c.isDigit = true) (cs : List Char) :
    ∃ n, (Lexeme.number negative [c] cs).kind = .number n ∧
      Number.ofText? (minus negative ++ c :: (Lexeme.number negative [c] cs).taken) = some n := by
  have hwhole : ∀ d ∈ c :: cs.takeWhile Char.isDigit, d.isDigit = true :=
    List.forall_mem_cons.mpr ⟨hc, fun d hd => List.mem_takeWhile_imp hd⟩
  refine ⟨_, rfl, ?_⟩
  rw [ofText?_signed negative hc]
  exact Number.unsigned?_pointed negative (List.cons_ne_nil _ _) hwhole
    (isDigit_fraction (cs.dropWhile Char.isDigit))

/-- A number is taken up as one lexeme, and its text spells one. -/
theorem run_number (negative : Bool) {c : Char} {cs : List Char} (hc : c.isDigit = true)
    (hsource : source = before ++ (minus negative ++ c :: cs)) :
    (number source).run (.behind before (minus negative ++ c :: cs)) =
      some ((Lexeme.number negative [c] cs).kind,
        .behind (before ++ (minus negative ++ c :: (Lexeme.number negative [c] cs).taken))
          (Lexeme.number negative [c] cs).rest) := by
  obtain ⟨n, hkind, hvalue⟩ := ofText?_number negative hc cs
  have hdigits := run_skip Char.isDigit (before ++ minus negative) (c :: cs)
  rw [List.takeWhile_cons_of_pos hc, List.dropWhile_cons_of_pos hc] at hdigits
  have hfraction := run_skipFraction (before ++ minus negative ++ c :: cs.takeWhile Char.isDigit)
    (cs.dropWhile Char.isDigit)
  have htaken : before ++ minus negative ++ c :: cs.takeWhile Char.isDigit ++
      pointed (Lexeme.fraction (cs.dropWhile Char.isDigit)).1 =
        before ++ (minus negative ++ c :: (Lexeme.number negative [c] cs).taken) := by
    simp [Lexeme.number, pointed]
  rw [htaken] at hfraction
  -- sign, digits and fraction are passed over, and the text is cut out from the first to the last
  have hcut : source = before ++ (minus negative ++ c :: (Lexeme.number negative [c] cs).taken ++
      (Lexeme.number negative [c] cs).rest) := by
    rw [hsource, List.append_assoc, List.cons_append, Lexeme.number_taken_append_rest]
  rw [number, run_bind_of_run (run_place before _),
    run_bind_of_run (run_skipMinus negative hc before cs), run_bind_of_run hdigits,
    run_bind_of_run hfraction, run_bind_of_run (run_place _ _),
    run_bind_of_some (slice_behind hcut), run_bind_of_some hvalue, hkind]
  rfl

/-- What begins an identifier may also stand in it. -/
theorem isIdentifierChar_of_start {c : Char} (h : isIdentifierStart c = true) :
    isIdentifierChar c = true := by
  rw [isIdentifierStart, Bool.or_eq_true] at h
  rw [isIdentifierChar, isAlphanumeric]
  rcases h with h | h <;> simp [h]

/-- A word is taken up as one lexeme. -/
theorem run_word (hsource : source = before ++ c :: cs) (hc : isIdentifierChar c = true) :
    (word source).run (.behind before (c :: cs)) =
      some ((Lexeme.word c cs).kind, .behind (before ++ c :: (Lexeme.word c cs).taken)
        (Lexeme.word c cs).rest) := by
  have htaken := run_skip isIdentifierChar before (c :: cs)
  rw [List.takeWhile_cons_of_pos hc, List.dropWhile_cons_of_pos hc] at htaken
  have hcut : source = before ++
      (c :: cs.takeWhile isIdentifierChar ++ cs.dropWhile isIdentifierChar) := by
    rw [hsource, List.cons_append, List.takeWhile_append_dropWhile]
  rw [word, run_bind_of_run (run_place before _), run_bind_of_run htaken,
    run_bind_of_run (run_place _ _), run_bind_of_some (slice_behind hcut)]
  dsimp only [Lexeme.word]
  cases Keyword.ofWord? (String.ofList (c :: cs.takeWhile isIdentifierChar)) with
  | none => rfl
  | some k => rfl

/-- A first digit may be taken for one of those that follow. -/
theorem number_cons (negative : Bool) {d : Char} (hd : d.isDigit = true) (ds : List Char) :
    Lexeme.number negative [] (d :: ds) =
      ⟨(Lexeme.number negative [d] ds).kind, d :: (Lexeme.number negative [d] ds).taken,
        (Lexeme.number negative [d] ds).rest⟩ := by
  simp [Lexeme.number, List.takeWhile_cons_of_pos hd, List.dropWhile_cons_of_pos hd]

/-! ## Tokens -/

/-- The scanner takes up the token that begins with a character. -/
theorem run_kind (hsource : source = before ++ c :: cs) :
    (kind source c).run (.behind before (c :: cs)) =
      some ((Lexeme.ofText c cs).kind, .behind (before ++ c :: (Lexeme.ofText c cs).taken)
        (Lexeme.ofText c cs).rest) := by
  unfold kind Lexeme.ofText
  split
  · rw [run_bind_of_run (run_advance before cs c)]
    rfl
  split
  · rw [run_bind_of_run (run_advance before cs c)]
    rfl
  split
  · rw [run_bind_of_run (run_advance before cs c)]
    rfl
  split
  · next hquote =>
    rw [hquote]
    exact run_string before cs
  split
  · next hdigit => exact run_number false hdigit hsource
  rw [run_bind_of_run (run_peek 1 before _), List.getElem?_cons_succ]
  have hdigit : cs[0]?.any Char.isDigit = Lexeme.startsWithDigit cs := by
    cases cs <;> rfl
  rw [hdigit]
  split
  · -- a minus sign before a digit, which is the first of the number's digits
    next h =>
    obtain ⟨rfl, hfirst⟩ := h
    cases cs with
    | nil => cases hfirst
    | cons d ds =>
      rw [number_cons true hfirst]
      exact run_number true hfirst hsource
  split
  · next hstart => exact run_word hsource (isIdentifierChar_of_start hstart)
  · rw [run_bind_of_run (run_advance before cs c)]
    rfl

/-- What the scanner takes up next behind a beginning of a text. -/
theorem next?_behind (before : List Char) (hdrop : rest.dropWhile isWhite = c :: cs) :
    (Cursor.behind before rest).next? = some (⟨(Lexeme.ofText c cs).kind,
      c :: (Lexeme.ofText c cs).taken,
      .between (Position.start.after (before ++ rest.takeWhile isWhite)) (Position.start.after
        (before ++ rest.takeWhile isWhite ++ c :: (Lexeme.ofText c cs).taken))⟩,
      .behind (before ++ rest.takeWhile isWhite ++ c :: (Lexeme.ofText c cs).taken)
        (Lexeme.ofText c cs).rest) := by
  have hstands : (Cursor.behind before rest).StandsBehind before := rfl
  rw [Cursor.next?, hstands.place, Cursor.behind, hdrop, Cursor.behind,
    Position.after_append _ _ (c :: _)]

/-- The scanner takes up the next token. -/
theorem run_token {k : Cursor} (hk : k.StandsBehind before) (hsource : source = before ++ k.rest) :
    (token source).run k = some k.next := by
  obtain ⟨p, rest⟩ := k
  obtain rfl : p = Position.start.after before := hk
  rw [← Cursor.behind, token, run_bind_of_run (run_skip isWhite before rest),
    run_bind_of_run (run_place _ _), run_bind_of_run (run_peek 0 _ _), Cursor.next]
  cases hdrop : rest.dropWhile isWhite with
  | nil =>
    have hstands : (Cursor.behind before rest).StandsBehind before := rfl
    rw [Cursor.next?_of_white hdrop, hstands.place]
    rfl
  | cons c cs =>
    have hcut : source = before ++ rest.takeWhile isWhite ++ c :: cs := by
      rw [hsource, List.append_assoc, ← hdrop, List.takeWhile_append_dropWhile]
    have htext := Span.textIn_between (before ++ rest.takeWhile isWhite)
      (c :: (Lexeme.ofText c cs).taken) (Lexeme.ofText c cs).rest
    rw [List.cons_append, Lexeme.taken_append_rest, ← hcut] at htext
    dsimp only [List.getElem?_cons_zero]
    rw [run_bind_of_run (run_kind hcut), run_bind_of_run (run_place _ _), htext,
      next?_behind before hdrop]
    rfl

/-- The scanner takes up all tokens. -/
theorem run_tokensWithin (k : Cursor) (hk : k.StandsBehind before)
    (hsource : source = before ++ k.rest) {left : Nat} (hleft : k.rest.length ≤ left) :
    ∃ k', (tokensWithin source left).run k = some (k.tokens, k') := by
  induction k using Cursor.tokens.induct generalizing before left with
  | case1 k hnone =>
    have htoken := run_token hk hsource
    rw [Cursor.next, hnone] at htoken
    rw [tokensWithin, run_bind_of_run htoken, Cursor.tokens_of_next?_none hnone]
    exact ⟨_, rfl⟩
  | case2 k t k' hsome ih =>
    have htoken := run_token hk hsource
    rw [Cursor.next, hsome] at htoken
    obtain ⟨gap, c, cs, -, hrest, hkind, htext, -, hrest', hk'⟩ := Cursor.next?_eq_some hk hsome
    have hsource' : source = before ++ gap ++ t.text ++ k'.rest := by
      rw [hsource, hrest, htext, hrest', List.append_assoc _ _ (Lexeme.ofText c cs).rest,
        List.cons_append, Lexeme.taken_append_rest, List.append_assoc]
    have hend : t.kind ≠ .endOfInput := by
      rw [hkind]
      exact Lexeme.kind_ofText_ne_endOfInput c cs
    have hlt : k'.rest.length < left :=
      lt_of_lt_of_le (Cursor.length_rest_lt_of_next? hsome) hleft
    obtain ⟨k₁, htokens⟩ := ih hk' hsource' (Nat.le_refl _)
    rw [tokensWithin, run_bind_of_run htoken, if_neg hend, run_bind_of_run (run_remaining hlt),
      Cursor.tokens_of_next?_some hsome]
    dsimp only
    rw [run_bind_of_run htokens]
    exact ⟨k₁, rfl⟩

/-- From the start of a text the scanner takes up its tokens. Every cut is between two characters,
and every loop gets on. -/
theorem run_tokens (source : List Char) :
    ∃ k, (tokens source).run (.start source) = some (tokenize source, k) :=
  run_tokensWithin (.start source) (Cursor.standsBehind_start source) rfl (Nat.le_refl _)

end Scan

end GameCondition
