import GameCondition.Text.Segment
import GameCondition.Token.Scanner

/-! # String literals

The scanner and the segments of a text agree on where a literal ends (`literal_eq_cutLiteral`),
and what a literal is does not depend on what follows it (`literal_append`).
-/

namespace GameCondition

namespace Lexeme

/-- A character that neither closes a literal nor begins an escape stands for itself. -/
theorem literal_cons {c : Char} {cs : List Char} (hquote : c ≠ '"')
    (hescape : ∀ d ds, c = '\\' → cs = d :: ds → d ≠ '"' ∧ d ≠ '\\') :
    literal (c :: cs) = (literal cs).cons c [c] := by
  rw [literal.eq_def]
  split
  · contradiction
  · next heq => exact absurd (List.cons.inj heq).1 hquote
  · next ds heq =>
    obtain ⟨hc, hcs⟩ := List.cons.inj heq
    exact absurd rfl (hescape _ ds hc hcs).1
  · next ds heq =>
    obtain ⟨hc, hcs⟩ := List.cons.inj heq
    exact absurd rfl (hescape _ ds hc hcs).2
  · next heq =>
    obtain ⟨rfl, rfl⟩ := List.cons.inj heq
    rfl

/-- A backslash takes the next character along, whether that is escaped or not. -/
theorem literal_backslash (c : Char) (cs : List Char) :
    (literal ('\\' :: c :: cs)).taken = '\\' :: c :: (literal cs).taken ∧
      (literal ('\\' :: c :: cs)).rest = (literal cs).rest := by
  by_cases hquote : c = '"'
  · subst hquote
    exact ⟨rfl, rfl⟩
  · by_cases hbackslash : c = '\\'
    · subst hbackslash
      exact ⟨rfl, rfl⟩
    · have hescape : ∀ d ds, '\\' = '\\' → c :: cs = d :: ds → d ≠ '"' ∧ d ≠ '\\' := by
        intro d ds _ heq
        rw [← (List.cons.inj heq).1]
        exact ⟨hquote, hbackslash⟩
      rw [literal_cons (by decide) hescape, literal_cons hquote fun _ _ h => absurd h hbackslash]
      exact ⟨rfl, rfl⟩

theorem literal_eq_cutLiteral (cs : List Char) :
    (literal cs).taken = (cutLiteral cs).1 ∧ (literal cs).rest = (cutLiteral cs).2 := by
  fun_induction cutLiteral cs with
  | case1 => exact ⟨rfl, rfl⟩
  | case2 cs => exact ⟨rfl, rfl⟩
  | case3 c cs ih =>
    obtain ⟨htaken, hrest⟩ := literal_backslash c cs
    exact ⟨by rw [htaken, ih.1], by rw [hrest, ih.2]⟩
  | case4 c cs hquote hbackslash ih =>
    have hescape : ∀ d ds, c = '\\' → cs = d :: ds → d ≠ '"' ∧ d ≠ '\\' := by
      intro d ds hc hcs
      exact absurd hcs (hbackslash d ds hc)
    rw [literal_cons hquote hescape]
    exact ⟨congrArg (c :: ·) ih.1, ih.2⟩

theorem ofText_quote (cs : List Char) : ofText '"' cs = string cs := by
  simp [ofText]

theorem taken_ofText_quote (cs : List Char) : (ofText '"' cs).taken = (cutLiteral cs).1 := by
  rw [ofText_quote, ← (literal_eq_cutLiteral cs).1]
  rfl

theorem rest_ofText_quote (cs : List Char) : (ofText '"' cs).rest = (cutLiteral cs).2 := by
  rw [ofText_quote, ← (literal_eq_cutLiteral cs).2]
  rfl

theorem head?_taken_literal (cs : List Char) : (literal cs).taken.head? = cs.head? := by
  fun_cases literal cs <;> rfl

/-- A literal that is closed may be followed by anything, and one that is not by nothing. -/
theorem literal_append {cs rest : List Char} (hrest : (literal cs).rest = [] → rest = []) :
    literal ((literal cs).taken ++ rest) = ⟨(literal cs).value, (literal cs).taken, rest⟩ := by
  fun_induction literal cs with
  | case1 =>
    rw [hrest rfl]
    rfl
  | case2 cs => rfl
  | case3 cs ih =>
    exact congrArg (Literal.cons '"' ['\\', '"']) (ih hrest)
  | case4 cs ih =>
    exact congrArg (Literal.cons '\\' ['\\', '\\']) (ih hrest)
  | case5 c cs hquote hescaped hbackslash ih =>
    -- a backslash that escapes nothing must not come to escape what is appended
    have hescape : ∀ d ds, c = '\\' → (literal cs).taken ++ rest = d :: ds → d ≠ '"' ∧ d ≠ '\\' := by
      intro d ds hc heq
      have hhead : ((literal cs).taken ++ rest).head? = some d := by rw [heq, List.head?_cons]
      cases hcs : cs with
      | nil =>
        subst hcs
        rw [hrest rfl] at heq
        cases heq
      | cons e es =>
        rw [List.head?_append, head?_taken_literal, hcs, List.head?_cons, Option.some_or] at hhead
        cases hhead
        refine ⟨?_, ?_⟩
        · rintro rfl
          exact hescaped es hc hcs
        · rintro rfl
          exact hbackslash es hc hcs
    exact (literal_cons hquote hescape).trans (congrArg (Literal.cons c [c]) (ih hrest))

/-- A literal is taken up alike whatever follows it. -/
theorem ofText_quote_append {cs rest : List Char} (hrest : (cutLiteral cs).2 = [] → rest = []) :
    ofText '"' ((cutLiteral cs).1 ++ rest) =
      ⟨(ofText '"' cs).kind, (cutLiteral cs).1, rest⟩ := by
  obtain ⟨htaken, hcut⟩ := literal_eq_cutLiteral cs
  rw [← hcut] at hrest
  rw [← htaken, ofText_quote, ofText_quote, string, literal_append hrest]
  rfl

end Lexeme

end GameCondition
