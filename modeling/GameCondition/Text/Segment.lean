/-! # Quoted and plain stretches

A text falls into string literals and the plain stretches between them. A backslash inside a
literal takes the character after it along, and a literal that is never closed reaches to the end
of the text. Nothing is lost: the texts of the segments are together the text
(`flatMap_text_segments`), and no two plain stretches are neighbours.
-/

namespace GameCondition

/-- A stretch of a text. The quotes of a literal belong to it. -/
inductive Segment where
  | plain (text : List Char)
  | quoted (text : List Char)
  deriving DecidableEq, Repr

namespace Segment

/-- The text of a segment. -/
def text : Segment → List Char
  | plain cs => cs
  | quoted cs => cs

/-- The text of a segment, rewritten unless it is quoted. -/
def rewritten (f : List Char → List Char) : Segment → List Char
  | plain cs => f cs
  | quoted cs => cs

end Segment

/-- Cuts a text behind the quote that closes the literal it is in. -/
def cutLiteral : List Char → List Char × List Char
  | [] => ([], [])
  | '"' :: cs => (['"'], cs)
  | '\\' :: c :: cs => ('\\' :: c :: (cutLiteral cs).1, (cutLiteral cs).2)
  | c :: cs => (c :: (cutLiteral cs).1, (cutLiteral cs).2)

theorem cutLiteral_append (cs : List Char) : (cutLiteral cs).1 ++ (cutLiteral cs).2 = cs := by
  fun_induction cutLiteral cs <;> simp_all

theorem length_cutLiteral_le (cs : List Char) : (cutLiteral cs).2.length ≤ cs.length := by
  have h := congrArg List.length (cutLiteral_append cs)
  rw [List.length_append] at h
  omega

/-- Puts a plain character in front of some segments. -/
def consPlain (c : Char) : List Segment → List Segment
  | .plain cs :: ss => .plain (c :: cs) :: ss
  | ss => .plain [c] :: ss

/-- The segments of a text. -/
def segments : List Char → List Segment
  | [] => []
  | c :: cs =>
    if c = '"' then .quoted ('"' :: (cutLiteral cs).1) :: segments (cutLiteral cs).2
    else consPlain c (segments cs)
termination_by cs => cs.length
decreasing_by
  · have := length_cutLiteral_le cs
    simp only [List.length_cons]
    omega
  · simp

theorem flatMap_text_consPlain (c : Char) (ss : List Segment) :
    (consPlain c ss).flatMap Segment.text = c :: ss.flatMap Segment.text := by
  unfold consPlain
  split <;> simp [Segment.text]

/-- The segments of a text are together the text. -/
theorem flatMap_text_segments (cs : List Char) : (segments cs).flatMap Segment.text = cs := by
  fun_induction segments cs with
  | case1 => rfl
  | case2 cs ih => simp [Segment.text, ih, cutLiteral_append]
  | case3 c cs _ ih => rw [flatMap_text_consPlain, ih]

/-- Rewrites the plain stretches of a text and keeps its literals. -/
def rewritePlain (f : List Char → List Char) (cs : List Char) : List Char :=
  (segments cs).flatMap (Segment.rewritten f)

end GameCondition
