import Formula.Error.Eval
import Formula.Proofs.Text

set_option autoImplicit false

namespace Formula

namespace Text

def marked (expression : String) (blanks carets : Nat) : String :=
  expression ++ "\n" ++ String.ofList (List.replicate blanks ' ' ++ List.replicate carets '^')

theorem caret_part (expression : String) (before piece after : List Char) (filled : piece ≠ [])
    (split : expression.toList = before ++ piece ++ after) :
    caretLine expression (width before) (some (width (before ++ piece))) = marked expression before.length piece.length := by
  have whole : width expression.toList = width before + width piece + width after := by simp [split, Nat.add_assoc]
  have ahead : width (before ++ piece) = width before + width piece := width_append before piece
  have first : min (width before) (width expression.toList) = width before := by omega
  have last : min (max (width (before ++ piece)) (width before)) (width expression.toList) = width (before ++ piece) := by omega
  have padded : charactersIn? (width before) expression.toList = some before.length := by
    rw [split, List.append_assoc]
    exact characters_in_width before (piece ++ after)
  have cut : slice? (width before) (width (before ++ piece)) expression.toList = some piece := by
    rw [split]
    exact slice_between before piece after
  have counted : max piece.length 1 = piece.length := Nat.max_eq_left (List.length_pos_iff.mpr filled)
  simp only [caretLine, marked, Option.getD_some, first, last, padded, cut, Option.map_some, counted]

theorem caret_end (expression : String) :
    caretLine expression (width expression.toList) none = marked expression expression.toList.length 1 := by
  have last : min (max (width expression.toList) (width expression.toList)) (width expression.toList) =
      width expression.toList := by omega
  have padded : charactersIn? (width expression.toList) expression.toList = some expression.toList.length := by
    simpa using characters_in_width expression.toList []
  have cut : slice? (width expression.toList) (width expression.toList) expression.toList = some [] := by
    simpa using slice_between expression.toList [] []
  simp only [caretLine, marked, Option.getD_none, Nat.min_self, last, padded, cut, Option.map_some, Option.getD_some]
  rfl

end Text

-- A span of at least one character of a text, and how that is shown.
structure Span.Marks (span : Span) (expression : String) (shown : String) : Prop where
  nonempty : span.start < span.stop
  bounded : span.stop ≤ Text.width expression.toList
  characters : ∃ before piece after, expression.toList = before ++ piece ++ after ∧ span.start = Text.width before ∧
    span.stop = Text.width (before ++ piece) ∧ shown = Text.marked expression before.length piece.length

theorem Span.marks_part (expression : String) (before piece after : List Char) (filled : piece ≠ [])
    (split : expression.toList = before ++ piece ++ after) :
    Span.Marks ⟨Text.width before, Text.width (before ++ piece)⟩ expression
      (Text.caretLine expression (Text.width before) (some (Text.width (before ++ piece)))) := by
  have wide := Text.width_pos piece filled
  have whole : Text.width expression.toList = Text.width before + Text.width piece + Text.width after := by simp [split, Nat.add_assoc]
  have ahead : Text.width (before ++ piece) = Text.width before + Text.width piece := Text.width_append before piece
  exact ⟨by simp only [ahead]; omega, by simp only [ahead]; omega,
    before, piece, after, split, rfl, rfl, Text.caret_part expression before piece after filled split⟩

end Formula
