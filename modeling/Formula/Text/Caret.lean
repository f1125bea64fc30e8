import Formula.Text.Offset

set_option autoImplicit false

namespace Formula.Text

-- An offset inside a character pads by bytes, and a part that is none gets one caret.
def caretLine (expression : String) (start : Nat) (stop : Option Nat) : String :=
  let text := expression.toList
  let size := width text
  let start := min start size
  let stop := min (max (stop.getD start) start) size
  let pad := (charactersIn? start text).getD start
  let carets := max (((slice? start stop text).map List.length).getD 1) 1
  expression ++ "\n" ++ String.ofList (List.replicate pad ' ' ++ List.replicate carets '^')

end Formula.Text
