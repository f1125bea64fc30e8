import Formula.Text.Offset

set_option autoImplicit false

namespace Formula

-- The bytes from `start` up to, but not including, `stop` of an expression.
structure Span where
  start : Nat
  stop : Nat
deriving DecidableEq, Repr, Inhabited

namespace Span

def length (span : Span) : Nat := span.stop - span.start

def isEmpty (span : Span) : Bool := decide (span.stop ≤ span.start)

-- The text under the span, empty when the span is off a character boundary.
def slice (span : Span) (text : List Char) : String :=
  String.ofList ((Text.slice? span.start span.stop text).getD [])

def display (span : Span) : String :=
  if span.length ≤ 1 then s!"offset {span.start}" else s!"offsets {span.start}..{span.stop}"

end Span

end Formula
