set_option autoImplicit false

namespace Formula.Text

-- Boundaries alternate: the set starts at the first, stops before the second, and so on.
def inside (n : Nat) : List Nat → Bool
  | [] => false
  | [first] => decide (first ≤ n)
  | first :: stop :: rest =>
      if n < first then false else if n < stop then true else inside n rest

-- Every `step`-th code point from `first` to `last`, sent to `image` and on.
structure Run where
  first : Nat
  last : Nat
  step : Nat
  image : Nat

def Run.send? (run : Run) (n : Nat) : Option Nat :=
  if run.first ≤ n ∧ n ≤ run.last ∧ (n - run.first) % run.step = 0 then
    some (run.image + (n - run.first))
  else
    none

-- Runs are sorted by their first code point, so one that starts after `n` ends the search.
def image? (n : Nat) : List Run → Option Nat
  | [] => none
  | run :: rest => if n < run.first then none else (run.send? n).or (image? n rest)

end Formula.Text
