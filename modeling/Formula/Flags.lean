set_option autoImplicit false

namespace Formula

structure Flags where
  numeric : Bool
  decimal : Bool
  integer : Bool
  caseSensitive : Bool
deriving DecidableEq, Repr, Inhabited

namespace Flags

def empty : Flags := ⟨false, false, false, false⟩

def union (a b : Flags) : Flags :=
  ⟨a.numeric || b.numeric, a.decimal || b.decimal, a.integer || b.integer,
    a.caseSensitive || b.caseSensitive⟩

def difference (a b : Flags) : Flags :=
  ⟨a.numeric && !b.numeric, a.decimal && !b.decimal, a.integer && !b.integer,
    a.caseSensitive && !b.caseSensitive⟩

def contains (a b : Flags) : Bool :=
  (a.numeric || !b.numeric) && (a.decimal || !b.decimal) && (a.integer || !b.integer) &&
    (a.caseSensitive || !b.caseSensitive)

def names (flags : Flags) : List String :=
  (if flags.numeric then ["NUMERIC"] else []) ++ (if flags.decimal then ["DECIMAL"] else []) ++
    (if flags.integer then ["INTEGER"] else []) ++
    (if flags.caseSensitive then ["CASE_SENSITIVE"] else [])

def display (flags : Flags) : String :=
  if flags = empty then "EMPTY" else " | ".intercalate flags.names

end Flags

end Formula
