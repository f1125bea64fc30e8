import Formula.Expr

/-!
Expressions whose parts may be shared. A graph is a table of shapes whose children are positions of
earlier entries; the last entry is the root. The entries stand in the order in which a walk over the
root's children, left to right and each before its parent, meets them first.
-/

set_option autoImplicit false

namespace Formula

abbrev Cells (T σ : Type) := Array (Shape T σ Nat)

namespace Cells

variable {T σ α : Type}

-- What each entry is worth, each computed once. A position that names no earlier entry is worth
-- the fallback.
def values (layer : Shape T σ α → α) (fallback : α) (cells : Cells T σ) : Array α :=
  cells.foldl (fun known shape => known.push (layer (shape.map (known.getD · fallback)))) #[]

-- Equal nodes over one table: everything but the places agrees.
def alike [Numeric T] : Shape T σ Nat → Shape T σ Nat → Bool
  | .constant a _, .constant b _ => Numeric.same a b
  | .parameter i, .parameter j => i = j
  | .member a, .member b => a.identical b
  | .unary op a _, .unary op' b _ => op = op' && a = b
  | .binary op a b _, .binary op' c d _ => op = op' && a = c && b = d
  | .convert conversion a _, .convert conversion' b _ => conversion = conversion' && a = b
  | .call routine args _, .call routine' args' _ => routine.identical routine' && args = args'
  | .conditional a b c, .conditional d e f => a = d && b = e && c = f
  | _, _ => false

def find? [Numeric T] (cells : Cells T σ) (shape : Shape T σ Nat) : Option Nat :=
  cells.findIdx? (alike shape)

def intern [Numeric T] (cells : Cells T σ) (shape : Shape T σ Nat) : Cells T σ × Nat :=
  match cells.find? shape with
  | some index => (cells, index)
  | none => (cells.push shape, cells.size)

def internAll [Numeric T] (into cells : Cells T σ) : Cells T σ × Array Nat :=
  cells.foldl (fun (known, places) shape =>
    let (known, place) := known.intern (shape.map (places.getD · 0))
    (known, places.push place)) (into, #[])

def append (seen more : List Nat) : List Nat := seen ++ more.filter (· ∉ seen)

-- The entries below each entry and then the entry itself, in the order of the first visit.
def orders (cells : Cells T σ) : Array (List Nat) :=
  cells.foldl (fun known shape =>
    let below := shape.children.foldl (fun seen child => append seen (known.getD child [])) []
    known.push (below ++ [known.size])) #[]

def reachable (cells : Cells T σ) (root : Nat) : Cells T σ :=
  let order := cells.orders.getD root []
  (order.filterMap fun index =>
    cells[index]?.map fun shape => shape.map (order.idxOf ·)).toArray

end Cells

structure Graph (T σ : Type) where
  cells : Cells T σ

namespace Graph

variable {T σ α : Type}

def ofCells (cells : Cells T σ) (root : Nat) : Graph T σ := ⟨cells.reachable root⟩

def fold (layer : Shape T σ α → α) (fallback : α) (graph : Graph T σ) : α :=
  (graph.cells.values layer fallback).back?.getD fallback

-- The number of nodes of the tree, a shared one counted at each use.
def count (graph : Graph T σ) : Nat := graph.fold Shape.count 0

def render [Numeric T] (names : List String) (graph : Graph T σ) : String :=
  graph.fold (Shape.render names) ""

def run [Numeric T] (graph : Graph T σ) : Program T σ :=
  graph.fold Shape.run fun _ => throw (.malformed "the expression is empty")

def same [Numeric T] (a b : Graph T σ) : Bool :=
  let (known, places) := Cells.internAll #[] a.cells
  let (_, others) := Cells.internAll known b.cells
  places.back? = others.back?

end Graph

-- The state of writing a tree into a table: registered constants keep their one entry.
structure Listing (T σ : Type) where
  cells : Cells T σ
  named : List (String × Nat)

namespace Listing

variable {T σ : Type}

def push (listing : Listing T σ) (shape : Shape T σ Nat) : Listing T σ × Nat :=
  (⟨listing.cells.push shape, listing.named⟩, listing.cells.size)

def pushConstant (listing : Listing T σ) (value : T) : Option String → Listing T σ × Nat
  | none => listing.push (.constant value none)
  | some name =>
      match listing.named.lookup name with
      | some index => (listing, index)
      | none =>
          (⟨listing.cells.push (.constant value (some name)),
            (name, listing.cells.size) :: listing.named⟩, listing.cells.size)

mutual
def add (listing : Listing T σ) : Expr T σ → Listing T σ × Nat
  | .node (.constant value name) => listing.pushConstant value name
  | .node (.parameter index) => listing.push (.parameter index)
  | .node (.member source) => listing.push (.member source)
  | .node (.unary op operand span) =>
      let (listing, a) := listing.add operand
      listing.push (.unary op a span)
  | .node (.binary op left right span) =>
      let (listing, a) := listing.add left
      let (listing, b) := listing.add right
      listing.push (.binary op a b span)
  | .node (.convert conversion operand span) =>
      let (listing, a) := listing.add operand
      listing.push (.convert conversion a span)
  | .node (.call routine args span) =>
      let (listing, indices) := listing.addAll args
      listing.push (.call routine indices span)
  | .node (.conditional condition accepted rejected) =>
      let (listing, a) := listing.add condition
      let (listing, b) := listing.add accepted
      let (listing, c) := listing.add rejected
      listing.push (.conditional a b c)
def addAll (listing : Listing T σ) : List (Expr T σ) → Listing T σ × List Nat
  | [] => (listing, [])
  | arg :: rest =>
      let (listing, index) := listing.add arg
      let (listing, indices) := listing.addAll rest
      (listing, index :: indices)
end

end Listing

-- The graph of a tree shares nothing but registered constants.
def Graph.ofExpr {T σ : Type} (e : Expr T σ) : Graph T σ :=
  ⟨((⟨#[], []⟩ : Listing T σ).add e).1.cells⟩

end Formula
