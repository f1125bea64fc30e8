import Formula.Graph.Rewrite

/-!
Rewriting a graph bottom-up until a pass changes nothing. A pass also shares: whatever it makes is
looked up among the nodes it made before, and an equal one takes its place.
-/

set_option autoImplicit false

namespace Formula

structure PassReport where
  rewrites : Nat
  removed : Nat
  merged : Nat
deriving DecidableEq, Repr

structure OptimizeStats where
  passes : Nat
  removed : Nat
  merged : Nat
deriving DecidableEq, Repr

def OptimizeStats.ofReports (reports : List PassReport) : OptimizeStats :=
  reports.foldr (fun report stats =>
    ⟨stats.passes + 1, stats.removed + report.removed, stats.merged + report.merged⟩) ⟨0, 0, 0⟩

-- A pass under way. `places` tells where each entry of the old table went, `sizes` how many nodes
-- each entry of the new one unfolds to.
structure Pass (T σ : Type) where
  cells : Cells T σ
  sizes : Array Nat
  places : Array Nat
  report : PassReport

namespace Pass

variable {T σ : Type} [Numeric T]

def start : Pass T σ := ⟨#[], #[], #[], ⟨0, 0, 0⟩⟩

def sizeOf (pass : Pass T σ) (shape : Shape T σ Nat) : Nat :=
  (shape.map (pass.sizes.getD · 0)).count

def share (pass : Pass T σ) (shape : Shape T σ Nat) : Pass T σ :=
  match pass.cells.find? shape with
  | some index =>
      { pass with
        places := pass.places.push index
        report := { pass.report with merged := pass.report.merged + 1 } }
  | none =>
      { pass with
        cells := pass.cells.push shape
        sizes := pass.sizes.push (pass.sizeOf shape)
        places := pass.places.push pass.cells.size }

def countRewrite (pass : Pass T σ) (before after : Nat) : Pass T σ :=
  { pass with
    report :=
      { pass.report with
        rewrites := pass.report.rewrites + 1
        removed := pass.report.removed + (before - after) } }

def replace (pass : Pass T σ) (before : Nat) : Replacement T σ → Pass T σ
  | .existing index =>
      let pass := pass.countRewrite before (pass.sizes.getD index 0)
      { pass with places := pass.places.push index }
  | .fresh shape => (pass.countRewrite before (pass.sizeOf shape)).share shape

def step (pass : Pass T σ) (shape : Shape T σ Nat) : StateM σ (Pass T σ) := do
  let shape := shape.map (pass.places.getD · 0)
  match ← Rewrite.rewrite? pass.cells shape with
  | some replacement => return pass.replace (pass.sizeOf shape) replacement
  | none => return pass.share shape

end Pass

namespace Graph

variable {T σ : Type} [Numeric T]

def pass (graph : Graph T σ) : StateM σ (Graph T σ × PassReport) := do
  let done ← graph.cells.foldlM Pass.step Pass.start
  return (ofCells done.cells (done.places.back?.getD 0), done.report)

def optimizeWithin : Nat → Graph T σ → StateM σ (Graph T σ × List PassReport)
  | 0, graph => return (graph, [])
  | fuel + 1, graph => do
      let (next, report) ← graph.pass
      if report.rewrites = 0 then
        return (next, [report])
      else
        let (final, reports) ← optimizeWithin fuel next
        return (final, report :: reports)

-- Constants weigh one and other nodes two, so every rule makes the tree lighter.
def optimize (graph : Graph T σ) : StateM σ (Graph T σ × List PassReport) :=
  graph.optimizeWithin (2 * graph.count + 1)

end Graph

end Formula
