import Formula.Proofs.Graph.Stable

set_option autoImplicit false

namespace Formula

variable {T σ ι κ : Type}

def Shape.name? : Shape T σ ι → Option String
  | .constant _ name => name
  | .member source => some source.name
  | .call routine _ _ => some routine.name
  | _ => none

structure Shape.Bare (shape : Shape T σ ι) : Prop where
  unnamed : shape.name? = none
  input : ∀ index, shape ≠ .parameter index

theorem Shape.name_map (f : ι → κ) (shape : Shape T σ ι) : (shape.map f).name? = shape.name? := by
  cases shape <;> rfl

section

variable (spell : String → String)

def Routine.respelled (routine : Routine T σ) : Routine T σ := { routine with name := spell routine.name }

def Member.respelled (m : Member T σ) : Member T σ := { m with name := spell m.name }

end

-- What names and inputs are called otherwise.
structure Labels where
  name : String → String
  slot : Nat → Nat

section

variable (labels : Labels)

def Shape.relabelled : Shape T σ ι → Shape T σ ι
  | .constant value name => .constant value (name.map labels.name)
  | .parameter index => .parameter (labels.slot index)
  | .member source => .member (source.respelled labels.name)
  | .call routine args span => .call (routine.respelled labels.name) args span
  | shape => shape

def Expr.relabelled : Expr T σ → Expr T σ := Expr.fold fun shape => .node (shape.relabelled labels)

def Cells.relabelled (cells : Cells T σ) : Cells T σ := cells.map (Shape.relabelled labels)

def Graph.relabelled (graph : Graph T σ) : Graph T σ := ⟨graph.cells.relabelled labels⟩

namespace Shape

theorem relabelled_map (f : ι → κ) (shape : Shape T σ ι) : (shape.map f).relabelled labels = (shape.relabelled labels).map f := by
  cases shape <;> rfl

theorem relabelled_outline (shape : Shape T σ ι) : (shape.relabelled labels).outline = shape.outline.relabelled labels :=
  (relabelled_map labels _ shape).symm

theorem relabelled_children (shape : Shape T σ ι) : (shape.relabelled labels).children = shape.children := by
  cases shape <;> rfl

theorem relabelled_count (shape : Shape T σ Nat) : (shape.relabelled labels).count = shape.count := by
  rw [count, count, relabelled_children]

theorem relabelled_bare (shape : Shape T σ ι) (bare : shape.Bare) : shape.relabelled labels = shape := by
  cases shape with
  | parameter index => exact absurd rfl (bare.input index)
  | constant value name =>
      obtain rfl : name = none := bare.unnamed
      rfl
  | member source => exact absurd bare.unnamed (by simp [name?])
  | call routine args span => exact absurd bare.unnamed (by simp [name?])
  | _ => rfl

theorem outline_children (a b : Shape T σ ι) (outline : a.outline = b.outline) (children : a.children = b.children) :
    a = b := by
  cases a <;> cases b <;> simp_all [Shape.outline, Shape.map, Shape.children]

end Shape

theorem Expr.relabelled_node (shape : Shape T σ (Expr T σ)) :
    (Expr.node shape).relabelled labels = .node ((shape.map (Expr.relabelled labels)).relabelled labels) :=
  Expr.fold_node _ shape

namespace Cells

theorem relabelled_empty : Cells.relabelled labels (#[] : Cells T σ) = #[] := Array.map_empty

theorem relabelled_push (cells : Cells T σ) (shape : Shape T σ Nat) :
    Cells.relabelled labels (cells.push shape) = (cells.relabelled labels).push (shape.relabelled labels) :=
  Array.map_push

theorem relabelled_read (cells : Cells T σ) (index : Nat) :
    (cells.relabelled labels)[index]? = cells[index]?.map (Shape.relabelled labels) :=
  Array.getElem?_map

theorem relabelled_size (cells : Cells T σ) : (cells.relabelled labels).size = cells.size := Array.size_map

theorem relabelled_orders (cells : Cells T σ) : (cells.relabelled labels).orders = cells.orders := by
  unfold orders relabelled
  simp only [Array.foldl_map, Shape.relabelled_children]

theorem relabelled_reachable (cells : Cells T σ) (root : Nat) :
    (cells.relabelled labels).reachable root = Cells.relabelled labels (cells.reachable root) := by
  unfold reachable
  simp only [relabelled_orders, relabelled_read]
  unfold relabelled
  simp only [List.map_toArray, List.map_filterMap, Option.map_map]
  congr 2
  funext index
  congr 1
  funext shape
  exact (Shape.relabelled_map labels _ shape).symm

theorem relabelled_constant (cells : Cells T σ) (index : Nat) :
    (cells.relabelled labels).constantAt? index = cells.constantAt? index := by
  rw [constantAt?, constantAt?, relabelled_read]
  cases cells[index]? with
  | none => rfl
  | some shape => cases shape <;> rfl

theorem relabelled_values {α : Type} (layer : Shape T σ α → α) (fallback : α) (cells : Cells T σ) :
    (cells.relabelled labels).values layer fallback = cells.values (fun shape => layer (shape.relabelled labels)) fallback := by
  unfold values relabelled
  simp only [Array.foldl_map, ← Shape.relabelled_map]

end Cells

theorem Graph.relabelled_fold {α : Type} (layer : Shape T σ α → α) (fallback : α) (graph : Graph T σ) :
    (graph.relabelled labels).fold layer fallback = graph.fold (fun shape => layer (shape.relabelled labels)) fallback := by
  rw [fold, fold, relabelled, Cells.relabelled_values]

theorem Graph.relabelled_count (graph : Graph T σ) : (graph.relabelled labels).count = graph.count := by
  rw [count, relabelled_fold, count, funext (Shape.relabelled_count labels)]

section

variable [Numeric T]

theorem Rewrite.relabelled_rewrite (cells : Cells T σ) (shape : Shape T σ Nat) :
    rewrite? (cells.relabelled labels) (shape.relabelled labels) = rewrite? cells shape := by
  have constant := Cells.relabelled_constant labels cells
  cases shape with
  | member source =>
      obtain ⟨name, source, tag⟩ := source
      cases source <;> rfl
  | unary op operand span => simp only [Shape.relabelled, rewrite?, constant]
  | binary op left right span => simp only [Shape.relabelled, rewrite?, constant]
  | convert conversion operand span => simp only [Shape.relabelled, rewrite?, constant]
  | call routine args span =>
      have constants : constants? (cells.relabelled labels) args = constants? cells args := by
        unfold constants?
        rw [funext constant]
      have called (values : List T) : folding ((routine.respelled labels.name).call values) = folding (routine.call values) := by
        unfold Routine.call
        by_cases counted : values.length = routine.arity
        · rw [if_pos counted, if_pos (show values.length = (routine.respelled labels.name).arity from counted)]
          rfl
        · rw [if_neg counted, if_neg (show ¬ values.length = (routine.respelled labels.name).arity from counted)]
          rfl
      simp only [Shape.relabelled, rewrite?, constants, called]
      rfl
  | conditional condition accepted rejected => simp only [Shape.relabelled, rewrite?, constant]
  | _ => rfl

end

end

def Apart (spell : String → String) (known : String → Prop) : Prop :=
  ∀ a b, known a → known b → spell a = spell b → a = b

structure Labels.Distinct (labels : Labels) (known : String → Prop) : Prop where
  names : Apart labels.name known
  slots : Function.Injective labels.slot

def Shape.Named (known : String → Prop) (shape : Shape T σ ι) : Prop := ∀ name, shape.name? = some name → known name

theorem Expr.every_named (e : Expr T σ) : e.Every (Shape.Named fun _ => True) := by
  induction e using Expr.induction_on_children with
  | step shape ih => exact .node shape (fun _ _ => trivial) ih

theorem Shape.named_outline (known : String → Prop) (shape : Shape T σ ι) (named : shape.outline.Named known) :
    shape.Named known :=
  fun name here => named name ((Shape.name_map _ shape).trans here)

section

variable (labels : Labels) (known : String → Prop) (distinct : labels.Distinct known)

include distinct

namespace Cells

variable [Numeric T]

theorem relabelled_alike (a b : Shape T σ Nat) (namedA : a.Named known) (namedB : b.Named known) :
    alike (a.relabelled labels) (b.relabelled labels) = alike a b := by
  have same (x y : String) (knownX : known x) (knownY : known y) : decide (labels.name x = labels.name y) = decide (x = y) := by
    rw [decide_eq_decide]
    exact ⟨distinct.names x y knownX knownY, congrArg labels.name⟩
  cases a with
  | parameter index =>
      cases b with
      | parameter other =>
          simp only [Shape.relabelled, alike, distinct.slots.eq_iff]
      | _ => rfl
  | call routine args span =>
      cases b with
      | call other others place =>
          simp only [Shape.relabelled, alike, Routine.identical, Routine.respelled,
            same routine.name other.name (namedA _ rfl) (namedB _ rfl)]
      | _ => rfl
  | member source =>
      cases b with
      | member other =>
          simp only [Shape.relabelled, alike, Member.identical, Member.respelled,
            same source.name other.name (namedA _ rfl) (namedB _ rfl)]
          rfl
      | _ => rfl
  | _ => cases b <;> rfl

theorem relabelled_find (cells : Cells T σ) (shape : Shape T σ Nat) (every : cells.Every (Shape.Named known))
    (named : shape.Named known) : (cells.relabelled labels).find? (shape.relabelled labels) = cells.find? shape := by
  induction cells using push_induction with
  | empty => simp [find?, relabelled]
  | push cells fresh ih =>
      have older := ih fun index entry read =>
        every index entry ((read_push_old cells index fresh (read_bound cells index entry read)).trans read)
      have last := Shape.named_outline known fresh (every cells.size fresh Array.getElem?_push_size)
      unfold find? at older ⊢
      rw [relabelled_push, Array.findIdx?_push, Array.findIdx?_push, older, relabelled_size,
        relabelled_alike labels known distinct shape fresh named last]

end Cells

end

section

variable [Numeric T]

theorem Rewrite.rule_bare (cells : Cells T σ) (host : σ) (shape fresh : Shape T σ Nat)
    (rule : Rule cells host shape (.fresh fresh)) : fresh.Bare := by
  generalize target : (Replacement.fresh fresh : Replacement T σ) = replacement at rule
  cases rule with
  | left op left right span a effect leftKnown rightOpen identity =>
      cases effect with
      | operand | constant => simp [Effect.place] at target
      | negated =>
          obtain rfl := Replacement.fresh.inj target
          exact ⟨rfl, by simp⟩
  | right op left right span b effect leftOpen rightKnown identity =>
      cases effect with
      | operand | constant => simp [Effect.place] at target
      | negated =>
          obtain rfl := Replacement.fresh.inj target
          exact ⟨rfl, by simp⟩
  | noop conversion operand span noop => simp at target
  | conditional condition accepted rejected a known => simp at target
  | _ =>
      obtain rfl := Replacement.fresh.inj target
      exact ⟨rfl, by simp⟩

theorem Rewrite.keeps_named (known : String → Prop) : Rewrite.Keeps (Shape.Named known : Shape T σ Unit → Prop) := by
  intro cells host shape fresh rule _ name named
  rw [Shape.outline, Shape.name_map, (rule_bare cells host shape fresh rule).unnamed] at named
  exact absurd named (by simp)

end

namespace Pass

variable [Numeric T]

theorem carry_run (pass : Pass T σ) (shape : Shape T σ Nat) (host : σ) :
    pass.carry shape host =
      let outcome := (Rewrite.rewrite? pass.cells (shape.map pass.placeOf)).run host
      (match outcome.1 with
        | some replacement => pass.replace (pass.sizeOf (shape.map pass.placeOf)) replacement
        | none => pass.share (shape.map pass.placeOf), outcome.2) := by
  unfold carry step
  simp only [StateT.run_bind]
  delta placeOf
  generalize (Rewrite.rewrite? pass.cells (shape.map fun child => pass.places.getD child 0)).run host = outcome
  obtain ⟨decision, after⟩ := outcome
  cases decision <;> rfl

def relabelled (labels : Labels) (pass : Pass T σ) : Pass T σ := { pass with cells := pass.cells.relabelled labels }

variable (labels : Labels) (known : String → Prop) (distinct : labels.Distinct known)

omit [Numeric T] in
theorem relabelled_size (pass : Pass T σ) (shape : Shape T σ Nat) :
    (pass.relabelled labels).sizeOf (shape.relabelled labels) = pass.sizeOf shape := by
  rw [sizeOf, sizeOf, ← Shape.relabelled_map, Shape.relabelled_count]
  rfl

include distinct

theorem relabelled_share (pass : Pass T σ) (shape : Shape T σ Nat) (every : pass.cells.Every (Shape.Named known))
    (named : shape.Named known) :
    (pass.relabelled labels).share (shape.relabelled labels) = (pass.share shape).relabelled labels := by
  have found : (pass.relabelled labels).cells.find? (shape.relabelled labels) = pass.cells.find? shape :=
    Cells.relabelled_find labels known distinct pass.cells shape every named
  have size := pass.relabelled_size labels shape
  have length : (pass.relabelled labels).cells.size = pass.cells.size := Cells.relabelled_size labels pass.cells
  rw [share, share, found]
  cases pass.cells.find? shape with
  | some index => rfl
  | none =>
      simp only [size, length]
      simp only [relabelled, Cells.relabelled_push]

theorem relabelled_replace (pass : Pass T σ) (before : Nat) (replacement : Replacement T σ)
    (every : pass.cells.Every (Shape.Named known)) (bare : ∀ shape, replacement = .fresh shape → shape.Bare) :
    (pass.relabelled labels).replace before replacement = (pass.replace before replacement).relabelled labels := by
  cases replacement with
  | existing index => rfl
  | fresh shape =>
      have same := shape.relabelled_bare labels (bare shape rfl)
      have named : shape.Named known := fun name here => absurd ((bare shape rfl).unnamed.symm.trans here) (by simp)
      have size := pass.relabelled_size labels shape
      rw [same] at size
      have shared := relabelled_share labels known distinct (pass.countRewrite before (pass.sizeOf shape)) shape every named
      rw [same] at shared
      rw [replace, replace, size, ← shared]
      rfl

theorem relabelled_carry (pass : Pass T σ) (shape : Shape T σ Nat) (host : σ) (every : pass.cells.Every (Shape.Named known))
    (named : shape.Named known) :
    (pass.relabelled labels).carry (shape.relabelled labels) host =
      ((pass.carry shape host).1.relabelled labels, (pass.carry shape host).2) := by
  have moved : (shape.relabelled labels).map (pass.relabelled labels).placeOf = (shape.map pass.placeOf).relabelled labels :=
    (Shape.relabelled_map labels pass.placeOf shape).symm
  have here : (shape.map pass.placeOf).Named known := fun name read => named name ((Shape.name_map _ shape).symm.trans read)
  have decided : Rewrite.rewrite? (pass.relabelled labels).cells ((shape.map pass.placeOf).relabelled labels) = _ :=
    Rewrite.relabelled_rewrite labels pass.cells (shape.map pass.placeOf)
  have fresh := Rewrite.decided_rule pass.cells host (shape.map pass.placeOf)
  unfold Rewrite.decided at fresh
  rw [carry_run, carry_run, moved, decided]
  generalize (Rewrite.rewrite? pass.cells (shape.map pass.placeOf)).run host = outcome at fresh ⊢
  obtain ⟨decision, after⟩ := outcome
  cases decision with
  | none => exact congrArg (·, after) (relabelled_share labels known distinct pass _ every here)
  | some replacement =>
      have bare : ∀ shape, replacement = .fresh shape → shape.Bare := by
        rintro node rfl
        exact Rewrite.rule_bare _ _ _ node (fresh _ rfl)
      simp only [relabelled_size]
      exact congrArg (·, after) (relabelled_replace labels known distinct pass _ replacement every bare)

theorem relabelled_carry_all (cells : Cells T σ) (host : σ) (earlier : cells.Earlier)
    (every : cells.Every (Shape.Named known)) :
    carryAll (cells.relabelled labels) host = ((carryAll cells host).1.relabelled labels, (carryAll cells host).2) := by
  induction cells using Cells.push_induction with
  | empty =>
      have blank : (start : Pass T σ).relabelled labels = start := by
        rw [relabelled, start, Cells.relabelled_empty]
      rw [Cells.relabelled_empty]
      exact congrArg (·, host) blank.symm
  | push cells fresh ih =>
      obtain ⟨before, -⟩ := Cells.earlier_of_push cells fresh earlier
      have older : cells.Every (Shape.Named known) := fun index shape read =>
        every index shape ((Cells.read_push_old cells index fresh (Cells.read_bound cells index shape read)).trans read)
      have kept := carry_all_kept _ (Rewrite.keeps_named known) cells host before older
      have named := Shape.named_outline known fresh (every cells.size fresh Array.getElem?_push_size)
      rw [Cells.relabelled_push, carry_all_push, carry_all_push, ih before older]
      exact relabelled_carry labels known distinct _ fresh _ kept.every named

end Pass

namespace Graph

theorem pass_run [Numeric T] (graph : Graph T σ) (host : σ) :
    graph.pass.run host =
      let done := Pass.carryAll graph.cells host
      ((ofCells done.1.cells (done.1.places.back?.getD 0), done.1.report), done.2) := rfl

variable [Numeric T] (labels : Labels) (known : String → Prop) (distinct : labels.Distinct known)

include distinct

theorem relabelled_pass (graph : Graph T σ) (host : σ) (uniform : graph.Uniform (Shape.Named known)) :
    (graph.relabelled labels).pass.run host =
      (((graph.passed host).1.relabelled labels, (graph.passed host).2), (graph.pass.run host).2) := by
  have carried := Pass.relabelled_carry_all labels known distinct graph.cells host uniform.earlier uniform.every
  have reached := Cells.relabelled_reachable labels (Pass.carryAll graph.cells host).1.cells
  rw [passed, pass_run, pass_run, relabelled, carried]
  simp only [ofCells, Pass.relabelled, reached, relabelled]

theorem relabelled_optimize_within (fuel : Nat) (graph : Graph T σ) (host : σ)
    (uniform : graph.Uniform (Shape.Named known)) :
    ((graph.relabelled labels).optimizeWithin fuel).run host =
      ((((graph.optimizeWithin fuel).run host).1.1.relabelled labels, ((graph.optimizeWithin fuel).run host).1.2),
        ((graph.optimizeWithin fuel).run host).2) := by
  induction fuel generalizing graph host with
  | zero => rfl
  | succ fuel ih =>
      have first := relabelled_pass labels known distinct graph host uniform
      have later := ih (graph.passed host).1 (graph.pass.run host).2
        (passed_uniform _ (Rewrite.keeps_named known) graph host uniform)
      unfold passed at first later
      rw [optimize_within_run, optimize_within_run, first]
      simp only [later]
      split <;> rfl

theorem relabelled_optimize (graph : Graph T σ) (host : σ) (uniform : graph.Uniform (Shape.Named known)) :
    (graph.relabelled labels).optimize.run host =
      (((graph.optimize.run host).1.1.relabelled labels, (graph.optimize.run host).1.2), (graph.optimize.run host).2) := by
  rw [optimize, relabelled_count]
  exact relabelled_optimize_within labels known distinct _ graph host uniform

end Graph

namespace Listing

variable (labels : Labels)

def relabelled (listing : Listing T σ) : Listing T σ :=
  ⟨listing.cells.relabelled labels, listing.named.map fun (name, index) => (labels.name name, index)⟩

variable (known : String → Prop)

theorem add_all_length (listing : Listing T σ) (args : List (Expr T σ)) : (listing.addAll args).2.length = args.length := by
  induction args generalizing listing with
  | nil => rfl
  | cons arg rest ih => exact congrArg Nat.succ (ih _)

structure Relabelled (listing : Listing T σ) (e : Expr T σ) : Prop where
  written : (listing.relabelled labels).add (e.relabelled labels) = ((listing.add e).1.relabelled labels, (listing.add e).2)
  named : ∀ entry ∈ (listing.add e).1.named, known entry.1

theorem relabelled_all (args : List (Expr T σ))
    (each : ∀ arg ∈ args, ∀ listing : Listing T σ, (∀ entry ∈ listing.named, known entry.1) →
      Relabelled labels known listing arg)
    (listing : Listing T σ) (named : ∀ entry ∈ listing.named, known entry.1) :
    (listing.relabelled labels).addAll (args.map (Expr.relabelled labels)) =
        ((listing.addAll args).1.relabelled labels, (listing.addAll args).2) ∧
      ∀ entry ∈ (listing.addAll args).1.named, known entry.1 := by
  induction args generalizing listing with
  | nil => exact ⟨rfl, named⟩
  | cons arg rest ih =>
      have first := each arg (by simp) listing named
      obtain ⟨written, later⟩ := ih (fun other member => each other (by simp [member])) (listing.add arg).1 first.named
      refine ⟨?_, later⟩
      rw [List.map_cons, addAll, first.written]
      simp only [written]
      rfl

variable (distinct : labels.Distinct known)

include distinct

theorem relabelled_lookup (named : List (String × Nat)) (each : ∀ entry ∈ named, known entry.1) (name : String)
    (here : known name) : (named.map fun (name, index) => (labels.name name, index)).lookup (labels.name name) = named.lookup name := by
  induction named with
  | nil => rfl
  | cons entry rest ih =>
      obtain ⟨other, index⟩ := entry
      rw [List.map_cons, List.lookup_cons, List.lookup_cons, ih fun entry member => each entry (List.mem_cons_of_mem _ member)]
      by_cases same : name = other
      · rw [same, beq_self_eq_true, beq_self_eq_true]
      · have different : labels.name name ≠ labels.name other :=
          fun equal => same (distinct.names _ _ here (each (other, index) (by simp)) equal)
        rw [beq_false_of_ne same, beq_false_of_ne different]

theorem relabelled_constant (listing : Listing T σ) (value : T) (name : Option String)
    (here : (.constant value name : Shape T σ (Expr T σ)).Named known) (named : ∀ entry ∈ listing.named, known entry.1) :
    Relabelled labels known listing (.node (.constant value name)) := by
  cases name with
  | none =>
      refine ⟨?_, named⟩
      change (listing.relabelled labels).push (.constant value none) = ((listing.push (.constant value none)).1.relabelled labels, _)
      rw [push, push]
      simp only [relabelled, Cells.relabelled_push, Cells.relabelled_size]
      rfl
  | some name =>
      have lookup := relabelled_lookup labels known distinct listing.named named name (here name rfl)
      have looked : (listing.relabelled labels).named.lookup (labels.name name) = listing.named.lookup name := lookup
      change Relabelled labels known listing _
      constructor
      · change (listing.relabelled labels).pushConstant value (some (labels.name name)) =
          ((listing.pushConstant value (some name)).1.relabelled labels, (listing.pushConstant value (some name)).2)
        rw [pushConstant, pushConstant, looked]
        cases listing.named.lookup name with
        | some index => rfl
        | none =>
            simp only [relabelled, Cells.relabelled_push, Cells.relabelled_size, List.map_cons]
            rfl
      · change ∀ entry ∈ (listing.pushConstant value (some name)).1.named, known entry.1
        rw [pushConstant]
        cases listing.named.lookup name with
        | some index => exact named
        | none => exact List.forall_mem_cons.mpr ⟨here name rfl, named⟩

theorem relabelled_add (e : Expr T σ) (every : e.Every (Shape.Named known)) (listing : Listing T σ)
    (named : ∀ entry ∈ listing.named, known entry.1) : Relabelled labels known listing e := by
  induction e using Expr.induction_on_children generalizing listing with
  | step shape ih =>
      obtain ⟨_, here, below⟩ := every
      by_cases constant : ∃ value name, shape = .constant value name
      · obtain ⟨value, name, rfl⟩ := constant
        exact relabelled_constant labels known distinct listing value name here named
      · have other : ∀ value name, shape ≠ .constant value name := fun value name same => constant ⟨value, name, same⟩
        obtain ⟨placed, added, children, -, same⟩ := add_node listing shape other
        obtain ⟨written, later⟩ := relabelled_all labels known shape.children (fun arg member => ih arg member (below arg member))
          listing named
        have otherwise : ∀ value name, (shape.map (Expr.relabelled labels)).relabelled labels ≠ .constant value name := by
          intro value name
          cases shape <;> simp_all [Shape.map, Shape.relabelled]
        obtain ⟨moved, addedMoved, childrenMoved, -, sameMoved⟩ := add_node (listing.relabelled labels) _ otherwise
        have below : ((shape.map (Expr.relabelled labels)).relabelled labels).children = shape.children.map (Expr.relabelled labels) := by
          rw [Shape.relabelled_children, Shape.children_map]
        rw [below, written] at addedMoved childrenMoved sameMoved
        have counted : (listing.addAll shape.children).2.map (fun _ => ()) = shape.children.map fun _ => () := by
          simp [add_all_length]
        have one : moved = placed.relabelled labels := by
          apply Shape.outline_children
          · have outline := sameMoved Unit (fun _ => ()) (fun _ => ()) (by rw [counted, List.map_map])
            change moved.outline = ((shape.map (Expr.relabelled labels)).relabelled labels).outline at outline
            have plain : placed.outline = shape.outline := same Unit _ _ counted
            rw [outline, Shape.relabelled_outline, Shape.relabelled_outline, Shape.outline_map, plain]
          · rw [childrenMoved, Shape.relabelled_children, children]
        refine ⟨?_, by rw [added]; exact later⟩
        rw [Expr.relabelled_node, addedMoved, added, one, push, push]
        simp only [relabelled, Cells.relabelled_push, Cells.relabelled_size]

end Listing

namespace Graph

variable (labels : Labels) (known : String → Prop) (distinct : labels.Distinct known)

include distinct

theorem relabelled_of_expr (e : Expr T σ) (every : e.Every (Shape.Named known)) :
    ofExpr (e.relabelled labels) = (ofExpr e).relabelled labels := by
  have written := (Listing.relabelled_add labels known distinct e every ⟨#[], []⟩ (by simp)).written
  have blank : (⟨#[], []⟩ : Listing T σ).relabelled labels = ⟨#[], []⟩ := by
    rw [Listing.relabelled, Cells.relabelled_empty]
    rfl
  rw [blank] at written
  rw [ofExpr, ofExpr, written]
  rfl

omit distinct in
theorem of_expr_named (e : Expr T σ) (every : e.Every (Shape.Named known)) :
    (ofExpr e).Uniform (Shape.Named known) :=
  of_expr_uniform _ e (e.every_imp _ _ (fun shape here name named => here name ((Shape.name_map _ shape).symm.trans named))
    every)

end Graph

structure Labels.Moves (labels : Labels) (inputs moved : List T) : Prop where
  named : labels.name = id
  reads : ∀ index, moved[labels.slot index]? = inputs[index]?
  still : ∀ index, inputs[index]? = none → labels.slot index = index

section

variable [Numeric T] (labels : Labels) (inputs moved : List T) (moves : labels.Moves inputs moved)

omit [Numeric T] in
theorem Shape.run_all_same (args : List ι) (f g : ι → Program T σ) (same : ∀ arg ∈ args, f arg moved = g arg inputs) :
    runAll moved (args.map f) = runAll inputs (args.map g) := by
  induction args with
  | nil => rfl
  | cons arg rest ih =>
      obtain ⟨first, later⟩ := List.forall_mem_cons.mp same
      rw [List.map_cons, List.map_cons, runAll, runAll, first, ih later]

include moves

theorem Shape.relabelled_run (shape : Shape T σ ι) (f g : ι → Program T σ)
    (same : ∀ child ∈ shape.children, f child moved = g child inputs) :
    ((shape.map f).relabelled labels).run moved = (shape.map g).run inputs := by
  have named := moves.named
  cases shape with
  | constant value name => rfl
  | parameter index =>
      have read := moves.reads index
      simp only [map, relabelled, run, read]
      cases found : inputs[index]? with
      | some value => rfl
      | none => rw [moves.still index found]
  | member source => simp only [map, relabelled, run, Member.respelled, named, id]
  | unary op operand span => simp only [map, relabelled, run, same operand (by simp [children])]
  | binary op left right span =>
      simp only [map, relabelled, run, same left (by simp [children]), same right (by simp [children])]
  | convert conversion operand span => simp only [map, relabelled, run, same operand (by simp [children])]
  | call routine args span =>
      simp only [map, relabelled, run, Routine.respelled, named, id, run_all_same inputs moved args f g same]
  | conditional condition accepted rejected =>
      simp only [map, relabelled, run, same condition (by simp [children]), same accepted (by simp [children]),
        same rejected (by simp [children])]

theorem Graph.relabelled_run (graph : Graph T σ) (earlier : graph.cells.Earlier) :
    (graph.relabelled labels).run moved = graph.run inputs := by
  rw [run, relabelled_fold]
  exact fold_related (fun (program other : Program T σ) => program moved = other inputs) _ _ _ _ graph earlier rfl
    fun _ shape f g _ same => shape.relabelled_run labels inputs moved moves f g same

end

end Formula
