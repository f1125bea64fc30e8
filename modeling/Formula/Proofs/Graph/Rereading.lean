import Formula.Proofs.Graph.Rendering
import Formula.Proofs.Graph.Sketch

set_option autoImplicit false

namespace Formula

variable {T σ ι κ : Type}

namespace Shape

theorem parallel_label (uses : Borrowed T σ → Borrowed T σ → Prop) (places : Span → Span → Prop)
    (same : ∀ a b, uses a b → a = b) (shape other : Shape T σ ι) (parallel : shape.Parallel uses places other) :
    shape.label = other.label ∧ shape.children = other.children := by
  cases parallel with
  | member source other used =>
      obtain rfl := Borrowed.member.inj (same _ _ used)
      exact ⟨rfl, rfl⟩
  | call routine other args span place used located =>
      obtain rfl := Borrowed.routine.inj (same _ _ used)
      exact ⟨rfl, rfl⟩
  | _ => exact ⟨rfl, rfl⟩

theorem mirrors_sketch (f : ι → Sketch T) (g : κ → Sketch T) (shape : Shape T σ ι) (node : Shape T σ κ)
    (mirrors : shape.Mirrors (fun a b => g b = f a) node) : (node.map g).sketch = (shape.map f).sketch := by
  obtain ⟨pairs, other, rfl, rfl, parallel, each⟩ := mirrors
  obtain ⟨label, children⟩ := parallel_label Eq _ (fun _ _ => id) pairs other parallel
  rw [map_map, map_map, sketch_map, sketch_map, ← label, ← children]
  exact congrArg _ (List.map_congr_left each)

end Shape

namespace Source

variable {s : Signedness} (flags : Flags) (source : Source (Integer s) σ) (readable : source.Readable flags)
  (default : source.grammar.reader = Numeric.read)

include readable default

theorem spells_digits (value : Integer s) (positive : 0 ≤ value.value) :
    source.Spells (Numeric.display value).toList Phrase.primary (· = .node (.constant value none)) := by
  rw [value.display_text, if_neg (Int.not_lt.mpr positive), List.nil_append]
  refine spells_written flags source readable value.value.natAbs value fun start stop found => ?_
  rw [Grammar.read, default]
  exact value.read_digits positive _ start stop found

theorem spells_sketch (shape : Shape (Integer s) σ ι) (names : List String) (declared : source.parameters.names = names)
    (admitted : shape.outline.Admitted source.grammar names.length) (enabled : shape.outline.Enabled flags)
    (positive : ∀ value name, shape = .constant value name → 0 ≤ value.value) (text : ι → String)
    (sketch : ι → Sketch (Integer s))
    (each : ∀ child ∈ shape.children, source.Spells (text child).toList unaryPrecedence
      fun e => e.fold Shape.sketch = sketch child) :
    source.Spells ((shape.map text).render names).toList unaryPrecedence
      fun e => e.fold Shape.sketch = (shape.map sketch).sketch := by
  by_cases constant : ∃ value name, shape = .constant value name
  · obtain ⟨value, name, rfl⟩ := constant
    have digits := spells_digits flags source readable default value (positive value name rfl)
    refine source.spells_weaker _ _ _ _ _ digits (by decide) ?_
    rintro e rfl
    rfl
  · refine spells_node flags source readable shape names declared (fun value name same => constant ⟨value, name, same⟩)
      admitted enabled text (fun child e => e.fold Shape.sketch = sketch child) _ ?_ fun node mirrors => ?_
    · intro slot member
      obtain ⟨isChild, level⟩ := shape.slots_level slot member
      exact source.spells_lower _ _ _ _ (each slot.1 isChild) level
    · rw [Expr.fold_node]
      exact Shape.mirrors_sketch _ _ shape node mirrors

end Source

namespace Evaluator

-- A printed program compiles to a graph that is equal to the one that was printed.
theorem rendered_rereads {s : Signedness} (settings : Settings (Integer s) σ) (evaluator : Evaluator (Integer s) σ)
    (built : settings.build = .ok evaluator) (default : settings.reader = none) (blank : settings.whitespace = [])
    (expression : String) (names : List String)
    (plain : evaluator.grammar.caseSensitive = true ∨
      (∀ entry ∈ evaluator.grammar.identifiers, ∀ c ∈ entry.template.name.toList, Text.isAscii c = true) ∧
        ∀ name ∈ names, ∀ c ∈ name.toList, Text.isAscii c = true)
    (optimize : Bool) (before : σ) (compiled : Compiled (Integer s) σ)
    (done : ((evaluator.compileWith expression names optimize).run before).1 = .ok compiled)
    (positive : ∀ (index : Nat) (value : Integer s) (name : Option String),
      compiled.graph.cells[index]? = some (.constant value name) → 0 ≤ value.value) (now : σ) :
    ∃ again, (evaluator.compileWith (compiled.graph.render names) names false).run now = (.ok again, now) ∧
      again.graph.same compiled.graph = true := by
  obtain ⟨-, declared, admitted, enabled⟩ :=
    compiled_uniform settings evaluator built expression names optimize before compiled done
  have readable := built_readable settings evaluator built default names (by simp [blank]) declared plain
    (compiled.graph.render names)
  have reader := default_reader settings evaluator built default
  generalize written : compiled.graph.render names = text at readable ⊢
  have spells : (evaluator.source ⟨names, evaluator.grammar.caseSensitive⟩ text).Spells text.toList unaryPrecedence
      fun e => e.fold Shape.sketch = compiled.graph.sketch := by
    have top : text = compiled.graph.cells.worth (Shape.render names) "" compiled.graph.cells.top := by
      rw [← written, Graph.render, Graph.fold_top]
    rw [Graph.sketch, Graph.fold_top, congrArg String.toList top]
    refine Cells.worth_related (fun (text : String) sketch => Source.Spells _ text.toList unaryPrecedence
      fun e => e.fold Shape.sketch = sketch) _ _ _ _ compiled.graph.cells admitted.earlier ?_ _
      (Cells.top_bound _ admitted.rooted)
    intro index shape texts sketches read each
    refine Source.spells_sketch settings.flags _ readable reader shape names rfl (admitted.every index shape read)
      (enabled.every index shape read) ?_ texts sketches each
    rintro value name rfl
    exact positive index value name read
  obtain ⟨e, tree, sketched⟩ := spelled_tree settings evaluator built _ text _ _ spells
  refine ⟨⟨text, names, Graph.ofExpr e, none⟩, ?_, ?_⟩
  · exact evaluator.compile_run text names false now _ e
      ((Grammar.bind_parameters_declared _ _ _).mpr ⟨rfl, declared⟩) tree
  · refine (Graph.same_iff_sketch _ _ (Graph.of_expr_earlier e) admitted.earlier (Graph.of_expr_rooted e)
      admitted.rooted).mpr ?_
    rw [← sketched]
    exact compiled_fold settings evaluator built _ text e tree Shape.sketch Cells.empty

-- `~x - 3 * +y`
def complement : Graph (Integer .signed) Unit :=
  ⟨#[.parameter 0, .unary .complement 0 ⟨0, 1⟩, .constant (Integer.ofBits .signed 3) none, .parameter 1,
    .convert .identity 3 ⟨6, 7⟩, .binary .mul 2 4 ⟨4, 5⟩, .binary .sub 1 5 ⟨2, 3⟩]⟩

theorem complement_rereads :
    ∃ evaluator compiled, (Settings.ofFlags ⟨true, false, true, true⟩ : Settings (Integer .signed) Unit).build =
        .ok evaluator ∧
      ((evaluator.compileWith "~x-3*(+y)" ["x", "y"] false).run ()).1 = .ok compiled ∧
      ∃ again, (evaluator.compileWith "(~x - (3 * +y))" ["x", "y"] false).run () = (.ok again, ()) ∧
        again.graph.same compiled.graph = true := by
  obtain ⟨evaluator, built, sensitive, done⟩ : ∃ evaluator,
      (Settings.ofFlags ⟨true, false, true, true⟩ : Settings (Integer .signed) Unit).build = .ok evaluator ∧
      evaluator.grammar.caseSensitive = true ∧
      ((evaluator.compileWith "~x-3*(+y)" ["x", "y"] false).run ()).1 =
        .ok ⟨"~x-3*(+y)", ["x", "y"], complement, none⟩ := by
    refine ⟨_, rfl, rfl, ?_⟩
    with_unfolding_all rfl
  have rendered : complement.render ["x", "y"] = "(~x - (3 * +y))" := by with_unfolding_all rfl
  have positive : ∀ (index : Nat) (value : Integer .signed) (name : Option String),
      complement.cells[index]? = some (.constant value name) → 0 ≤ value.value := by
    intro index value name read
    have entry := Array.mem_of_getElem? read
    simp only [complement, List.mem_toArray] at entry
    simp at entry
    rw [entry.1]
    decide
  have again := rendered_rereads _ evaluator built rfl rfl "~x-3*(+y)" ["x", "y"] (.inl sensitive) false () _ done positive ()
  rw [rendered] at again
  exact ⟨evaluator, _, built, done, again⟩

end Evaluator

end Formula
