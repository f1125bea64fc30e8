import Formula.Proofs.Grammar.Inputs
import Formula.Proofs.Token.Relabelling
import Mathlib.Data.List.FinRange
import Mathlib.Logic.Equiv.Fintype

set_option autoImplicit false

namespace Formula

variable {T σ : Type} {n : Nat}

namespace Labels

def arranging (order : Equiv.Perm (Fin n)) : Labels := ⟨id, Equiv.Perm.extendDomain order.symm Fin.equivSubtype⟩

variable (order : Equiv.Perm (Fin n))

theorem arranging_inside (index : Fin n) : (arranging order).slot index = order.symm index :=
  Equiv.Perm.extendDomain_apply_image order.symm Fin.equivSubtype index

theorem arranging_outside (index : Nat) (outside : ¬ index < n) : (arranging order).slot index = index :=
  Equiv.Perm.extendDomain_apply_not_subtype order.symm Fin.equivSubtype outside

theorem arranging_onto : Function.Surjective (arranging order).slot :=
  (Equiv.Perm.extendDomain order.symm Fin.equivSubtype).surjective

theorem arranging_distinct : (arranging order).Distinct fun _ => True :=
  ⟨fun _ _ _ _ same => same, (Equiv.Perm.extendDomain order.symm Fin.equivSubtype).injective⟩

theorem arranged_read {α : Type} (items : Fin n → α) (index : Nat) :
    (List.ofFn (items ∘ order))[(arranging order).slot index]? = (List.ofFn items)[index]? := by
  by_cases inside : index < n
  · have moved := arranging_inside order ⟨index, inside⟩
    simp only at moved
    rw [moved]
    simp [inside]
  · rw [arranging_outside order index inside, List.getElem?_eq_none (by simpa using inside),
      List.getElem?_eq_none (by simpa using inside)]

theorem arranging_moves (inputs : Fin n → T) :
    (arranging order).Moves (List.ofFn inputs) (List.ofFn (inputs ∘ order)) := by
  refine ⟨rfl, arranged_read order inputs, fun index missing => arranging_outside order index ?_⟩
  simpa using missing

end Labels

namespace Grammar

variable (grammar : Grammar T σ)

variable (names : Fin n → String) (order : Equiv.Perm (Fin n)) (declared : grammar.Declared [] (List.ofFn names))

include declared

theorem declared_arranged : grammar.Declared [] (List.ofFn (names ∘ order)) := by
  have same := Equiv.Perm.ofFn_comp_perm order names
  exact ⟨fun name member => declared.identifiers name (same.mem_iff.mp member),
    fun name member => declared.free name (same.mem_iff.mp member), fun _ _ => List.not_mem_nil,
    (same.map grammar.key).nodup_iff.mpr declared.apart⟩

theorem find_arranged (plain : grammar.caseSensitive = true ∨ ∀ index, ∀ c ∈ (names index).toList, Text.isAscii c = true)
    (text : List Char) :
    Parameters.find? ⟨List.ofFn (names ∘ order), grammar.caseSensitive⟩ text =
      (Parameters.find? ⟨List.ofFn names, grammar.caseSensitive⟩ text).map fun (index, length) =>
        ((Labels.arranging order).slot index, length) := by
  have read := Labels.arranged_read order names
  cases found : Parameters.find? ⟨List.ofFn names, grammar.caseSensitive⟩ text with
  | some input =>
      obtain ⟨index, length⟩ := input
      obtain ⟨name, placed, rfl, stands⟩ := Parameters.find_name _ text index length found
      have moved := (read index).trans placed
      refine Parameters.find_only ⟨List.ofFn (names ∘ order), _⟩ text _ name moved stands fun other name' placed' stands' => ?_
      exact grammar.stands_once _ (grammar.declared_arranged names order declared)
        (plain.imp_right fun ascii => List.forall_mem_ofFn_iff.mpr fun index => ascii (order index)) text other _ name' name
        placed' moved stands' stands
  | none =>
      cases again : Parameters.find? ⟨List.ofFn (names ∘ order), grammar.caseSensitive⟩ text with
      | none => rfl
      | some input =>
          obtain ⟨name, placed, -, stands⟩ := Parameters.find_name _ text input.1 input.2 again
          obtain ⟨index, same⟩ := Labels.arranging_onto order input.1
          have here := (read index).symm.trans (same ▸ placed)
          have known := Parameters.find_only ⟨List.ofFn names, _⟩ text index name here stands
            fun other name' placed' stands' => grammar.stands_once _ declared
              (plain.imp_right fun ascii => List.forall_mem_ofFn_iff.mpr ascii) text other index name' name placed' here
              stands' stands
          exact absurd (found.symm.trans known) (by simp)

end Grammar

section

variable (labels : Labels) (named : labels.name = id)

include named

theorem Template.relabelled_operand (name : String) (action : Action T σ) :
    (operand name action).relabelled labels = .operand name (action.relabelled labels) := by
  rw [relabelled, operand, Form.relabelled, named]
  rfl

theorem Grammar.built_relabelled [Numeric T] (settings : Settings T σ) (evaluator : Evaluator T σ)
    (built : settings.build = .ok evaluator) : evaluator.grammar.EveryName fun template => template.relabelled labels = template := by
  obtain ⟨name, slot⟩ := labels
  obtain rfl : name = id := named
  apply built_templates settings evaluator built
  · apply builtin_operators_each
    · simp only [punctuationTemplates, List.forall_mem_cons]
      exact ⟨rfl, rfl, rfl, by simp⟩
    · intro _
      simp only [numericTemplates, List.forall_mem_cons]
      exact ⟨rfl, rfl, rfl, rfl, rfl, by simp⟩
    · intro _
      simp only [decimalTemplates, List.forall_mem_cons]
      exact ⟨rfl, rfl, rfl, by simp⟩
    · intro _
      simp only [integerTemplates, List.forall_mem_cons]
      exact ⟨rfl, rfl, rfl, rfl, rfl, rfl, rfl, by simp⟩
  · simp only [builtinIdentifiers, List.forall_mem_cons]
    exact ⟨rfl, rfl, by simp⟩
  · intro name offer _
    cases offer <;> rfl

namespace Source

variable (source : Source T σ) (moved : Parameters)
  (fixed : source.grammar.EveryName fun template => template.relabelled labels = template)
  (finds : ∀ text, moved.find? text = (source.parameters.find? text).map fun (index, length) => (labels.slot index, length))

include fixed finds

theorem scan_relabelled (start : Nat) (rest : List Char) :
    { source with parameters := moved }.scan start rest =
      (source.scan start rest).map fun (template, length) => (template.relabelled labels, length) := by
  rw [scan, scan]
  simp only [finds]
  cases matched : (source.grammar.matchOperator rest).or (source.grammar.matchIdentifier rest) with
  | some found =>
      have same : found.1.relabelled labels = found.1 := by
        rcases Option.or_eq_some_iff.mp matched with operator | ⟨-, identifier⟩
        · obtain ⟨entry, known, here⟩ := Grammar.candidate_entry _ _ _ _ (Grammar.longest_member _ _ operator)
          exact here ▸ fixed.1 entry known
        · have member := (List.mem_filter.mp (Grammar.longest_member _ _ identifier)).1
          obtain ⟨entry, known, here⟩ := Grammar.candidate_entry _ _ _ _ member
          exact here ▸ fixed.2 entry known
      simp only [Except.map, same]
  | none =>
      cases source.parameters.find? rest with
      | some found => simp only [Option.map_some, Except.map, Template.relabelled_operand labels named, Action.relabelled]
      | none =>
          change source.scanLiteral start rest = (source.scanLiteral start rest).map _
          cases scanned : source.scanLiteral start rest with
          | error error => rfl
          | ok found =>
              rcases Phrase.scan_literal_operand source start rest found.1 found.2 scanned with
                ⟨name, value, operand⟩ | ⟨name, operand⟩
              all_goals
                simp only [Except.map, operand, Template.relabelled_operand labels named, Action.relabelled]
                rw [← operand]

theorem tokens_relabelled (start : Nat) (text : List Char) :
    { source with parameters := moved }.tokensFrom start text =
      (source.tokensFrom start text).map (Except.map (Token.relabelled labels)) := by
  fun_induction tokensFrom source start text with
  | case1 start => rw [tokensFrom]; rfl
  | case2 start c rest white ih => rw [tokensFrom, if_pos white, ih]
  | case3 start c rest solid error scanned =>
      have again := source.scan_relabelled labels named moved fixed finds start (c :: rest)
      rw [scanned] at again
      rw [tokensFrom, if_neg solid, again]
      rfl
  | case4 start c rest solid template length scanned stop ih =>
      have again := source.scan_relabelled labels named moved fixed finds start (c :: rest)
      rw [scanned] at again
      rw [tokensFrom, if_neg solid, again, List.map_cons, ← ih]
      rfl

end Source

end

namespace Evaluator

theorem tree_arranged [Numeric T] (settings : Settings T σ) (evaluator : Evaluator T σ)
    (built : settings.build = .ok evaluator) (names : Fin n → String) (order : Equiv.Perm (Fin n))
    (declared : evaluator.grammar.Declared [] (List.ofFn names))
    (plain : evaluator.grammar.caseSensitive = true ∨ ∀ index, ∀ c ∈ (names index).toList, Text.isAscii c = true)
    (expression : String) :
    (evaluator.tree ⟨List.ofFn (names ∘ order), evaluator.grammar.caseSensitive⟩ expression).mapError foldError =
      ((evaluator.tree ⟨List.ofFn names, evaluator.grammar.caseSensitive⟩ expression).mapError foldError).map
        (Expr.relabelled (.arranging order)) := by
  have tokens : (evaluator.source ⟨List.ofFn (names ∘ order), evaluator.grammar.caseSensitive⟩ expression).tokens =
      (evaluator.source ⟨List.ofFn names, evaluator.grammar.caseSensitive⟩ expression).tokens.map
        (Except.map (Token.relabelled (.arranging order))) :=
    (evaluator.source ⟨List.ofFn names, evaluator.grammar.caseSensitive⟩ expression).tokens_relabelled
      (.arranging order) rfl ⟨List.ofFn (names ∘ order), evaluator.grammar.caseSensitive⟩
      (Grammar.built_relabelled _ rfl settings evaluator built)
      (evaluator.grammar.find_arranged names order declared plain) 0 expression.toList
  have trees := relabelled_tree (.arranging order) id (Labels.blank_nothing _ rfl) expression
    (evaluator.source ⟨List.ofFn names, evaluator.grammar.caseSensitive⟩ expression).tokens
  rw [← tokens, Error.blanked_nothing] at trees
  exact Except.respelled_exact _ _ _ trees

-- Declared in another order the inputs of an expression make the same program: it is refused for the same reason, its
-- optimization reports the same, and it gives the same on inputs that come in that order.
theorem input_order_irrelevant [Numeric T] (settings : Settings T σ) (evaluator : Evaluator T σ)
    (built : settings.build = .ok evaluator) (names : Fin n → String) (order : Equiv.Perm (Fin n)) (parameters : Parameters)
    (bound : evaluator.grammar.bindParameters (List.ofFn names) = .ok parameters)
    (plain : evaluator.grammar.caseSensitive = true ∨ ∀ index, ∀ c ∈ (names index).toList, Text.isAscii c = true)
    (expression : String) (optimize : Bool) (host : σ) :
    (∃ error, (evaluator.compileWith expression (List.ofFn names) optimize).run host = (.error error, host) ∧
        (evaluator.compileWith expression (List.ofFn (names ∘ order)) optimize).run host = (.error error, host)) ∨
      ∃ compiled arranged after,
        (evaluator.compileWith expression (List.ofFn names) optimize).run host = (.ok compiled, after) ∧
        (evaluator.compileWith expression (List.ofFn (names ∘ order)) optimize).run host = (.ok arranged, after) ∧
        arranged.reports = compiled.reports ∧ arranged.stats? = compiled.stats? ∧
        ∀ (inputs : Fin n → T) (now : σ),
          (arranged.call (List.ofFn (inputs ∘ order))).run now = (compiled.call (List.ofFn inputs)).run now := by
  obtain ⟨rfl, declared⟩ := (Grammar.bind_parameters_declared _ _ _).mp bound
  have rebound := (Grammar.bind_parameters_declared _ _ _).mpr ⟨rfl, evaluator.grammar.declared_arranged names order declared⟩
  have trees := tree_arranged settings evaluator built names order declared plain expression
  cases found : evaluator.tree ⟨List.ofFn names, evaluator.grammar.caseSensitive⟩ expression with
  | error failure =>
      rw [found] at trees
      have failed := evaluator.compile_refused expression _ optimize host _ (foldError failure) bound (by rw [found]; rfl)
      exact .inl ⟨foldError failure, failed, evaluator.compile_refused expression _ optimize host _ _ rebound trees⟩
  | ok e =>
      rw [found] at trees
      have moved : evaluator.tree ⟨List.ofFn (names ∘ order), evaluator.grammar.caseSensitive⟩ expression =
          .ok (e.relabelled (.arranging order)) := by
        cases again : evaluator.tree ⟨List.ofFn (names ∘ order), evaluator.grammar.caseSensitive⟩ expression with
        | error failure =>
            rw [again] at trees
            exact absurd trees (by simp [Except.mapError, Except.map])
        | ok other =>
            rw [again] at trees
            exact congrArg Except.ok (Except.ok.inj trees)
      have finished := finish_relabelled (.arranging order) _ (Labels.arranging_distinct order) expression
        (List.ofFn names) (List.ofFn (names ∘ order)) optimize e e.every_named host
      have arranged := evaluator.compile_run expression _ optimize host _ _ rebound moved
      rw [finished] at arranged
      refine .inr ⟨_, _, _, evaluator.compile_run expression _ optimize host _ e bound found, arranged, rfl, rfl, ?_⟩
      intro inputs now
      have uniform := finish_uniform _ expression (List.ofFn names) optimize e e.every_named host
      have declares := finish_declares expression (List.ofFn names) optimize e host
      exact congrArg (·.run now) (Compiled.relabelled_call _ _ _ (Labels.arranging_moves order inputs) _
        (List.ofFn (names ∘ order)) uniform.earlier (by rw [declares, List.length_ofFn, List.length_ofFn])
        (by rw [List.length_ofFn, List.length_ofFn]))

theorem difference_arranged :
    ∃ evaluator parameters, integers.build = .ok evaluator ∧ evaluator.grammar.bindParameters ["a", "b"] = .ok parameters ∧
      ∃ compiled arranged : Compiled (Integer .signed) Unit,
        (evaluator.compileWith "a-b" ["a", "b"] true).run () = (.ok compiled, ()) ∧
        (evaluator.compileWith "a-b" ["b", "a"] true).run () = (.ok arranged, ()) ∧
        ∀ first second, (arranged.call [second, first]).run () = (compiled.call [first, second]).run () := by
  obtain ⟨evaluator, built, parameters, bound, e, tree⟩ :
      ∃ evaluator, integers.build = .ok evaluator ∧ ∃ parameters,
        evaluator.grammar.bindParameters ["a", "b"] = .ok parameters ∧
        ∃ e, evaluator.tree parameters "a-b" = .ok e :=
    ⟨_, rfl, _, rfl, _, by with_unfolding_all rfl⟩
  have compiles := evaluator.compile_run "a-b" ["a", "b"] true () parameters e bound tree
  have each : ∀ name ∈ ["a", "b"], name.toList.all Text.isAscii = true := by decide
  have ascii (index : Fin 2) := List.all_eq_true.mp (each (["a", "b"].get index) (List.get_mem _ _))
  have names : List.ofFn (["a", "b"].get ∘ Equiv.swap 0 1) = ["b", "a"] := by decide
  have plain : evaluator.grammar.bindParameters (List.ofFn ["a", "b"].get) = .ok parameters := bound
  have arranges := input_order_irrelevant integers evaluator built ["a", "b"].get (Equiv.swap 0 1) parameters plain
    (.inr ascii) "a-b" true ()
  rw [names, List.ofFn_get] at arranges
  rcases arranges with ⟨error, refused, -⟩ | ⟨compiled, arranged, after, found, rearranged, -, -, same⟩
  · rw [compiles] at refused
    exact absurd (Prod.mk.inj refused).1 (by simp)
  · refine ⟨evaluator, parameters, built, bound, compiled, arranged, found, rearranged, fun first second => ?_⟩
    have inputs : List.ofFn ([first, second].get ∘ Equiv.swap 0 1) = [second, first] := rfl
    have calls := same [first, second].get ()
    rw [inputs] at calls
    exact calls

end Evaluator

end Formula
