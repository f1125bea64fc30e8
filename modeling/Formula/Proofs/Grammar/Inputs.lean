import Formula.Proofs.Graph.Compiled
import Formula.Numeric.Integer
import Formula.Proofs.Grammar.Registry
import Mathlib.Data.List.Nodup

set_option autoImplicit false

namespace Formula

variable {T σ : Type}

namespace Grammar

-- Names are accepted when they are identifiers under keys that nothing else is taken under.
structure Declared (grammar : Grammar T σ) (taken names : List String) : Prop where
  identifiers : ∀ name ∈ names, Text.isIdentifier name.toList = true
  free : ∀ name ∈ names, grammar.key name ∉ grammar.reserved
  fresh : ∀ name ∈ names, grammar.key name ∉ taken
  apart : (names.map grammar.key).Nodup

theorem declared_cons (grammar : Grammar T σ) (taken : List String) (name : String) (rest : List String) :
    grammar.Declared taken (name :: rest) ↔ Text.isIdentifier name.toList = true ∧ grammar.key name ∉ grammar.reserved ∧
      grammar.key name ∉ taken ∧ grammar.Declared (grammar.key name :: taken) rest := by
  constructor
  · intro declared
    obtain ⟨once, apart⟩ := List.nodup_cons.mp (List.map_cons ▸ declared.apart)
    refine ⟨declared.identifiers name List.mem_cons_self, declared.free name List.mem_cons_self,
      declared.fresh name List.mem_cons_self, fun other member => declared.identifiers other (List.mem_cons_of_mem _ member),
      fun other member => declared.free other (List.mem_cons_of_mem _ member), fun other member => ?_, apart⟩
    rw [List.mem_cons]
    rintro (same | old)
    · exact once (same ▸ List.mem_map_of_mem member)
    · exact declared.fresh other (List.mem_cons_of_mem _ member) old
  · rintro ⟨identifier, free, fresh, declared⟩
    refine ⟨List.forall_mem_cons.mpr ⟨identifier, declared.identifiers⟩, List.forall_mem_cons.mpr ⟨free, declared.free⟩,
      List.forall_mem_cons.mpr ⟨fresh, fun other member old => ?_⟩, ?_⟩
    · exact declared.fresh other member (List.mem_cons_of_mem _ old)
    · rw [List.map_cons, List.nodup_cons]
      refine ⟨fun again => ?_, declared.apart⟩
      obtain ⟨other, member, same⟩ := List.mem_map.mp again
      exact declared.fresh other member (same ▸ List.mem_cons_self)

theorem check_parameters_declared (grammar : Grammar T σ) (taken names : List String) :
    grammar.checkParameters taken names = .ok () ↔ grammar.Declared taken names := by
  fun_induction checkParameters grammar taken names with
  | case1 taken => exact ⟨fun _ => ⟨by simp, by simp, by simp, by simp⟩, fun _ => rfl⟩
  | case2 taken name rest invalid => simp_all [declared_cons]
  | case3 taken name rest valid reserved => simp_all [declared_cons, isReserved]
  | case4 taken name rest valid free twice => simp_all [declared_cons]
  | case5 taken name rest valid free fresh ih => simp_all [declared_cons, isReserved]

theorem bind_parameters_declared (grammar : Grammar T σ) (names : List String) (parameters : Parameters) :
    grammar.bindParameters names = .ok parameters ↔
      parameters = ⟨names, grammar.caseSensitive⟩ ∧ grammar.Declared [] names := by
  rw [← check_parameters_declared, bindParameters]
  cases grammar.checkParameters [] names with
  | error error => simp [Except.map]
  | ok _ => simp [Except.map, eq_comm]

theorem declared_index (grammar : Grammar T σ) (names : List String) (declared : grammar.Declared [] names)
    (first second : Nat) (a b : String) (placed : names[first]? = some a) (named : names[second]? = some b)
    (key : grammar.key a = grammar.key b) : first = second := by
  obtain ⟨within, read⟩ := List.getElem?_eq_some_iff.mp placed
  obtain ⟨within', read'⟩ := List.getElem?_eq_some_iff.mp named
  have inside : first < (names.map grammar.key).length := by rwa [List.length_map]
  have inside' : second < (names.map grammar.key).length := by rwa [List.length_map]
  have keys : (names.map grammar.key)[first] = (names.map grammar.key)[second] := by
    rw [List.getElem_map, List.getElem_map, read, read', key]
  exact declared.apart.getElem_inj_iff.mp keys

-- Names whose lower forms are those of their letters.
def Steady (grammar : Grammar T σ) (names : List String) : Prop :=
  grammar.caseSensitive = true ∨ (∀ name ∈ names, Text.Letterwise name) ∧
    ∀ entry ∈ grammar.identifiers, Text.Letterwise entry.template.name

theorem identifier_missing (grammar : Grammar T σ) (orderly : grammar.Orderly) (names : List String)
    (declared : grammar.Declared [] names) (steady : grammar.Steady names) (name : String) (member : name ∈ names) :
    grammar.matchIdentifier name.toList = none := by
  cases found : grammar.matchIdentifier name.toList with
  | none => rfl
  | some best =>
      obtain ⟨entry, stands, -, -⟩ := grammar.identifier_stands _ best.1 best.2 found
      obtain ⟨-, -, -, -, continues⟩ := Text.identifier_spelled _ (declared.identifiers name member)
      have whole := Text.word_whole _ continues _ (Text.begins_length _ _ _ stands.begins) stands.ends
      have same := grammar.key_letters entry.template.name name
        (steady.imp_right fun letterwise => ⟨letterwise.2 entry stands.known, letterwise.1 name member⟩)
        (Text.begins_whole _ _ _ stands.begins whole)
      exact absurd (same ▸ orderly.reserved entry stands.known) (declared.free name member)

end Grammar

namespace Parameters

theorem find_only (parameters : Parameters) (text : List Char) (index : Nat) (name : String)
    (named : parameters.names[index]? = some name) (stands : parameters.Stands text name)
    (only : ∀ other name', parameters.names[other]? = some name' → parameters.Stands text name' → other = index) :
    parameters.find? text = some (index, name.toList.length) := by
  have here : (index, name.toList.length) ∈ parameters.names.zipIdx.filterMap fun named =>
      if Text.begins parameters.caseSensitive named.1.toList text && Text.endsWord (text.drop named.1.toList.length) then
        some (named.2, named.1.toList.length)
      else
        none := by
    refine List.mem_filterMap.mpr ⟨(name, index), List.mem_zipIdx_iff_getElem?.mpr (by simpa using named), ?_⟩
    exact if_pos (Bool.and_eq_true_iff.mpr stands)
  cases best : parameters.find? text with
  | none =>
      have nothing := (Grammar.longest_none _).mp best
      exact absurd (nothing ▸ here) List.not_mem_nil
  | some found =>
      obtain ⟨name', placed, length, stands'⟩ := parameters.find_name text found.1 found.2 best
      obtain rfl := only found.1 name' placed stands'
      rw [Option.some.inj (placed.symm.trans named)] at length
      rw [← length]

end Parameters

namespace Grammar

theorem stands_once (grammar : Grammar T σ) (names : List String) (declared : grammar.Declared [] names)
    (plain : grammar.caseSensitive = true ∨ ∀ name ∈ names, ∀ c ∈ name.toList, Text.isAscii c = true) (text : List Char)
    (first second : Nat) (a b : String) (placed : names[first]? = some a) (named : names[second]? = some b)
    (standsA : Parameters.Stands ⟨names, grammar.caseSensitive⟩ text a)
    (standsB : Parameters.Stands ⟨names, grammar.caseSensitive⟩ text b) : first = second := by
  have memberA := List.mem_of_getElem? placed
  have memberB := List.mem_of_getElem? named
  obtain ⟨-, -, -, -, continuesA⟩ := Text.identifier_spelled _ (declared.identifiers a memberA)
  obtain ⟨-, -, -, -, continuesB⟩ := Text.identifier_spelled _ (declared.identifiers b memberB)
  have asciiA := plain.imp_right fun each => each a memberA
  have asciiB := plain.imp_right fun each => each b memberB
  -- Neither name ends inside the other one.
  have within := Text.word_reaches _ _ _ asciiA continuesA standsA.1 _ standsB.2
  have reach := Text.word_reaches _ _ _ asciiB continuesB standsB.1 _ standsA.2
  have letters := Text.begins_both _ _ _ _ standsA.1 standsB.1 (Nat.le_antisymm within reach)
  have key := grammar.key_letters a b (plain.imp_right fun each =>
    ⟨Text.ascii_letterwise _ (each a memberA), Text.ascii_letterwise _ (each b memberB)⟩) letters
  exact grammar.declared_index names declared first second a b placed named key

theorem input_found (grammar : Grammar T σ) (names : List String) (declared : grammar.Declared [] names)
    (steady : grammar.Steady names) (index : Nat) (name : String) (named : names[index]? = some name) :
    (⟨names, grammar.caseSensitive⟩ : Parameters).find? name.toList = some (index, name.toList.length) := by
  have member := List.mem_of_getElem? named
  obtain ⟨-, -, -, -, continues⟩ := Text.identifier_spelled _ (declared.identifiers name member)
  have whole : Text.endsWord (name.toList.drop name.toList.length) = true := by
    rw [List.drop_length]
    rfl
  refine Parameters.find_only _ _ index name named ⟨(Text.begins_iff _ _ _).mpr List.prefix_rfl, whole⟩ ?_
  rintro other name' placed ⟨begins, ends⟩
  have key := grammar.key_letters name' name
    (steady.imp_right fun letterwise => ⟨letterwise.1 name' (List.mem_of_getElem? placed), letterwise.1 name member⟩)
    (Text.begins_whole _ _ _ begins (Text.word_whole _ continues _ (Text.begins_length _ _ _ begins) ends))
  exact grammar.declared_index names declared other index name' name placed named key

end Grammar

namespace Evaluator

theorem name_tokens (evaluator : Evaluator T σ) (names : List String) (operators : ∀ entry ∈ evaluator.grammar.operators,
    Grammar.Symbol entry.template) (orderly : evaluator.grammar.Orderly) (plain : evaluator.grammar.whitespace = [])
    (declared : evaluator.grammar.Declared [] names) (steady : evaluator.grammar.Steady names)
    (index : Nat) (name : String) (named : names[index]? = some name) :
    (evaluator.source ⟨names, evaluator.grammar.caseSensitive⟩ name).tokens =
      [.ok (.ofTemplate (.operand name (.parameter index)) ⟨0, Text.width name.toList⟩)] := by
  have member := List.mem_of_getElem? named
  obtain ⟨c, rest, spelling, start, -⟩ := Text.identifier_spelled _ (declared.identifiers name member)
  have visible : evaluator.grammar.isWhitespace c = false := by
    simp [Grammar.isWhitespace, plain, Text.start_not_white c start]
  have none : evaluator.grammar.matchOperator (c :: rest) = none :=
    Grammar.operator_missing _ operators c rest (.inl start)
  have nothing := Grammar.identifier_missing _ orderly names declared steady name member
  have found := Grammar.input_found _ names declared steady index name named
  rw [spelling] at nothing found
  rw [Source.tokens, Source.text, source, spelling, Source.tokensFrom]
  have spelled : String.ofList (c :: rest) = name := by simp [← spelling]
  simp only [visible, Bool.false_eq_true, if_false, Source.scan, none, nothing, found, Option.or_none, List.length_cons,
    Nat.add_sub_cancel, List.take_length, List.drop_length, Source.tokensFrom, Nat.zero_add, List.take_succ_cons, spelled]

-- Every declared input is found under its own name, and the name alone compiles to the input, so that a call gives it back.
theorem inputs_reachable [Numeric T] (settings : Settings T σ) (evaluator : Evaluator T σ)
    (built : settings.build = .ok evaluator) (plain : settings.whitespace = []) (names : List String)
    (parameters : Parameters) (bound : evaluator.grammar.bindParameters names = .ok parameters)
    (steady : evaluator.grammar.Steady names) (index : Nat) (name : String) (named : names[index]? = some name) :
    parameters.find? name.toList = some (index, name.toList.length) ∧
      ∀ (optimize : Bool) (before : σ), ∃ compiled,
        (evaluator.compileWith name names optimize).run before = (.ok compiled, before) ∧
          compiled.graph = ⟨#[.parameter index]⟩ ∧
          ∀ inputs : List T, inputs.length = names.length → ∀ now, ∃ value, inputs[index]? = some value ∧
            (compiled.call inputs).run now = (.ok value, now) := by
  obtain ⟨rfl, declared⟩ := (Grammar.bind_parameters_declared _ _ _).mp bound
  have orderly := Grammar.built_orderly settings evaluator built
  have operators := Grammar.built_symbols settings evaluator built
  have white : evaluator.grammar.whitespace = [] := (Grammar.built_settings settings evaluator built).2.1.trans plain
  refine ⟨Grammar.input_found _ names declared steady index name named, fun optimize before => ?_⟩
  have tokens := evaluator.name_tokens names operators orderly white declared steady index name named
  have tree : evaluator.tree ⟨names, evaluator.grammar.caseSensitive⟩ name = .ok (.node (.parameter index)) := by
    rw [Evaluator.tree, tokens]
    rfl
  have finished : ∃ reports, (finish name names optimize (.node (.parameter index) : Expr T σ)).run before =
      (⟨name, names, ⟨#[.parameter index]⟩, reports⟩, before) := by
    cases optimize with
    | true => exact ⟨some [⟨0, 0, 0⟩], by with_unfolding_all rfl⟩
    | false => exact ⟨none, rfl⟩
  obtain ⟨reports, ready⟩ := finished
  refine ⟨⟨name, names, ⟨#[.parameter index]⟩, reports⟩, ?_, rfl, fun inputs declaredAll now => ?_⟩
  · rw [evaluator.compile_run name names optimize before _ _ bound tree, ready]
  · obtain ⟨within, -⟩ := List.getElem?_eq_some_iff.mp named
    have inside : index < inputs.length := declaredAll ▸ within
    have read : inputs[index]? = some inputs[index] := List.getElem?_eq_getElem inside
    refine ⟨inputs[index], read, ?_⟩
    rw [Compiled.call, if_pos declaredAll]
    change (Shape.run (.parameter index) inputs).run now = _
    rw [Shape.run, read]
    rfl

def integers : Settings (Integer .signed) Unit := ⟨⟨true, false, false, false⟩, [], [], false, true, none⟩

theorem integer_inputs_reached :
    ∃ evaluator parameters, integers.build = .ok evaluator ∧ integers.whitespace = [] ∧
      evaluator.grammar.bindParameters ["Ab", "c"] = .ok parameters ∧ evaluator.grammar.Steady ["Ab", "c"] ∧
      ["Ab", "c"][1]? = some "c" ∧ parameters.find? "c".toList = some (1, 1) ∧
      ∃ compiled, (evaluator.compileWith "c" ["Ab", "c"] true).run () = (.ok compiled, ()) := by
  obtain ⟨evaluator, parameters, built, bound, names⟩ :
      ∃ evaluator parameters, integers.build = .ok evaluator ∧
        evaluator.grammar.bindParameters ["Ab", "c"] = .ok parameters ∧
        evaluator.grammar.identifiers.map (fun entry => entry.template.name) = ["if", "trunc"] :=
    ⟨_, _, rfl, rfl, rfl⟩
  have ascii : ∀ name ∈ ["if", "trunc", "Ab", "c"], name.toList.all Text.isAscii = true := by decide
  have steady : evaluator.grammar.Steady ["Ab", "c"] := by
    refine .inr ⟨fun name member => ?_, fun entry known => ?_⟩
    · exact Text.ascii_letterwise _ (List.all_eq_true.mp (ascii _ (List.mem_append_right ["if", "trunc"] member)))
    · have member : entry.template.name ∈ ["if", "trunc"] := names ▸ List.mem_map_of_mem known
      exact Text.ascii_letterwise _ (List.all_eq_true.mp (ascii _ (List.mem_append_left ["Ab", "c"] member)))
  obtain ⟨found, compiles⟩ := inputs_reachable integers evaluator built rfl ["Ab", "c"] parameters bound steady 1 "c" rfl
  obtain ⟨compiled, done, -⟩ := compiles true ()
  exact ⟨evaluator, parameters, built, rfl, bound, steady, rfl, found, compiled, done⟩

-- The sigma that ends the first name has a lower form of its own there, but is the same letter as the other one.
theorem final_sigma_taken :
    ∃ evaluator parameters, integers.build = .ok evaluator ∧
      evaluator.grammar.bindParameters ["ΑΣ", "ασ"] = .ok parameters ∧
      parameters.find? "ΑΣ".toList = some (1, 2) := by
  refine ⟨_, ⟨["ΑΣ", "ασ"], false⟩, rfl, ?_, ?_⟩
  all_goals with_unfolding_all rfl

end Evaluator

end Formula
