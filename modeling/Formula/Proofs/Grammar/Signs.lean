import Formula.Proofs.Grammar.Registry
import Mathlib.Data.List.Nodup

set_option autoImplicit false

namespace Formula

variable {T σ : Type}

namespace Grammar

def signs (flags : Flags) : List String :=
  ["(", ")", ","] ++ (if flags.numeric then ["+", "-", "*", "/", "%"] else []) ++
    (if flags.decimal then ["^", "<<", ">>"] else []) ++
    (if flags.integer then ["<<", ">>", "|", "&", "^", "~", "!"] else [])

theorem operators_signs (flags : Flags) :
    (builtinOperators flags : List (Template T σ)).map Template.name = signs flags := by
  simp only [builtinOperators, signs, List.map_append, apply_ite (List.map Template.name)]
  rfl

-- What an operator starts with: no letter, digit, blank or point, and no character with two cases.
def isSign (c : Char) : Bool :=
  Text.isAscii c && !Text.isWhiteSpace c && !Text.isIdentifierContinue c && c ≠ '.' && Text.lower c = [c]

theorem signs_known (flags : Flags) : signs flags ⊆ signs ⟨true, true, true, true⟩ := by
  intro name member
  simp only [signs, List.mem_append, List.mem_ite_nil_right, if_true] at member ⊢
  tauto

theorem signs_spelled (flags : Flags) : ∀ name ∈ signs flags, ∃ c rest, name.toList = c :: rest ∧ isSign c = true := by
  have each : ∀ name ∈ signs ⟨true, true, true, true⟩, name.toList.head?.any isSign = true := by decide
  intro name member
  have starts := each name (signs_known flags member)
  cases spelling : name.toList with
  | nil => exact absurd starts (by simp [spelling])
  | cons c rest => exact ⟨c, rest, rfl, by simpa [spelling] using starts⟩

theorem signs_solid (flags : Flags) : ∀ name ∈ signs flags, ∀ c ∈ name.toList, Text.isWhiteSpace c = false := by
  have each : ∀ name ∈ signs ⟨true, true, true, true⟩, name.toList.all (!Text.isWhiteSpace ·) = true := by decide
  intro name member c inside
  simpa using List.all_eq_true.mp (each name (signs_known flags member)) c inside

-- Power and exclusive or, which share a sign, are never in one grammar.
theorem signs_apart (flags : Flags) (agreed : (flags.decimal && flags.integer) = false) :
    ((signs flags).map fun name => name.toList.head?).Nodup := by
  have each : ∀ numeric decimal integer : Bool, (decimal && integer) = false →
      ((signs ⟨numeric, decimal, integer, false⟩).map fun name => name.toList.head?).Nodup := by decide
  exact each flags.numeric flags.decimal flags.integer agreed

theorem fold_lists (view : Grammar T σ → List (Template T σ))
    (register : Grammar T σ → Template T σ → Except GrammarError (Grammar T σ))
    (adds : ∀ grammar template next, register grammar template = .ok next → view next = view grammar ++ [template])
    (templates : List (Template T σ)) (grammar last : Grammar T σ) (ran : templates.foldlM register grammar = .ok last) :
    view last = view grammar ++ templates := by
  induction templates generalizing grammar with
  | nil =>
      obtain rfl := Except.ok.inj ran
      exact (List.append_nil _).symm
  | cons template rest ih =>
      rw [List.foldlM_cons] at ran
      cases registered : register grammar template with
      | error error => simp [registered, bind, Except.bind] at ran
      | ok next =>
          rw [registered] at ran
          rw [ih next ran, adds grammar template next registered, List.append_assoc, List.singleton_append]

theorem standard_listed [Numeric T] (flags : Flags) (reader : Reader T) (whitespace : List Char) (grammar : Grammar T σ)
    (standard : standard flags reader whitespace = .ok grammar) :
    (flags.decimal && flags.integer) = false ∧ grammar.operators.map Entry.template = builtinOperators flags ∧
      grammar.identifiers.map Entry.template = builtinIdentifiers := by
  unfold Grammar.standard at standard
  simp only [bind, Except.bind, throw, throwThe, MonadExceptOf.throw] at standard
  split at standard
  · exact absurd standard (by simp)
  · rename_i agreed
    split at standard
    · exact absurd standard (by simp)
    · split at standard
      · exact absurd standard (by simp)
      · rename_i before ran
        have operators := fold_lists (fun grammar => grammar.operators.map Entry.template) registerOperator
          (fun grammar template next registered => by
            obtain ⟨-, rfl⟩ := register_operator_ok grammar next template registered
            exact List.map_append) _ _ before ran
        have words := fold_keeps (P := fun next => next.operators = before.operators) registerIdentifier builtinIdentifiers
          (fun template _ next more kept registered => by
            obtain ⟨-, -, rfl⟩ := register_identifier_ok next more template registered
            exact kept) before grammar rfl standard
        have identifiers := fold_lists (fun grammar => grammar.identifiers.map Entry.template) registerIdentifier
          (fun grammar template next registered => by
            obtain ⟨-, -, rfl⟩ := register_identifier_ok grammar next template registered
            exact List.map_append) _ before grammar standard
        have blank := fold_keeps (P := fun next => next.identifiers = []) registerOperator (builtinOperators flags)
          (fun template _ next more kept registered => by
            obtain ⟨-, rfl⟩ := register_operator_ok next more template registered
            exact kept) _ before rfl ran
        refine ⟨by simpa using agreed, ?_, ?_⟩
        · rw [words]
          exact operators
        · rw [identifiers, blank]
          rfl

structure Standard (flags : Flags) (grammar : Grammar T σ) : Prop where
  agreed : (flags.decimal && flags.integer) = false
  operators : grammar.operators.map Entry.template = builtinOperators flags
  identifiers : ∀ template ∈ builtinIdentifiers, ∃ entry ∈ grammar.identifiers, entry.template = template
  indexed : grammar.Indexed

theorem built_standard [Numeric T] (settings : Settings T σ) (evaluator : Evaluator T σ)
    (built : settings.build = .ok evaluator) : evaluator.grammar.Standard settings.flags := by
  have indexed := reached_indexed _ (built_reached settings evaluator built)
  obtain ⟨base, grammar, standard, registered, rfl⟩ := (settings.build_ok evaluator).mp built
  rw [register_all_offers] at registered
  have widens := offers_widen _ base grammar registered
  obtain ⟨agreed, operators, identifiers⟩ := standard_listed _ _ _ base standard
  refine ⟨agreed, widens.operators ▸ operators, fun template member => ?_, indexed⟩
  rw [← identifiers] at member
  obtain ⟨entry, known, same⟩ := List.mem_map.mp member
  exact ⟨entry, widens.grown.subset known, same⟩

theorem sign_itself (caseSensitive : Bool) (c d : Char) (sign : isSign d = true)
    (same : Text.letter caseSensitive c = Text.letter caseSensitive d) : c = d := by
  cases caseSensitive with
  | true => simpa [Text.letter] using same
  | false =>
      have known := sign
      simp only [isSign, Bool.and_eq_true, decide_eq_true_eq] at known
      obtain ⟨⟨⟨⟨ascii, -⟩, -⟩, -⟩, own⟩ := known
      have low : Text.lower c = [d] := by simpa [Text.letter, own] using same
      rcases Text.lower_within c d low ascii with within | rfl
      · have kept := Text.ascii_all (P := fun c => isSign c.toLower = true → c.toLower = c) (by decide) c within
        obtain rfl : c.toLower = d := List.singleton_inj.mp ((Text.ascii_lower c within).symm.trans low)
        exact (kept sign).symm
      · obtain rfl : 'k' = d := List.singleton_inj.mp ((show Text.lower Text.kelvin = ['k'] by decide).symm.trans low)
        exact absurd sign (by decide)

section

variable (flags : Flags) (grammar : Grammar T σ) (standard : grammar.Standard flags)

include standard

theorem operator_entry (template : Template T σ) (known : template ∈ builtinOperators flags) :
    ∃ entry ∈ grammar.operators, entry.template = template :=
  List.mem_map.mp (standard.operators ▸ known)

theorem operator_starts (text : List Char) (template : Template T σ) (length : Nat)
    (found : (template, length) ∈ grammar.candidates grammar.operators text) :
    template ∈ builtinOperators flags ∧ length = template.name.toList.length ∧
      ∃ c, text.head? = some c ∧ template.name.toList.head? = some c ∧ isSign c = true := by
  obtain ⟨entry, known, rfl, rfl, begins, -⟩ := (mem_candidates ..).mp found
  have listed : entry.template ∈ builtinOperators flags := standard.operators ▸ List.mem_map_of_mem known
  have spelled : entry.template.name ∈ signs flags := operators_signs flags ▸ List.mem_map_of_mem listed
  obtain ⟨d, name, spelling, sign⟩ := signs_spelled flags _ spelled
  refine ⟨listed, rfl, d, ?_, by rw [spelling, List.head?_cons], sign⟩
  rw [spelling] at begins
  cases text with
  | nil => exact absurd begins (by simp [Text.begins])
  | cons c rest =>
      have same := (Text.same_letter_iff _ _ _).mp (Bool.and_eq_true_iff.mp begins).1
      rw [List.head?_cons, sign_itself _ c d sign same]

theorem sign_missing (c : Char) (rest : List Char) (other : isSign c = false) : grammar.matchOperator (c :: rest) = none := by
  rw [matchOperator, longest_none, List.eq_nil_iff_forall_not_mem]
  rintro ⟨template, length⟩ member
  obtain ⟨-, -, d, here, -, sign⟩ := operator_starts flags grammar standard _ _ _ member
  obtain rfl := Option.some.inj here
  simp [other] at sign

theorem sign_found (template : Template T σ) (known : template ∈ builtinOperators flags) (rest : List Char) :
    grammar.matchOperator (template.name.toList ++ rest) = some (template, template.name.toList.length) := by
  obtain ⟨entry, listed, rfl⟩ := operator_entry flags grammar standard template known
  have spelled : entry.template.name ∈ signs flags := operators_signs flags ▸ List.mem_map_of_mem known
  obtain ⟨c, name, spelling, sign⟩ := signs_spelled flags _ spelled
  have low : Text.lower c = [c] := by simp_all [isSign]
  have begins := Text.begins_append grammar.caseSensitive entry.template.name.toList rest
  have visible : grammar.Visible (entry.template.name.toList ++ rest) entry.template := by
    refine .inr fun first d here starts => .inl ?_
    rw [spelling] at here
    obtain rfl := Option.some.inj here
    exact low
  have lead := grammar.visible_listed _ entry visible (standard.indexed.operators entry listed) (by simp [spelling]) begins
  have here : (entry.template, entry.template.name.toList.length) ∈
      grammar.candidates grammar.operators (entry.template.name.toList ++ rest) :=
    (mem_candidates ..).mpr ⟨entry, listed, rfl, rfl, begins, lead⟩
  cases best : grammar.matchOperator (entry.template.name.toList ++ rest) with
  | none => exact absurd here (by simp [(longest_none _).mp best])
  | some found =>
      obtain ⟨template, length⟩ := found
      obtain ⟨rival, rfl, d, starts, head, -⟩ := operator_starts flags grammar standard _ _ _ (longest_member _ _ best)
      have apart : ((builtinOperators flags).map fun template : Template T σ => template.name.toList.head?).Nodup := by
        have heads := signs_apart flags standard.agreed
        rwa [← operators_signs flags, List.map_map] at heads
      have same : template = entry.template := by
        refine List.inj_on_of_nodup_map apart rival known ?_
        rw [spelling] at starts ⊢
        exact head.trans starts.symm
      rw [same]

end

end Grammar

end Formula
