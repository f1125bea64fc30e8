import Formula.Proofs.Grammar.Lookup
import Mathlib.Data.List.Nodup

/-!
The tables of a grammar are updated one after another, and a registration that is refused is refused
before the first of them changes. So whatever is registered, in whatever order and with whatever success,
the reserved keys are those of the listed names, each of one name, and every name is found where it stands.
-/

set_option autoImplicit false

namespace Formula

variable {T σ : Type}

inductive Registration (T σ : Type) where
  | operator (template : Template T σ)
  | identifier (template : Template T σ)

namespace Registration

def template : Registration T σ → Template T σ
  | operator template | identifier template => template

def register (grammar : Grammar T σ) : Registration T σ → Except GrammarError (Grammar T σ)
  | operator template => grammar.registerOperator template
  | identifier template => grammar.registerIdentifier template

-- The updates that a registration makes to a grammar in place, until one of them fails.
abbrev Update (T σ : Type) : Type → Type := ExceptT GrammarError (StateM (Grammar T σ))

def reserve (name : String) : Update T σ Unit := do
  let grammar ← get
  if grammar.isReserved name then
    throw (.duplicateName name)
  else
    set { grammar with reserved := grammar.reserved ++ [grammar.key name] }

def update : Registration T σ → Update T σ Unit
  | operator template => do
      reserve template.name
      modify fun grammar => { grammar with operators := grammar.operators ++ [grammar.entry template] }
  | identifier template =>
      if !Text.isQualified template.name.toList then
        throw (.invalidName template.name)
      else do
        reserve template.name
        modify fun grammar => { grammar with identifiers := grammar.identifiers ++ [grammar.entry template] }

def attempt (registrations : List (Registration T σ)) : StateM (Grammar T σ) (List (Except GrammarError Unit)) :=
  registrations.mapM fun registration => registration.update.run

theorem reserve_run (name : String) (grammar : Grammar T σ) :
    (reserve name).run.run grammar =
      if grammar.isReserved name then (.error (.duplicateName name), grammar)
      else (.ok (), { grammar with reserved := grammar.reserved ++ [grammar.key name] }) := by
  change (if grammar.isReserved name then throw (.duplicateName name)
    else set { grammar with reserved := grammar.reserved ++ [grammar.key name] } : Update T σ Unit).run.run grammar = _
  split <;> rfl

theorem update_run (registration : Registration T σ) (grammar : Grammar T σ) :
    registration.update.run.run grammar =
      match registration.register grammar with
      | .ok next => (.ok (), next)
      | .error error => (.error error, grammar) := by
  cases registration with
  | operator template =>
      rw [update, ExceptT.run_bind, StateT.run_bind, reserve_run, register, Grammar.registerOperator]
      split <;> rfl
  | identifier template =>
      rw [update, register, Grammar.registerIdentifier]
      split
      · rfl
      · rw [ExceptT.run_bind, StateT.run_bind, reserve_run]
        split <;> rfl

def accepted (registrations : List (Registration T σ)) (outcomes : List (Except GrammarError Unit)) :
    List (Registration T σ) :=
  (registrations.zip outcomes).filterMap fun (registration, outcome) => outcome.toOption.map fun _ => registration

theorem attempt_cons (first : Registration T σ) (rest : List (Registration T σ)) (grammar : Grammar T σ) :
    (attempt (first :: rest)).run grammar =
      ((first.update.run.run grammar).1 :: ((attempt rest).run (first.update.run.run grammar).2).1,
        ((attempt rest).run (first.update.run.run grammar).2).2) := by
  rw [attempt, List.mapM_cons]
  rfl

theorem attempt_accepted (registrations : List (Registration T σ)) (grammar last : Grammar T σ)
    (outcomes : List (Except GrammarError Unit)) (ran : (attempt registrations).run grammar = (outcomes, last)) :
    outcomes.length = registrations.length ∧ (accepted registrations outcomes).foldlM register grammar = .ok last := by
  induction registrations generalizing grammar outcomes with
  | nil =>
      obtain ⟨rfl, rfl⟩ := Prod.mk.inj ran
      exact ⟨rfl, rfl⟩
  | cons first rest ih =>
      rw [attempt_cons, update_run, Prod.mk.injEq] at ran
      obtain ⟨rfl, ended⟩ := ran
      cases registered : first.register grammar with
      | error error =>
          rw [registered] at ended
          obtain ⟨length, kept⟩ := ih grammar _ (Prod.ext rfl ended)
          exact ⟨by simp [length], kept⟩
      | ok next =>
          rw [registered] at ended
          obtain ⟨length, kept⟩ := ih next _ (Prod.ext rfl ended)
          refine ⟨by simp [length], ?_⟩
          change (first :: accepted rest ((attempt rest).run next).1).foldlM register grammar = .ok last
          rw [List.foldlM_cons, registered]
          exact kept

theorem register_error (registration : Registration T σ) (grammar : Grammar T σ) (error : GrammarError)
    (refused : registration.register grammar = .error error) :
    error = .invalidName registration.template.name ∨ error = .duplicateName registration.template.name := by
  cases registration with
  | operator template =>
      rw [register, Grammar.registerOperator] at refused
      split at refused
      · exact .inr (Except.error.inj refused).symm
      · exact absurd refused (by simp)
  | identifier template =>
      rw [register, Grammar.registerIdentifier] at refused
      split at refused
      · exact .inl (Except.error.inj refused).symm
      · split at refused
        · exact .inr (Except.error.inj refused).symm
        · exact absurd refused (by simp)

theorem register_reached (grammar next : Grammar T σ) (registration : Registration T σ) (reached : grammar.Reached)
    (registered : registration.register grammar = .ok next) : next.Reached := by
  cases registration with
  | operator template => exact .operator grammar next template reached registered
  | identifier template => exact .identifier grammar next template reached registered

end Registration

namespace Grammar

def keys (grammar : Grammar T σ) : List String :=
  (grammar.operators ++ grammar.identifiers).map fun entry => grammar.key entry.template.name

structure Keyed (grammar : Grammar T σ) : Prop where
  reserved : ∀ key, key ∈ grammar.reserved ↔ key ∈ grammar.keys
  apart : grammar.keys.Nodup

theorem keyed_added (grammar next : Grammar T σ) (template : Template T σ) (keyed : grammar.Keyed)
    (free : grammar.isReserved template.name = false) (same : next.key = grammar.key)
    (reserved : next.reserved = grammar.reserved ++ [grammar.key template.name])
    (grown : (next.operators ++ next.identifiers).Perm
      (grammar.entry template :: (grammar.operators ++ grammar.identifiers))) : next.Keyed := by
  have fresh : grammar.key template.name ∉ grammar.keys := fun known => by
    simp [isReserved, (keyed.reserved _).mpr known] at free
  have keys : next.keys.Perm (grammar.key template.name :: grammar.keys) := by
    rw [keys, same]
    exact grown.map _
  constructor
  · intro key
    rw [reserved, List.mem_append, List.mem_singleton, keyed.reserved, keys.mem_iff, List.mem_cons, or_comm]
  · exact keys.nodup_iff.mpr (List.nodup_cons.mpr ⟨fresh, keyed.apart⟩)

theorem reached_keyed (grammar : Grammar T σ) (reached : grammar.Reached) : grammar.Keyed := by
  induction reached with
  | blank flags whitespace reader => exact ⟨by simp [keys], .nil⟩
  | operator grammar next template _ registered ih =>
      obtain ⟨free, rfl⟩ := register_operator_ok grammar next template registered
      refine keyed_added grammar _ template ih free rfl rfl ?_
      rw [List.append_assoc]
      exact List.perm_middle
  | identifier grammar next template _ registered ih =>
      obtain ⟨-, free, rfl⟩ := register_identifier_ok grammar next template registered
      refine keyed_added grammar _ template ih free rfl rfl ?_
      rw [← List.append_assoc]
      exact List.perm_append_singleton _ _

-- Names of the same letters have one key, but where a sigma ends a word the lower form of a name is not that of its
-- letters.
theorem key_of_letters (grammar : Grammar T σ) (a b : String)
    (letterwise : grammar.caseSensitive = true ∨ Text.Letterwise a ∧ Text.Letterwise b)
    (same : Text.letters grammar.caseSensitive a.toList = Text.letters grammar.caseSensitive b.toList) :
    grammar.key a = grammar.key b := by
  unfold key
  cases sensitive : grammar.caseSensitive with
  | true =>
      rw [sensitive, Text.letters, Text.letters] at same
      have single : Function.Injective (Text.letter true) := fun c d equal => by simpa [Text.letter] using equal
      exact String.toList_injective (single.list_map same)
  | false =>
      obtain ⟨letterwiseA, letterwiseB⟩ := letterwise.resolve_left (by simp [sensitive])
      exact Text.lowercase_letters a b letterwiseA letterwiseB (sensitive ▸ same)

-- A name that a text starts with is found: the match reaches its end at least. Where nothing follows, the match is of
-- its letters, and it is the name itself where a key tells the letters.
structure Answers (grammar : Grammar T σ) (entry : Entry T σ) (rest : List Char)
    (found : Option (Template T σ × Nat)) : Prop where
  reaches : ∃ template length, found = some (template, length) ∧ entry.template.name.toList.length ≤ length
  whole : rest = [] → ∃ template, found = some (template, entry.template.name.toList.length) ∧
    Text.letters grammar.caseSensitive template.name.toList =
      Text.letters grammar.caseSensitive entry.template.name.toList ∧
    (grammar.caseSensitive = true ∨ Text.Letterwise template.name ∧ Text.Letterwise entry.template.name →
      template = entry.template)

theorem longest_answers (grammar : Grammar T σ) (keyed : grammar.Keyed) (entry : Entry T σ)
    (known : entry ∈ grammar.operators ++ grammar.identifiers) (rest : List Char) (found : List (Template T σ × Nat))
    (here : (entry.template, entry.template.name.toList.length) ∈ found)
    (sound : ∀ template length, (template, length) ∈ found →
      ∃ other ∈ grammar.operators ++ grammar.identifiers, other.template = template ∧
        length = template.name.toList.length ∧
        Text.begins grammar.caseSensitive template.name.toList (entry.template.name.toList ++ rest) = true) :
    grammar.Answers entry rest (longest found) := by
  cases best : longest found with
  | none => exact absurd here (by simp [(longest_none found).mp best])
  | some chosen =>
      obtain ⟨template, length⟩ := chosen
      have far : entry.template.name.toList.length ≤ length := longest_bound found _ best _ here
      refine ⟨⟨template, length, rfl, far⟩, fun nothing => ?_⟩
      obtain ⟨other, listed, rfl, rfl, begins⟩ := sound template length (longest_member found _ best)
      rw [nothing, List.append_nil] at begins
      have lengths := Nat.le_antisymm (Text.begins_length _ _ _ begins) far
      have same := Text.begins_whole _ _ _ begins lengths
      refine ⟨other.template, by rw [lengths], same, fun letterwise => ?_⟩
      exact congrArg _ (List.inj_on_of_nodup_map keyed.apart listed known (grammar.key_of_letters _ _ letterwise same))

theorem candidate_here (grammar : Grammar T σ) (entries : List (Entry T σ)) (entry : Entry T σ)
    (known : entry ∈ entries) (indexed : entry.leads = grammar.leads entry.template.name)
    (filled : entry.template.name.toList ≠ []) (rest : List Char) :
    (entry.template, entry.template.name.toList.length) ∈
      grammar.candidates entries (entry.template.name.toList ++ rest) := by
  refine (mem_candidates ..).mpr ⟨entry, known, rfl, rfl, Text.begins_append _ _ rest, ?_⟩
  obtain ⟨c, more, spelling⟩ := List.exists_cons_of_ne_nil filled
  refine ⟨c, by simp [spelling], ?_⟩
  rw [indexed, leads, spelling]
  cases grammar.caseSensitive with
  | true => simp
  | false => exact (Text.case_variants_iff c c).mpr (.inl rfl)

structure Consistent (grammar : Grammar T σ) : Prop where
  reserved : ∀ key, key ∈ grammar.reserved ↔
    ∃ name ∈ grammar.operatorNames ++ grammar.identifierNames, grammar.key name = key
  apart : (grammar.operators ++ grammar.identifiers).Pairwise fun a b =>
    grammar.key a.template.name ≠ grammar.key b.template.name
  operators : ∀ entry ∈ grammar.operators, entry.template.name ≠ "" → ∀ rest,
    grammar.Answers entry rest (grammar.matchOperator (entry.template.name.toList ++ rest))
  identifiers : ∀ entry ∈ grammar.identifiers, ∀ rest, Text.endsWord rest = true →
    grammar.Answers entry rest (grammar.matchIdentifier (entry.template.name.toList ++ rest))

theorem names_listed (grammar : Grammar T σ) (name : String) : name ∈ grammar.operatorNames ++ grammar.identifierNames ↔
    name ∈ (grammar.operators ++ grammar.identifiers).map fun entry => entry.template.name := by
  simp [operatorNames, identifierNames, sorted]

theorem reached_consistent (grammar : Grammar T σ) (reached : grammar.Reached) : grammar.Consistent := by
  have keyed := reached_keyed grammar reached
  have indexed := reached_indexed grammar reached
  constructor
  · intro key
    rw [keyed.reserved, keys, List.mem_map]
    simp only [names_listed, List.mem_map, exists_exists_and_eq_and]
  · exact List.pairwise_map.mp keyed.apart
  · intro entry known named rest
    refine longest_answers grammar keyed entry (List.mem_append_left _ known) rest _
      (candidate_here grammar _ entry known (indexed.operators entry known) (by simpa using named) rest) ?_
    intro template length member
    obtain ⟨other, listed, rfl, rfl, begins, -⟩ := (mem_candidates ..).mp member
    exact ⟨other, List.mem_append_left _ listed, rfl, rfl, begins⟩
  · intro entry known rest ends
    obtain ⟨c, more, spelling, -⟩ := (reached_qualified grammar reached entry known).start
    refine longest_answers grammar keyed entry (List.mem_append_right _ known) rest _ (List.mem_filter.mpr
      ⟨candidate_here grammar _ entry known (indexed.identifiers entry known) (by simp [spelling]) rest, ?_⟩) ?_
    · simpa using ends
    · intro template length member
      obtain ⟨other, listed, rfl, rfl, begins, -⟩ := (mem_candidates ..).mp (List.mem_filter.mp member).1
      exact ⟨other, List.mem_append_right _ listed, rfl, rfl, begins⟩

-- The tables stay consistent over every sequence of registrations. Those that succeed lead to the grammar on their own,
-- and of the next one either all updates are made or none.
theorem registration_consistent [Numeric T] (flags : Flags) (reader : Reader T) (whitespace : List Char)
    (grammar last : Grammar T σ) (standard : standard flags reader whitespace = .ok grammar)
    (registrations : List (Registration T σ)) (outcomes : List (Except GrammarError Unit))
    (ran : (Registration.attempt registrations).run grammar = (outcomes, last)) :
    last.Consistent ∧
    (outcomes.length = registrations.length ∧
      (Registration.accepted registrations outcomes).foldlM Registration.register grammar = .ok last) ∧
    ∀ registration : Registration T σ,
      (∃ next, registration.register last = .ok next ∧ registration.update.run.run last = (.ok (), next)) ∨
      ∃ error, (error = .invalidName registration.template.name ∨ error = .duplicateName registration.template.name) ∧
        registration.register last = .error error ∧ registration.update.run.run last = (.error error, last) := by
  obtain ⟨length, kept⟩ := Registration.attempt_accepted registrations grammar last outcomes ran
  have reached : last.Reached := fold_keeps Registration.register (Registration.accepted registrations outcomes)
    (fun registration _ grammar next => Registration.register_reached grammar next registration) grammar last
    (standard_reached flags reader whitespace grammar standard) kept
  refine ⟨reached_consistent last reached, ⟨length, kept⟩, fun registration => ?_⟩
  rw [Registration.update_run]
  cases registered : registration.register last with
  | ok next => exact .inl ⟨next, rfl, rfl⟩
  | error error => exact .inr ⟨error, registration.register_error last error registered, rfl, rfl⟩

-- What is no name, a name that is taken in other letters, and a new name.
def mixed : List (Registration (Integer .signed) Unit) :=
  [.identifier (.operand "2x" (.parameter 0)), .operator (.before "IF" (.unary .complement) 7),
    .identifier (.function "Max" .conditional)]

theorem mixed_consistent :
    ∃ grammar last, standard ⟨true, false, false, false⟩ Numeric.read [] = .ok grammar ∧
      (Registration.attempt mixed).run grammar =
        ([.error (.invalidName "2x"), .error (.duplicateName "IF"), .ok ()], last) ∧
      last.Consistent := by
  obtain ⟨grammar, built, flags, reserved⟩ : ∃ grammar : Grammar (Integer .signed) Unit,
      standard ⟨true, false, false, false⟩ Numeric.read [] = .ok grammar ∧ grammar.flags = ⟨true, false, false, false⟩ ∧
        grammar.reserved = ["(", ")", ",", "+", "-", "*", "/", "%", "if", "trunc"] := ⟨_, rfl, rfl, rfl⟩
  have folded (name : String) : grammar.key name = Text.lowercase name := by simp [key, caseSensitive, flags]
  have taken : grammar.isReserved "IF" = true := by
    rw [isReserved, folded, reserved]
    decide
  have free : ¬ grammar.isReserved "Max" = true := by
    rw [isReserved, folded, reserved]
    decide
  have first : (Registration.identifier (.operand "2x" (.parameter 0))).register grammar = .error (.invalidName "2x") :=
    rfl
  have second : (Registration.operator (.before "IF" (.unary .complement) 7)).register grammar =
      .error (.duplicateName "IF") := if_pos taken
  obtain ⟨next, third⟩ : ∃ next, (Registration.identifier (.function "Max" .conditional)).register grammar = .ok next :=
    ⟨_, if_neg free⟩
  have ran : (Registration.attempt mixed).run grammar =
      ([.error (.invalidName "2x"), .error (.duplicateName "IF"), .ok ()], next) := by
    simp only [mixed, Registration.attempt_cons, Registration.update_run, first, second, third]
    rfl
  exact ⟨grammar, next, built, ran, (registration_consistent _ _ _ grammar next built mixed _ ran).1⟩

end Grammar

end Formula
