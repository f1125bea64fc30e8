import Formula.Numeric.Integer
import Formula.Proofs.Text.Letters
import Formula.Proofs.Token.Scan

set_option autoImplicit false

namespace Formula

variable {T σ : Type}

namespace Grammar

theorem longest_fold {α : Type} (found : List (α × Nat)) (start : Option (α × Nat)) :
    let kept := found.foldl (fun best candidate =>
      match best with
      | none => some candidate
      | some kept => if kept.2 ≤ candidate.2 then some candidate else some kept) start
    (kept = none → start = none ∧ found = []) ∧
      ∀ best, kept = some best → (∀ old, start = some old → old.2 ≤ best.2) ∧ ∀ other ∈ found, other.2 ≤ best.2 := by
  induction found generalizing start with
  | nil =>
      refine ⟨fun nothing => ⟨nothing, rfl⟩, fun best chosen => ⟨fun old first => ?_, by simp⟩⟩
      obtain rfl := Option.some.inj (first.symm.trans chosen)
      exact Nat.le_refl _
  | cons candidate rest ih =>
      intro kept
      cases start with
      | none =>
          obtain ⟨none, some⟩ := ih (.some candidate)
          refine ⟨fun nothing => absurd (none nothing).1 (by simp), fun best chosen => ?_⟩
          obtain ⟨first, later⟩ := some best chosen
          exact ⟨by simp, List.forall_mem_cons.mpr ⟨first candidate rfl, later⟩⟩
      | some old =>
          obtain ⟨none, some⟩ := ih (if old.2 ≤ candidate.2 then .some candidate else .some old)
          refine ⟨fun nothing => absurd (none nothing).1 (by split <;> simp), fun best chosen => ?_⟩
          obtain ⟨first, later⟩ := some best chosen
          split at first
          · have reach := first candidate rfl
            refine ⟨?_, List.forall_mem_cons.mpr ⟨reach, later⟩⟩
            rintro _ ⟨⟩
            omega
          · have reach := first old rfl
            refine ⟨?_, List.forall_mem_cons.mpr ⟨by omega, later⟩⟩
            rintro _ ⟨⟩
            exact reach

theorem longest_none {α : Type} (found : List (α × Nat)) : longest found = none ↔ found = [] :=
  ⟨fun nothing => ((longest_fold found none).1 nothing).2, fun empty => empty ▸ rfl⟩

theorem longest_bound {α : Type} (found : List (α × Nat)) (best : α × Nat) (longest : longest found = some best) :
    ∀ other ∈ found, other.2 ≤ best.2 :=
  ((longest_fold found none).2 best longest).2

inductive Reached : Grammar T σ → Prop
  | blank (flags : Flags) (whitespace : List Char) (reader : Reader T) :
      Reached ⟨flags, [], [], [], whitespace, reader⟩
  | operator (grammar next : Grammar T σ) (template : Template T σ) (reached : Reached grammar)
      (registered : grammar.registerOperator template = .ok next) : Reached next
  | identifier (grammar next : Grammar T σ) (template : Template T σ) (reached : Reached grammar)
      (registered : grammar.registerIdentifier template = .ok next) : Reached next

theorem standard_reached [Numeric T] (flags : Flags) (reader : Reader T) (whitespace : List Char)
    (grammar : Grammar T σ) (standard : standard flags reader whitespace = .ok grammar) : grammar.Reached :=
  standard_keeps flags reader whitespace (.blank flags whitespace reader)
    (fun template _ grammar next reached registered => .operator grammar next template reached registered)
    (fun template _ grammar next reached registered => .identifier grammar next template reached registered)
    grammar standard

theorem built_reached [Numeric T] (settings : Settings T σ) (evaluator : Evaluator T σ)
    (built : settings.build = .ok evaluator) : evaluator.grammar.Reached :=
  built_induction settings evaluator built (fun reader => .blank settings.flags settings.whitespace reader)
    (fun template _ grammar next reached registered => .operator grammar next template reached registered)
    (fun template _ grammar next reached registered => .identifier grammar next template reached registered)
    fun _ _ grammar next reached registered => .identifier grammar next _ reached registered

-- Every name is listed under the characters that it can start with.
structure Indexed (grammar : Grammar T σ) : Prop where
  operators : ∀ entry ∈ grammar.operators, entry.leads = grammar.leads entry.template.name
  identifiers : ∀ entry ∈ grammar.identifiers, entry.leads = grammar.leads entry.template.name

theorem reached_indexed (grammar : Grammar T σ) (reached : grammar.Reached) : grammar.Indexed := by
  induction reached with
  | blank flags whitespace reader => exact ⟨by simp, by simp⟩
  | operator grammar next template reached registered ih =>
      obtain ⟨-, rfl⟩ := register_operator_ok grammar next template registered
      exact ⟨List.forall_mem_append.mpr ⟨ih.operators, List.forall_mem_singleton.mpr rfl⟩, ih.identifiers⟩
  | identifier grammar next template reached registered ih =>
      obtain ⟨-, -, rfl⟩ := register_identifier_ok grammar next template registered
      exact ⟨ih.operators, List.forall_mem_append.mpr ⟨ih.identifiers, List.forall_mem_singleton.mpr rfl⟩⟩

theorem reached_qualified (grammar : Grammar T σ) (reached : grammar.Reached) :
    ∀ entry ∈ grammar.identifiers, Text.Qualified entry.template.name.toList := by
  induction reached with
  | blank flags whitespace reader => simp
  | operator grammar next template reached registered ih =>
      obtain ⟨-, rfl⟩ := register_operator_ok grammar next template registered
      exact ih
  | identifier grammar next template reached registered ih =>
      obtain ⟨qualified, -, rfl⟩ := register_identifier_ok grammar next template registered
      exact List.forall_mem_append.mpr ⟨ih, List.forall_mem_singleton.mpr (Text.qualified_spelled _ qualified)⟩

theorem mem_candidates (grammar : Grammar T σ) (entries : List (Entry T σ)) (text : List Char) (template : Template T σ)
    (length : Nat) :
    (template, length) ∈ grammar.candidates entries text ↔
      ∃ entry ∈ entries, entry.template = template ∧ length = template.name.toList.length ∧
        Text.begins grammar.caseSensitive template.name.toList text = true ∧
        ∃ first, text.head? = some first ∧ first ∈ entry.leads := by
  cases text with
  | nil => simp [candidates]
  | cons first rest =>
      simp only [candidates, List.mem_filterMap, Option.ite_none_right_eq_some, Option.some.injEq, Prod.mk.injEq,
        Bool.and_eq_true, decide_eq_true_eq, List.head?_cons, exists_eq_left']
      constructor
      · rintro ⟨entry, known, ⟨lead, begins⟩, rfl, rfl⟩
        exact ⟨entry, known, rfl, rfl, begins, lead⟩
      · rintro ⟨entry, known, rfl, rfl, begins, lead⟩
        exact ⟨entry, known, ⟨lead, begins⟩, rfl, rfl⟩

structure Stands (grammar : Grammar T σ) (text : List Char) (entry : Entry T σ) : Prop where
  known : entry ∈ grammar.identifiers
  begins : Text.begins grammar.caseSensitive entry.template.name.toList text = true
  ends : Text.endsWord (text.drop entry.template.name.toList.length) = true
  lead : ∃ first, text.head? = some first ∧ first ∈ entry.leads

theorem identifier_stands (grammar : Grammar T σ) (text : List Char) (template : Template T σ) (length : Nat)
    (found : grammar.matchIdentifier text = some (template, length)) :
    ∃ entry, grammar.Stands text entry ∧ entry.template = template ∧ length = entry.template.name.toList.length := by
  obtain ⟨listed, ends⟩ := List.mem_filter.mp (longest_member _ _ found)
  obtain ⟨entry, known, rfl, rfl, begins, lead⟩ := (mem_candidates ..).mp listed
  exact ⟨entry, ⟨known, begins, ends, lead⟩, rfl, rfl⟩

theorem identifier_reaches (grammar : Grammar T σ) (text : List Char) (entry : Entry T σ) (stands : grammar.Stands text entry) :
    ∃ template length, grammar.matchIdentifier text = some (template, length) ∧
      entry.template.name.toList.length ≤ length := by
  have here : (entry.template, entry.template.name.toList.length) ∈
      (grammar.candidates grammar.identifiers text).filter fun found => Text.endsWord (text.drop found.2) :=
    List.mem_filter.mpr
      ⟨(mem_candidates ..).mpr ⟨entry, stands.known, rfl, rfl, stands.begins, stands.lead⟩, stands.ends⟩
  cases best : grammar.matchIdentifier text with
  | none => exact absurd here (by simp [(longest_none _).mp best])
  | some found => exact ⟨found.1, found.2, rfl, longest_bound _ _ best _ here⟩

-- The text starts with a character that the name is listed under, if the two start with one letter.
def Visible (grammar : Grammar T σ) (text : List Char) (template : Template T σ) : Prop :=
  grammar.caseSensitive = true ∨ ∀ first c, text.head? = some first → template.name.toList.head? = some c →
    Text.lower first = [first] ∨ Text.Restored first ∧ Text.Restored c

theorem visible_listed (grammar : Grammar T σ) (text : List Char) (entry : Entry T σ)
    (visible : grammar.Visible text entry.template) (indexed : entry.leads = grammar.leads entry.template.name)
    (spelled : entry.template.name.toList ≠ [])
    (begins : Text.begins grammar.caseSensitive entry.template.name.toList text = true) :
    ∃ first, text.head? = some first ∧ first ∈ entry.leads := by
  obtain ⟨c, name, spelling⟩ := List.exists_cons_of_ne_nil spelled
  rw [spelling] at begins
  obtain ⟨first, rest, rfl⟩ : ∃ first rest, text = first :: rest := by
    cases text with
    | nil => exact absurd begins (by simp [Text.begins])
    | cons first rest => exact ⟨first, rest, rfl⟩
  refine ⟨first, rfl, ?_⟩
  have same := (Text.same_letter_iff _ _ _).mp (Bool.and_eq_true_iff.mp begins).1
  rw [indexed, leads, spelling]
  cases sensitive : grammar.caseSensitive with
  | true => simpa [sensitive, Text.letter] using same
  | false =>
      have low : Text.lower first = Text.lower c := by simpa [sensitive, Text.letter] using same
      simp only [Bool.false_eq_true, if_false]
      rcases (visible.resolve_left (by simp [sensitive])) first c rfl (by simp [spelling]) with own | ⟨restored, other⟩
      · exact (Text.case_variants_iff c first).mpr (.inr (.inl (by simp [← low, own])))
      · exact Text.variant_of_same c first low other restored

def nameEnd? (grammar : Grammar T σ) (text : List Char) (start : Nat) (template : Template T σ) : Option Nat :=
  if template.name.toList = [] then none
  else Text.matchAt? grammar.caseSensitive template.name.toList text start

def wordEnd? (grammar : Grammar T σ) (text : List Char) (start : Nat) (template : Template T σ) : Option Nat :=
  (grammar.nameEnd? text start template).filter fun stop => (Text.dropBytes? stop text).any Text.endsWord

-- What trying every name that can be seen finds: one with the largest end, or nothing where none stands.
inductive Scanned (ends : Template T σ → Option Nat) (seen : Template T σ → Prop) (entries : List (Entry T σ)) :
    Option (Template T σ × Nat) → Prop
  | nothing (missing : ∀ entry ∈ entries, seen entry.template → ends entry.template = none) :
      Scanned ends seen entries none
  | found (entry : Entry T σ) (known : entry ∈ entries) (stop : Nat) (here : ends entry.template = some stop)
      (largest : ∀ other ∈ entries, seen other.template → ∀ far, ends other.template = some far → far ≤ stop) :
      Scanned ends seen entries (some (entry.template, stop))

theorem name_end_iff (grammar : Grammar T σ) (text : List Char) (start : Nat) (rest : List Char)
    (boundary : Text.dropBytes? start text = some rest) (template : Template T σ) (stop : Nat) :
    grammar.nameEnd? text start template = some stop ↔
      template.name.toList ≠ [] ∧ Text.begins grammar.caseSensitive template.name.toList rest = true ∧
        stop = start + Text.width (rest.take template.name.toList.length) := by
  rw [nameEnd?, Text.matchAt?, boundary]
  by_cases blank : template.name.toList = []
  · simp [blank]
  · simp [blank, bind, eq_comm (a := stop)]

theorem word_end_iff (grammar : Grammar T σ) (text : List Char) (start : Nat) (rest : List Char)
    (boundary : Text.dropBytes? start text = some rest) (template : Template T σ) (stop : Nat) :
    grammar.wordEnd? text start template = some stop ↔ grammar.nameEnd? text start template = some stop ∧
      Text.endsWord (rest.drop template.name.toList.length) = true := by
  rw [wordEnd?, Option.filter_eq_some_iff]
  refine and_congr_right fun here => ?_
  obtain ⟨-, -, rfl⟩ := (grammar.name_end_iff text start rest boundary template stop).mp here
  have later := Text.drop_bytes_later start text (rest.take template.name.toList.length) (rest.drop template.name.toList.length)
    ((List.take_append_drop _ rest).symm ▸ boundary)
  simp [later]

theorem longest_scanned (entries : List (Entry T σ)) (found : List (Template T σ × Nat))
    (ends : Template T σ → Option Nat) (seen : Template T σ → Prop) (place : Nat → Nat)
    (mono : ∀ few many, few ≤ many → place few ≤ place many)
    (sound : ∀ template length, (template, length) ∈ found →
      ∃ entry ∈ entries, entry.template = template ∧ ends template = some (place length))
    (complete : ∀ entry ∈ entries, seen entry.template → ∀ stop, ends entry.template = some stop →
      ∃ length, (entry.template, length) ∈ found ∧ stop = place length) :
    Scanned ends seen entries ((longest found).map fun (template, length) => (template, place length)) := by
  cases best : longest found with
  | none =>
      refine .nothing fun entry known visible => ?_
      by_contra some
      obtain ⟨stop, here⟩ := Option.ne_none_iff_exists'.mp some
      obtain ⟨length, member, -⟩ := complete entry known visible stop here
      exact absurd member (by simp [(longest_none found).mp best])
  | some chosen =>
      obtain ⟨template, length⟩ := chosen
      obtain ⟨entry, known, rfl, here⟩ := sound template length (longest_member found _ best)
      refine .found entry known (place length) here fun other member visible far there => ?_
      obtain ⟨reach, listed, rfl⟩ := complete other member visible far there
      exact mono _ _ (longest_bound found _ best _ listed)

section

variable (grammar : Grammar T σ) (text : List Char) (start : Nat) (rest : List Char)
  (boundary : Text.dropBytes? start text = some rest) (entries : List (Entry T σ))
  (each : ∀ entry ∈ entries, entry.leads = grammar.leads entry.template.name)

include boundary each

theorem candidate_ends (template : Template T σ) (length : Nat)
    (member : (template, length) ∈ grammar.candidates entries rest) :
    length = template.name.toList.length ∧ ∃ entry ∈ entries, entry.template = template ∧
      grammar.nameEnd? text start template = some (start + Text.width (rest.take length)) := by
  obtain ⟨entry, known, rfl, rfl, begins, first, here, lead⟩ := (mem_candidates ..).mp member
  refine ⟨rfl, entry, known, rfl, (grammar.name_end_iff text start rest boundary _ _).mpr ⟨fun blank => ?_, begins, rfl⟩⟩
  rw [each entry known, leads, blank] at lead
  simp at lead

theorem ends_candidate (entry : Entry T σ) (known : entry ∈ entries) (visible : grammar.Visible rest entry.template)
    (stop : Nat) (here : grammar.nameEnd? text start entry.template = some stop) :
    (entry.template, entry.template.name.toList.length) ∈ grammar.candidates entries rest ∧
      stop = start + Text.width (rest.take entry.template.name.toList.length) := by
  obtain ⟨spelled, begins, rfl⟩ := (grammar.name_end_iff text start rest boundary _ _).mp here
  have listed := grammar.visible_listed rest entry visible (each entry known) spelled begins
  exact ⟨(mem_candidates ..).mpr ⟨entry, known, rfl, rfl, begins, listed⟩, rfl⟩

end

-- Looking names up under the first character of the text finds what trying every name would, among those that
-- start with a letter that its case forms lead back to.
theorem lookup_scans_all (grammar : Grammar T σ) (reached : grammar.Reached) (text : List Char) (start : Nat)
    (rest : List Char) (boundary : Text.dropBytes? start text = some rest) :
    Scanned (grammar.nameEnd? text start) (grammar.Visible rest) grammar.operators
        ((grammar.matchOperator rest).map fun (template, length) =>
          (template, start + Text.width (rest.take length))) ∧
      Scanned (grammar.wordEnd? text start) (grammar.Visible rest) grammar.identifiers
        ((grammar.matchIdentifier rest).map fun (template, length) =>
          (template, start + Text.width (rest.take length))) := by
  have indexed := grammar.reached_indexed reached
  have mono (few many : Nat) (fewer : few ≤ many) :
      start + Text.width (rest.take few) ≤ start + Text.width (rest.take many) :=
    Nat.add_le_add_left (Text.width_take rest few many fewer) start
  have sound := grammar.candidate_ends text start rest boundary
  have complete := grammar.ends_candidate text start rest boundary
  constructor
  · refine longest_scanned _ _ _ _ (fun length => start + Text.width (rest.take length)) mono ?_ ?_
    · exact fun template length member => (sound _ indexed.operators template length member).2
    · exact fun entry known visible stop here => ⟨_, complete _ indexed.operators entry known visible stop here⟩
  · refine longest_scanned _ _ _ _ (fun length => start + Text.width (rest.take length)) mono ?_ ?_
    · intro template length member
      obtain ⟨listed, word⟩ := List.mem_filter.mp member
      obtain ⟨rfl, entry, known, same, here⟩ := sound _ indexed.identifiers template length listed
      exact ⟨entry, known, same, (grammar.word_end_iff text start rest boundary template _).mpr ⟨here, word⟩⟩
    · intro entry known visible stop there
      obtain ⟨here, word⟩ := (grammar.word_end_iff text start rest boundary entry.template stop).mp there
      obtain ⟨listed, same⟩ := complete _ indexed.identifiers entry known visible stop here
      exact ⟨_, List.mem_filter.mpr ⟨listed, word⟩, same⟩

-- A name that starts with a letter of which there is a third form.
def unit : Template (Integer .signed) Unit := .operand "kelvin" (.literal (Integer.ofBits .signed 1))

theorem unit_registered :
    ∃ before grammar, standard ⟨true, false, false, false⟩ Numeric.read [] = .ok before ∧
      before.registerIdentifier unit = .ok grammar ∧ grammar.matchIdentifier "KELVIN".toList = some (unit, 6) ∧
      grammar.matchIdentifier "\u212aelvin".toList = none ∧
      grammar.wordEnd? "\u212aelvin".toList 0 unit = some 8 := by
  refine ⟨_, _, rfl, rfl, ?_, ?_, ?_⟩
  all_goals with_unfolding_all rfl

theorem unit_scanned :
    ∃ grammar : Grammar (Integer .signed) Unit, grammar.Reached ∧
      Text.dropBytes? 2 "2*KELVIN".toList = some "KELVIN".toList ∧ grammar.Visible "KELVIN".toList unit ∧
      Scanned (grammar.wordEnd? "2*KELVIN".toList 2) (grammar.Visible "KELVIN".toList) grammar.identifiers
        (some (unit, 8)) := by
  obtain ⟨before, grammar, standard, registered, found, -⟩ := unit_registered
  have reached : grammar.Reached := .identifier before grammar unit (standard_reached _ _ _ before standard) registered
  have boundary : Text.dropBytes? 2 "2*KELVIN".toList = some "KELVIN".toList := by decide
  have visible : grammar.Visible "KELVIN".toList unit := by
    refine .inr fun first c here starts => ?_
    obtain rfl := Option.some.inj here
    obtain rfl := Option.some.inj starts
    decide
  have scanned := (lookup_scans_all grammar reached "2*KELVIN".toList 2 "KELVIN".toList boundary).2
  rw [found] at scanned
  exact ⟨grammar, reached, boundary, visible, scanned⟩

-- The Kelvin sign is the letter that the name starts with, but the name is not listed under it.
theorem unit_hidden :
    ∃ grammar : Grammar (Integer .signed) Unit, grammar.Reached ∧
      (∃ entry ∈ grammar.identifiers, grammar.wordEnd? "\u212aelvin".toList 0 entry.template = some 8) ∧
      grammar.matchIdentifier "\u212aelvin".toList = none := by
  obtain ⟨before, grammar, standard, registered, found, hidden, stands⟩ := unit_registered
  have reached : grammar.Reached := .identifier before grammar unit (standard_reached _ _ _ before standard) registered
  obtain ⟨entry, known, same⟩ :=
    candidate_entry grammar _ _ _ (List.mem_filter.mp (longest_member _ _ found)).1
  exact ⟨grammar, reached, ⟨entry, known, same ▸ stands⟩, hidden⟩

end Grammar

end Formula
