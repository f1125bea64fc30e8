import Formula.Proofs.Phrase.Source
import Formula.Proofs.Text

set_option autoImplicit false

namespace Formula

variable {T σ : Type}

namespace Grammar

def Spelled (grammar : Grammar T σ) : Prop := grammar.EveryName fun template => template.name.toList ≠ []

theorem builtin_operators_spelled (flags : Flags) :
    ∀ template ∈ builtinOperators flags, (template : Template T σ).name.toList ≠ [] := by
  apply builtin_operators_each
  · simp [punctuationTemplates, Template.name, Template.punctuation]
  · simp [numericTemplates, Template.name, Template.leftBinary]
  · simp [decimalTemplates, Template.name, Template.leftBinary, Template.rightBinary]
  · simp [integerTemplates, Template.name, Template.leftBinary, Template.before]

theorem built_spelled [Numeric T] (settings : Settings T σ) (evaluator : Evaluator T σ)
    (built : settings.build = .ok evaluator) : evaluator.grammar.Spelled := by
  apply built_templates settings evaluator built (builtin_operators_spelled _)
  · simp [builtinIdentifiers, Template.name, Template.function]
  · intro name offer qualified blank
    simp [blank, Text.isQualified, Text.isQualifiedFrom, Text.isIdentifier] at qualified

theorem check_parameters_ok (grammar : Grammar T σ) (taken names : List String)
    (checked : grammar.checkParameters taken names = .ok ()) : ∀ name ∈ names, Text.isIdentifier name.toList = true := by
  fun_induction checkParameters grammar taken names with
  | case1 taken => simp
  | case2 taken name rest invalid => exact absurd checked (by simp)
  | case3 taken name rest valid reserved => exact absurd checked (by simp)
  | case4 taken name rest valid free twice => exact absurd checked (by simp)
  | case5 taken name rest valid free fresh ih =>
      have later := ih checked
      simpa using ⟨by simpa using valid, later⟩

theorem bind_parameters_ok (grammar : Grammar T σ) (names : List String) (parameters : Parameters)
    (bound : grammar.bindParameters names = .ok parameters) :
    parameters = ⟨names, grammar.caseSensitive⟩ ∧ ∀ name ∈ names, Text.isIdentifier name.toList = true := by
  unfold bindParameters at bound
  cases checked : grammar.checkParameters [] names with
  | error error => simp [checked, Except.map] at bound
  | ok _ =>
      rw [checked] at bound
      exact ⟨(Except.ok.inj bound).symm, check_parameters_ok grammar [] names checked⟩

theorem candidate_begins (grammar : Grammar T σ) (entries : List (Entry T σ)) (text : List Char)
    (template : Template T σ) (length : Nat) (member : (template, length) ∈ grammar.candidates entries text) :
    length = template.name.toList.length ∧ Text.begins grammar.caseSensitive template.name.toList text = true := by
  cases text with
  | nil => simp [candidates] at member
  | cons first rest =>
      obtain ⟨entry, -, same⟩ := List.mem_filterMap.mp member
      by_cases fits : (first ∈ entry.leads && Text.begins grammar.caseSensitive entry.template.name.toList
          (first :: rest)) = true
      · simp only [fits, if_true, Option.some.injEq, Prod.mk.injEq] at same
        obtain ⟨rfl, rfl⟩ := same
        exact ⟨rfl, (Bool.and_eq_true_iff.mp fits).2⟩
      · simp only [fits] at same
        exact absurd same (by simp)

end Grammar

namespace Parameters

def Stands (parameters : Parameters) (text : List Char) (name : String) : Prop :=
  Text.begins parameters.caseSensitive name.toList text = true ∧ Text.endsWord (text.drop name.toList.length) = true

theorem find_name (parameters : Parameters) (text : List Char) (index length : Nat)
    (found : parameters.find? text = some (index, length)) :
    ∃ name, parameters.names[index]? = some name ∧ length = name.toList.length ∧ parameters.Stands text name := by
  obtain ⟨⟨name, place⟩, member, same⟩ := List.mem_filterMap.mp (Grammar.longest_member _ _ found)
  by_cases fits : (Text.begins parameters.caseSensitive name.toList text &&
      Text.endsWord (text.drop name.toList.length)) = true
  · simp only [fits, if_true, Option.some.injEq, Prod.mk.injEq] at same
    obtain ⟨rfl, rfl⟩ := same
    exact ⟨name, by simpa using List.mem_zipIdx_iff_getElem?.mp member, rfl, Bool.and_eq_true_iff.mp fits⟩
  · simp only [fits] at same
    exact absurd same (by simp)

end Parameters

namespace Source

def Takes (rest : List Char) (length : Nat) : Prop := 0 < length ∧ length ≤ rest.length

theorem begins_takes (caseSensitive : Bool) (name rest : List Char) (filled : name ≠ [])
    (matched : Text.begins caseSensitive name rest = true) : Takes rest name.length :=
  ⟨List.length_pos_iff.mpr filled, Text.begins_length caseSensitive name rest matched⟩

theorem unknown_takes (source : Source T σ) (start : Nat) (c : Char) (rest : List Char) (template : Template T σ)
    (length : Nat) (scanned : source.scanUnknown start (c :: rest) = .ok (template, length)) :
    Takes (c :: rest) length := by
  rw [scanUnknown] at scanned
  by_cases word : (c :: rest).head?.any Text.isIdentifierStart = true
  · rw [if_pos word] at scanned
    by_cases allowed : source.allowUnknown = true
    · simp only [allowed, if_true, Except.ok.injEq, Prod.mk.injEq] at scanned
      rw [← scanned.2]
      exact Text.run_length_spec _ c rest
    · simp [allowed] at scanned
  · rw [if_neg word] at scanned
    exact absurd scanned (by simp)

-- The end that a reader returns is taken only when it is a boundary behind the start.
theorem literal_takes (source : Source T σ) (start : Nat) (c : Char) (rest : List Char) (template : Template T σ)
    (length : Nat) (scanned : source.scanLiteral start (c :: rest) = .ok (template, length)) :
    Takes (c :: rest) length := by
  unfold scanLiteral at scanned
  cases answer : source.grammar.read source.text start with
  | error details => simp [answer] at scanned
  | ok found =>
      rw [answer] at scanned
      rcases found with _ | ⟨value, stop⟩
      · exact source.unknown_takes start c rest template length scanned
      · by_cases forward : start < stop
        · cases counted : Text.charactersIn? (stop - start) (c :: rest) with
          | none => simp [forward, counted] at scanned
          | some count =>
              simp only [forward, counted, if_true, Except.ok.injEq, Prod.mk.injEq] at scanned
              obtain ⟨-, rfl⟩ := scanned
              obtain ⟨within, filled⟩ := Text.characters_in_spec _ _ _ counted
              refine ⟨Nat.pos_of_ne_zero fun none => ?_, within⟩
              simp only [none, List.take_zero, Text.width] at filled
              omega
        · simp only [forward, if_false] at scanned
          exact source.unknown_takes start c rest template length scanned

theorem scan_takes (source : Source T σ) (spelled : source.grammar.Spelled)
    (named : ∀ name ∈ source.parameters.names, name.toList ≠ []) (start : Nat) (c : Char) (rest : List Char)
    (template : Template T σ) (length : Nat) (scanned : source.scan start (c :: rest) = .ok (template, length)) :
    Takes (c :: rest) length := by
  have entry (entries : List (Entry T σ)) (filled : ∀ entry ∈ entries, entry.template.name.toList ≠ [])
      (member : (template, length) ∈ source.grammar.candidates entries (c :: rest)) : Takes (c :: rest) length := by
    obtain ⟨known, within, same⟩ := Grammar.candidate_entry _ _ _ _ member
    obtain ⟨rfl, begins⟩ := Grammar.candidate_begins _ _ _ _ _ member
    exact begins_takes _ _ _ (by simpa [same] using filled known within) begins
  unfold scan at scanned
  cases matched : (source.grammar.matchOperator (c :: rest)).or (source.grammar.matchIdentifier (c :: rest)) with
  | some found =>
      simp only [matched, Except.ok.injEq] at scanned
      subst scanned
      rcases Option.or_eq_some_iff.mp matched with operator | ⟨-, identifier⟩
      · exact entry _ spelled.1 (Grammar.longest_member _ _ operator)
      · exact entry _ spelled.2 (List.mem_filter.mp (Grammar.longest_member _ _ identifier)).1
  | none =>
      simp only [matched] at scanned
      cases bound : source.parameters.find? (c :: rest) with
      | none => exact source.literal_takes start c rest template length (by simpa [bound] using scanned)
      | some found =>
          obtain ⟨index, count⟩ := found
          simp only [bound, Except.ok.injEq, Prod.mk.injEq] at scanned
          obtain ⟨-, rfl⟩ := scanned
          obtain ⟨name, declared, rfl, begins, -⟩ := source.parameters.find_name _ _ _ bound
          exact begins_takes _ _ _ (named name (List.mem_of_getElem? declared)) begins

theorem scan_piece (source : Source T σ) (spelled : source.grammar.Spelled)
    (named : ∀ name ∈ source.parameters.names, name.toList ≠ []) (start : Nat) (c : Char) (rest : List Char)
    (template : Template T σ) (length : Nat) (scanned : source.scan start (c :: rest) = .ok (template, length)) :
    ∃ taken behind, rest = taken ++ behind ∧ length = taken.length + 1 := by
  obtain ⟨positive, within⟩ := source.scan_takes spelled named start c rest template length scanned
  refine ⟨rest.take (length - 1), rest.drop (length - 1), (List.take_append_drop _ rest).symm, ?_⟩
  rw [List.length_cons] at within
  rw [List.length_take]
  omega

-- An error of a scan covers what is there from the place where the scan began.
def Refuses (source : Source T σ) (start : Nat) (rest : List Char) (error : ParseError) : Prop :=
  ∃ kind length details, Takes rest length ∧ error = source.errorOver kind start rest length details

theorem unknown_refused (source : Source T σ) (start : Nat) (c : Char) (rest : List Char) (error : ParseError)
    (scanned : source.scanUnknown start (c :: rest) = .error error) : source.Refuses start (c :: rest) error := by
  rw [scanUnknown] at scanned
  by_cases word : (c :: rest).head?.any Text.isIdentifierStart = true
  · rw [if_pos word] at scanned
    by_cases allowed : source.allowUnknown = true
    · simp [allowed] at scanned
    · simp only [allowed, Bool.false_eq_true, if_false, Except.error.injEq] at scanned
      exact ⟨_, _, _, Text.run_length_spec _ c rest, scanned.symm⟩
  · rw [if_neg word] at scanned
    exact ⟨_, _, _, Text.run_length_spec _ c rest, (Except.error.inj scanned).symm⟩

theorem literal_refused (source : Source T σ) (start : Nat) (c : Char) (rest : List Char) (error : ParseError)
    (scanned : source.scanLiteral start (c :: rest) = .error error) : source.Refuses start (c :: rest) error := by
  have run : Takes (c :: rest) (literalRun (c :: rest)) := Text.run_length_spec _ c rest
  rw [scanLiteral] at scanned
  cases answer : source.grammar.read source.text start with
  | error details =>
      simp only [answer, Except.error.injEq] at scanned
      exact ⟨_, _, _, run, scanned.symm⟩
  | ok found =>
      rw [answer] at scanned
      rcases found with _ | ⟨value, stop⟩
      · exact source.unknown_refused start c rest error scanned
      · by_cases forward : start < stop
        · cases counted : Text.charactersIn? (stop - start) (c :: rest) with
          | none =>
              simp only [forward, counted, if_true, Except.error.injEq] at scanned
              exact ⟨_, _, _, run, scanned.symm⟩
          | some count => simp [forward, counted] at scanned
        · exact source.unknown_refused start c rest error (by simpa only [forward, if_false] using scanned)

theorem scan_refused (source : Source T σ) (start : Nat) (c : Char) (rest : List Char) (error : ParseError)
    (scanned : source.scan start (c :: rest) = .error error) : source.Refuses start (c :: rest) error := by
  rw [scan] at scanned
  cases matched : (source.grammar.matchOperator (c :: rest)).or (source.grammar.matchIdentifier (c :: rest)) with
  | some found => simp [matched] at scanned
  | none =>
      cases bound : source.parameters.find? (c :: rest) with
      | none => exact source.literal_refused start c rest error (by simpa only [matched, bound] using scanned)
      | some found => simp [matched, bound] at scanned

theorem literal_unknown (source : Source T σ)
    (literate : ∀ text start, Literal.at? text start = none → source.grammar.read text start = .ok none) (start : Nat)
    (rest : List Char) (placed : Text.dropBytes? start source.text = some rest) (nothing : Literal.scan rest = none) :
    source.scanLiteral start rest = source.scanUnknown start rest := by
  have none : Literal.at? source.text start = none := by simp [Literal.at?, placed, nothing]
  rw [scanLiteral, literate _ _ none]

structure Alike (first second : Source T σ) : Prop where
  expression : second.expression = first.expression
  allowUnknown : second.allowUnknown = first.allowUnknown
  parameters : second.parameters = first.parameters
  flags : second.grammar.flags = first.grammar.flags
  operators : second.grammar.operators = first.grammar.operators
  whitespace : second.grammar.whitespace = first.grammar.whitespace
  reader : second.grammar.reader = first.grammar.reader

section

variable (first second : Source T σ) (like : first.Alike second)

include like

theorem alike_sensitive : second.grammar.caseSensitive = first.grammar.caseSensitive := by
  rw [Grammar.caseSensitive, Grammar.caseSensitive, like.flags]

theorem alike_operator (text : List Char) : second.grammar.matchOperator text = first.grammar.matchOperator text := by
  unfold Grammar.matchOperator Grammar.candidates Grammar.caseSensitive
  rw [like.operators, like.flags]

theorem alike_white (c : Char) : second.grammar.isWhitespace c = first.grammar.isWhitespace c := by
  rw [Grammar.isWhitespace, Grammar.isWhitespace, like.whitespace]

theorem alike_literal (start : Nat) (rest : List Char) : second.scanLiteral start rest = first.scanLiteral start rest := by
  unfold scanLiteral scanUnknown errorOver Grammar.read text
  rw [like.expression, like.allowUnknown, like.flags, like.reader]

end

end Source

end Formula
