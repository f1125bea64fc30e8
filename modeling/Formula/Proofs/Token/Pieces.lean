import Formula.Proofs.Grammar.Lookup
import Formula.Proofs.Literal.Pieces
import Formula.Proofs.Token.Scan

set_option autoImplicit false

namespace Formula

variable {T σ : Type}

namespace Grammar

theorem longest_fits {α β : Type} (items : List β) (found : β → α × Nat) (here there : β → Bool) (size : Nat)
    (same : ∀ item ∈ items, (found item).2 ≤ size → here item = there item)
    (bounded : ∀ item ∈ items, here item = true → (found item).2 ≤ size)
    (within : ∀ best, longest (items.filterMap fun item => if there item then some (found item) else none) = some best →
      best.2 ≤ size) :
    longest (items.filterMap fun item => if here item then some (found item) else none) =
      longest (items.filterMap fun item => if there item then some (found item) else none) := by
  refine congrArg longest (List.filterMap_congr fun item member => ?_)
  by_cases fits : (found item).2 ≤ size
  · rw [same item member fits]
  · have absent : ¬ here item = true := fun stands => fits (bounded item member stands)
    have hidden : ¬ there item = true := by
      intro stands
      have listed : found item ∈ items.filterMap fun item => if there item then some (found item) else none :=
        List.mem_filterMap.mpr ⟨item, member, if_pos stands⟩
      cases best : longest (items.filterMap fun item => if there item then some (found item) else none) with
      | none => simp [(longest_none _).mp best] at listed
      | some chosen => exact fits (Nat.le_trans (longest_bound _ _ best _ listed) (within chosen best))
    rw [if_neg absent, if_neg hidden]

variable (grammar : Grammar T σ)

theorem operator_listed (first : Char) (text : List Char) :
    grammar.matchOperator (first :: text) = longest (grammar.operators.filterMap fun entry =>
      if first ∈ entry.leads && Text.begins grammar.caseSensitive entry.template.name.toList (first :: text) then
        some (entry.template, entry.template.name.toList.length) else none) := rfl

theorem identifier_listed (first : Char) (text : List Char) :
    grammar.matchIdentifier (first :: text) = longest (grammar.identifiers.filterMap fun entry =>
      if first ∈ entry.leads && Text.begins grammar.caseSensitive entry.template.name.toList (first :: text) &&
          Text.endsWord ((first :: text).drop entry.template.name.toList.length) then
        some (entry.template, entry.template.name.toList.length) else none) := by
  rw [matchIdentifier, candidates, List.filter_filterMap]
  refine congrArg longest (List.filterMap_congr fun entry _ => ?_)
  by_cases stands : (first ∈ entry.leads &&
      Text.begins grammar.caseSensitive entry.template.name.toList (first :: text)) = true
  · simp only [stands, if_true, Bool.true_and, Option.filter]
  · simp only [Bool.not_eq_true] at stands
    simp [stands]

variable (piece rest : List Char) (filled : piece ≠ [])

include filled

theorem operator_fits (within : ∀ template length, grammar.matchOperator (piece ++ rest) = some (template, length) →
    length ≤ piece.length) : grammar.matchOperator piece = grammar.matchOperator (piece ++ rest) := by
  obtain ⟨first, more, rfl⟩ := List.exists_cons_of_ne_nil filled
  rw [List.cons_append, operator_listed] at within
  rw [List.cons_append, operator_listed, operator_listed]
  refine longest_fits _ _ _ _ (first :: more).length ?_ ?_ fun best => within best.1 best.2
  · intro entry _ fits
    have begins := Text.begins_fits grammar.caseSensitive entry.template.name.toList (first :: more) rest fits
    rw [List.cons_append] at begins
    rw [begins]
  · intro entry _ stands
    exact Text.begins_length _ _ _ (Bool.and_eq_true_iff.mp stands).2

theorem identifier_fits (ends : Text.endsWord rest = true)
    (within : ∀ template length, grammar.matchIdentifier (piece ++ rest) = some (template, length) →
      length ≤ piece.length) : grammar.matchIdentifier piece = grammar.matchIdentifier (piece ++ rest) := by
  obtain ⟨first, more, rfl⟩ := List.exists_cons_of_ne_nil filled
  rw [List.cons_append, identifier_listed] at within
  rw [List.cons_append, identifier_listed, identifier_listed]
  refine longest_fits _ _ _ _ (first :: more).length ?_ ?_ fun best => within best.1 best.2
  · intro entry _ fits
    have begins := Text.begins_fits grammar.caseSensitive entry.template.name.toList (first :: more) rest fits
    have word := Text.ends_word_fits (first :: more) rest entry.template.name.toList.length fits ends
    rw [List.cons_append] at begins word
    rw [begins, word]
  · intro entry _ stands
    exact Text.begins_length _ _ _ (Bool.and_eq_true_iff.mp (Bool.and_eq_true_iff.mp stands).1).2

end Grammar

theorem Parameters.find_fits (parameters : Parameters) (piece rest : List Char) (ends : Text.endsWord rest = true)
    (within : ∀ index length, parameters.find? (piece ++ rest) = some (index, length) → length ≤ piece.length) :
    parameters.find? piece = parameters.find? (piece ++ rest) := by
  refine Grammar.longest_fits parameters.names.zipIdx (fun named => (named.2, named.1.toList.length)) _ _ piece.length ?_ ?_
    fun best => within best.1 best.2
  · intro named _ fits
    rw [Text.begins_fits _ _ piece rest fits, Text.ends_word_fits piece rest _ fits ends]
  · intro named _ stands
    exact Text.begins_length _ _ _ (Bool.and_eq_true_iff.mp stands).1

namespace Source

-- A source whose names hold no white space and whose literals are those of the language.
structure Separable (source : Source T σ) : Prop where
  spelled : source.grammar.Spelled
  operators : ∀ entry ∈ source.grammar.operators, ∀ c ∈ entry.template.name.toList, Text.isWhiteSpace c = false
  identifiers : ∀ entry ∈ source.grammar.identifiers, Text.Qualified entry.template.name.toList
  inputs : ∀ name ∈ source.parameters.names, Text.isIdentifier name.toList = true
  literate : ∀ text start, Literal.at? text start = none → source.grammar.read text start = .ok none
  anywhere : ∀ (text other : List Char) (start place : Nat) (shape : Literal.Shape) (digits : List Char) (stop last : Nat),
    Literal.at? text start = some ⟨shape, digits, stop⟩ → Literal.at? other place = some ⟨shape, digits, last⟩ →
      ∃ outcome : Except String T, source.grammar.read text start = outcome.map (fun value => some (value, stop)) ∧
        source.grammar.read other place = outcome.map fun value => some (value, last)

theorem Separable.named (source : Source T σ) (separable : source.Separable) :
    ∀ name ∈ source.parameters.names, name.toList ≠ [] :=
  fun name member => Text.identifier_filled _ (separable.inputs name member)

def reread (source : Source T σ) (expression : String) : Source T σ := { source with expression := expression }

variable (source : Source T σ) (expression : String) (start place : Nat)

def literalOutcome (source : Source T σ) (start : Nat) (rest : List Char) (length : Nat) :
    Except String T → Except ParseError (Template T σ × Nat)
  | .ok value => .ok (.operand (String.ofList (rest.take length)) (.literal value), length)
  | .error details => .error (source.errorOver .invalidLiteral start rest (literalRun rest) details)

theorem literal_outcome (rest : List Char) (shape : Literal.Shape) (length : Nat) (outcome : Except String T)
    (scanned : Literal.scan rest = some (shape, length))
    (reads : source.grammar.read source.text start = outcome.map fun value => some (value, start + length)) :
    source.scanLiteral start rest = source.literalOutcome start rest length outcome := by
  rw [scanLiteral, reads]
  cases outcome with
  | error details => rfl
  | ok value =>
      obtain ⟨positive, within⟩ := Literal.scan_takes rest shape length scanned
      have ascii := Literal.scan_ascii rest shape length scanned
      have wide : Text.width (rest.take length) = length := by
        rw [Text.ascii_width _ ascii, List.length_take_of_le within]
      have taken : Text.charactersIn? (start + length - start) rest = some length := by
        have counted := Text.characters_in_width (rest.take length) (rest.drop length)
        rw [wide, List.take_append_drop, List.length_take_of_le within] at counted
        rwa [Nat.add_sub_cancel_left]
      simp only [Except.map, if_pos (Nat.lt_add_of_pos_right positive), taken]
      rfl

variable (separable : source.Separable)

include separable

theorem reread_separable : (source.reread expression).Separable := ⟨separable.spelled, separable.operators, separable.identifiers,
  separable.inputs, separable.literate, separable.anywhere⟩

theorem literal_found (rest other : List Char) (shape : Literal.Shape) (length : Nat)
    (placed : Text.dropBytes? start source.text = some rest)
    (moved : Text.dropBytes? place expression.toList = some other)
    (scanned : Literal.scan rest = some (shape, length)) (again : Literal.scan other = some (shape, length))
    (same : other.take length = rest.take length) :
    ∃ outcome, source.scanLiteral start rest = source.literalOutcome start rest length outcome ∧
      (source.reread expression).scanLiteral place other = (source.reread expression).literalOutcome place other length outcome := by
  have here : Literal.at? source.text start = some ⟨shape, rest.take length, start + length⟩ := by
    simp [Literal.at?, placed, scanned]
  have there : Literal.at? (source.reread expression).text place = some ⟨shape, rest.take length, place + length⟩ := by
    have dropped : Text.dropBytes? place (source.reread expression).text = some other := moved
    simp [Literal.at?, dropped, again, same]
  obtain ⟨outcome, reads, rereads⟩ := separable.anywhere _ _ _ _ _ _ _ _ here there
  exact ⟨outcome, source.literal_outcome start rest shape length outcome scanned reads,
    (source.reread expression).literal_outcome place other shape length outcome again rereads⟩

-- What a scan of a piece finds, and what it finds where the piece stands at another place: the same, or the same fault.
inductive Moves (piece : List Char) :
    Except ParseError (Template T σ × Nat) → Except ParseError (Template T σ × Nat) → Prop
  | found (template : Template T σ) (length : Nat) :
      Moves piece (.ok (template, length)) (.ok (template, length))
  | refused (kind : ParseErrorKind) (length : Nat) (details : String) :
      Moves piece (.error (source.errorOver kind start piece length details))
        (.error ((source.reread expression).errorOver kind place piece length details))

omit separable in
theorem error_piece (kind : ParseErrorKind) (piece rest : List Char) (length : Nat) (details : String)
    (within : length ≤ piece.length) :
    source.errorOver kind start (piece ++ rest) length details = source.errorOver kind start piece length details := by
  rw [errorOver, errorOver, List.take_append_of_le_length within]

variable (piece tail : List Char) (filled : piece ≠ []) (ended : Text.Ended tail)

include filled ended

omit separable in
theorem unknown_moves : source.Moves expression start place piece (source.scanUnknown start piece)
    ((source.reread expression).scanUnknown place (piece ++ tail)) := by
  have first : (piece ++ tail).head? = piece.head? := List.head?_append_of_ne_nil _ filled
  have bounded (keep : Char → Bool) : Text.runLength keep piece ≤ piece.length := Text.run_within keep piece filled
  have words := Text.run_ended Text.isIdentifierContinue piece tail Text.continue_not_white ended filled
  have signs := Text.run_ended Text.isOperatorContinue piece tail Text.sign_not_white ended filled
  have allowed : (source.reread expression).allowUnknown = source.allowUnknown := rfl
  have taken (keep : Char → Bool) : (piece ++ tail).take (Text.runLength keep piece) = piece.take (Text.runLength keep piece) :=
    List.take_append_of_le_length (bounded keep)
  simp only [scanUnknown, first, ← words, ← signs, taken, allowed,
    error_piece _ _ _ piece tail (Text.runLength _ piece) _ (bounded _)]
  by_cases word : piece.head?.any Text.isIdentifierStart = true
  · simp only [if_pos word]
    by_cases lets : source.allowUnknown = true
    · simp only [if_pos lets]
      exact .found _ _
    · simp only [if_neg lets]
      exact .refused _ _ _
  · simp only [if_neg word]
    exact .refused _ _ _

theorem literal_moves (placed : Text.dropBytes? start source.text = some piece)
    (moved : Text.dropBytes? place expression.toList = some (piece ++ tail)) :
    source.Moves expression start place piece (source.scanLiteral start piece)
      ((source.reread expression).scanLiteral place (piece ++ tail)) := by
  have again := Literal.scan_ended piece tail ended
  cases scanned : Literal.scan piece with
  | none =>
      rw [source.literal_unknown separable.literate start piece placed scanned,
        (source.reread expression).literal_unknown separable.literate place _ moved (again.trans scanned)]
      exact source.unknown_moves expression start place piece tail filled ended
  | some found =>
      obtain ⟨shape, length⟩ := found
      obtain ⟨-, within⟩ := Literal.scan_takes piece shape length scanned
      have taken : (piece ++ tail).take length = piece.take length := List.take_append_of_le_length within
      obtain ⟨outcome, reads, rereads⟩ := source.literal_found expression start place separable piece (piece ++ tail) shape
        length placed moved scanned (again.trans scanned) taken
      rw [reads, rereads]
      cases outcome with
      | ok value =>
          rw [literalOutcome, literalOutcome, taken]
          exact .found _ _
      | error details =>
          have solid (c : Char) (keep : (Text.isIdentifierContinue c || c = '.') = true) : Text.isWhiteSpace c = false := by
            rcases Bool.or_eq_true_iff.mp keep with continues | point
            · exact Text.continue_not_white c continues
            · rw [of_decide_eq_true point]
              decide
          have run : literalRun piece = literalRun (piece ++ tail) := Text.run_ended _ piece tail solid ended filled
          have bounded : literalRun piece ≤ piece.length := Text.run_within _ piece filled
          rw [literalOutcome, literalOutcome, ← run, error_piece _ _ _ piece tail _ _ bounded]
          exact .refused _ _ _

omit filled separable in
theorem listed_ended (grammar : Grammar T σ) (entries : List (Entry T σ))
    (solid : ∀ entry ∈ entries, ∀ c ∈ entry.template.name.toList, Text.isWhiteSpace c = false) (template : Template T σ)
    (length : Nat) (listed : (template, length) ∈ grammar.candidates entries (piece ++ tail)) : length ≤ piece.length := by
  obtain ⟨entry, known, rfl, rfl, begins, -⟩ := (Grammar.mem_candidates ..).mp listed
  exact Text.begins_ended _ _ piece tail (solid entry known) ended begins

theorem scan_moves (placed : Text.dropBytes? start source.text = some piece)
    (moved : Text.dropBytes? place expression.toList = some (piece ++ tail)) :
    source.Moves expression start place piece (source.scan start piece)
      ((source.reread expression).scan place (piece ++ tail)) := by
  have ends := Text.clear_ends_word tail (Text.ended_clear tail ended)
  have words (entry : Entry T σ) (known : entry ∈ source.grammar.identifiers) :=
    Text.qualified_solid _ (separable.identifiers entry known)
  have operator (template : Template T σ) (length : Nat)
      (found : source.grammar.matchOperator (piece ++ tail) = some (template, length)) : length ≤ piece.length :=
    listed_ended piece tail ended source.grammar _ separable.operators template length (Grammar.longest_member _ _ found)
  have identifier (template : Template T σ) (length : Nat)
      (found : source.grammar.matchIdentifier (piece ++ tail) = some (template, length)) : length ≤ piece.length :=
    listed_ended piece tail ended source.grammar _ words template length
      (List.mem_filter.mp (Grammar.longest_member _ _ found)).1
  have input (index length : Nat) (found : source.parameters.find? (piece ++ tail) = some (index, length)) :
      length ≤ piece.length := by
    obtain ⟨name, declared, rfl, begins, -⟩ := source.parameters.find_name _ _ _ found
    have solid := Text.identifier_solid _ (separable.inputs name (List.mem_of_getElem? declared))
    exact Text.begins_ended _ _ piece tail solid ended begins
  have grammar : (source.reread expression).grammar = source.grammar := rfl
  have parameters : (source.reread expression).parameters = source.parameters := rfl
  rw [scan, scan, grammar, parameters, source.grammar.operator_fits piece tail filled operator,
    source.grammar.identifier_fits piece tail filled ends identifier, source.parameters.find_fits piece tail ends input]
  cases (source.grammar.matchOperator (piece ++ tail)).or (source.grammar.matchIdentifier (piece ++ tail)) with
  | some found => exact .found _ _
  | none =>
      cases bound : source.parameters.find? (piece ++ tail) with
      | some found =>
          have within := input found.1 found.2 bound
          simp only
          rw [List.take_append_of_le_length within]
          exact .found _ _
      | none => exact source.literal_moves expression start place separable piece tail filled ended placed moved

omit ended filled

theorem number_no_name (c : Char) (more : List Char) (ascii : Text.isAscii c = true) (other : Text.isIdentifierStart c = false) :
    source.grammar.matchIdentifier (c :: more) = none ∧ source.parameters.find? (c :: more) = none := by
  constructor
  · rw [Grammar.matchIdentifier, Grammar.longest_none, List.eq_nil_iff_forall_not_mem]
    rintro ⟨template, length⟩ member
    obtain ⟨entry, known, rfl, -, begins, -⟩ := (Grammar.mem_candidates ..).mp (List.mem_filter.mp member).1
    have start := Text.begins_word _ _ more c ascii (separable.identifiers entry known).start begins
    simp [other] at start
  · cases found : source.parameters.find? (c :: more) with
    | none => rfl
    | some input =>
        obtain ⟨name, declared, -, begins, -⟩ := source.parameters.find_name _ _ _ found
        obtain ⟨d, rest, spelling, starts, -⟩ :=
          Text.identifier_spelled _ (separable.inputs name (List.mem_of_getElem? declared))
        have start := Text.begins_word _ _ more c ascii ⟨d, rest, spelling, starts⟩ begins
        simp [other] at start

section

variable (rest : List Char) (template : Template T σ) (placed : Text.dropBytes? start source.text = some (piece ++ rest))
  (moved : Text.dropBytes? place expression.toList = some piece)

include filled placed moved

theorem literal_alone (found : Literal.Shape × Nat) (number : Literal.scan (piece ++ rest) = some found)
    (scanned : source.scanLiteral start (piece ++ rest) = .ok (template, piece.length)) :
    source.grammar.matchIdentifier piece = none ∧ source.parameters.find? piece = none ∧
      (source.reread expression).scanLiteral place piece = .ok (template, piece.length) := by
  obtain ⟨shape, length⟩ := found
  have whole : length = piece.length := by
    obtain ⟨outcome, reads, -⟩ := source.literal_found source.expression start start separable _ _ shape length placed
      placed number number rfl
    rw [reads] at scanned
    cases outcome with
    | ok value => exact (Prod.mk.inj (Except.ok.inj scanned)).2
    | error details => exact absurd scanned (by simp [literalOutcome])
  subst whole
  have alone := Literal.scan_whole piece rest shape number
  have taken : piece.take piece.length = (piece ++ rest).take piece.length := by simp
  obtain ⟨outcome, reads, rereads⟩ := source.literal_found expression start place separable (piece ++ rest) piece shape
    piece.length placed moved number alone taken
  obtain ⟨c, more, rfl, ascii, other, -⟩ := Literal.scan_first _ _ alone
  obtain ⟨identifier, input⟩ := source.number_no_name separable c more ascii other
  refine ⟨identifier, input, ?_⟩
  rw [rereads, ← scanned, reads]
  cases outcome with
  | ok value => rw [literalOutcome, literalOutcome, taken]
  | error details =>
      rw [reads] at scanned
      exact absurd scanned (by simp [literalOutcome])

theorem unknown_alone (scanned : source.scanUnknown start (piece ++ rest) = .ok (template, piece.length)) :
    Text.endsWord rest = true ∧ (source.reread expression).scanLiteral place piece = .ok (template, piece.length) := by
  have first : (piece ++ rest).head? = piece.head? := List.head?_append_of_ne_nil _ filled
  have allowed : (source.reread expression).allowUnknown = source.allowUnknown := rfl
  rw [scanUnknown, first] at scanned
  by_cases word : piece.head?.any Text.isIdentifierStart = true
  · by_cases lets : source.allowUnknown = true
    · simp only [if_pos word, if_pos lets, Except.ok.injEq, Prod.mk.injEq] at scanned
      obtain ⟨rfl, whole⟩ := scanned
      have run := Text.run_fits Text.isIdentifierContinue piece rest filled (Nat.le_of_eq whole)
      have stops := Text.run_stops Text.isIdentifierContinue piece rest filled whole
      constructor
      · cases rest with
        | nil => rfl
        | cons d more =>
            rw [Text.endsWord, Bool.not_eq_true', Bool.eq_false_iff]
            intro continues
            simp [List.takeWhile_cons_of_pos continues] at stops
      · obtain ⟨c, more, rfl⟩ := List.exists_cons_of_ne_nil filled
        have start : Text.isIdentifierStart c = true := by simpa using word
        rw [(source.reread expression).literal_unknown separable.literate place _ moved
          (Literal.scan_name c more start)]
        simp only [scanUnknown, if_pos word, allowed, if_pos lets, run, whole]
        simp
    · simp [word, lets] at scanned
  · simp [word] at scanned

theorem scan_alone (scanned : source.scan start (piece ++ rest) = .ok (template, piece.length)) :
    (source.reread expression).scan place piece = .ok (template, piece.length) := by
  have grammar : (source.reread expression).grammar = source.grammar := rfl
  have parameters : (source.reread expression).parameters = source.parameters := rfl
  rw [scan] at scanned
  rw [scan, grammar, parameters]
  cases operator : source.grammar.matchOperator (piece ++ rest) with
  | some found =>
      obtain rfl : found = (template, piece.length) := by simpa [operator] using scanned
      have alone := source.grammar.operator_fits piece rest filled (by simp [operator])
      simp only [alone.trans operator, Option.some_or]
  | none =>
      have alone := (source.grammar.operator_fits piece rest filled (by simp [operator])).trans operator
      cases identifier : source.grammar.matchIdentifier (piece ++ rest) with
      | some found =>
          obtain rfl : found = (template, piece.length) := by simpa [operator, identifier] using scanned
          have ends : Text.endsWord rest = true := by
            have after := (List.mem_filter.mp (Grammar.longest_member _ _ identifier)).2
            simpa only [List.drop_left] using after
          have word := source.grammar.identifier_fits piece rest filled ends (by simp [identifier])
          simp only [alone, word.trans identifier, Option.none_or]
      | none =>
          simp only [operator, identifier, Option.none_or] at scanned
          have word (ends : Text.endsWord rest = true) : source.grammar.matchIdentifier piece = none :=
            (source.grammar.identifier_fits piece rest filled ends (by simp [identifier])).trans identifier
          cases input : source.parameters.find? (piece ++ rest) with
          | some found =>
              obtain ⟨index, length⟩ := found
              simp only [input, Except.ok.injEq, Prod.mk.injEq] at scanned
              obtain ⟨rfl, rfl⟩ := scanned
              obtain ⟨name, -, same, -, after⟩ := source.parameters.find_name _ _ _ input
              have ends : Text.endsWord rest = true := by simpa only [← same, List.drop_left] using after
              have fits := source.parameters.find_fits piece rest ends (by simp [input])
              simp [alone, word ends, fits.trans input]
          | none =>
              simp only [input] at scanned
              cases number : Literal.scan (piece ++ rest) with
              | some found =>
                  obtain ⟨noName, noInput, reads⟩ := source.literal_alone expression start place separable piece filled rest
                    template placed moved found number scanned
                  simp only [alone, noName, noInput, Option.none_or, reads]
              | none =>
                  rw [source.literal_unknown separable.literate start _ placed number] at scanned
                  obtain ⟨ends, reads⟩ := source.unknown_alone expression start place separable piece filled rest template
                    placed moved scanned
                  have fits := source.parameters.find_fits piece rest ends (by simp [input])
                  simp only [alone, word ends, fits.trans input, Option.none_or, reads]

end

end Source

end Formula
