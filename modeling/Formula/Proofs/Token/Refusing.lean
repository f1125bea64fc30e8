import Formula.Proofs.Literal.Parts
import Formula.Proofs.Token.Spacing

set_option autoImplicit false

namespace Formula

variable {T σ : Type}

namespace Literal

def runs (c : Char) : Bool := Text.isIdentifierContinue c || c = '.'

def Unsigned (text : List Char) : Prop := ∀ c ∈ text, c ≠ '+' ∧ c ≠ '-'

instance (text : List Char) : Decidable (Unsigned text) := List.decidableBAll _ text

theorem parts_run (parts : Parts) : ∀ c ∈ parts.text, runs c = true ↔ c ≠ '+' ∧ c ≠ '-' := by
  cases parts with
  | hexadecimal parts =>
      have each (c : Char) (hex : isHexDigit c = true) : runs c = true ↔ c ≠ '+' ∧ c ≠ '-' :=
        Text.ascii_all (P := fun c => isHexDigit c = true → (runs c = true ↔ c ≠ '+' ∧ c ≠ '-')) (by decide) c
          (hex_ascii c hex) hex
      have mark : runs parts.mark = true ↔ parts.mark ≠ '+' ∧ parts.mark ≠ '-' := by
        rcases parts.marks with small | large
        · rw [small]
          decide
        · rw [large]
          decide
      rw [Parts.text, List.forall_mem_cons, List.forall_mem_cons]
      exact ⟨by decide, mark, fun c member => each c (parts.numeric c member)⟩
  | number parts =>
      intro c member
      have decimal := parts.text_decimal c member
      exact Text.ascii_all (P := fun c => isDecimal c = true → (runs c = true ↔ c ≠ '+' ∧ c ≠ '-')) (by decide) c
        (decimal_ascii c decimal) decimal

theorem first_runs (c : Char) (first : isDigit c = true ∨ c = '.') : runs c = true := by
  rcases first with digit | rfl
  · simp [runs, digit_continues c digit]
  · decide

section

variable (parts : Parts) (after : List Char)

theorem unsigned_run (unsigned : Unsigned parts.text) :
    (parts.text ++ after).takeWhile runs = parts.text ++ after.takeWhile runs :=
  List.takeWhile_append_of_pos fun c member => (parts_run parts c member).mpr (unsigned c member)

theorem signed_run (signed : ¬ Unsigned parts.text) :
    ∃ sign rest, parts.text = (parts.text ++ after).takeWhile runs ++ sign :: rest ∧ (sign = '+' ∨ sign = '-') := by
  have split := List.takeWhile_append_dropWhile (p := runs) (l := parts.text)
  cases behind : parts.text.dropWhile runs with
  | nil => exact absurd (fun c member => (parts_run parts c member).mp (List.dropWhile_eq_nil_iff.mp behind c member)) signed
  | cons sign rest =>
      have stops : ¬ runs sign = true := by
        have head := List.head_dropWhile_not runs (l := parts.text) (by simp [behind])
        simpa [behind] using head
      have inside : sign ∈ parts.text := (List.dropWhile_sublist runs).subset (behind ▸ List.mem_cons_self)
      rw [behind] at split
      have shorter : ¬ (parts.text.takeWhile runs).length = parts.text.length := by
        have lengths := congrArg List.length split
        rw [List.length_append, List.length_cons] at lengths
        omega
      refine ⟨sign, rest, ?_, ?_⟩
      · rw [List.takeWhile_append, if_neg shorter, split]
      · simpa [parts_run parts sign inside, or_iff_not_imp_left] using stops

theorem clear_runs : Text.Clear after ↔ after.takeWhile runs = [] := by
  cases after with
  | nil => simp [Text.clear_nil]
  | cons c more => simp [Text.Clear, runs]

theorem run_exact :
    Text.width ((parts.text ++ after).takeWhile runs) = Text.width parts.text ↔ Unsigned parts.text ∧ Text.Clear after := by
  by_cases unsigned : Unsigned parts.text
  · rw [unsigned_run parts after unsigned, Text.width_append, clear_runs]
    constructor
    · intro even
      refine ⟨unsigned, Decidable.byContradiction fun joined => ?_⟩
      have wide := Text.width_pos _ joined
      omega
    · rintro ⟨-, clear⟩
      rw [clear]
      rfl
  · obtain ⟨sign, more, split, -⟩ := signed_run parts after unsigned
    have wide := Text.width_pos (sign :: more) (by simp)
    have widths := congrArg Text.width split
    rw [Text.width_append] at widths
    constructor
    · intro even
      omega
    · exact fun exactly => absurd exactly.1 unsigned

end

end Literal

namespace Source

-- The places that the lexer comes to, with the tokens that it has found on the way.
inductive Reaches (source : Source T σ) : List (Token T σ) → Nat → List Char → Prop
  | first : Reaches source [] 0 source.text
  | blank (tokens : List (Token T σ)) (place : Nat) (c : Char) (rest : List Char)
      (reached : Reaches source tokens place (c :: rest)) (white : source.grammar.isWhitespace c = true) :
      Reaches source tokens (place + c.utf8Size) rest
  | token (tokens : List (Token T σ)) (place : Nat) (piece rest : List Char) (template : Template T σ)
      (reached : Reaches source tokens place (piece ++ rest)) (filled : piece ≠ [])
      (visible : ∀ c, piece.head? = some c → source.grammar.isWhitespace c = false)
      (scanned : source.scan place (piece ++ rest) = .ok (template, piece.length)) :
      Reaches source (tokens ++ [.ofTemplate template ⟨place, place + Text.width piece⟩]) (place + Text.width piece) rest

theorem reaches_tokens (source : Source T σ) (tokens : List (Token T σ)) (place : Nat) (rest : List Char)
    (reached : source.Reaches tokens place rest) :
    source.tokens = tokens.map .ok ++ source.tokensFrom place rest ∧ Text.dropBytes? place source.text = some rest := by
  induction reached with
  | first => exact ⟨rfl, Text.drop_bytes_zero _⟩
  | blank tokens place c rest reached white ih =>
      obtain ⟨listed, placed⟩ := ih
      have skipped : source.tokensFrom place (c :: rest) = source.tokensFrom (place + c.utf8Size) rest := by
        rw [tokensFrom, if_pos white]
      exact ⟨skipped ▸ listed, Text.drop_bytes_later place _ [c] rest placed⟩
  | token tokens place piece rest template reached filled visible scanned ih =>
      obtain ⟨listed, placed⟩ := ih
      have lexes := source.token_lexes place piece rest template filled visible scanned
      rw [Lexes] at lexes
      rw [lexes, ← List.append_assoc, ← List.map_append] at listed
      exact ⟨listed, Text.drop_bytes_later place _ piece rest placed⟩

theorem number_scanned (flags : Flags) (source : Source T σ) (separable : source.Separable)
    (standard : source.grammar.Standard flags) (start : Nat) (rest : List Char) (found : Literal.Shape × Nat)
    (number : Literal.scan rest = some found) : source.scan start rest = source.scanLiteral start rest := by
  obtain ⟨c, more, rfl, ascii, other, began⟩ := Literal.scan_first rest found number
  have sign : Grammar.isSign c = false := by
    rcases Bool.or_eq_true_iff.mp (Literal.first_runs c began) with continues | point
    · simp [Grammar.isSign, continues]
    · simp [Grammar.isSign, of_decide_eq_true point]
  obtain ⟨identifier, input⟩ := source.number_no_name separable c more ascii other
  rw [scan, source.grammar.sign_missing flags standard c more sign, identifier, Option.or_none, input]

theorem number_refused (flags : Flags) (source : Source T σ) (separable : source.Separable)
    (standard : source.grammar.Standard flags) (start : Nat) (rest : List Char)
    (visible : ∀ c, rest.head? = some c → source.grammar.isWhitespace c = false)
    (placed : Text.dropBytes? start source.text = some rest) (found : Literal.Shape × Nat)
    (number : Literal.scan rest = some found) (details : String)
    (refused : source.grammar.read source.text start = .error details) :
    ∃ error, source.tokensFrom start rest = [.error error] ∧ error.kind = .invalidLiteral ∧ error.details = details ∧
      error.start = start ∧ error.stop = some (start + Text.width (rest.takeWhile Literal.runs)) ∧
      error.offendingText.toList = rest.takeWhile Literal.runs := by
  obtain ⟨c, more, rfl, -, -, began⟩ := Literal.scan_first rest found number
  have run := Literal.first_runs c began
  have taken : (c :: more).take (literalRun (c :: more)) = (c :: more).takeWhile Literal.runs := by
    change (c :: more).take (1 + (more.takeWhile Literal.runs).length) = _
    rw [List.takeWhile_cons_of_pos run, Nat.add_comm, List.take_succ_cons,
      ← List.prefix_iff_eq_take.mp (List.takeWhile_prefix Literal.runs)]
  refine ⟨source.errorOver .invalidLiteral start (c :: more) (literalRun (c :: more)) details, ?_, rfl, rfl, rfl, ?_, ?_⟩
  · have scanned := source.number_scanned flags separable standard start (c :: more) found number
    rw [scanLiteral, refused] at scanned
    rw [tokensFrom, if_neg (by simp [visible c rfl]), scanned]
  · rw [errorOver, taken]
  · have slice := Span.slice_placed source.text start ((c :: more).takeWhile Literal.runs)
      ((c :: more).dropWhile Literal.runs) (by rw [List.takeWhile_append_dropWhile, placed])
    rw [errorOver, taken]
    exact (congrArg String.toList slice).trans (String.toList_ofList ..)

end Source

namespace Evaluator

-- A literal that the type has no value for is an error there. Where the literal has no sign and nothing joins it the
-- error covers just the literal; otherwise it covers what comes before the sign, or all that joins the literal.
theorem literals_refused [Numeric T] [Textual T] (settings : Settings T σ) (evaluator : Evaluator T σ)
    (built : settings.build = .ok evaluator) (default : settings.reader = none) (names : List String)
    (parameters : Parameters) (bound : evaluator.grammar.bindParameters names = .ok parameters) (expression : String)
    (tokens : List (Token T σ)) (place : Nat) (rest : List Char)
    (reached : (evaluator.source parameters expression).Reaches tokens place rest)
    (visible : ∀ c, rest.head? = some c → evaluator.grammar.isWhitespace c = false) (found : Literal.Found)
    (here : Literal.at? expression.toList place = some found) (details : String)
    (refused : (Numeric.read expression.toList place evaluator.grammar.flags : Except String (Option (T × Nat))) =
      .error details) :
    ∃ after error, rest = found.text ++ after ∧
      (evaluator.source parameters expression).tokens = tokens.map .ok ++ [.error error] ∧
      error.kind = .invalidLiteral ∧ error.details = details ∧ error.start = place ∧
      (Literal.Unsigned found.text → error.offendingText.toList = found.text ++ after.takeWhile Literal.runs) ∧
      (¬ Literal.Unsigned found.text → ∃ sign more,
        found.text = error.offendingText.toList ++ sign :: more ∧ (sign = '+' ∨ sign = '-')) ∧
      (error.stop = some found.stop ↔ Literal.Unsigned found.text ∧ Text.Clear after) := by
  let source := evaluator.source parameters expression
  obtain ⟨listed, placed⟩ := source.reaches_tokens tokens place rest reached
  have reads : source.grammar.read source.text place = .error details := by
    change evaluator.grammar.reader expression.toList place evaluator.grammar.flags = _
    rw [default_reader settings evaluator built default, refused]
  have known : Text.dropBytes? place expression.toList = some rest := placed
  cases scanned : Literal.scan rest with
  | none => simp [Literal.at?, known, scanned] at here
  | some taken =>
      obtain ⟨shape, length⟩ := taken
      obtain rfl : Literal.Found.mk shape (rest.take length) (place + length) = found := by
        simpa [Literal.at?, known, scanned] using here
      obtain ⟨parts, spelling, -⟩ := Literal.scan_parts rest shape length scanned
      obtain ⟨error, only, kind, same, start, stop, text⟩ := source.number_refused settings.flags
        (built_separable settings evaluator built default names parameters bound expression)
        (Grammar.built_standard settings evaluator built) place rest visible placed _ scanned details reads
      have whole : rest = parts.text ++ rest.drop length := by rw [spelling, List.take_append_drop]
      have wide : Text.width parts.text = length := by
        rw [spelling, Text.ascii_width _ (Literal.scan_ascii rest shape length scanned)]
        exact List.length_take_of_le (Literal.scan_takes rest shape length scanned).2
      rw [whole] at stop text
      rw [← spelling]
      refine ⟨rest.drop length, error, whole, by rw [listed, only], kind, same, start, ?_, ?_, ?_⟩
      · intro unsigned
        rw [text, Literal.unsigned_run parts _ unsigned]
      · intro signed
        rw [text]
        exact Literal.signed_run parts _ signed
      · rw [stop, ← Literal.run_exact, wide]
        simp

def whole : Settings (Integer .signed) Unit := .ofFlags Integer.flags

-- A fraction that is no integer, after a blank.
theorem fraction_refused :
    ∃ evaluator parameters error, whole.build = .ok evaluator ∧ evaluator.grammar.bindParameters [] = .ok parameters ∧
      (evaluator.source parameters " 2.5").tokens = [.error error] ∧ error.kind = .invalidLiteral ∧ error.start = 1 ∧
      error.stop = some 4 := by
  obtain ⟨evaluator, built, parameters, bound, white, visible, details, refused⟩ :
      ∃ evaluator, whole.build = .ok evaluator ∧ ∃ parameters, evaluator.grammar.bindParameters [] = .ok parameters ∧
        evaluator.grammar.isWhitespace ' ' = true ∧ evaluator.grammar.isWhitespace '2' = false ∧ ∃ details,
        (Numeric.read " 2.5".toList 1 evaluator.grammar.flags : Except String (Option (Integer .signed × Nat))) =
          .error details :=
    ⟨_, rfl, _, rfl, by decide, by decide, _, rfl⟩
  have began : (evaluator.source parameters " 2.5").Reaches [] 0 " 2.5".toList := .first
  have reached : (evaluator.source parameters " 2.5").Reaches [] 1 ['2', '.', '5'] := .blank [] 0 ' ' _ began white
  obtain ⟨after, error, split, listed, kind, -, start, -, -, exactly⟩ := literals_refused whole evaluator built rfl [] parameters
    bound " 2.5" [] 1 _ reached (by rintro c ⟨⟩; exact visible) ⟨.real, ['2', '.', '5'], 4⟩ rfl details refused
  obtain rfl : after = [] := by simpa using split
  exact ⟨evaluator, parameters, error, built, bound, listed, kind, start, exactly.mpr ⟨by decide, Text.clear_nil⟩⟩

-- Of a fraction with a signed exponent the error covers what stands before the sign.
theorem signed_exponent_cut :
    ∃ evaluator parameters error, whole.build = .ok evaluator ∧ evaluator.grammar.bindParameters [] = .ok parameters ∧
      (evaluator.source parameters "1.5e-3").tokens = [.error error] ∧ error.kind = .invalidLiteral ∧
      error.offendingText = "1.5e" ∧ error.stop = some 4 ∧
      Literal.at? "1.5e-3".toList 0 = some ⟨.real, "1.5e-3".toList, 6⟩ :=
  ⟨_, _, _, rfl, rfl, by with_unfolding_all rfl, rfl, by with_unfolding_all rfl, rfl, rfl⟩

end Evaluator

end Formula
