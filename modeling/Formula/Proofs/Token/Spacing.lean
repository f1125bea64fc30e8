import Formula.Proofs.Token.Pieces
import Formula.Proofs.Token.Written

set_option autoImplicit false

namespace Formula

variable {T σ : Type}

def Span.shifted (span : Span) (offset : Nat) : Span := ⟨span.start + offset, span.stop + offset⟩

def Token.shifted (token : Token T σ) (offset : Nat) : Token T σ := { token with span := token.span.shifted offset }

def ParseError.shifted (error : ParseError) (expression : String) (offset : Nat) : ParseError :=
  { error with expression := expression, start := error.start + offset, stop := error.stop.map (· + offset) }

theorem ParseError.shifted_zero (error : ParseError) (expression : String) :
    error.shifted expression 0 = { error with expression := expression } := by
  cases stop : error.stop with
  | none => simp [shifted, stop]
  | some place => simp [shifted, stop]

def spread (text : List Char) (tokens : List (Token T σ × List Char)) : List Char :=
  tokens.flatMap fun placed => (placed.1.span.slice text).toList ++ placed.2

def spaced (expression : String) (first : List Char) (tokens : List (Token T σ × List Char)) : String :=
  String.ofList (first ++ spread expression.toList tokens)

theorem Span.slice_placed (text : List Char) (start : Nat) (piece rest : List Char)
    (placed : Text.dropBytes? start text = some (piece ++ rest)) :
    Span.slice ⟨start, start + Text.width piece⟩ text = String.ofList piece := by
  obtain ⟨before, rfl, rfl⟩ := (Text.drop_bytes_iff _ _ _).mp placed
  rw [← List.append_assoc, ← Text.width_append, Span.slice, Text.slice_between]
  rfl

theorem spread_cons (text : List Char) (token : Token T σ) (gap : List Char) (more : List (Token T σ × List Char))
    (piece : List Char) (slice : token.span.slice text = String.ofList piece) :
    spread text ((token, gap) :: more) = piece ++ (gap ++ spread text more) := by
  rw [spread, List.flatMap_cons, slice, String.toList_ofList, List.append_assoc]
  rfl

def Token.Copies (expression other : String) (copy token : Token T σ) : Prop :=
  { token with span := copy.span } = copy ∧ copy.span.slice other.toList = token.span.slice expression.toList

-- What a longer text is split into: the tokens of its first part, and then the rest of it, unless the first part has an
-- error.
inductive Resumes (expression : String) (offset : Nat) (after : List (Except ParseError (Token T σ))) :
    List (Except ParseError (Token T σ)) → List (Except ParseError (Token T σ)) → Prop
  | done (tokens : List (Token T σ)) :
      Resumes expression offset after (tokens.map .ok) (tokens.map (fun token => .ok (token.shifted offset)) ++ after)
  | failed (tokens : List (Token T σ)) (error : ParseError) :
      Resumes expression offset after (tokens.map .ok ++ [.error error])
        (tokens.map (fun token => .ok (token.shifted offset)) ++ [.error (error.shifted expression offset)])

theorem resumes_cons (expression : String) (offset : Nat) (after first whole : List (Except ParseError (Token T σ)))
    (token : Token T σ) (resumes : Resumes expression offset after first whole) :
    Resumes expression offset after (.ok token :: first) (.ok (token.shifted offset) :: whole) := by
  cases resumes with
  | done tokens => exact .done (token :: tokens)
  | failed tokens error => exact .failed (token :: tokens) error

section

variable (expression : String) (offset : Nat) (after whole : List (Except ParseError (Token T σ))) (tokens : List (Token T σ))

theorem resumes_tokens (resumes : Resumes expression offset after (tokens.map .ok) whole) :
    whole = tokens.map (fun token => .ok (token.shifted offset)) ++ after := by
  generalize split : tokens.map Except.ok = first at resumes
  cases resumes with
  | done found =>
      rw [List.map_injective_iff.mpr (fun _ _ => Except.ok.inj) split]
  | failed found error =>
      have member : Except.error error ∈ tokens.map Except.ok := split ▸ by simp
      simp at member

theorem resumes_error (error : ParseError) (resumes : Resumes expression offset after (tokens.map .ok ++ [.error error]) whole) :
    whole = tokens.map (fun token => .ok (token.shifted offset)) ++ [.error (error.shifted expression offset)] := by
  generalize split : tokens.map Except.ok ++ [.error error] = first at resumes
  cases resumes with
  | done found =>
      have member : Except.error error ∈ found.map Except.ok := split ▸ by simp
      simp at member
  | failed found last =>
      obtain ⟨front, back⟩ := List.append_inj' split rfl
      rw [List.map_injective_iff.mpr (fun _ _ => Except.ok.inj) front, Except.error.inj (List.singleton_inj.mp back)]

end

namespace Source

theorem error_shifted (source : Source T σ) (expression : String) (offset start : Nat) (kind : ParseErrorKind)
    (piece : List Char) (length : Nat) (details : String) :
    (source.reread expression).errorOver kind (start + offset) piece length details =
      (source.errorOver kind start piece length details).shifted expression offset := by
  have stop : start + offset + Text.width (piece.take length) = start + Text.width (piece.take length) + offset := by omega
  rw [errorOver, errorOver, ParseError.shifted, stop]
  rfl

variable (source : Source T σ) (separable : source.Separable) (expression : String)

include separable

theorem tokens_move (offset start : Nat) (rest tail : List Char) (ended : Text.Ended tail)
    (placed : Text.dropBytes? start source.text = some rest)
    (moved : Text.dropBytes? (start + offset) expression.toList = some (rest ++ tail)) :
    Resumes expression offset ((source.reread expression).tokensFrom (start + Text.width rest + offset) tail)
      (source.tokensFrom start rest) ((source.reread expression).tokensFrom (start + offset) (rest ++ tail)) := by
  have grammar : (source.reread expression).grammar = source.grammar := rfl
  fun_induction tokensFrom source start rest with
  | case1 start => exact .done []
  | case2 start c rest white ih =>
      have sum : start + offset + c.utf8Size = start + c.utf8Size + offset := by omega
      have wide : start + Text.width (c :: rest) + offset = start + c.utf8Size + Text.width rest + offset := by
        rw [Text.width]
        omega
      have later := Text.drop_bytes_later start source.text [c] rest placed
      have after := Text.drop_bytes_later (start + offset) expression.toList [c] (rest ++ tail) moved
      simp only [Text.width, Nat.add_zero] at later after
      rw [sum] at after
      rw [List.cons_append, tokensFrom, grammar, if_pos white, sum, wide]
      exact ih later after
  | case3 start c rest solid error scanned =>
      have moves := source.scan_moves expression start (start + offset) separable (c :: rest) tail (by simp) ended placed moved
      rw [scanned] at moves
      generalize outcome : (source.reread expression).scan (start + offset) (c :: rest ++ tail) = found at moves
      cases moves with
      | refused kind length details =>
          rw [List.cons_append] at outcome ⊢
          rw [tokensFrom, grammar, if_neg solid, outcome, error_shifted]
          exact .failed [] _
  | case4 start c rest solid template length scanned stop ih =>
      have moves := source.scan_moves expression start (start + offset) separable (c :: rest) tail (by simp) ended placed moved
      obtain ⟨taken, behind, rfl, rfl⟩ := source.scan_piece separable.spelled separable.named start c rest template length scanned
      rw [scanned] at moves
      generalize outcome : (source.reread expression).scan (start + offset) (c :: (taken ++ behind) ++ tail) = found at moves
      cases moves with
      | found _ _ =>
          have later := Text.drop_bytes_later start source.text (c :: taken) behind placed
          have after := Text.drop_bytes_later (start + offset) expression.toList (c :: taken) (behind ++ tail)
            (by rw [← List.append_assoc]; exact moved)
          have sum : start + offset + Text.width (c :: taken) = start + Text.width (c :: taken) + offset := by omega
          have wide : start + Text.width (c :: (taken ++ behind)) + offset =
              start + Text.width (c :: taken) + Text.width behind + offset := by
            rw [← List.cons_append, Text.width_append]
            omega
          simp only [stop, Nat.add_sub_cancel, List.take_left, List.drop_left] at ih ⊢
          rw [sum] at after
          rw [List.cons_append, List.append_assoc] at outcome ⊢
          rw [tokensFrom, grammar, if_neg solid, outcome, wide]
          simp only [Nat.add_sub_cancel, List.take_left, List.drop_left, sum]
          exact resumes_cons expression offset _ _ _ _ (ih later after)

theorem tokens_joined (second : String) :
    let joined := source.expression ++ " " ++ second
    Resumes joined 0 ((source.reread joined).tokensFrom (Text.width source.text + 1) second.toList) source.tokens
      (source.reread joined).tokens := by
  intro joined
  have spelled : joined.toList = source.text ++ ' ' :: second.toList := by simp [joined, text]
  have blank : Text.isWhiteSpace ' ' = true := by decide
  have white : (source.reread joined).grammar.isWhitespace ' ' = true := Bool.or_eq_true_iff.mpr (.inl blank)
  have start : Text.dropBytes? 0 joined.toList = some (source.text ++ ' ' :: second.toList) := by
    rw [spelled]
    exact Text.drop_bytes_zero _
  have resumes := source.tokens_move separable joined 0 0 source.text (' ' :: second.toList)
    (Text.ended_gap [' '] _ (by simp) (by simpa using blank)) (Text.drop_bytes_zero _) start
  have after : (source.reread joined).tokensFrom (0 + Text.width source.text + 0) (' ' :: second.toList) =
      (source.reread joined).tokensFrom (Text.width source.text + 1) second.toList := by
    rw [tokensFrom, if_pos white, Nat.zero_add, Nat.add_zero]
    rfl
  rw [after, ← spelled] at resumes
  exact resumes

theorem joined_tokens (first : String) :
    let joined := first ++ " " ++ source.expression
    let place := Text.width first.toList + 1
    Resumes joined place [] source.tokens ((source.reread joined).tokensFrom place source.text) := by
  intro joined place
  have spelled : joined.toList = first.toList ++ [' '] ++ source.text := by simp [joined, text]
  have start : Text.dropBytes? (0 + place) joined.toList = some (source.text ++ []) :=
    (Text.drop_bytes_iff _ _ _).mpr ⟨first.toList ++ [' '], by rw [List.append_nil, spelled], by
      rw [Text.width_append, Nat.zero_add]
      rfl⟩
  have resumes := source.tokens_move separable joined place 0 source.text [] Text.ended_nil (Text.drop_bytes_zero _) start
  have nothing (stop : Nat) : (source.reread joined).tokensFrom stop [] = [] := by rw [tokensFrom]
  rw [nothing, Nat.zero_add, List.append_nil] at resumes
  exact resumes

theorem piece_lexes (start place : Nat) (piece behind : List Char) (template : Template T σ) (filled : piece ≠ [])
    (visible : ∀ c, piece.head? = some c → source.grammar.isWhitespace c = false)
    (placed : Text.dropBytes? start source.text = some (piece ++ behind))
    (scanned : source.scan start (piece ++ behind) = .ok (template, piece.length)) (gap rest : List Char)
    (open_gap : gap ≠ []) (white : ∀ c ∈ gap, Text.isWhiteSpace c = true)
    (moved : Text.dropBytes? place expression.toList = some (piece ++ (gap ++ rest))) :
    (source.reread expression).Lexes place (piece ++ gap) rest [.ofTemplate template ⟨place, place + Text.width piece⟩] := by
  have isolated : Text.dropBytes? 0 (String.ofList piece).toList = some piece := by
    rw [String.toList_ofList]
    exact Text.drop_bytes_zero piece
  have alone := source.scan_alone (String.ofList piece) start 0 separable piece filled behind template placed isolated scanned
  have moves := (source.reread (String.ofList piece)).scan_moves expression 0 place (source.reread_separable _ separable) piece
    (gap ++ rest) filled (Text.ended_gap gap rest open_gap white) isolated moved
  rw [alone] at moves
  generalize outcome : ((source.reread (String.ofList piece)).reread expression).scan place (piece ++ (gap ++ rest)) = found at moves
  cases moves with
  | found _ _ =>
      have first := (source.reread expression).token_lexes place piece (gap ++ rest) template filled visible outcome
      have last := (source.reread expression).gap_lexes (place + Text.width piece) gap
        (fun c member => Bool.or_eq_true_iff.mpr (.inl (white c member))) rest
      exact (source.reread expression).lexes_append place piece gap rest _ [] first last

theorem spread_tokens (start place : Nat) (rest : List Char) (placed : Text.dropBytes? start source.text = some rest)
    (tokens : List (Token T σ × List Char)) (split : source.tokensFrom start rest = tokens.map fun token => .ok token.1)
    (gaps : ∀ token ∈ tokens, token.2 ≠ [] ∧ ∀ c ∈ token.2, Text.isWhiteSpace c = true)
    (moved : Text.dropBytes? place expression.toList = some (spread source.text tokens)) :
    ∃ copies : List (Token T σ),
      (source.reread expression).tokensFrom place (spread source.text tokens) = copies.map .ok ∧
      List.Forall₂ (fun token copy => Token.Copies source.expression expression copy token) (tokens.map Prod.fst) copies := by
  fun_induction tokensFrom source start rest generalizing tokens place with
  | case1 start =>
      obtain rfl : tokens = [] := by simpa using split
      refine ⟨[], ?_, .nil⟩
      rw [spread, List.flatMap_nil, tokensFrom]
      rfl
  | case2 start c rest white ih =>
      have later := Text.drop_bytes_later start source.text [c] rest placed
      simp only [Text.width, Nat.add_zero] at later
      exact ih place later tokens split gaps moved
  | case3 start c rest solid error scanned =>
      cases tokens with
      | nil => exact absurd split (by simp)
      | cons token more => exact absurd split (by simp)
  | case4 start c rest solid template length scanned stop ih =>
      obtain ⟨taken, behind, rfl, rfl⟩ := source.scan_piece separable.spelled separable.named start c rest template length scanned
      simp only [stop, Nat.add_sub_cancel, List.take_left, List.drop_left] at ih split
      rw [← List.cons_append] at placed scanned
      cases tokens with
      | nil => exact absurd split (by simp)
      | cons token more =>
          obtain ⟨token, gap⟩ := token
          obtain ⟨here, later⟩ := List.cons.inj split
          obtain rfl := Except.ok.inj here
          obtain ⟨⟨open_gap, white⟩, gaps⟩ := List.forall_mem_cons.mp gaps
          have slice := Span.slice_placed source.text start (c :: taken) behind placed
          rw [spread_cons source.text _ gap more (c :: taken) slice] at moved ⊢
          have lexes := source.piece_lexes separable expression start place (c :: taken) behind template (by simp)
            (by simpa using solid) placed scanned gap _ open_gap white moved
          have after := Text.drop_bytes_later place expression.toList (c :: taken ++ gap) (spread source.text more)
            (by rw [List.append_assoc]; exact moved)
          obtain ⟨copies, found, same⟩ := ih (place + Text.width (c :: taken ++ gap))
            (Text.drop_bytes_later start source.text (c :: taken) behind placed) more later gaps after
          refine ⟨.ofTemplate template ⟨place, place + Text.width (c :: taken)⟩ :: copies, ?_, .cons ⟨rfl, ?_⟩ same⟩
          · rw [← List.append_assoc, lexes, found]
            rfl
          · exact (Span.slice_placed expression.toList place (c :: taken) _ moved).trans slice.symm

end Source

namespace Evaluator

theorem built_separable [Numeric T] [Textual T] (settings : Settings T σ) (evaluator : Evaluator T σ)
    (built : settings.build = .ok evaluator) (default : settings.reader = none) (names : List String)
    (parameters : Parameters) (bound : evaluator.grammar.bindParameters names = .ok parameters) (expression : String) :
    (evaluator.source parameters expression).Separable := by
  obtain ⟨rfl, valid⟩ := evaluator.grammar.bind_parameters_ok names parameters bound
  have standard := Grammar.built_standard settings evaluator built
  have reader := default_reader settings evaluator built default
  refine ⟨Grammar.built_spelled settings evaluator built, fun entry known => ?_,
    Grammar.reached_qualified _ (Grammar.built_reached settings evaluator built), valid, fun text start nothing => ?_, ?_⟩
  · have listed : entry.template ∈ Grammar.builtinOperators settings.flags :=
      standard.operators ▸ List.mem_map_of_mem known
    exact Grammar.signs_solid settings.flags _ (Grammar.operators_signs settings.flags ▸ List.mem_map_of_mem listed)
  · change evaluator.grammar.reader text start evaluator.grammar.flags = .ok none
    rw [reader]
    exact Literate.read text start _ nothing
  · intro text other start place shape digits stop last here there
    change ∃ outcome, evaluator.grammar.reader text start evaluator.grammar.flags = _ ∧
      evaluator.grammar.reader other place evaluator.grammar.flags = _
    rw [reader]
    exact Textual.anywhere _ text other start place shape digits stop last here there

-- How much white space stands between the tokens of a text makes no difference, and of two texts that are joined by a
-- blank each is split as it is alone, up to the first error.
theorem spacing_irrelevant [Numeric T] [Textual T] (settings : Settings T σ) (evaluator : Evaluator T σ)
    (built : settings.build = .ok evaluator) (default : settings.reader = none) (names : List String)
    (parameters : Parameters) (bound : evaluator.grammar.bindParameters names = .ok parameters) :
    (∀ (expression : String) (tokens : List (Token T σ × List Char)) (first : List Char),
      (evaluator.source parameters expression).tokens = tokens.map (fun token => .ok token.1) →
      (∀ c ∈ first, Text.isWhiteSpace c = true) →
      (∀ token ∈ tokens, token.2 ≠ [] ∧ ∀ c ∈ token.2, Text.isWhiteSpace c = true) →
      ∃ copies : List (Token T σ),
        (evaluator.source parameters (spaced expression first tokens)).tokens = copies.map .ok ∧
          List.Forall₂ (fun token copy => Token.Copies expression (spaced expression first tokens) copy token)
            (tokens.map Prod.fst) copies) ∧
    ∀ (first second : String) (left : List (Token T σ)),
      let joined := first ++ " " ++ second
      (∀ right : List (Token T σ), (evaluator.source parameters first).tokens = left.map .ok →
        (evaluator.source parameters second).tokens = right.map .ok →
        (evaluator.source parameters joined).tokens =
          (left ++ right.map fun token => token.shifted (Text.width first.toList + 1)).map .ok) ∧
      ∀ error : ParseError, (evaluator.source parameters first).tokens = left.map .ok ++ [.error error] →
        (evaluator.source parameters joined).tokens = left.map .ok ++ [.error { error with expression := joined }] := by
  have separable := built_separable settings evaluator built default names parameters bound
  refine ⟨fun expression tokens first split white gaps => ?_, fun first second left => ?_⟩
  · generalize same : spaced expression first tokens = other
    have spelled : other.toList = first ++ spread expression.toList tokens := by rw [← same, spaced, String.toList_ofList]
    have moved : Text.dropBytes? (Text.width first) other.toList = some (spread expression.toList tokens) := by
      rw [spelled]
      exact (Text.drop_bytes_iff _ _ _).mpr ⟨first, rfl, rfl⟩
    have gap := (evaluator.source parameters other).gap_lexes 0 first
      (fun c member => Bool.or_eq_true_iff.mpr (.inl (white c member))) (spread expression.toList tokens)
    obtain ⟨copies, found, copied⟩ := (evaluator.source parameters expression).spread_tokens (separable expression) other 0
      (Text.width first) expression.toList (Text.drop_bytes_zero _) tokens split gaps moved
    refine ⟨copies, ?_, copied⟩
    rw [Source.Lexes, List.map_nil, List.nil_append, Nat.zero_add] at gap
    rw [Source.tokens, Source.text]
    change (evaluator.source parameters other).tokensFrom 0 other.toList = _
    rw [spelled, gap]
    exact found
  · intro joined
    have resumes := (evaluator.source parameters first).tokens_joined (separable first) second
    refine ⟨fun right split ends => ?_, fun error split => ?_⟩
    · have later := (evaluator.source parameters second).joined_tokens (separable second) first
      rw [ends] at later
      rw [split] at resumes
      have front := resumes_tokens _ _ _ _ left resumes
      have back := resumes_tokens _ _ _ _ right later
      rw [List.map_append, List.map_map]
      refine front.trans (congrArg _ (back.trans ?_))
      exact List.append_nil _
    · rw [split] at resumes
      exact error.shifted_zero joined ▸ resumes_error _ _ _ _ left error resumes

theorem integers_spaced :
    ∃ evaluator parameters one plus input, integers.build = .ok evaluator ∧ integers.reader = none ∧
      evaluator.grammar.bindParameters ["x"] = .ok parameters ∧
      (evaluator.source parameters "1+x").tokens = [.ok one, .ok plus, .ok input] ∧
      (∃ copies, (evaluator.source parameters "\n1  +\tx ").tokens = copies.map .ok ∧
        List.Forall₂ (fun token copy => Token.Copies "1+x" "\n1  +\tx " copy token) [one, plus, input] copies) ∧
      (evaluator.source parameters "1+x 1+x").tokens =
        ([one, plus, input] ++ [one.shifted 4, plus.shifted 4, input.shifted 4]).map .ok := by
  obtain ⟨evaluator, built, parameters, bound, one, plus, input, split, first, second, third⟩ :
      ∃ evaluator, integers.build = .ok evaluator ∧ ∃ parameters, evaluator.grammar.bindParameters ["x"] = .ok parameters ∧
        ∃ one plus input, (evaluator.source parameters "1+x").tokens = [.ok one, .ok plus, .ok input] ∧
          one.span = ⟨0, 1⟩ ∧ plus.span = ⟨1, 2⟩ ∧ input.span = ⟨2, 3⟩ :=
    ⟨_, rfl, _, rfl, _, _, _, by with_unfolding_all rfl, rfl, rfl, rfl⟩
  obtain ⟨gaps, joins⟩ := spacing_irrelevant integers evaluator built rfl ["x"] parameters bound
  have text : spaced "1+x" ['\n'] [(one, [' ', ' ']), (plus, ['\t']), (input, [' '])] = "\n1  +\tx " := by
    simp [spaced, spread, first, second, third]
    decide
  have blank : Text.isWhiteSpace ' ' = true ∧ Text.isWhiteSpace '\t' = true ∧ Text.isWhiteSpace '\n' = true := by decide
  have wide := gaps "1+x" [(one, [' ', ' ']), (plus, ['\t']), (input, [' '])] ['\n'] split (by simp [blank])
    (by simp [blank])
  rw [text] at wide
  obtain ⟨both, -⟩ := joins "1+x" "1+x" [one, plus, input]
  exact ⟨evaluator, parameters, one, plus, input, built, rfl, bound, split, wide, both [one, plus, input] split split⟩

end Evaluator

end Formula
