import Formula.Numeric.Integer
import Formula.Proofs.Token.Scan

set_option autoImplicit false

namespace Formula.Source

variable {T σ : Type}

inductive Splits (source : Source T σ) : Nat → List Char → List (Token T σ) → Option ParseError → Prop
  | finished (start : Nat) : Splits source start [] [] none
  | blank (start : Nat) (c : Char) (rest : List Char) (tokens : List (Token T σ)) (failure : Option ParseError)
      (white : source.grammar.isWhitespace c = true)
      (later : Splits source (start + c.utf8Size) rest tokens failure) :
      Splits source start (c :: rest) tokens failure
  | refused (start : Nat) (c : Char) (rest : List Char) (error : ParseError)
      (solid : source.grammar.isWhitespace c = false) (scanned : source.scan start (c :: rest) = .error error) :
      Splits source start (c :: rest) [] (some error)
  | token (start : Nat) (piece rest : List Char) (template : Template T σ) (tokens : List (Token T σ))
      (failure : Option ParseError) (filled : piece ≠ [])
      (scanned : source.scan start (piece ++ rest) = .ok (template, piece.length))
      (later : Splits source (start + Text.width piece) rest tokens failure) :
      Splits source start (piece ++ rest) (.ofTemplate template ⟨start, start + Text.width piece⟩ :: tokens) failure

theorem tokens_from_split (source : Source T σ) (spelled : source.grammar.Spelled)
    (named : ∀ name ∈ source.parameters.names, name.toList ≠ []) (start : Nat) (text : List Char) :
    ∃ tokens failure, source.tokensFrom start text = tokens.map .ok ++ failure.toList.map .error ∧
      source.Splits start text tokens failure := by
  fun_induction tokensFrom source start text with
  | case1 start => exact ⟨[], none, rfl, .finished start⟩
  | case2 start c rest white ih =>
      obtain ⟨tokens, failure, listed, split⟩ := ih
      exact ⟨tokens, failure, listed, .blank start c rest tokens failure white split⟩
  | case3 start c rest solid error scanned =>
      exact ⟨[], some error, rfl, .refused start c rest error (by simpa using solid) scanned⟩
  | case4 start c rest solid template length scanned stop ih =>
      obtain ⟨tokens, failure, listed, split⟩ := ih
      obtain ⟨taken, behind, rfl, rfl⟩ := source.scan_piece spelled named start c rest template length scanned
      simp only [stop, Nat.add_sub_cancel, List.take_left, List.drop_left] at listed split ⊢
      exact ⟨_, failure, by rw [listed]; rfl, .token start (c :: taken) behind template tokens failure (by simp) scanned split⟩

def Finds (source : Source T σ) (start : Nat) (text : List Char) (token : Token T σ) : Prop :=
  ∃ before piece after template, text = before ++ piece ++ after ∧ piece ≠ [] ∧
    source.scan (start + Text.width before) (piece ++ after) = .ok (template, piece.length) ∧
    token = .ofTemplate template ⟨start + Text.width before, start + Text.width (before ++ piece)⟩

theorem finds_behind (source : Source T σ) (start : Nat) (piece text : List Char) (token : Token T σ)
    (found : source.Finds (start + Text.width piece) text token) : source.Finds start (piece ++ text) token := by
  obtain ⟨before, taken, after, template, rfl, filled, scanned, rfl⟩ := found
  refine ⟨piece ++ before, taken, after, template, by simp, filled, ?_, ?_⟩
  · simpa [Nat.add_assoc] using scanned
  · simp [Nat.add_assoc]

theorem split_finds (source : Source T σ) (start : Nat) (text : List Char) (tokens : List (Token T σ))
    (failure : Option ParseError) (split : source.Splits start text tokens failure) :
    ∀ token ∈ tokens, source.Finds start text token := by
  induction split with
  | finished start => simp
  | blank start c rest tokens failure white later ih =>
      exact fun token member => source.finds_behind start [c] rest token (ih token member)
  | refused start c rest error solid scanned => simp
  | token start piece rest template tokens failure filled scanned later ih =>
      intro token member
      rcases List.mem_cons.mp member with rfl | old
      · exact ⟨[], piece, rest, template, rfl, filled, scanned, by simp [Text.width]⟩
      · exact source.finds_behind start piece rest token (ih token old)

-- The tokens of a text that starts at an offset lie apart and in order, and what lies outside of
-- them is blank; an error stands at the first character that is neither.
structure Tiling (source : Source T σ) (start : Nat) (text : List Char) (tokens : List (Token T σ))
    (failure : Option ParseError) : Prop where
  nonempty : ∀ token ∈ tokens, token.span.start < token.span.stop
  bounded : ∀ token ∈ tokens,
    Text.Boundary start text token.span.start ∧ Text.Boundary start text token.span.stop
  ordered : tokens.Pairwise fun a b => a.span.stop ≤ b.span.start
  blank : ∀ before c after, text = before ++ c :: after →
    (∀ error, failure = some error → start + Text.width before < error.start) →
    source.grammar.isWhitespace c = true ∨
      ∃ token ∈ tokens, token.span.start ≤ start + Text.width before ∧ start + Text.width before < token.span.stop
  refused : ∀ error, failure = some error →
    (∃ before c after, text = before ++ c :: after ∧ error.start = start + Text.width before ∧
      source.grammar.isWhitespace c = false ∧ source.scan error.start (c :: after) = .error error) ∧
    ∀ token ∈ tokens, token.span.stop ≤ error.start

theorem tiling_append (source : Source T σ) (start : Nat) (piece rest : List Char) (front tokens : List (Token T σ))
    (failure : Option ParseError) (first : source.Tiling start piece front none)
    (later : source.Tiling (start + Text.width piece) rest tokens failure) :
    source.Tiling start (piece ++ rest) (front ++ tokens) failure := by
  have inside : ∀ token ∈ front, token.span.stop ≤ start + Text.width piece := fun token member =>
    (Text.boundary_within _ _ _ (first.bounded token member).2).2
  constructor
  · intro token member
    exact (List.mem_append.mp member).elim (first.nonempty token) (later.nonempty token)
  · intro token member
    rcases List.mem_append.mp member with new | old
    · exact ⟨Text.boundary_ahead _ _ _ _ (first.bounded token new).1, Text.boundary_ahead _ _ _ _ (first.bounded token new).2⟩
    · exact ⟨Text.boundary_behind _ _ _ _ (later.bounded token old).1, Text.boundary_behind _ _ _ _ (later.bounded token old).2⟩
  · refine List.pairwise_append.mpr ⟨first.ordered, later.ordered, ?_⟩
    intro a memberA b memberB
    exact Nat.le_trans (inside a memberA) (Text.boundary_within _ _ _ (later.bounded b memberB).1).1
  · intro before c after same clear
    -- The character lies behind the piece or in it.
    rcases List.append_eq_append_iff.mp same with ⟨more, rfl, behind⟩ | ⟨more, within, split⟩
    · rw [Text.width_append, ← Nat.add_assoc] at clear ⊢
      rcases later.blank more c after behind clear with white | ⟨token, member, covers⟩
      · exact .inl white
      · exact .inr ⟨token, List.mem_append_right _ member, covers⟩
    · cases more with
      | nil =>
          obtain rfl : piece = before := by simpa using within
          rcases later.blank [] c after split.symm clear with white | ⟨token, member, covers⟩
          · exact .inl white
          · exact .inr ⟨token, List.mem_append_right _ member, covers⟩
      | cons d more =>
          obtain ⟨rfl, rfl⟩ : c = d ∧ after = more ++ rest := by simpa using split
          rcases first.blank before c more within (by simp) with white | ⟨token, member, covers⟩
          · exact .inl white
          · exact .inr ⟨token, List.mem_append_left _ member, covers⟩
  · intro error failed
    obtain ⟨⟨before, c, after, rfl, place, stuck⟩, behind⟩ := later.refused error failed
    refine ⟨⟨piece ++ before, c, after, by simp, by simp [place, Nat.add_assoc], stuck⟩, ?_⟩
    intro token member
    rcases List.mem_append.mp member with new | old
    · have reach := inside token new
      omega
    · exact behind token old

theorem token_tiling (source : Source T σ) (start : Nat) (piece : List Char) (template : Template T σ)
    (filled : piece ≠ []) :
    source.Tiling start piece [.ofTemplate template ⟨start, start + Text.width piece⟩] none := by
  have wide := Text.width_pos piece filled
  refine ⟨?_, ?_, List.pairwise_singleton _ _, ?_, by simp⟩
  · simpa [Token.ofTemplate] using wide
  · simpa [Token.ofTemplate] using ⟨Text.boundary_start start piece, Text.boundary_stop start piece⟩
  · rintro before c after rfl -
    have size := c.utf8Size_pos
    refine .inr ⟨_, List.mem_singleton_self _, ?_⟩
    simp only [Token.ofTemplate, Text.width_append, Text.width]
    omega

theorem split_tiling (source : Source T σ) (start : Nat) (text : List Char) (tokens : List (Token T σ))
    (failure : Option ParseError) (split : source.Splits start text tokens failure) :
    source.Tiling start text tokens failure := by
  induction split with
  | finished start => exact ⟨by simp, by simp, by simp, by simp, by simp⟩
  | blank start c rest tokens failure white later ih =>
      have skipped : source.Tiling start [c] [] none := by
        refine ⟨by simp, by simp, by simp, ?_, by simp⟩
        intro before d after same _
        obtain ⟨rfl, rfl, rfl⟩ : before = [] ∧ d = c ∧ after = [] := by
          simpa [List.singleton_eq_append_iff, List.cons_eq_append_iff] using same
        exact .inl white
      exact source.tiling_append start [c] rest [] tokens failure skipped ih
  | refused start c rest error solid scanned =>
      obtain ⟨kind, length, details, -, same⟩ := source.scan_refused start c rest error scanned
      have place : error.start = start := same ▸ rfl
      refine ⟨by simp, by simp, by simp, ?_, ?_⟩
      · intro before d after _ clear
        exact absurd (clear error rfl) (by omega)
      · rintro _ ⟨⟩
        exact ⟨⟨[], c, rest, rfl, place, solid, by rw [place, scanned]⟩, by simp⟩
  | token start piece rest template tokens failure filled scanned later ih =>
      exact source.tiling_append start piece rest _ tokens failure (source.token_tiling start piece template filled) ih

-- Whatever its reader answers, a text is split into finitely many tokens that tile it and, at most
-- once and at last, an error.
theorem tokens_tile [Numeric T] (settings : Settings T σ) (evaluator : Evaluator T σ)
    (built : settings.build = .ok evaluator) (names : List String) (parameters : Parameters)
    (bound : evaluator.grammar.bindParameters names = .ok parameters) (allowUnknown : Bool) (expression : String) :
    let source : Source T σ := ⟨evaluator.grammar, parameters, allowUnknown, expression⟩
    ∃ tokens failure, source.tokens = tokens.map .ok ++ failure.toList.map .error ∧
      source.Tiling 0 source.text tokens failure ∧ ∀ token ∈ tokens, source.Finds 0 source.text token := by
  intro source
  obtain ⟨rfl, valid⟩ := evaluator.grammar.bind_parameters_ok names parameters bound
  have named : ∀ name ∈ names, name.toList ≠ [] := fun name member => Text.identifier_filled _ (valid name member)
  obtain ⟨tokens, failure, listed, split⟩ := source.tokens_from_split
    (Grammar.built_spelled settings evaluator built) named 0 source.text
  exact ⟨tokens, failure, listed, source.split_tiling 0 _ tokens failure split,
    source.split_finds 0 _ tokens failure split⟩

-- A reader that finds a literal of one byte everywhere, be it inside a character.
def hasty : Settings (Integer .signed) Unit :=
  ⟨⟨true, false, false, true⟩, [], [], false, true, some fun _ start _ => .ok (some (Integer.ofBits .signed 0, start + 1))⟩

theorem hasty_tiled :
    ∃ evaluator parameters token error, hasty.build = .ok evaluator ∧
      evaluator.grammar.bindParameters ["x"] = .ok parameters ∧
      let source : Source (Integer .signed) Unit := ⟨evaluator.grammar, parameters, false, "x é"⟩
      source.tokens = [.ok token, .error error] ∧ token.span = ⟨0, 1⟩ ∧ error.start = 2 ∧
        source.Tiling 0 source.text [token] (some error) := by
  obtain ⟨evaluator, built, parameters, bound, token, error, split, span, place⟩ :
      ∃ evaluator, hasty.build = .ok evaluator ∧ ∃ parameters, evaluator.grammar.bindParameters ["x"] = .ok parameters ∧
        ∃ token error, Source.tokens ⟨evaluator.grammar, parameters, false, "x é"⟩ = [.ok token, .error error] ∧
          token.span = ⟨0, 1⟩ ∧ error.start = 2 :=
    ⟨_, rfl, _, rfl, _, _, by with_unfolding_all rfl, rfl, rfl⟩
  obtain ⟨tokens, failure, listed, tiled, -⟩ := tokens_tile hasty evaluator built ["x"] parameters bound false "x é"
  obtain ⟨rfl, rfl⟩ : tokens = [token] ∧ failure = some error := by
    rw [split] at listed
    rcases tokens with _ | ⟨first, _ | ⟨second, more⟩⟩ <;> cases failure <;> simp_all
  exact ⟨evaluator, parameters, token, error, built, bound, split, span, place, tiled⟩

end Formula.Source
