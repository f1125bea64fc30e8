import Formula.Proofs.Grammar.Extending
import Formula.Proofs.Grammar.Signs
import Formula.Proofs.Token.Pieces

set_option autoImplicit false

namespace Formula

variable {T σ : Type}

structure Template.Cast (template : Template T σ) : Prop where
  call : ∀ routine, template.form.action = .call routine → template.form.role = .function
  member : ∀ source, template.form.action = .member source → template.form.role = .operand

theorem Template.cast_plain (template : Template T σ) (plain : template.form.action.offered? = none) : template.Cast := by
  constructor
  · intro routine calls
    simp [calls, Action.offered?] at plain
  · intro source reads
    simp [reads, Action.offered?] at plain

theorem Grammar.built_cast [Numeric T] (settings : Settings T σ) (evaluator : Evaluator T σ)
    (built : settings.build = .ok evaluator) : evaluator.grammar.EveryName Template.Cast := by
  apply built_templates settings evaluator built
  · exact fun template known => template.cast_plain (builtin_operators_plain _ template known _ (.inl rfl))
  · simp only [builtinIdentifiers, List.forall_mem_cons]
    exact ⟨Template.cast_plain _ rfl, Template.cast_plain _ rfl, by simp⟩
  · intro name offer _
    cases offer with
    | routine kind arity body => exact ⟨fun _ _ => rfl, by simp [Extension.template, Template.function]⟩
    | constant value => exact ⟨by simp [Extension.template, Template.operand], fun _ _ => rfl⟩
    | member source => exact ⟨by simp [Extension.template, Template.operand], fun _ _ => rfl⟩

namespace Source

-- A source that has the operators of its flags and reads names and numbers as the language does.
structure Readable (flags : Flags) (source : Source T σ) : Prop where
  ordinary : source.Ordinary
  standard : source.grammar.Standard flags
  vetted : Phrase.Vetted source.grammar
  cast : source.grammar.EveryName Template.Cast

-- A piece of a text is read as tokens that nothing of what follows belongs to.
def Lexes (source : Source T σ) (start : Nat) (piece rest : List Char) (tokens : List (Token T σ)) : Prop :=
  source.tokensFrom start (piece ++ rest) = tokens.map .ok ++ source.tokensFrom (start + Text.width piece) rest

theorem lexes_nothing (source : Source T σ) (start : Nat) (rest : List Char) : source.Lexes start [] rest [] := rfl

theorem lexes_append (source : Source T σ) (start : Nat) (first second rest : List Char) (tokens more : List (Token T σ))
    (head : source.Lexes start first (second ++ rest) tokens)
    (tail : source.Lexes (start + Text.width first) second rest more) :
    source.Lexes start (first ++ second) rest (tokens ++ more) := by
  rw [Lexes] at head tail ⊢
  rw [List.append_assoc, head, tail, List.map_append, List.append_assoc, Text.width_append, Nat.add_assoc]

theorem token_lexes (source : Source T σ) (start : Nat) (piece rest : List Char) (template : Template T σ)
    (filled : piece ≠ []) (visible : ∀ c, piece.head? = some c → source.grammar.isWhitespace c = false)
    (scanned : source.scan start (piece ++ rest) = .ok (template, piece.length)) :
    source.Lexes start piece rest [.ofTemplate template ⟨start, start + Text.width piece⟩] := by
  rw [Lexes]
  obtain ⟨c, more, rfl⟩ := List.exists_cons_of_ne_nil filled
  rw [List.cons_append] at scanned ⊢
  rw [tokensFrom, visible c rfl, scanned]
  simp

theorem gap_lexes (source : Source T σ) (start : Nat) (gap : List Char)
    (white : ∀ c ∈ gap, source.grammar.isWhitespace c = true) (rest : List Char) : source.Lexes start gap rest [] := by
  induction gap generalizing start with
  | nil => exact source.lexes_nothing start rest
  | cons c more ih =>
      have here : source.Lexes start [c] (more ++ rest) [] := by
        rw [Lexes, List.singleton_append, tokensFrom, if_pos (white c List.mem_cons_self)]
        rfl
      exact source.lexes_append start [c] more rest [] [] here (ih _ fun d member => white d (List.mem_cons_of_mem _ member))

theorem blanks_lex (source : Source T σ) (start : Nat) (gap : List Char) (blank : ∀ c ∈ gap, c = ' ') (rest : List Char) :
    source.Lexes start gap rest [] := by
  refine source.gap_lexes start gap (fun c member => ?_) rest
  rw [blank c member]
  exact Bool.or_eq_true_iff.mpr (.inl (by decide))

section

variable (flags : Flags) (source : Source T σ) (readable : source.Readable flags) (start : Nat)

include readable

theorem sign_lexes (template : Template T σ) (known : template ∈ Grammar.builtinOperators flags) (rest : List Char) :
    source.Lexes start template.name.toList rest
      [.ofTemplate template ⟨start, start + Text.width template.name.toList⟩] := by
  obtain ⟨c, name, spelling, sign⟩ := Grammar.signs_spelled flags template.name
    (Grammar.operators_signs flags ▸ List.mem_map_of_mem known)
  have shown : Text.isWhiteSpace c = false := by
    simp only [Grammar.isSign, Bool.and_eq_true, Bool.not_eq_true'] at sign
    exact sign.1.1.1.2
  obtain ⟨entry, listed, rfl⟩ := source.grammar.operator_entry flags readable.standard template known
  refine source.token_lexes start _ rest _ (by simp [spelling]) (fun d first => ?_) ?_
  · obtain rfl : c = d := by simpa [spelling] using first
    exact source.ordinary_shown readable.ordinary c shown fun idle => idle.operator entry listed (by simp [spelling])
  · rw [scan, source.grammar.sign_found flags readable.standard _ known rest]
    rfl

theorem word_lexes (entry : Entry T σ) (known : entry ∈ source.grammar.identifiers) (rest : List Char)
    (clear : Text.Clear rest) :
    source.Lexes start entry.template.name.toList rest
      [.ofTemplate entry.template ⟨start, start + Text.width entry.template.name.toList⟩] := by
  have ordinary := readable.ordinary
  obtain ⟨c, name, spelling, starts⟩ := (ordinary.qualified entry known).start
  have begins := Text.begins_append source.grammar.caseSensitive entry.template.name.toList rest
  have ends : Text.endsWord ((entry.template.name.toList ++ rest).drop entry.template.name.toList.length) = true := by
    rw [List.drop_left]
    exact Text.clear_ends_word rest clear
  have visible : source.grammar.Visible (entry.template.name.toList ++ rest) entry.template := by
    refine ordinary.plain.imp_right fun ascii first d here named => .inr ?_
    rw [spelling] at here named
    obtain rfl := Option.some.inj here
    obtain rfl := Option.some.inj named
    have restored := Text.ascii_restored c (ascii.1 entry known c (by simp [spelling]))
    exact ⟨restored, restored⟩
  have lead := source.grammar.visible_listed _ entry visible (readable.standard.indexed.identifiers entry known)
    (by simp [spelling]) begins
  have found : source.grammar.matchIdentifier (entry.template.name.toList ++ rest) =
      some (entry.template, entry.template.name.toList.length) := by
    obtain ⟨_, _, best, reach⟩ := source.grammar.identifier_reaches _ entry ⟨known, begins, ends, lead⟩
    obtain ⟨rival, stands, rfl, rfl⟩ := source.grammar.identifier_stands _ _ _ best
    rcases Nat.eq_or_lt_of_le reach with even | longer
    · rw [best, source.grammar.stands_unique ordinary.orderly (ordinary.plain.imp_right And.left) _ entry rival known
        stands.known begins stands.begins even]
    · obtain ⟨d, more, after, -⟩ := Text.point_follows _ _ _ (ordinary.plain.imp_right fun ascii => ascii.1 rival stands.known)
        (ordinary.qualified rival stands.known) stands.begins _ ends longer
      rw [List.drop_left] at after
      exact absurd rfl (clear '.' (by simp [after])).2
  refine source.token_lexes start _ rest entry.template (by simp [spelling]) (fun d first => ?_) ?_
  · obtain rfl : c = d := by simpa [spelling] using first
    exact source.ordinary_shown ordinary c (Text.start_not_white c starts)
      fun idle => idle.identifier entry known (by simp [spelling])
  · rw [spelling, List.cons_append] at found ⊢
    rw [scan, source.grammar.operator_missing ordinary.symbols c _ (.inl starts), found]
    rfl

theorem input_lexes (index : Nat) (name : String) (named : source.parameters.names[index]? = some name)
    (rest : List Char) (clear : Text.Clear rest) :
    source.Lexes start name.toList rest
      [.ofTemplate (.operand name (.parameter index)) ⟨start, start + Text.width name.toList⟩] := by
  have ordinary := readable.ordinary
  have member := List.mem_of_getElem? named
  obtain ⟨c, more, spelling, starts, continues⟩ := Text.identifier_spelled _ (ordinary.declared.identifiers name member)
  have ends : Text.endsWord ((name.toList ++ rest).drop name.toList.length) = true := by
    rw [List.drop_left]
    exact Text.clear_ends_word rest clear
  have found : source.parameters.find? (name.toList ++ rest) = some (index, name.toList.length) := by
    have stands : source.parameters.Stands (name.toList ++ rest) name := ⟨Text.begins_append _ _ _, ends⟩
    refine source.parameters.find_only _ index name named stands fun other name' placed stands' => ?_
    have known : source.parameters = ⟨source.parameters.names, source.grammar.caseSensitive⟩ := by rw [← ordinary.sensitive]
    rw [known] at stands stands'
    exact source.grammar.stands_once _ ordinary.declared (ordinary.plain.imp_right And.right) _ other index name' name placed
      named stands' stands
  have stops : ∀ d after, (name.toList ++ rest).drop name.toList.length = '.' :: d :: after →
      Text.isIdentifierStart d = false := by
    intro d after next
    rw [List.drop_left] at next
    exact absurd rfl (clear '.' (by simp [next])).2
  have same : source.Extends source := ⟨⟨rfl, rfl, rfl, rfl, rfl, rfl, rfl⟩, List.Subset.refl _⟩
  have free := source.input_kept source same ordinary _ index _ found stops
  refine source.token_lexes start _ rest _ (by simp [spelling]) (fun d first => ?_) ?_
  · obtain rfl : c = d := by simpa [spelling] using first
    exact source.ordinary_shown ordinary c (Text.start_not_white c starts)
      fun idle => idle.input name member (by simp [spelling])
  · rw [spelling, List.cons_append] at found free ⊢
    rw [scan, source.grammar.operator_missing ordinary.symbols c _ (.inl starts), free]
    simp only [Option.or_none, found]
    rw [← List.cons_append, ← spelling, List.take_left, String.ofList_toList]

theorem literal_lexes (piece rest : List Char) (shape : Literal.Shape) (value : T)
    (scanned : Literal.scan (piece ++ rest) = some (shape, piece.length))
    (reads : source.grammar.read source.text start = .ok (some (value, start + piece.length))) :
    ∃ name, source.Lexes start piece rest
      [.ofTemplate (.operand name (.literal value)) ⟨start, start + Text.width piece⟩] := by
  obtain ⟨positive, -⟩ := Literal.scan_takes (piece ++ rest) shape piece.length scanned
  have filled : piece ≠ [] := List.length_pos_iff.mp positive
  obtain ⟨c, more, spelling, -, word, starts⟩ := Literal.scan_first (piece ++ rest) _ scanned
  have other : Grammar.isSign c = false := by
    rcases starts with digit | rfl
    · simp [Grammar.isSign, Literal.digit_continues c digit]
    · decide
  have shown : Text.isWhiteSpace c = false := by
    rcases starts with digit | rfl
    · exact Literal.digit_not_white c digit
    · decide
  refine ⟨String.ofList ((piece ++ rest).take piece.length),
    source.token_lexes start piece rest _ filled (fun d first => ?_) ?_⟩
  · obtain rfl : c = d := by
      have whole : (piece ++ rest).head? = piece.head? := List.head?_append_of_ne_nil piece filled
      rw [spelling, first, List.head?_cons] at whole
      exact Option.some.inj whole
    refine source.ordinary_shown readable.ordinary c shown fun idle => ?_
    rcases starts with digit | point
    · simp [idle.digit] at digit
    · exact idle.point point
  · have operator := source.grammar.sign_missing flags readable.standard c more other
    have identifier := source.no_identifier readable.ordinary c more word
    have input := source.no_input readable.ordinary c more word
    rw [← spelling] at operator identifier input
    rw [scan, operator, identifier, Option.or_none, input]
    exact source.literal_outcome start (piece ++ rest) shape piece.length (.ok value) scanned reads

end

end Source

end Formula
