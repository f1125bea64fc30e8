import Formula.Proofs.Phrase.Parse

set_option autoImplicit false

namespace Formula

variable {T σ : Type}

namespace Grammar

theorem longest_member {α : Type} (found : List (α × Nat)) (best : α × Nat) (longest : longest found = some best) :
    best ∈ found := by
  unfold Grammar.longest at longest
  -- What has been kept so far is one of the candidates seen so far.
  generalize chosen : (none : Option (α × Nat)) = start at longest
  have before : ∀ old, start = some old → old ∈ ([] : List (α × Nat)) := by simp [← chosen]
  clear chosen
  suffices kept : best ∈ [] ++ found by simpa using kept
  generalize ([] : List (α × Nat)) = seen at before ⊢
  induction found generalizing seen start with
  | nil => simpa using before best longest
  | cons candidate rest ih =>
      have step := ih _ longest (seen ++ [candidate]) ?_
      · simpa using step
      · intro old chosen
        cases start with
        | none => simpa using Or.inr (Option.some.inj chosen).symm
        | some previous =>
            simp only at chosen
            split at chosen
            · simpa using Or.inr (Option.some.inj chosen).symm
            · obtain rfl := Option.some.inj chosen
              simpa using Or.inl (before previous rfl)

theorem candidate_entry (grammar : Grammar T σ) (entries : List (Entry T σ)) (text : List Char)
    (found : Template T σ × Nat) (member : found ∈ grammar.candidates entries text) :
    ∃ entry ∈ entries, entry.template = found.1 := by
  cases text with
  | nil => simp [candidates] at member
  | cons first rest =>
      obtain ⟨entry, known, same⟩ := List.mem_filterMap.mp member
      simp only at same
      split at same
      · exact ⟨entry, known, congrArg Prod.fst (Option.some.inj same)⟩
      · exact absurd same (by simp)

end Grammar

namespace Phrase

theorem scan_unknown_operand (source : Source T σ) (start : Nat) (rest : List Char) (template : Template T σ)
    (length : Nat) (scanned : source.scanUnknown start rest = .ok (template, length)) :
    ∃ name, template = .operand name (.unknown name) := by
  unfold Source.scanUnknown at scanned
  split at scanned
  · simp only at scanned
    split at scanned
    · obtain ⟨rfl, -⟩ := Prod.mk.inj (Except.ok.inj scanned)
      exact ⟨_, rfl⟩
    · exact absurd scanned (by simp)
  · exact absurd scanned (by simp)

theorem scan_literal_operand (source : Source T σ) (start : Nat) (rest : List Char) (template : Template T σ)
    (length : Nat) (scanned : source.scanLiteral start rest = .ok (template, length)) :
    (∃ name value, template = .operand name (.literal value)) ∨ ∃ name, template = .operand name (.unknown name) := by
  unfold Source.scanLiteral at scanned
  split at scanned
  · exact absurd scanned (by simp)
  · exact .inr (scan_unknown_operand source start rest template length scanned)
  · split at scanned
    · split at scanned
      · obtain ⟨rfl, -⟩ := Prod.mk.inj (Except.ok.inj scanned)
        exact .inl ⟨_, _, rfl⟩
      · exact absurd scanned (by simp)
    · exact .inr (scan_unknown_operand source start rest template length scanned)

theorem scan_carried (source : Source T σ) (start : Nat) (rest : List Char) (template : Template T σ) (length : Nat)
    (scanned : source.scan start rest = .ok (template, length)) (span : Span) :
    Carries source.grammar (.ofTemplate template span) := by
  unfold Source.scan at scanned
  split at scanned
  · rename_i found matched
    obtain rfl := Except.ok.inj scanned
    rcases Option.or_eq_some_iff.mp matched with operator | ⟨-, identifier⟩
    · have member := Grammar.longest_member _ _ operator
      obtain ⟨entry, known, rfl⟩ := Grammar.candidate_entry _ _ _ _ member
      exact .operator entry known span
    · have member := (List.mem_filter.mp (Grammar.longest_member _ _ identifier)).1
      obtain ⟨entry, known, rfl⟩ := Grammar.candidate_entry _ _ _ _ member
      exact .identifier entry known span
  · split at scanned
    · obtain ⟨rfl, -⟩ := Prod.mk.inj (Except.ok.inj scanned)
      exact .parameter _ _ span
    · rcases scan_literal_operand source start rest template length scanned with ⟨name, value, rfl⟩ | ⟨name, rfl⟩
      · exact .literal name value span
      · exact .unknown name span

theorem tokens_from_scanned (source : Source T σ) (start : Nat) (text : List Char) (token : Token T σ)
    (member : .ok token ∈ source.tokensFrom start text) :
    ∃ place rest template length span, source.scan place rest = .ok (template, length) ∧
      token = .ofTemplate template span := by
  fun_induction Source.tokensFrom source start text with
  | case1 start => simp at member
  | case2 start c rest blank ih => exact ih member
  | case3 start c rest _ error scanned => simp at member
  | case4 start c rest _ template length scanned stop ih =>
      rcases List.mem_cons.mp member with same | later
      · exact ⟨start, c :: rest, template, length, ⟨start, stop⟩, scanned, Except.ok.inj same⟩
      · exact ih later

theorem tokens_from_carried (source : Source T σ) (start : Nat) (text : List Char) (token : Token T σ)
    (member : .ok token ∈ source.tokensFrom start text) : Carries source.grammar token := by
  obtain ⟨place, rest, template, length, span, scanned, rfl⟩ := tokens_from_scanned source start text token member
  exact scan_carried source place rest template length scanned span

theorem fold_no_error {Tok E N : Type} (builder : Postfix.Builder Tok E N) (items : List (Except E Tok))
    (stack : List N) (value : N) (folded : Postfix.foldFrom builder stack items = .ok value) (error : E) :
    .error error ∉ items := by
  induction items generalizing stack with
  | nil => simp
  | cons item rest ih =>
      cases item with
      | error _ => exact absurd folded (by simp [Postfix.foldFrom])
      | ok token =>
          rw [Postfix.foldFrom] at folded
          split at folded
          · rename_i next pushed
            simpa using ih next folded
          · exact absurd folded (by simp)

theorem order_no_error (expression : String) (items : List (Except ParseError (Token T σ))) (state : Order T σ)
    (clean : ∀ error, .error error ∉ Order.orderFrom expression state items) (error : ParseError) :
    .error error ∉ items := by
  induction items generalizing state with
  | nil => simp
  | cons item rest ih =>
      cases item with
      | error first => exact absurd (clean first) (by simp [Order.orderFrom])
      | ok token =>
          rw [Order.orderFrom] at clean
          split at clean
          · rename_i out next accepted
            have later := ih next fun error member => clean error (List.mem_append_right _ member)
            simpa using later
          · rename_i refused _
            exact absurd (clean refused) (by simp)

theorem all_tokens {E Tok : Type} (items : List (Except E Tok)) (clean : ∀ error, .error error ∉ items) :
    ∃ tokens : List Tok, items = tokens.map .ok := by
  induction items with
  | nil => exact ⟨[], rfl⟩
  | cons item rest ih =>
      obtain ⟨tokens, rfl⟩ := ih fun error member => clean error (List.mem_cons_of_mem _ member)
      cases item with
      | error error => exact absurd (clean error) (by simp)
      | ok token => exact ⟨token :: tokens, rfl⟩

theorem tree_sentence [Numeric T] (settings : Settings T σ) (evaluator : Evaluator T σ)
    (built : settings.build = .ok evaluator) (parameters : Parameters) (expression : String) (e : Expr T σ)
    (found : evaluator.tree parameters expression = .ok e) :
    ∃ p : Phrase T σ, p.Fits ∧ (evaluator.source parameters expression).tokens = p.tokens.map .ok ∧
      (∀ token ∈ p.tokens, Carries evaluator.grammar token) ∧ p.tree? = some e := by
  have ordered : ∀ error, .error error ∉
      Order.orderFrom expression Order.start (evaluator.source parameters expression).tokens := by
    intro error member
    have mapped : .error (.parse error) ∈
        (Postfix.order expression (evaluator.source parameters expression).tokens).map fun item =>
          item.mapError Error.parse := List.mem_map.mpr ⟨_, member, rfl⟩
    exact fold_no_error _ _ _ e found _ mapped
  obtain ⟨tokens, all⟩ := all_tokens _ (order_no_error expression _ _ ordered)
  have carried : ∀ token ∈ tokens, Carries evaluator.grammar token := by
    intro token member
    apply tokens_from_carried (evaluator.source parameters expression) 0 (evaluator.source parameters expression).text
    rw [show (evaluator.source parameters expression).tokensFrom 0 _ = tokens.map .ok from all]
    exact List.mem_map_of_mem member
  rw [Evaluator.tree, all] at found
  obtain ⟨p, fits, rfl, tree⟩ := (fold_tree_sentence expression tokens
    (fun token member => carried_proper settings evaluator built token (carried token member)) e).mp found
  exact ⟨p, fits, all, carried, tree⟩

end Phrase

end Formula
