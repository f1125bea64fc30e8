import Formula.Numeric.Decimal
import Formula.Proofs.Phrase.Fold
import Formula.Proofs.Phrase.Vocabulary

set_option autoImplicit false

namespace Formula.Phrase

variable {T σ : Type}

theorem combine_complete (token : Token T σ) (args : List (Expr T σ)) :
    (token.combine? args).isSome = true ↔ token.arity? = some args.length := by
  constructor
  · intro applied
    unfold Token.combine? at applied
    unfold Token.arity?
    split at applied <;> simp_all
  · intro takes
    unfold Token.arity? at takes
    unfold Token.combine?
    cases action : token.form.action with
    | unary op =>
        obtain ⟨operand, rfl⟩ := List.length_eq_one_iff.mp (by simpa [action] using takes.symm)
        rfl
    | convert conversion =>
        obtain ⟨operand, rfl⟩ := List.length_eq_one_iff.mp (by simpa [action] using takes.symm)
        rfl
    | binary op =>
        obtain ⟨left, right, rfl⟩ := List.length_eq_two.mp (by simpa [action] using takes.symm)
        rfl
    | conditional =>
        obtain ⟨condition, accepted, rejected, rfl⟩ :=
          List.length_eq_three.mp (by simpa [action] using takes.symm)
        rfl
    | call routine =>
        have counted : args.length = routine.arity := by simpa [action] using takes.symm
        simp [counted]
    | _ => simp [action] at takes

theorem leaf_complete (token : Token T σ) (role : token.role = .operand) (proper : Proper token) :
    token.leaf?.isSome = true ↔ ∀ name, token.form.action ≠ .unknown name := by
  constructor
  · intro leaf name unknown
    simp [Token.leaf?, unknown] at leaf
  · intro named
    cases leaf : token.leaf? with
    | some tree => rfl
    | none =>
        obtain ⟨name, unknown⟩ := proper.known role leaf
        exact absurd unknown (named name)

mutual
theorem tree_complete (p : Phrase T σ) (fits : p.Fits) (proper : ∀ token ∈ p.tokens, Proper token) :
    p.tree?.isSome = true ↔ p.Complete := by
  cases p with
  | operand token => exact leaf_complete token fits (proper token (by simp [tokens]))
  | group opening inner closing =>
      exact tree_complete inner fits.2.1 fun token member => proper token (by simp [tokens, member])
  | emptyCall name opening closing => exact combine_complete name []
  | call name opening args closing =>
      have inside := trees_complete args fits.2.2.1 fun token member => proper token (by simp [tokens, member])
      rw [tree?, Complete, ← inside]
      cases built : argumentTrees? args with
      | none => simp
      | some trees =>
          rw [← argument_trees_length args trees built]
          simpa using combine_complete name trees
  | before operator inner =>
      have inside := tree_complete inner fits.2.2 fun token member => proper token (by simp [tokens, member])
      rw [tree?, Complete, ← inside]
      cases built : inner.tree? with
      | none => simp
      | some a => simpa using (combine_complete operator.lone [a]).mpr (lone_arity operator fits.1)
  | between left operator right =>
      obtain ⟨binary, -, -, leftFits, rightFits⟩ := fits
      have before := tree_complete left leftFits fun token member => proper token (by simp [tokens, member])
      have after := tree_complete right rightFits fun token member => proper token (by simp [tokens, member])
      rw [tree?, Complete, ← before, ← after]
      cases leftBuilt : left.tree? with
      | none => simp
      | some a =>
          cases rightBuilt : right.tree? with
          | none => simp
          | some b => simpa using (combine_complete operator [a, b]).mpr (binary_arity operator binary)
theorem trees_complete (args : Arguments T σ) (fits : ArgumentsFit args)
    (proper : ∀ token ∈ argumentTokens args, Proper token) :
    (argumentTrees? args).isSome = true ↔ ArgumentsComplete args := by
  cases args with
  | one arg =>
      have inside := tree_complete arg fits proper
      simpa [argumentTrees?, ArgumentsComplete] using inside
  | more init comma arg =>
      obtain ⟨initFit, -, argFits⟩ := fits
      have before := trees_complete init initFit fun token member => proper token (by simp [argumentTokens, member])
      have after := tree_complete arg argFits fun token member => proper token (by simp [argumentTokens, member])
      rw [argumentTrees?, ArgumentsComplete, ← before, ← after]
      cases argumentTrees? init <;> simp
end

mutual
theorem complete_known (p : Phrase T σ) (fits : p.Fits) (complete : p.Complete) :
    ∀ token ∈ p.tokens, token.role = .operand → ∀ name, token.form.action ≠ .unknown name := by
  cases p with
  | operand token => exact List.forall_mem_singleton.mpr fun _ => complete
  | group opening inner closing =>
      have inside := complete_known inner fits.2.1 complete
      simp only [tokens, List.forall_mem_cons, List.forall_mem_append, List.not_mem_nil, IsEmpty.forall_iff, implies_true,
        and_true]
      exact ⟨by simp [fits.1], inside, by simp [fits.2.2]⟩
  | emptyCall name opening closing =>
      simp only [tokens, List.forall_mem_cons, List.not_mem_nil, IsEmpty.forall_iff, implies_true, and_true]
      exact ⟨by simp [fits.1.role], by simp [fits.2.1], by simp [fits.2.2]⟩
  | call name opening args closing =>
      have inside := arguments_known args fits.2.2.1 complete.2
      simp only [tokens, List.forall_mem_cons, List.forall_mem_append, List.not_mem_nil, IsEmpty.forall_iff, implies_true,
        and_true]
      exact ⟨by simp [fits.1.role], by simp [fits.2.1], inside, by simp [fits.2.2.2]⟩
  | before operator inner =>
      have inside := complete_known inner fits.2.2 complete
      refine List.forall_mem_cons.mpr ⟨fun role => ?_, inside⟩
      simpa [role, Role.isOperator] using fits.1.role
  | between left operator right =>
      have former := complete_known left fits.2.2.2.1 complete.1
      have latter := complete_known right fits.2.2.2.2 complete.2
      refine List.forall_mem_append.mpr ⟨former, List.forall_mem_cons.mpr ⟨fun role => ?_, latter⟩⟩
      simpa [role, levels] using fits.1.level
theorem arguments_known (args : Arguments T σ) (fits : ArgumentsFit args) (complete : ArgumentsComplete args) :
    ∀ token ∈ argumentTokens args, token.role = .operand → ∀ name, token.form.action ≠ .unknown name := by
  cases args with
  | one arg => exact complete_known arg fits complete
  | more init comma arg =>
      have former := arguments_known init fits.1 complete.1
      have latter := complete_known arg fits.2.2 complete.2
      exact List.forall_mem_append.mpr ⟨former, List.forall_mem_cons.mpr ⟨by simp [fits.2.1], latter⟩⟩
end

theorem start_holds : Holds (Reading.start : Reading T σ) [] := ⟨rfl, fun _ => rfl⟩

theorem fold_tree_sentence (expression : String) (tokens : List (Token T σ))
    (proper : ∀ token ∈ tokens, Proper token) (e : Expr T σ) :
    foldTree (Postfix.order expression (tokens.map .ok)) = .ok e ↔
      ∃ p : Phrase T σ, p.Fits ∧ p.tokens = tokens ∧ p.tree? = some e := by
  have read := fold_reads expression tokens .start start_fits proper [] start_holds e
  constructor
  · intro folded
    obtain ⟨last, p, ran, result, tree⟩ := read.mp folded
    obtain ⟨fits, written⟩ := read_is_sentence tokens last p proper ran result
    exact ⟨p, fits, written, tree⟩
  · rintro ⟨p, fits, rfl, tree⟩
    obtain ⟨last, ran, result⟩ := sentence_is_read p fits
    exact read.mpr ⟨last, p, ran, result, tree⟩

-- The parser accepts the complete sentences of its grammar and nothing else, no sentence has two
-- derivations, and what the parser builds is the tree of the derivation.
theorem parser_accepts_grammar [Numeric T] (settings : Settings T σ) (evaluator : Evaluator T σ)
    (built : settings.build = .ok evaluator) (expression : String) (tokens : List (Token T σ))
    (carried : ∀ token ∈ tokens, Carries evaluator.grammar token) :
    ((∃ e, foldTree (Postfix.order expression (tokens.map .ok)) = .ok e) ↔
      ∃ p : Phrase T σ, p.Fits ∧ p.Complete ∧ p.tokens = tokens) ∧
    (∀ p : Phrase T σ, p.Fits → p.tokens = tokens → ∀ e,
      (foldTree (Postfix.order expression (tokens.map .ok)) = .ok e ↔ p.tree? = some e)) ∧
    ∀ p q : Phrase T σ, p.Fits → q.Fits → p.tokens = tokens → q.tokens = tokens → p = q := by
  have proper : ∀ token ∈ tokens, Proper token :=
    fun token member => carried_proper settings evaluator built token (carried token member)
  have folds := fold_tree_sentence expression tokens proper
  refine ⟨?_, ?_, ?_⟩
  · constructor
    · rintro ⟨e, folded⟩
      obtain ⟨p, fits, written, tree⟩ := (folds e).mp folded
      exact ⟨p, fits, (tree_complete p fits (written ▸ proper)).mp (by simp [tree]), written⟩
    · rintro ⟨p, fits, complete, written⟩
      obtain ⟨e, tree⟩ := Option.isSome_iff_exists.mp ((tree_complete p fits (written ▸ proper)).mpr complete)
      exact ⟨e, (folds e).mpr ⟨p, fits, written, tree⟩⟩
  · intro p fits written e
    constructor
    · intro folded
      obtain ⟨q, qFits, qWritten, tree⟩ := (folds e).mp folded
      rwa [sentence_unique p q fits qFits (written.trans qWritten.symm)]
    · intro tree
      exact (folds e).mpr ⟨p, fits, written, tree⟩
  · intro p q pFits qFits pWritten qWritten
    exact sentence_unique p q pFits qFits (pWritten.trans qWritten.symm)

def minusTemplate : Template Rat Unit :=
  .leftBinary "-" .sub 10 (some ⟨"-", .rightOperator, unaryPrecedence, .unary .negate⟩)

def powerTemplate : Template Rat Unit := .rightBinary "^" .pow 30 none

-- The tokens of `-2^3^x`, where the sign binds tightest and powers group from the right.
def powers : Phrase Rat Unit :=
  .between
    (.before (.ofTemplate minusTemplate ⟨0, 1⟩)
      (.operand (.ofTemplate (.operand "2" (.literal 2)) ⟨1, 2⟩)))
    (.ofTemplate powerTemplate ⟨2, 3⟩)
    (.between
      (.operand (.ofTemplate (.operand "3" (.literal 3)) ⟨3, 4⟩))
      (.ofTemplate powerTemplate ⟨4, 5⟩)
      (.operand (.ofTemplate (.operand "x" (.parameter 0)) ⟨5, 6⟩)))

theorem powers_fits : powers.Fits := by
  have minus : IsPrefix (Token.ofTemplate minusTemplate ⟨0, 1⟩) := ⟨rfl, rfl, rfl, rfl, rfl⟩
  have power (span : Span) : IsBinary (Token.ofTemplate powerTemplate span) :=
    ⟨⟨.pow, rfl⟩, by simp [Token.ofTemplate, powerTemplate, Template.rightBinary, Token.role, levels], rfl⟩
  exact ⟨power _, by decide, by decide, ⟨minus, by decide, rfl⟩, power _, by decide, by decide, rfl, rfl⟩

theorem powers_parse :
    ∃ evaluator, (Settings.ofFlags ⟨true, true, false, true⟩ : Settings Rat Unit).build = .ok evaluator ∧
      (∀ token ∈ powers.tokens, Carries evaluator.grammar token) ∧
      ∃ e, foldTree (Postfix.order "-2^3^x" (powers.tokens.map .ok)) = .ok e ∧ powers.tree? = some e := by
  obtain ⟨evaluator, built, minus, power⟩ :
      ∃ evaluator, (Settings.ofFlags ⟨true, true, false, true⟩ : Settings Rat Unit).build = .ok evaluator ∧
        ⟨['-'], minusTemplate⟩ ∈ evaluator.grammar.operators ∧
        ⟨['^'], powerTemplate⟩ ∈ evaluator.grammar.operators :=
    ⟨_, rfl, List.mem_of_getElem? (i := 4) rfl, List.mem_of_getElem? (i := 8) rfl⟩
  have carried : ∀ token ∈ powers.tokens, Carries evaluator.grammar token := by
    intro token member
    simp only [powers, tokens, List.mem_append, List.mem_cons, List.not_mem_nil, or_false] at member
    rcases member with (rfl | rfl) | rfl | rfl | rfl | rfl
    · exact .operator _ minus _
    · exact .literal "2" 2 _
    · exact .operator _ power _
    · exact .literal "3" 3 _
    · exact .operator _ power _
    · exact .parameter "x" 0 _
  obtain ⟨accepts, builds, -⟩ := parser_accepts_grammar _ evaluator built "-2^3^x" powers.tokens carried
  have complete : powers.Complete := by simp [powers, Complete, Token.ofTemplate, Template.operand]
  obtain ⟨e, folded⟩ := accepts.mpr ⟨powers, powers_fits, complete, rfl⟩
  exact ⟨evaluator, built, carried, e, folded, (builds powers powers_fits rfl e).mp folded⟩

end Formula.Phrase
