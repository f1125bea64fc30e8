import Formula.Proofs.Graph.Listing
import Formula.Proofs.Graph.Preserve
import Formula.Proofs.Phrase.Source

set_option autoImplicit false

namespace Formula

variable {T σ : Type}

def Borrowed.action : Borrowed T σ → Action T σ
  | .routine function => .call function
  | .member source => .member source

namespace Grammar

def Knows (grammar : Grammar T σ) (form : Form T σ) : Prop :=
  ∀ name, form.action.offered? = some name → grammar.Offers form.action

-- A node uses what the grammar offers, and a constant's name is one that it offers with this value.
def Covers {ι : Type} (grammar : Grammar T σ) (shape : Shape T σ ι) : Prop :=
  shape.Within (fun borrowed => grammar.Offers borrowed.action) fun name value => grammar.Offers (.bound name value)

theorem constants_single (grammar : Grammar T σ) (orderly : grammar.Orderly) (name : String) (a b : T)
    (offeredA : grammar.Offers (.bound name a)) (offeredB : grammar.Offers (.bound name b)) : a = b :=
  (Action.bound.inj (grammar.offers_one orderly _ _ name offeredA offeredB rfl rfl)).2

theorem offers_coherent (grammar : Grammar T σ) (orderly : grammar.Orderly) (a b : Borrowed T σ)
    (offeredA : grammar.Offers a.action) (offeredB : grammar.Offers b.action) (same : a.identical b = true) : a = b := by
  cases a with
  | routine f =>
      cases b with
      | routine g =>
          have named : f.name = g.name := by
            simp only [Borrowed.identical, Routine.identical, Bool.and_eq_true, decide_eq_true_eq] at same
            exact same.1.2
          have one := grammar.offers_one orderly _ _ g.name offeredA offeredB (congrArg some named) rfl
          rw [Action.call.inj one]
      | member n => exact absurd same (by simp [Borrowed.identical])
  | member m =>
      cases b with
      | routine g => exact absurd same (by simp [Borrowed.identical])
      | member n =>
          have named : m.name = n.name := by
            simp only [Borrowed.identical, Member.identical, Bool.and_eq_true, decide_eq_true_eq] at same
            exact same.1.2
          have one := grammar.offers_one orderly _ _ n.name offeredA offeredB (congrArg some named) rfl
          rw [Action.member.inj one]

theorem knows_plain (grammar : Grammar T σ) (form : Form T σ) (plain : form.action.offered? = none) :
    grammar.Knows form := by
  intro name offered
  rw [plain] at offered
  exact absurd offered (by simp)

end Grammar

namespace Phrase

theorem lone_form (token : Token T σ) : token.lone.form = token.form ∨ token.alone = some token.lone.form := by
  unfold Token.lone
  split
  · exact .inl rfl
  · split
    · rename_i form alone
      exact .inr alone
    · exact .inl rfl

theorem carried_known (grammar : Grammar T σ) (orderly : grammar.Orderly) (token : Token T σ)
    (carried : Carries grammar token) : grammar.Knows token.form ∧ grammar.Knows token.lone.form := by
  cases carried with
  | operator entry known span =>
      have plain := orderly.operators entry known
      exact ⟨grammar.knows_plain _ (plain _ (.inl rfl)), grammar.knows_plain _ (plain _ (lone_form _))⟩
  | identifier entry known span =>
      have offered : grammar.Knows (Token.ofTemplate entry.template span).form := fun _ _ => ⟨entry, known, rfl⟩
      refine ⟨offered, ?_⟩
      rcases lone_form (.ofTemplate entry.template span) with same | alone
      · rw [same]
        exact offered
      · exact absurd (alone.symm.trans (orderly.single entry known)) (by simp)
  | literal name value span => exact ⟨grammar.knows_plain _ rfl, grammar.knows_plain _ rfl⟩
  | parameter name index span => exact ⟨grammar.knows_plain _ rfl, grammar.knows_plain _ rfl⟩
  | unknown name span => exact ⟨grammar.knows_plain _ rfl, grammar.knows_plain _ rfl⟩

theorem leaf_covered (grammar : Grammar T σ) (token : Token T σ) (known : grammar.Knows token.form) (e : Expr T σ)
    (leaf : token.leaf? = some e) : e.Every grammar.Covers := by
  unfold Token.leaf? at leaf
  split at leaf
  · obtain rfl := Option.some.inj leaf
    exact .node _ ⟨by simp [Shape.borrowed?], by simp⟩ (by simp [Shape.children])
  · rename_i name value action
    obtain rfl := Option.some.inj leaf
    refine .node _ ⟨by simp [Shape.borrowed?], ?_⟩ (by simp [Shape.children])
    rintro _ _ ⟨⟩
    have offered := known name (by simp [action, Action.offered?])
    rwa [action] at offered
  · obtain rfl := Option.some.inj leaf
    exact .node _ ⟨by simp [Shape.borrowed?], by simp⟩ (by simp [Shape.children])
  · rename_i source action
    obtain rfl := Option.some.inj leaf
    refine .node _ ⟨?_, by simp⟩ (by simp [Shape.children])
    rintro _ ⟨⟩
    have offered := known source.name (by simp [action, Action.offered?])
    rwa [action] at offered
  · exact absurd leaf (by simp)

theorem combine_covered (grammar : Grammar T σ) (token : Token T σ) (known : grammar.Knows token.form)
    (args : List (Expr T σ)) (covered : ∀ arg ∈ args, arg.Every grammar.Covers) (e : Expr T σ)
    (combined : token.combine? args = some e) : e.Every grammar.Covers := by
  unfold Token.combine? at combined
  split at combined
  case h_5 _ routine action =>
    split at combined
    · obtain rfl := Option.some.inj combined
      refine .node _ ⟨?_, by simp⟩ covered
      rintro _ ⟨⟩
      have offered := known routine.name (by simp [action, Action.offered?])
      rwa [action] at offered
    · exact absurd combined (by simp)
  case h_6 => exact absurd combined (by simp)
  all_goals
    obtain rfl := Option.some.inj combined
    exact .node _ ⟨by simp [Shape.borrowed?], by simp⟩ covered

structure Builds (holds : Shape T σ (Expr T σ) → Prop) (token : Token T σ) : Prop where
  leaf : ∀ e, token.leaf? = some e → e.Every holds
  combine : ∀ args, (∀ arg ∈ args, Expr.Every holds arg) → ∀ e, token.combine? args = some e → e.Every holds

mutual
theorem tree_every (holds : Shape T σ (Expr T σ) → Prop) (p : Phrase T σ)
    (each : ∀ token ∈ p.tokens, Builds holds token ∧ Builds holds token.lone) (e : Expr T σ) (tree : p.tree? = some e) :
    e.Every holds := by
  cases p with
  | operand token => exact (each token (by simp [tokens])).1.leaf e tree
  | group opening inner closing =>
      exact tree_every holds inner (fun token member => each token (by simp [tokens, member])) e tree
  | emptyCall name opening closing => exact (each name (by simp [tokens])).1.combine [] (by simp) e tree
  | call name opening args closing =>
      obtain ⟨trees, built, combined⟩ := Option.bind_eq_some_iff.mp tree
      have below := trees_every holds args (fun token member => each token (by simp [tokens, member])) trees built
      exact (each name (by simp [tokens])).1.combine trees below e combined
  | before operator inner =>
      obtain ⟨a, built, combined⟩ := Option.bind_eq_some_iff.mp tree
      have below := tree_every holds inner (fun token member => each token (by simp [tokens, member])) a built
      exact (each operator (by simp [tokens])).2.combine [a] (by simpa using below) e combined
  | between left operator right =>
      obtain ⟨a, leftBuilt, later⟩ := Option.bind_eq_some_iff.mp tree
      obtain ⟨b, rightBuilt, combined⟩ := Option.bind_eq_some_iff.mp later
      have first := tree_every holds left (fun token member => each token (by simp [tokens, member])) a leftBuilt
      have second := tree_every holds right (fun token member => each token (by simp [tokens, member])) b rightBuilt
      exact (each operator (by simp [tokens])).1.combine [a, b] (by simpa using ⟨first, second⟩) e combined
theorem trees_every (holds : Shape T σ (Expr T σ) → Prop) (args : Arguments T σ)
    (each : ∀ token ∈ argumentTokens args, Builds holds token ∧ Builds holds token.lone) (trees : List (Expr T σ))
    (built : argumentTrees? args = some trees) : ∀ tree ∈ trees, Expr.Every holds tree := by
  cases args with
  | one arg =>
      obtain ⟨a, tree, rfl⟩ := Option.map_eq_some_iff.mp built
      simpa using tree_every holds arg each a tree
  | more init comma arg =>
      obtain ⟨before, initBuilt, later⟩ := Option.bind_eq_some_iff.mp built
      obtain ⟨a, tree, rfl⟩ := Option.map_eq_some_iff.mp later
      have first := trees_every holds init (fun token member => each token (by simp [argumentTokens, member])) before
        initBuilt
      have last := tree_every holds arg (fun token member => each token (by simp [argumentTokens, member])) a tree
      intro other member
      rcases List.mem_append.mp member with old | new
      · exact first other old
      · exact List.mem_singleton.mp new ▸ last
end

theorem known_builds (grammar : Grammar T σ) (token : Token T σ) (known : grammar.Knows token.form) :
    Builds grammar.Covers token :=
  ⟨leaf_covered grammar token known, combine_covered grammar token known⟩

end Phrase

namespace Evaluator

theorem compile_ok [Numeric T] (evaluator : Evaluator T σ) (expression : String) (names : List String) (optimize : Bool)
    (before : σ) (compiled : Compiled T σ) :
    ((evaluator.compileWith expression names optimize).run before).1 = .ok compiled ↔
      ∃ parameters e, evaluator.grammar.bindParameters names = .ok parameters ∧
        evaluator.tree parameters expression = .ok e ∧
        compiled = ((finish expression names optimize e).run before).1 := by
  constructor
  · intro done
    unfold compileWith at done
    cases bound : evaluator.grammar.bindParameters names with
    | error error => exact absurd done (by simp [bound])
    | ok parameters =>
        rw [bound] at done
        cases found : evaluator.tree parameters expression with
        | error failure => exact absurd done (by simp [found])
        | ok e =>
            simp only [found] at done
            exact ⟨parameters, e, rfl, found, (Except.ok.inj done).symm⟩
  · rintro ⟨parameters, e, bound, found, rfl⟩
    rw [compileWith, bound]
    simp only [found]
    rfl

theorem compile_run [Numeric T] (evaluator : Evaluator T σ) (expression : String) (names : List String) (optimize : Bool)
    (before : σ) (parameters : Parameters) (e : Expr T σ) (bound : evaluator.grammar.bindParameters names = .ok parameters)
    (tree : evaluator.tree parameters expression = .ok e) :
    (evaluator.compileWith expression names optimize).run before =
      (.ok ((finish expression names optimize e).run before).1, ((finish expression names optimize e).run before).2) := by
  simp only [compileWith, bound, tree]
  rfl

theorem compile_refused [Numeric T] (evaluator : Evaluator T σ) (expression : String) (names : List String)
    (optimize : Bool) (before : σ) (parameters : Parameters) (error : Error)
    (bound : evaluator.grammar.bindParameters names = .ok parameters)
    (refused : (evaluator.tree parameters expression).mapError foldError = .error error) :
    (evaluator.compileWith expression names optimize).run before = (.error error, before) := by
  cases tree : evaluator.tree parameters expression with
  | ok e =>
      rw [tree] at refused
      exact absurd refused (by simp [Except.mapError])
  | error failure =>
      rw [tree] at refused
      obtain rfl := Except.error.inj refused
      simp only [compileWith, bound, tree]
      rfl

theorem compile_cases [Numeric T] (evaluator : Evaluator T σ) (expression : String) (names : List String) (optimize : Bool)
    (before : σ) :
    (∃ refused, evaluator.grammar.bindParameters names = .error refused ∧
      (evaluator.compileWith expression names optimize).run before = (.error (.grammar refused), before)) ∨
    ∃ parameters, evaluator.grammar.bindParameters names = .ok parameters ∧
      ((∃ failure, evaluator.tree parameters expression = .error failure ∧
        (evaluator.compileWith expression names optimize).run before = (.error (foldError failure), before)) ∨
      ∃ e, evaluator.tree parameters expression = .ok e ∧
        (evaluator.compileWith expression names optimize).run before =
          (.ok ((finish expression names optimize e).run before).1, ((finish expression names optimize e).run before).2)) := by
  cases bound : evaluator.grammar.bindParameters names with
  | error refused =>
      refine .inl ⟨refused, rfl, ?_⟩
      simp only [compileWith, bound]
      rfl
  | ok parameters =>
      refine .inr ⟨parameters, rfl, ?_⟩
      cases tree : evaluator.tree parameters expression with
      | error failure =>
          exact .inl ⟨failure, rfl, evaluator.compile_refused expression names optimize before parameters _ bound (by rw [tree]; rfl)⟩
      | ok e => exact .inr ⟨e, rfl, evaluator.compile_run expression names optimize before parameters e bound tree⟩

theorem compile_treeless [Numeric T] (evaluator : Evaluator T σ) (expression : String) (names : List String)
    (optimize : Bool) (before : σ) (parameters : Parameters) (bound : evaluator.grammar.bindParameters names = .ok parameters)
    (treeless : ∀ e, evaluator.tree parameters expression ≠ .ok e) :
    ∃ error, (evaluator.compileWith expression names optimize).run before = (.error error, before) := by
  rcases evaluator.compile_cases expression names optimize before with
    ⟨refused, unbound, -⟩ | ⟨_, again, ⟨failure, -, runs⟩ | ⟨e, tree, -⟩⟩
  · exact absurd (unbound.symm.trans bound) (by simp)
  · exact ⟨_, runs⟩
  · obtain rfl := Except.ok.inj (again.symm.trans bound)
    exact absurd tree (treeless e)

theorem compile_failed [Numeric T] (evaluator : Evaluator T σ) (expression : String) (names : List String) (optimize : Bool)
    (before after : σ) (error : Error)
    (failed : (evaluator.compileWith expression names optimize).run before = (.error error, after)) :
    (∃ refused, evaluator.grammar.bindParameters names = .error refused ∧ error = .grammar refused) ∨
      ∃ parameters failure, evaluator.grammar.bindParameters names = .ok parameters ∧
        evaluator.tree parameters expression = .error failure ∧ error = foldError failure := by
  rcases evaluator.compile_cases expression names optimize before with
    ⟨refused, unbound, runs⟩ | ⟨parameters, bound, ⟨failure, treeless, runs⟩ | ⟨e, -, runs⟩⟩
  · rw [runs] at failed
    exact .inl ⟨refused, unbound, (Except.error.inj (Prod.mk.inj failed).1).symm⟩
  · rw [runs] at failed
    exact .inr ⟨parameters, failure, bound, treeless, (Except.error.inj (Prod.mk.inj failed).1).symm⟩
  · rw [runs] at failed
    exact absurd (Prod.mk.inj failed).1 (by simp)

theorem finish_raw [Numeric T] (expression : String) (names : List String) (e : Expr T σ) (before : σ) :
    ((finish expression names false e).run before).1 = ⟨expression, names, Graph.ofExpr e, none⟩ := rfl

theorem finish_optimized [Numeric T] (expression : String) (names : List String) (e : Expr T σ) (before : σ) :
    ((finish expression names true e).run before).1 =
      ⟨expression, names, ((Graph.ofExpr e).optimized before).1, some ((Graph.ofExpr e).optimized before).2⟩ := rfl

theorem finish_after [Numeric T] (expression : String) (names : List String) (e : Expr T σ) (before : σ) :
    ((finish expression names true e).run before).2 = ((Graph.ofExpr e).optimize.run before).2 := rfl

theorem compile_both [Numeric T] (evaluator : Evaluator T σ) (expression : String) (names : List String) (before : σ)
    (raw optimized : Compiled T σ) (plain : ((evaluator.compileWith expression names false).run before).1 = .ok raw)
    (shortened : ((evaluator.compileWith expression names true).run before).1 = .ok optimized) :
    ∃ parameters e, evaluator.tree parameters expression = .ok e ∧ raw = ⟨expression, names, Graph.ofExpr e, none⟩ ∧
      optimized =
        ⟨expression, names, ((Graph.ofExpr e).optimized before).1, some ((Graph.ofExpr e).optimized before).2⟩ := by
  obtain ⟨parameters, e, bound, found, same⟩ := (compile_ok evaluator expression names false before raw).mp plain
  obtain ⟨others, f, alsoBound, alsoFound, other⟩ :=
    (compile_ok evaluator expression names true before optimized).mp shortened
  obtain rfl := Except.ok.inj (bound.symm.trans alsoBound)
  obtain rfl := Except.ok.inj (found.symm.trans alsoFound)
  exact ⟨parameters, e, found, same, other⟩

variable [Numeric T] (settings : Settings T σ) (evaluator : Evaluator T σ) (built : settings.build = .ok evaluator)
  (parameters : Parameters) (expression : String) (e : Expr T σ)
  (found : evaluator.tree parameters expression = .ok e)

include built found

theorem compiled_covered : e.Every evaluator.grammar.Covers := by
  obtain ⟨p, -, -, carried, tree⟩ := Phrase.tree_sentence settings evaluator built parameters expression e found
  have orderly := Grammar.built_orderly settings evaluator built
  refine Phrase.tree_every evaluator.grammar.Covers p (fun token member => ?_) e tree
  obtain ⟨known, alone⟩ := Phrase.carried_known evaluator.grammar orderly token (carried token member)
  exact ⟨Phrase.known_builds _ token known, Phrase.known_builds _ token.lone alone⟩

theorem compiled_well_formed : (Graph.ofExpr e).WellFormed := by
  have orderly := Grammar.built_orderly settings evaluator built
  have covered := compiled_covered settings evaluator built parameters expression e found
  have allowed := (Graph.of_expr_written _ _ e covered).sound.allowed
  exact ⟨Graph.of_expr_earlier e, fun a b usesA usesB =>
    evaluator.grammar.offers_coherent orderly a b (allowed a usesA) (allowed b usesB)⟩

theorem compiled_fold {α : Type} (layer : Shape T σ α → α) (fallback : α) :
    (Graph.ofExpr e).fold layer fallback = e.fold layer := by
  have orderly := Grammar.built_orderly settings evaluator built
  have covered := compiled_covered settings evaluator built parameters expression e found
  exact Graph.of_expr_fold _ _ e covered (evaluator.grammar.constants_single orderly) layer fallback

theorem compiled_preserves [Exact T] (deterministic : (Graph.ofExpr e).Deterministic) (names : List String)
    (before now : σ) (inputs : List T) (value : T)
    (called : (((finish expression names false e).run before).1.call inputs).outcome now = .ok value) :
    (((finish expression names true e).run before).1.call inputs).outcome now = .ok value := by
  have wellFormed := compiled_well_formed settings evaluator built parameters expression e found
  rw [Compiled.call_ok] at called ⊢
  exact ⟨called.1, Graph.optimized_gives (Graph.ofExpr e) wellFormed deterministic before now inputs value called.2⟩

end Evaluator

end Formula
