import Formula.Evaluator
import Formula.Numeric.Integer
import Formula.Proofs.Phrase.Value
import Formula.Proofs.Postfix

set_option autoImplicit false

namespace Formula

namespace Postfix

variable {Tok E N : Type}

-- What is around a fold: the stream that it takes items from, and those to whom it reports a token that does not build.
structure Surroundings (m : Type → Type) (Tok E : Type) where
  take : Except E Tok → m Unit
  diagnose : Tok → E → m E
  leftover : Nat → E

def Surroundings.takeAll {m : Type → Type} [Monad m] (around : Surroundings m Tok E) (items : List (Except E Tok)) :
    m Unit := items.forM around.take

-- The fold with all that it does to its surroundings, one item at a time.
def foldThrough {m : Type → Type} [Monad m] (around : Surroundings m Tok E) (builder : Builder Tok E N) (stack : List N) :
    List (Except E Tok) → m (Except E N)
  | [] =>
      match stack with
      | [value] => return .ok value
      | _ => return .error (around.leftover stack.length)
  | item :: rest => do
      around.take item
      match item with
      | .error error => return .error error
      | .ok token =>
          match push builder token stack with
          | .ok stack => foldThrough around builder stack rest
          | .error error => return .error (← around.diagnose token error)

def Builds (builder : Builder Tok E N) (stack : List N) (tokens : List Tok) (left : List N) : Prop :=
  tokens.foldlM (fun stack token => push builder token stack) stack = .ok left

theorem builds_cons (builder : Builder Tok E N) (stack left : List N) (token : Tok) (rest : List Tok) :
    Builds builder stack (token :: rest) left ↔
      ∃ next, push builder token stack = .ok next ∧ Builds builder next rest left := by
  rw [Builds, List.foldlM_cons]
  cases push builder token stack <;> simp [Builds, bind, Except.bind]

theorem fold_builds (builder : Builder Tok E N) (tokens : List Tok) (stack left : List N)
    (builds : Builds builder stack tokens left) (items : List (Except E Tok)) :
    foldFrom builder stack (tokens.map .ok ++ items) = foldFrom builder left items := by
  induction tokens generalizing stack with
  | nil =>
      obtain rfl : stack = left := Except.ok.inj builds
      rfl
  | cons token rest ih =>
      obtain ⟨next, pushed, later⟩ := (builds_cons builder stack left token rest).mp builds
      simp only [List.map_cons, List.cons_append, foldFrom, pushed]
      exact ih next later

theorem fold_ok_builds (builder : Builder Tok E N) (tokens : List Tok) (stack : List N) (n : N)
    (folded : foldFrom builder stack (tokens.map .ok) = .ok n) : Builds builder stack tokens [n] := by
  induction tokens generalizing stack with
  | nil =>
      obtain rfl := (fold_end builder stack n).mp folded
      rfl
  | cons token rest ih =>
      rw [List.map_cons, foldFrom] at folded
      cases pushed : push builder token stack with
      | error error => simp [pushed] at folded
      | ok next =>
          rw [pushed] at folded
          exact (builds_cons builder stack [n] token rest).mpr ⟨next, pushed, ih next folded⟩

section

variable {m : Type → Type} [Monad m] [LawfulMonad m] (around : Surroundings m Tok E)

theorem through_builds (builder : Builder Tok E N) (tokens : List Tok) (stack left : List N)
    (builds : Builds builder stack tokens left) (items : List (Except E Tok)) :
    foldThrough around builder stack (tokens.map .ok ++ items) = (do
      around.takeAll (tokens.map .ok)
      foldThrough around builder left items) := by
  induction tokens generalizing stack with
  | nil =>
      obtain rfl : stack = left := Except.ok.inj builds
      simp [Surroundings.takeAll]
  | cons token rest ih =>
      obtain ⟨next, pushed, later⟩ := (builds_cons builder stack left token rest).mp builds
      simp only [Surroundings.takeAll, List.map_cons, List.cons_append, foldThrough, pushed, ih next later,
        List.forM_eq_forM, List.forM_cons, bind_assoc]

variable (builder : Builder Tok E N) (tokens : List Tok) (left : List N) (builds : Builds builder [] tokens left)

include builds

theorem single_taken (n : N) (single : left = [n]) : foldThrough around builder [] (tokens.map .ok) = (do
    around.takeAll (tokens.map .ok)
    return .ok n) := by
  have taken := through_builds around builder tokens [] left builds []
  rw [List.append_nil] at taken
  rw [taken, single, foldThrough]

theorem leftover_taken (several : left.length ≠ 1) :
    fold builder (tokens.map .ok) = .error (.leftover left.length) ∧
      foldThrough around builder [] (tokens.map .ok) = (do
        around.takeAll (tokens.map .ok)
        return .error (around.leftover left.length)) := by
  have folded := fold_builds builder tokens [] left builds []
  have taken := through_builds around builder tokens [] left builds []
  rw [List.append_nil] at folded taken
  rw [fold, folded, taken]
  rcases left with _ | ⟨value, _ | ⟨other, rest⟩⟩
  · exact ⟨rfl, rfl⟩
  · exact absurd rfl several
  · exact ⟨rfl, rfl⟩

theorem failure_reported (token : Tok) (error : E) (failed : push builder token left = .error error)
    (after : List (Except E Tok)) :
    fold builder (tokens.map .ok ++ .ok token :: after) = .error (.build token error) ∧
      foldThrough around builder [] (tokens.map .ok ++ .ok token :: after) = (do
        around.takeAll ((tokens ++ [token]).map .ok)
        return .error (← around.diagnose token error)) := by
  rw [fold, fold_builds builder tokens [] left builds, through_builds around builder tokens [] left builds]
  simp [foldFrom, foldThrough, failed, Surroundings.takeAll]

theorem break_handed_on (error : E) (after : List (Except E Tok)) :
    fold builder (tokens.map .ok ++ .error error :: after) = .error (.stream error) ∧
      foldThrough around builder [] (tokens.map .ok ++ .error error :: after) = (do
        around.takeAll (tokens.map .ok ++ [.error error])
        return .error error) := by
  rw [fold, fold_builds builder tokens [] left builds, through_builds around builder tokens [] left builds]
  simp [foldFrom, foldThrough, Surroundings.takeAll]

end

end Postfix

namespace Token

variable {T σ : Type}

def takes (token : Token T σ) : Nat := if token.role = .operand then 0 else token.arity?.getD 0

def made (token : Token T σ) (args : List (Expr T σ)) : Except Error (Expr T σ) :=
  if token.role = .operand then treeBuilder.leaf token else (treeBuilder.node token args.reverse).map Prod.fst

theorem take_enough (token : Token T σ) (args : List (Expr T σ)) :
    ∃ outcome : Except EvalError Unit, ∀ below,
      token.take (some (args.reverse ++ below)) args.length = outcome.map fun _ => (args, below) := by
  by_cases counted : token.argc.getD args.length = args.length
  · exact ⟨.ok (), fun below => Phrase.take_args token args below counted⟩
  · exact ⟨.error _, fun below => if_pos counted⟩

theorem take_short (token : Token T σ) (stack : List (Expr T σ)) (arity : Nat) (short : stack.length < arity) :
    ∃ error, token.take (some stack) arity = .error error := by
  by_cases counted : token.argc.getD arity = arity
  · exact ⟨token.missing, by simp [take, counted, short]⟩
  · exact ⟨_, if_pos counted⟩

theorem build_enough (token : Token T σ) (args below : List (Expr T σ)) (enough : args.length = token.arity?.getD 0) :
    token.build (some (args.reverse ++ below)) = ((token.build (some args.reverse)).map Prod.fst).map (·, below) := by
  obtain ⟨outcome, taken⟩ := take_enough token args
  have alone := taken []
  rw [List.append_nil] at alone
  have onTop := taken below
  unfold Token.arity? at enough
  unfold Token.build
  cases action : token.form.action with
  | unary op =>
      obtain ⟨operand, rfl⟩ := List.length_eq_one_iff.mp (by simpa [action] using enough)
      cases outcome <;> simp_all [bind, Except.bind, pure, Except.pure, Except.map]
  | convert conversion =>
      obtain ⟨operand, rfl⟩ := List.length_eq_one_iff.mp (by simpa [action] using enough)
      cases outcome <;> simp_all [bind, Except.bind, pure, Except.pure, Except.map]
  | binary op =>
      obtain ⟨left, right, rfl⟩ := List.length_eq_two.mp (by simpa [action] using enough)
      cases outcome <;> simp_all [bind, Except.bind, pure, Except.pure, Except.map]
  | conditional =>
      obtain ⟨condition, accepted, rejected, rfl⟩ := List.length_eq_three.mp (by simpa [action] using enough)
      cases outcome <;> simp_all [bind, Except.bind, pure, Except.pure, Except.map]
  | call routine =>
      have length : args.length = routine.arity := by simpa [action] using enough
      rw [length] at alone onTop
      cases outcome <;> simp_all [bind, Except.bind, pure, Except.pure, Except.map]
  | _ =>
      obtain rfl := List.eq_nil_of_length_eq_zero (by simpa [action] using enough)
      rfl

theorem build_short (token : Token T σ) (stack : List (Expr T σ)) (short : stack.length < token.arity?.getD 0) :
    ∃ error, token.build (some stack) = .error error := by
  obtain ⟨error, failed⟩ := take_short token stack _ short
  unfold Token.arity? at short failed
  unfold Token.build
  cases action : token.form.action with
  | unary op | convert conversion | binary op | conditional | call routine =>
      simp only [action, Option.getD_some] at failed
      exact ⟨error, by simp [failed, bind, Except.bind]⟩
  | _ => simp [action] at short

theorem tree_builder_regular : (treeBuilder : Postfix.Builder (Token T σ) Error (Expr T σ)).Regular takes made where
  operand token operand := by
    have role : token.role = .operand := of_decide_eq_true operand
    exact ⟨if_pos role, (if_pos role).symm⟩
  applied token args below operand enough := by
    have role : token.role ≠ .operand := of_decide_eq_false operand
    rw [takes, if_neg role] at enough
    rw [made, if_neg role]
    change (token.build (some (args.reverse ++ below))).mapError _ = _
    rw [build_enough token args below enough]
    change _ = (((token.build (some args.reverse)).mapError _).map Prod.fst).map _
    cases token.build (some args.reverse) <;> rfl
  short token stack operand short := by
    have role : token.role ≠ .operand := of_decide_eq_false operand
    rw [takes, if_neg role] at short
    obtain ⟨error, failed⟩ := build_short token stack short
    refine ⟨.eval error, ?_⟩
    change (token.build (some stack)).mapError _ = _
    rw [failed]
    rfl

end Token

namespace Postfix

variable {Tok E N : Type}

-- A stream lists one tree in postorder exactly when it folds to a value, and then that is the value of the tree. The
-- first token that does not build is reported with its error, once, and nothing is taken after it; where the stream
-- breaks off its error is handed on, and nothing is reported.
theorem fold_inverts_postorder (builder : Builder Tok E N) (arity : Tok → Nat) (make : Tok → List N → Except E N)
    (regular : builder.Regular arity make) (items : List (Except E Tok)) :
    (∀ n, fold builder items = .ok n ↔
      ∃ tree : Tree Tok, tree.Fits arity ∧ tree.value make = .ok n ∧ items = tree.postorder.map .ok) ∧
    (∀ tree other : Tree Tok, tree.Fits arity → other.Fits arity → tree.postorder = other.postorder → tree = other) ∧
    ∀ {m : Type → Type} [Monad m] [LawfulMonad m] (around : Surroundings m Tok E),
      (∀ n, fold builder items = .ok n → foldThrough around builder [] items = (do
        around.takeAll items
        return .ok n)) ∧
      (∀ tokens left, items = tokens.map .ok → Builds builder [] tokens left → left.length ≠ 1 →
        fold builder items = .error (.leftover left.length) ∧ foldThrough around builder [] items = (do
          around.takeAll items
          return .error (around.leftover left.length))) ∧
      (∀ before token after left error, items = before.map .ok ++ .ok token :: after → Builds builder [] before left →
        push builder token left = .error error →
        fold builder items = .error (.build token error) ∧ foldThrough around builder [] items = (do
          around.takeAll ((before ++ [token]).map .ok)
          return .error (← around.diagnose token error))) ∧
      ∀ before error after left, items = before.map .ok ++ .error error :: after → Builds builder [] before left →
        fold builder items = .error (.stream error) ∧ foldThrough around builder [] items = (do
          around.takeAll (before.map .ok ++ [.error error])
          return .error error) := by
  refine ⟨fold_ok_iff builder arity make regular items, postorder_injective arity, fun around => ⟨?_, ?_, ?_, ?_⟩⟩
  · intro n folded
    obtain ⟨tree, -, -, rfl⟩ := (fold_ok_iff builder arity make regular items n).mp folded
    exact single_taken around builder _ _ (fold_ok_builds builder tree.postorder [] n folded) n rfl
  · rintro tokens left rfl builds several
    exact leftover_taken around builder tokens left builds several
  · rintro before token after left error rfl builds failed
    exact failure_reported around builder before left builds token error failed after
  · rintro before error after left rfl builds
    exact break_handed_on around builder before left builds error after

-- Counts the items that are taken, keeps what is reported, and places errors as an evaluator does.
def recorder : Surroundings (StateM (Nat × List (Token (Integer .signed) Unit × Error))) (Token (Integer .signed) Unit)
    Error where
  take _ := modify fun (count, reported) => (count + 1, reported)
  diagnose token error := do
    modify fun (count, reported) => (count, reported ++ [(token, error)])
    return foldError (.build token error)
  leftover count := .eval (leftoverError count)

def sumToken : Token (Integer .signed) Unit := .ofTemplate (.leftBinary "+" .add 10 none) ⟨1, 2⟩

def sumOperand (value : Int) : Token (Integer .signed) Unit :=
  .ofTemplate (.operand "digit" (.literal (Integer.ofBits .signed value))) ⟨0, 1⟩

def sumTree : Tree (Token (Integer .signed) Unit) := .node sumToken [.node (sumOperand 2) [], .node (sumOperand 3) []]

-- A sum is built once both of its operands are there; before that it alone is reported, whatever comes after it.
theorem early_sum_reported :
    (treeBuilder : Postfix.Builder (Token (Integer .signed) Unit) Error (Expr (Integer .signed) Unit)).Regular
      Token.takes Token.made ∧
    (∃ sum, fold treeBuilder [.ok (sumOperand 2), .ok (sumOperand 3), .ok sumToken] = .ok sum ∧
      sumTree.value Token.made = .ok sum) ∧
    (foldThrough recorder treeBuilder [] [.ok (sumOperand 2), .ok sumToken, .ok (sumOperand 3), .error (.eval .overflow)]).run
        (0, []) =
      (.error (.eval (.located ⟨1, 2⟩ sumToken.missing)), 2, [(sumToken, .eval sumToken.missing)]) := by
  refine ⟨Token.tree_builder_regular, ⟨_, ?_, rfl⟩, ?_⟩
  · exact ((fold_inverts_postorder treeBuilder _ _ Token.tree_builder_regular _).1 _).mpr
      ⟨sumTree, ⟨rfl, ⟨rfl, trivial⟩, ⟨rfl, trivial⟩, trivial⟩, rfl, rfl⟩
  · have reported := ((fold_inverts_postorder treeBuilder _ _ Token.tree_builder_regular
      [.ok (sumOperand 2), .ok sumToken, .ok (sumOperand 3), .error (.eval .overflow)]).2.2 recorder).2.2.1
      [sumOperand 2] sumToken [.ok (sumOperand 3), .error (.eval .overflow)] _ _ rfl rfl rfl
    rw [reported.2]
    rfl

end Postfix

end Formula
