import Formula.Postfix
import Mathlib.Data.List.Basic

set_option autoImplicit false

namespace Formula.Postfix

variable {Tok E N : Type}

inductive Tree (Tok : Type) where
  | node (token : Tok) (args : List (Tree Tok))

mutual
def Tree.postorder : Tree Tok → List Tok
  | .node token args => postorderAll args ++ [token]
def postorderAll : List (Tree Tok) → List Tok
  | [] => []
  | arg :: rest => arg.postorder ++ postorderAll rest
end

mutual
def Tree.Fits (arity : Tok → Nat) : Tree Tok → Prop
  | .node token args => args.length = arity token ∧ AllFit arity args
def AllFit (arity : Tok → Nat) : List (Tree Tok) → Prop
  | [] => True
  | arg :: rest => arg.Fits arity ∧ AllFit arity rest
end

mutual
def Tree.value (make : Tok → List N → Except E N) : Tree Tok → Except E N
  | .node token args => (values make args).bind (make token)
def values (make : Tok → List N → Except E N) : List (Tree Tok) → Except E (List N)
  | [] => .ok []
  | arg :: rest => (arg.value make).bind fun first => (values make rest).map (first :: ·)
end

-- A builder whose tokens take as many values from the stack as they always do, in the order of the text, fail when there
-- are fewer, and otherwise make one value of them.
structure Builder.Regular (builder : Builder Tok E N) (arity : Tok → Nat) (make : Tok → List N → Except E N) : Prop where
  operand : ∀ token, builder.isOperand token = true → arity token = 0 ∧ builder.leaf token = make token []
  applied : ∀ token args below, builder.isOperand token = false → args.length = arity token →
    builder.node token (args.reverse ++ below) = (make token args).map (·, below)
  short : ∀ token stack, builder.isOperand token = false → stack.length < arity token →
    ∃ error, builder.node token stack = .error error

theorem postorder_all_append (first second : List (Tree Tok)) :
    postorderAll (first ++ second) = postorderAll first ++ postorderAll second := by
  induction first with
  | nil => rfl
  | cons arg rest ih => rw [List.cons_append, postorderAll, postorderAll, ih, List.append_assoc]

theorem all_fit_append (arity : Tok → Nat) (first second : List (Tree Tok)) :
    AllFit arity (first ++ second) ↔ AllFit arity first ∧ AllFit arity second := by
  induction first with
  | nil => simp [AllFit]
  | cons arg rest ih => rw [List.cons_append, AllFit, AllFit, ih, and_assoc]

theorem values_cons (make : Tok → List N → Except E N) (arg : Tree Tok) (rest : List (Tree Tok)) (found : List N) :
    values make (arg :: rest) = .ok found ↔
      ∃ first others, arg.value make = .ok first ∧ values make rest = .ok others ∧ found = first :: others := by
  rw [values]
  cases arg.value make <;> cases values make rest <;> simp [Except.bind, Except.map, eq_comm]

theorem value_node (make : Tok → List N → Except E N) (token : Tok) (args : List (Tree Tok)) (n : N) :
    (Tree.node token args).value make = .ok n ↔ ∃ found, values make args = .ok found ∧ make token found = .ok n := by
  rw [Tree.value]
  cases values make args <;> simp [Except.bind]

theorem values_length (make : Tok → List N → Except E N) (trees : List (Tree Tok)) (found : List N)
    (worth : values make trees = .ok found) : found.length = trees.length := by
  induction trees generalizing found with
  | nil =>
      obtain rfl := Except.ok.inj worth
      rfl
  | cons arg rest ih =>
      obtain ⟨first, others, -, later, rfl⟩ := (values_cons make arg rest found).mp worth
      rw [List.length_cons, List.length_cons, ih others later]

theorem values_append (make : Tok → List N → Except E N) (first second : List (Tree Tok)) (a b : List N)
    (front : values make first = .ok a) (back : values make second = .ok b) :
    values make (first ++ second) = .ok (a ++ b) := by
  induction first generalizing a with
  | nil =>
      obtain rfl := Except.ok.inj front
      exact back
  | cons arg rest ih =>
      obtain ⟨value, others, here, later, rfl⟩ := (values_cons make arg rest a).mp front
      exact (values_cons make arg _ _).mpr ⟨value, others ++ b, here, ih others later, rfl⟩

theorem values_split (make : Tok → List N → Except E N) (trees : List (Tree Tok)) (a b : List N)
    (worth : values make trees = .ok (a ++ b)) :
    ∃ first second, trees = first ++ second ∧ values make first = .ok a ∧ values make second = .ok b := by
  induction a generalizing trees with
  | nil => exact ⟨[], trees, rfl, rfl, worth⟩
  | cons value more ih =>
      cases trees with
      | nil => exact absurd (Except.ok.inj worth) (by simp)
      | cons arg rest =>
          obtain ⟨head, others, here, later, same⟩ := (values_cons make arg rest _).mp worth
          obtain ⟨rfl, rfl⟩ := List.cons.inj same
          obtain ⟨first, second, rfl, front, back⟩ := ih rest later
          exact ⟨arg :: first, second, rfl, (values_cons make arg first _).mpr ⟨value, more, here, front, rfl⟩, back⟩

section

variable (builder : Builder Tok E N) (arity : Tok → Nat) (make : Tok → List N → Except E N)
  (regular : builder.Regular arity make)

include regular

theorem push_applied (token : Tok) (args below : List N) (enough : args.length = arity token) :
    push builder token (args.reverse ++ below) = (make token args).map (· :: below) := by
  rw [push]
  cases operand : builder.isOperand token with
  | true =>
      obtain ⟨none, leaf⟩ := regular.operand token operand
      obtain rfl := List.eq_nil_of_length_eq_zero (enough.trans none)
      rw [if_pos rfl, leaf]
      rfl
  | false =>
      rw [if_neg Bool.false_ne_true, regular.applied token args below operand enough]
      cases make token args <;> rfl

theorem push_short (token : Tok) (stack : List N) (short : stack.length < arity token) :
    ∃ error, push builder token stack = .error error := by
  rw [push]
  cases operand : builder.isOperand token with
  | true => exact absurd short (by simp [(regular.operand token operand).1])
  | false =>
      obtain ⟨error, failed⟩ := regular.short token stack operand short
      exact ⟨error, by rw [if_neg Bool.false_ne_true, failed]; rfl⟩

theorem push_ok (token : Tok) (stack next : List N) (pushed : push builder token stack = .ok next) :
    ∃ args below value, stack = args.reverse ++ below ∧ args.length = arity token ∧ make token args = .ok value ∧
      next = value :: below := by
  rcases Nat.lt_or_ge stack.length (arity token) with short | enough
  · obtain ⟨error, failed⟩ := push_short builder arity make regular token stack short
    exact absurd (failed.symm.trans pushed) (by simp)
  · have split : stack = (stack.take (arity token)).reverse.reverse ++ stack.drop (arity token) := by simp
    have count : (stack.take (arity token)).reverse.length = arity token := by simp [enough]
    rw [split, push_applied builder arity make regular token _ _ count] at pushed
    cases made : make token (stack.take (arity token)).reverse with
    | error error => simp [made, Except.map] at pushed
    | ok value =>
        rw [made, Except.map, Except.ok.injEq] at pushed
        exact ⟨_, _, value, split, count, made, pushed.symm⟩

end

mutual
theorem fold_tree (builder : Builder Tok E N) (arity : Tok → Nat) (make : Tok → List N → Except E N)
    (regular : builder.Regular arity make) (tree : Tree Tok) (fits : tree.Fits arity) (n : N)
    (worth : tree.value make = .ok n) (stack : List N) (items : List (Except E Tok)) :
    foldFrom builder stack (tree.postorder.map .ok ++ items) = foldFrom builder (n :: stack) items := by
  cases tree with
  | node token args =>
      obtain ⟨found, inside, made⟩ := (value_node make token args n).mp worth
      have pushed := push_applied builder arity make regular token found stack
        ((values_length make args found inside).trans fits.1)
      rw [made, Except.map] at pushed
      rw [Tree.postorder, List.map_append, List.append_assoc,
        fold_trees builder arity make regular args fits.2 found inside stack]
      simp only [List.map_cons, List.map_nil, List.singleton_append, foldFrom, pushed]
theorem fold_trees (builder : Builder Tok E N) (arity : Tok → Nat) (make : Tok → List N → Except E N)
    (regular : builder.Regular arity make) (trees : List (Tree Tok)) (fits : AllFit arity trees) (found : List N)
    (worth : values make trees = .ok found) (stack : List N) (items : List (Except E Tok)) :
    foldFrom builder stack ((postorderAll trees).map .ok ++ items) =
      foldFrom builder (found.reverse ++ stack) items := by
  cases trees with
  | nil =>
      obtain rfl := Except.ok.inj worth
      rfl
  | cons arg rest =>
      obtain ⟨first, others, here, later, rfl⟩ := (values_cons make arg rest found).mp worth
      rw [postorderAll, List.map_append, List.append_assoc,
        fold_tree builder arity make regular arg fits.1 first here stack,
        fold_trees builder arity make regular rest fits.2 others later, List.reverse_cons, List.append_assoc,
        List.singleton_append]
end

theorem fold_end (builder : Builder Tok E N) (stack : List N) (n : N) :
    foldFrom builder stack [] = .ok n ↔ stack = [n] := by
  rcases stack with _ | ⟨value, _ | ⟨other, rest⟩⟩ <;> simp [foldFrom]

section

variable (builder : Builder Tok E N) (arity : Tok → Nat) (make : Tok → List N → Except E N)
  (regular : builder.Regular arity make)

include regular

-- A stack that holds the values of trees stands for what they list: if it folds to a value together with the rest of
-- the stream, all of it lists one tree.
theorem fold_lists (items : List (Except E Tok)) (trees : List (Tree Tok)) (found : List N) (fits : AllFit arity trees)
    (worth : values make trees = .ok found) (n : N) (folded : foldFrom builder found.reverse items = .ok n) :
    ∃ tree : Tree Tok, tree.Fits arity ∧ tree.value make = .ok n ∧
      (postorderAll trees).map .ok ++ items = tree.postorder.map .ok := by
  induction items generalizing trees found with
  | nil =>
      obtain rfl : found = [n] := List.reverse_eq_iff.mp ((fold_end builder _ n).mp folded)
      obtain ⟨tree, rfl⟩ := List.length_eq_one_iff.mp (values_length make trees [n] worth).symm
      obtain ⟨first, others, here, -, same⟩ := (values_cons make tree [] _).mp worth
      obtain ⟨rfl, -⟩ := List.cons.inj same
      exact ⟨tree, fits.1, here, by simp [postorderAll]⟩
  | cons item rest ih =>
      cases item with
      | error error => exact absurd folded (by simp [foldFrom])
      | ok token =>
          rw [foldFrom] at folded
          cases pushed : push builder token found.reverse with
          | error error => simp [pushed] at folded
          | ok next =>
              rw [pushed] at folded
              obtain ⟨args, below, value, held, count, made, rfl⟩ :=
                push_ok builder arity make regular token found.reverse next pushed
              have split : found = below.reverse ++ args := by
                rw [← List.reverse_reverse found, held, List.reverse_append, List.reverse_reverse]
              rw [split] at worth
              obtain ⟨first, second, rfl, front, back⟩ := values_split make trees _ _ worth
              rw [all_fit_append] at fits
              -- The arguments become one tree, which takes their place.
              have grown : (Tree.node token second).value make = .ok value := (value_node make _ _ _).mpr ⟨args, back, made⟩
              have grownFits : (Tree.node token second).Fits arity :=
                ⟨(values_length make second args back).symm.trans count, fits.2⟩
              have worthNow : values make (first ++ [.node token second]) = .ok (below.reverse ++ [value]) :=
                values_append make _ _ _ _ front ((values_cons make _ _ _).mpr ⟨value, [], grown, rfl, rfl⟩)
              have fitsNow : AllFit arity (first ++ [.node token second]) :=
                (all_fit_append arity _ _).mpr ⟨fits.1, grownFits, trivial⟩
              obtain ⟨tree, treeFits, treeWorth, listed⟩ := ih _ _ fitsNow worthNow (by simpa using folded)
              refine ⟨tree, treeFits, treeWorth, Eq.trans ?_ listed⟩
              simp [postorder_all_append, postorderAll, Tree.postorder]

theorem fold_ok_iff (items : List (Except E Tok)) (n : N) : fold builder items = .ok n ↔
    ∃ tree : Tree Tok, tree.Fits arity ∧ tree.value make = .ok n ∧ items = tree.postorder.map .ok := by
  constructor
  · intro folded
    obtain ⟨tree, fits, worth, listed⟩ := fold_lists builder arity make regular items [] [] trivial rfl n folded
    exact ⟨tree, fits, worth, listed⟩
  · rintro ⟨tree, fits, worth, rfl⟩
    have folded := fold_tree builder arity make regular tree fits n worth [] []
    rwa [List.append_nil] at folded

end

def grower (arity : Tok → Nat) : Builder Tok Unit (Tree Tok) where
  isOperand _ := false
  leaf token := .ok (.node token [])
  node token stack :=
    if stack.length < arity token then .error ()
    else .ok (.node token (stack.take (arity token)).reverse, stack.drop (arity token))

def grow (token : Tok) (args : List (Tree Tok)) : Except Unit (Tree Tok) := .ok (.node token args)

theorem grower_regular (arity : Tok → Nat) : (grower arity).Regular arity grow where
  operand _ operand := absurd operand Bool.false_ne_true
  applied token args below _ enough := by
    have count : args.reverse.length = arity token := args.length_reverse.trans enough
    simp [grower, grow, ← count, Except.map]
  short token stack _ short := ⟨(), if_pos short⟩

mutual
theorem grown_value (tree : Tree Tok) : tree.value grow = .ok tree := by
  cases tree with
  | node token args => exact (value_node grow token args _).mpr ⟨args, grown_values args, rfl⟩
theorem grown_values (trees : List (Tree Tok)) : values grow trees = .ok trees := by
  cases trees with
  | nil => rfl
  | cons arg rest => exact (values_cons grow arg rest _).mpr ⟨arg, rest, grown_value arg, grown_values rest, rfl⟩
end

theorem postorder_injective (arity : Tok → Nat) (tree other : Tree Tok) (fits : tree.Fits arity)
    (otherFits : other.Fits arity) (same : tree.postorder = other.postorder) : tree = other := by
  have grown (tree : Tree Tok) (fits : tree.Fits arity) :
      fold (grower arity) (tree.postorder.map .ok) = .ok tree :=
    (fold_ok_iff (grower arity) arity grow (grower_regular arity) _ tree).mpr ⟨tree, fits, grown_value tree, rfl⟩
  have first := grown tree fits
  rw [same, grown other otherFits] at first
  exact (Except.ok.inj first).symm

end Formula.Postfix
