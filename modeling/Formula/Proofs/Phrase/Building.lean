import Formula.Proofs.Phrase.Parse
import Formula.Proofs.Phrase.Postorder

set_option autoImplicit false

namespace Formula.Phrase

variable {T σ : Type}

structure Usable (token : Token T σ) : Prop where
  lone : ∀ form, token.alone = some form → form.isPrefix = true
  isBinary : token.role.isOperator = true → token.form.isPrefix = false → ∃ op, token.form.action = .binary op
  isFunction : token.role = .function → IsFunction token
  known : token.role = .operand → token.leaf? = none → ∃ name, token.form.action = .unknown name
  uncounted : token.role.isOperator = true → token.argc = none

theorem Proper.usable (token : Token T σ) (proper : Proper token) : Usable token where
  lone := proper.alone
  isBinary role binds := (proper.isBinary role binds).action
  isFunction := proper.isFunction
  known := proper.known
  uncounted role := by
    by_cases binds : token.form.isPrefix = true
    · exact (proper.isPrefix role (by simp [Token.lone, binds])).uncounted
    · exact (proper.isBinary role (by simpa using binds)).uncounted

theorem push_of_build (token : Token T σ) (stack built : List (Expr T σ)) (builds : build? token stack = some built) :
    Postfix.push treeBuilder token stack = .ok built := by
  unfold build? at builds
  cases pushed : Postfix.push treeBuilder token stack with
  | error error => simp [pushed, Except.toOption] at builds
  | ok result => simpa [pushed, Except.toOption] using builds

theorem push_unknown (token : Token T σ) (name : String) (role : token.role = .operand)
    (unknown : token.form.action = .unknown name) (stack : List (Expr T σ)) :
    Postfix.push treeBuilder token stack = .error (.eval (.unknownIdentifier name)) := by
  simp [Postfix.push, treeBuilder, Token.builder, role, Token.build, unknown, Except.map, Except.mapError]

-- Folding the tokens puts trees on top of the stack, the last one first, or stops at a name that nobody knows.
def Gives (tokens : List (Token T σ)) (trees? : Option (List (Expr T σ))) : Prop :=
  ∀ stack items,
    (∃ trees, trees? = some trees ∧
      Postfix.foldFrom treeBuilder stack (tokens.map .ok ++ items) =
        Postfix.foldFrom treeBuilder (trees.reverse ++ stack) items) ∨
    ∃ token ∈ tokens, ∃ name, token.form.action = .unknown name ∧
      Postfix.foldFrom treeBuilder stack (tokens.map .ok ++ items) =
        .error (.build token (.eval (.unknownIdentifier name)))

theorem Gives.append (first second : List (Token T σ)) (trees? others? : Option (List (Expr T σ)))
    (now : Gives first trees?) (later : Gives second others?) :
    Gives (first ++ second) (trees?.bind fun trees => others?.map (trees ++ ·)) := by
  intro stack items
  rw [List.map_append, List.append_assoc]
  rcases now stack (second.map .ok ++ items) with ⟨trees, rfl, built⟩ | ⟨token, member, name, unknown, stopped⟩
  · rcases later (trees.reverse ++ stack) items with ⟨others, rfl, more⟩ | ⟨token, member, name, unknown, stopped⟩
    · exact .inl ⟨trees ++ others, rfl, by rw [built, more, List.reverse_append, List.append_assoc]⟩
    · exact .inr ⟨token, List.mem_append_right _ member, name, unknown, built.trans stopped⟩
  · exact .inr ⟨token, List.mem_append_left _ member, name, unknown, stopped⟩

theorem gives_operand (token : Token T σ) (role : token.role = .operand) (usable : Usable token) :
    Gives [token] (token.leaf?.map fun a => [a]) := by
  intro stack items
  simp only [List.map_cons, List.map_nil, List.singleton_append, Postfix.foldFrom]
  cases leaf : token.leaf? with
  | some tree =>
      have pushed := push_of_build token stack (tree :: stack) (by simp [build_operand token role, leaf])
      exact .inl ⟨[tree], rfl, by simp [pushed]⟩
  | none =>
      obtain ⟨name, unknown⟩ := usable.known role leaf
      exact .inr ⟨token, by simp, name, unknown, by simp [push_unknown token name role unknown]⟩

theorem Gives.applied (tokens : List (Token T σ)) (token : Token T σ) (trees? : Option (List (Expr T σ)))
    (gives : Gives tokens trees?) (role : token.role ≠ .operand)
    (takes : ∀ trees, trees? = some trees →
      token.arity? = some trees.length ∧ token.argc.getD trees.length = trees.length) :
    Gives (tokens ++ [token]) ((trees?.bind token.combine?).map fun a => [a]) := by
  intro stack items
  rw [List.map_append, List.append_assoc]
  rcases gives stack ([token].map .ok ++ items) with ⟨trees, rfl, built⟩ | ⟨other, member, name, unknown, stopped⟩
  · obtain ⟨arity, counted⟩ := takes trees rfl
    obtain ⟨tree, combined⟩ := Option.isSome_iff_exists.mp ((combine_complete token trees).mpr arity)
    have pushed := push_of_build token (trees.reverse ++ stack) (tree :: stack)
      (by simp [build_takes token role trees.length arity trees stack counted, combined])
    refine .inl ⟨[tree], by simp [combined], built.trans ?_⟩
    simp [Postfix.foldFrom, pushed]
  · exact .inr ⟨other, List.mem_append_left _ member, name, unknown, stopped⟩

def CallsMatch (tokens : List (Token T σ)) : Prop :=
  ∀ token ∈ tokens, token.role = .function → ∃ count, token.argc = some count ∧ token.arity? = some count

theorem counted_matches (name : Token T σ) (count : Nat) (function : name.role = .function) (tokens : List (Token T σ))
    (held : Reading.counted name count ∈ tokens) (matched : CallsMatch tokens) : name.arity? = some count := by
  obtain ⟨own, counted, takes⟩ := matched _ held function
  obtain rfl : count = own := Option.some.inj counted
  exact takes

theorem call_gives (name : Token T σ) (usable : Usable name) (function : name.role = .function)
    (tokens : List (Token T σ)) (trees? : Option (List (Expr T σ))) (count : Nat) (gives : Gives tokens trees?)
    (length : ∀ trees, trees? = some trees → trees.length = count)
    (matched : CallsMatch (tokens ++ [Reading.counted name count])) :
    Gives (tokens ++ [Reading.counted name count]) ((trees?.bind name.combine?).map fun a => [a]) := by
  have role := counted_role name (usable.isFunction function) count
  apply Gives.applied tokens (Reading.counted name count) trees? gives role
  intro trees built
  have takes := counted_matches name count function _ (by simp) matched
  exact ⟨takes.trans (congrArg some (length trees built).symm), (length trees built).symm⟩

theorem gives_nothing : Gives ([] : List (Token T σ)) (some []) := fun _ _ => .inl ⟨[], rfl, rfl⟩

mutual
theorem postorder_gives (p : Phrase T σ) (formed : p.Formed) (usable : ∀ token ∈ p.tokens, Usable token)
    (matched : CallsMatch p.postorder) : Gives p.postorder (p.tree?.map fun a => [a]) := by
  cases p with
  | operand token => exact gives_operand token formed (usable token (by simp [tokens]))
  | group opening inner closing =>
      exact postorder_gives inner formed.2.1 (fun token member => usable token (by simp [tokens, member])) matched
  | emptyCall name opening closing =>
      exact call_gives name (usable name (by simp [tokens])) formed.1 [] (some []) 0 gives_nothing (by simp) matched
  | call name opening args closing =>
      obtain ⟨function, -, argsFormed, -⟩ := formed
      have inside := arguments_give args argsFormed (fun token member => usable token (by simp [tokens, member]))
        fun token member => matched token (List.mem_append_left _ member)
      exact call_gives name (usable name (by simp [tokens])) function _ _ _ inside (argument_trees_length args) matched
  | before operator inner =>
      obtain ⟨role, prefixed, innerFormed⟩ := formed
      have inside := postorder_gives inner innerFormed (fun token member => usable token (by simp [tokens, member]))
        fun token member => matched token (List.mem_append_left _ member)
      have uncounted : operator.lone.argc = none :=
        (lone_argc operator).trans ((usable operator (by simp [tokens])).uncounted role)
      have acts : operator.lone.role.isOperator = true := Form.prefix_operator _ prefixed
      have lone : operator.lone.role ≠ .operand := fun same => by simp [same, Role.isOperator] at acts
      have applied := Gives.applied inner.postorder operator.lone _ inside lone fun trees built => by
        obtain ⟨tree, -, rfl⟩ := Option.map_eq_some_iff.mp built
        exact ⟨prefix_arity operator.lone prefixed, by simp [uncounted]⟩
      cases tree : inner.tree? <;> simpa [postorder, Phrase.tree?, tree] using applied
  | between left operator right =>
      obtain ⟨role, binds, leftFormed, rightFormed⟩ := formed
      have own := usable operator (by simp [tokens])
      have former := postorder_gives left leftFormed (fun token member => usable token (by simp [tokens, member]))
        fun token member => matched token (List.mem_append_left _ member)
      have latter := postorder_gives right rightFormed (fun token member => usable token (by simp [tokens, member]))
        fun token member => matched token (List.mem_append_right _ (List.mem_append_left _ member))
      have applied := Gives.applied _ operator _ (Gives.append _ _ _ _ former latter)
        (fun same => by simp [same, Role.isOperator] at role) fun trees built => by
          obtain ⟨op, action⟩ := own.isBinary role binds
          obtain ⟨one, found, built⟩ := Option.bind_eq_some_iff.mp built
          obtain ⟨a, -, rfl⟩ := Option.map_eq_some_iff.mp found
          obtain ⟨other, found, rfl⟩ := Option.map_eq_some_iff.mp built
          obtain ⟨b, -, rfl⟩ := Option.map_eq_some_iff.mp found
          exact ⟨by simp [Token.arity?, action], by simp [own.uncounted role]⟩
      rw [List.append_assoc] at applied
      cases leftTree : left.tree? <;> cases rightTree : right.tree? <;>
        simpa [postorder, Phrase.tree?, leftTree, rightTree] using applied
theorem arguments_give (args : Arguments T σ) (formed : ArgumentsFormed args)
    (usable : ∀ token ∈ argumentTokens args, Usable token) (matched : CallsMatch (argumentsPostorder args)) :
    Gives (argumentsPostorder args) (argumentTrees? args) := by
  cases args with
  | one arg => exact postorder_gives arg formed usable matched
  | more init comma arg =>
      obtain ⟨initFormed, -, argFormed⟩ := formed
      have former := arguments_give init initFormed
        (fun token member => usable token (by simp [argumentTokens, member]))
        fun token member => matched token (List.mem_append_left _ member)
      have latter := postorder_gives arg argFormed (fun token member => usable token (by simp [argumentTokens, member]))
        fun token member => matched token (List.mem_append_right _ member)
      have both := Gives.append _ _ _ _ former latter
      cases argumentTree : arg.tree? <;> simpa [argumentsPostorder, argumentTrees?, argumentTree] using both
end

theorem fold_postorder (p : Phrase T σ) (formed : p.Formed) (usable : ∀ token ∈ p.tokens, Usable token)
    (matched : CallsMatch p.postorder) :
    (∃ e, p.tree? = some e ∧ foldTree (p.postorder.map .ok) = .ok e) ∨
      ∃ token ∈ p.postorder, ∃ name, token.form.action = .unknown name ∧
        foldTree (p.postorder.map .ok) = .error (.build token (.eval (.unknownIdentifier name))) := by
  have received : foldTree (p.postorder.map .ok) = Postfix.foldFrom treeBuilder [] (p.postorder.map .ok ++ []) := by
    rw [foldTree, Postfix.fold, List.map_map, List.append_nil]
    rfl
  rw [received]
  rcases postorder_gives p formed usable matched [] [] with ⟨trees, built, folded⟩ | stopped
  · obtain ⟨e, tree, rfl⟩ := Option.map_eq_some_iff.mp built
    exact .inl ⟨e, tree, folded⟩
  · exact .inr stopped

end Formula.Phrase
