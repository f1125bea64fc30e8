import Formula.Evaluator
import Formula.Proofs.Phrase.Order
import Mathlib.Algebra.GroupWithZero.Nat
import Mathlib.Data.List.Basic

set_option autoImplicit false

namespace Formula.Phrase

variable {T σ : Type}

def build? (token : Token T σ) (values : List (Expr T σ)) : Option (List (Expr T σ)) :=
  (Postfix.push treeBuilder token values).toOption

def buildAll? (tokens : List (Token T σ)) (values : List (Expr T σ)) : Option (List (Expr T σ)) :=
  tokens.foldlM (fun values token => build? token values) values

theorem build_all_append (a b : List (Token T σ)) (values : List (Expr T σ)) :
    buildAll? (a ++ b) values = (buildAll? a values).bind (buildAll? b) := by
  simp [buildAll?, List.foldlM_append]
  rfl

theorem build_all_one (token : Token T σ) (values : List (Expr T σ)) :
    buildAll? [token] values = build? token values := by
  simp [buildAll?]

theorem take_none (token : Token T σ) (arity : Nat) : ∃ error, token.take none arity = .error error := by
  unfold Token.take
  split
  · exact ⟨_, rfl⟩
  · exact ⟨_, rfl⟩

theorem take_args (token : Token T σ) (args values : List (Expr T σ))
    (counted : token.argc.getD args.length = args.length) :
    token.take (some (args.reverse ++ values)) args.length = .ok (args, values) := by
  simp [Token.take, counted]

theorem take_length (token : Token T σ) (arity : Nat) (values args rest : List (Expr T σ))
    (taken : token.take (some values) arity = .ok (args, rest)) :
    args.length = arity ∧ token.argc.getD arity = arity ∧ rest.length + arity = values.length := by
  unfold Token.take at taken
  split at taken
  · simp at taken
  · rename_i counted
    simp only at taken
    split at taken
    · simp at taken
    · rename_i enough
      simp only [Except.ok.injEq, Prod.mk.injEq] at taken
      obtain ⟨rfl, rfl⟩ := taken
      refine ⟨?_, by simpa using counted, ?_⟩
      · rw [List.length_reverse, List.length_take]
        omega
      · rw [List.length_drop]
        omega

theorem build_operand (token : Token T σ) (role : token.role = .operand) (values : List (Expr T σ)) :
    build? token values = token.leaf?.map (· :: values) := by
  have push : Postfix.push treeBuilder token values =
      (((token.build none).map Prod.fst).mapError Error.eval).map (· :: values) := by
    simp [Postfix.push, treeBuilder, Token.builder, role]
  rw [build?, push]
  unfold Token.build Token.leaf?
  have none := take_none token
  cases token.form.action with
  | unary op =>
      obtain ⟨error, taken⟩ := none 1
      simp [taken, bind, Except.bind, Except.map, Except.mapError, Except.toOption]
  | convert conversion =>
      obtain ⟨error, taken⟩ := none 1
      simp [taken, bind, Except.bind, Except.map, Except.mapError, Except.toOption]
  | binary op =>
      obtain ⟨error, taken⟩ := none 2
      simp [taken, bind, Except.bind, Except.map, Except.mapError, Except.toOption]
  | conditional =>
      obtain ⟨error, taken⟩ := none 3
      simp [taken, bind, Except.bind, Except.map, Except.mapError, Except.toOption]
  | call routine =>
      obtain ⟨error, taken⟩ := none routine.arity
      simp [taken, bind, Except.bind, Except.map, Except.mapError, Except.toOption]
  | _ => rfl

theorem build_other (token : Token T σ) (role : token.role ≠ .operand) (values : List (Expr T σ)) :
    build? token values = ((token.build (some values)).map fun built => built.1 :: built.2).toOption := by
  rw [build?]
  simp only [Postfix.push, treeBuilder, Token.builder, role, decide_false, Bool.false_eq_true, if_false]
  cases token.build (some values) <;> rfl

theorem lone_argc (token : Token T σ) : token.lone.argc = token.argc := by
  unfold Token.lone
  split
  · rfl
  · split <;> rfl

theorem prefix_arity (token : Token T σ) (prefixed : token.form.isPrefix = true) : token.arity? = some 1 := by
  have acts := (Bool.and_eq_true_iff.mp prefixed).2
  unfold Token.arity?
  split <;> simp_all

theorem lone_arity (operator : Token T σ) (fits : IsPrefix operator) : operator.lone.arity? = some 1 :=
  prefix_arity operator.lone fits.alone

theorem binary_arity (operator : Token T σ) (fits : IsBinary operator) : operator.arity? = some 2 := by
  obtain ⟨op, action⟩ := fits.action
  simp [Token.arity?, action]

theorem function_arity (name : Token T σ) (fits : IsFunction name) :
    ∃ arity, name.arity? = some arity := by
  rcases fits.action with ⟨routine, action⟩ | action | ⟨conversion, action⟩
  · exact ⟨routine.arity, by simp [Token.arity?, action]⟩
  · exact ⟨3, by simp [Token.arity?, action]⟩
  · exact ⟨1, by simp [Token.arity?, action]⟩

theorem combine_arity (token : Token T σ) (args : List (Expr T σ)) (arity : Nat)
    (takes : token.arity? = some arity) (wrong : args.length ≠ arity) : token.combine? args = none := by
  unfold Token.combine?
  unfold Token.arity? at takes
  split <;> simp_all

theorem build_of_take (token : Token T σ) (role : token.role ≠ .operand) (arity : Nat)
    (takes : token.arity? = some arity) (values : List (Expr T σ)) :
    build? token values =
      (token.take (some values) arity).toOption.bind fun taken =>
        (token.combine? taken.1).map (· :: taken.2) := by
  rw [build_other token role]
  unfold Token.arity? at takes
  unfold Token.build Token.combine?
  cases taken : token.take (some values) arity with
  | error error =>
      cases action : token.form.action <;> simp_all [bind, Except.bind, Except.map, Except.toOption]
  | ok pair =>
      obtain ⟨args, rest⟩ := pair
      have length := (take_length token arity values args rest taken).1
      cases action : token.form.action with
      | unary op =>
          obtain rfl : 1 = arity := by simpa [action] using takes
          obtain ⟨operand, rfl⟩ := List.length_eq_one_iff.mp length
          simp only [taken]
          rfl
      | convert conversion =>
          obtain rfl : 1 = arity := by simpa [action] using takes
          obtain ⟨operand, rfl⟩ := List.length_eq_one_iff.mp length
          simp only [taken]
          rfl
      | binary op =>
          obtain rfl : 2 = arity := by simpa [action] using takes
          obtain ⟨left, right, rfl⟩ := List.length_eq_two.mp length
          simp only [taken]
          rfl
      | conditional =>
          obtain rfl : 3 = arity := by simpa [action] using takes
          obtain ⟨condition, accepted, rejected, rfl⟩ := List.length_eq_three.mp length
          simp only [taken]
          rfl
      | call routine =>
          obtain rfl : routine.arity = arity := by simpa [action] using takes
          simp [taken, length, bind, Except.bind, pure, Except.pure, Except.map, Except.toOption]
      | _ => simp [action] at takes

theorem build_takes (token : Token T σ) (role : token.role ≠ .operand) (arity : Nat)
    (takes : token.arity? = some arity) (args values : List (Expr T σ))
    (counted : token.argc.getD arity = args.length) :
    build? token (args.reverse ++ values) = (token.combine? args).map (· :: values) := by
  rw [build_of_take token role arity takes]
  by_cases right : args.length = arity
  · subst right
    rw [take_args token args values counted]
    rfl
  · rw [combine_arity token args arity takes right]
    simp [Token.take, counted, right, Except.toOption]

theorem build_length (token : Token T σ) (role : token.role ≠ .operand) (arity : Nat)
    (takes : token.arity? = some arity) (values built : List (Expr T σ))
    (builds : build? token values = some built) :
    token.argc.getD arity = arity ∧ built.length + arity = values.length + 1 := by
  rw [build_of_take token role arity takes] at builds
  cases taken : token.take (some values) arity with
  | error error => simp [taken, Except.toOption] at builds
  | ok pair =>
      obtain ⟨args, rest⟩ := pair
      obtain ⟨-, counted, length⟩ := take_length token arity values args rest taken
      simp only [taken, Except.toOption, Option.bind_some, Option.map_eq_some_iff] at builds
      obtain ⟨value, -, rfl⟩ := builds
      exact ⟨counted, by rw [List.length_cons]; omega⟩

theorem argument_trees_length (args : Arguments T σ) (trees : List (Expr T σ))
    (built : argumentTrees? args = some trees) : trees.length = argumentCount args := by
  cases args with
  | one arg =>
      obtain ⟨tree, -, rfl⟩ := Option.map_eq_some_iff.mp built
      rfl
  | more init comma arg =>
      obtain ⟨initTrees, initBuilt, built⟩ := Option.bind_eq_some_iff.mp built
      obtain ⟨tree, -, rfl⟩ := Option.map_eq_some_iff.mp built
      simp [argument_trees_length init initTrees initBuilt, argumentCount]

def slotValues? : Slot T σ → Option (List (Expr T σ))
  | .call _ _ (some (args, _)) => (argumentTrees? args).map List.reverse
  | .between left _ => left.tree?.map fun a => [a]
  | .group _ | .call _ _ none | .before _ => some []

def slotsValues? : List (Slot T σ) → Option (List (Expr T σ))
  | [] => some []
  | slot :: rest => (slotValues? slot).bind fun top => (slotsValues? rest).map (top ++ ·)

def onTop (p : Phrase T σ) (slots : List (Slot T σ)) : Option (List (Expr T σ)) :=
  p.tree?.bind fun a => (slotsValues? slots).map (a :: ·)

def slotCount : Slot T σ → Nat
  | .call _ _ done => separators done
  | .between _ _ => 1
  | .group _ | .before _ => 0

def slotsCount (slots : List (Slot T σ)) : Nat := (slots.map slotCount).sum

namespace Reading

def values? (reading : Reading T σ) : Option (List (Expr T σ)) :=
  match reading.current with
  | some p => onTop p reading.slots
  | none => slotsValues? reading.slots

def count (reading : Reading T σ) : Nat :=
  slotsCount reading.slots + (if reading.current.isSome then 1 else 0) + reading.lost

end Reading

theorem build_slot (slot : Slot T σ) (waits : slot.waiting?.isSome = true) (fits : slot.Fits)
    (p : Phrase T σ) (rest : List (Slot T σ)) :
    (onTop p (slot :: rest)).bind (buildAll? slot.stack) = onTop (slot.plug p) rest := by
  cases slot with
  | group _ => simp [Slot.waiting?] at waits
  | call _ _ _ => simp [Slot.waiting?] at waits
  | before operator =>
      have role : operator.lone.role ≠ .operand := by simp [fits.grouping]
      have uncounted : operator.lone.argc = none := (lone_argc operator).trans fits.uncounted
      have takes := build_takes operator.lone role 1 (lone_arity operator fits)
      simp only [onTop, slotsValues?, slotValues?, Slot.stack, Slot.plug, tree?]
      cases p.tree? with
      | none => rfl
      | some a =>
          cases slotsValues? rest with
          | none => simp
          | some values =>
              have built := takes [a] values (by simp [uncounted])
              simpa [build_all_one, Option.map_eq_bind, Function.comp_def] using built
  | between left operator =>
      have role : operator.role ≠ .operand := by
        rcases binary_level operator fits.1 with h | h <;> simp [h.1]
      have takes := build_takes operator role 2 (binary_arity operator fits.1)
      simp only [onTop, slotsValues?, slotValues?, Slot.stack, Slot.plug, tree?]
      cases left.tree? with
      | none => simp
      | some a =>
          cases p.tree? with
          | none => rfl
          | some b =>
              cases slotsValues? rest with
              | none => simp
              | some values =>
                  have built := takes [a, b] values (by simp [fits.1.uncounted])
                  simpa [build_all_one, Option.map_eq_bind, Function.comp_def] using built

theorem build_slots (slots : List (Slot T σ)) (waits : ∀ slot ∈ slots, slot.waiting?.isSome = true)
    (fits : ∀ slot ∈ slots, slot.Fits) (p : Phrase T σ) (rest : List (Slot T σ)) :
    (onTop p (slots ++ rest)).bind (buildAll? (Reading.stackOf slots)) = onTop (plugAll slots p) rest := by
  induction slots generalizing p with
  | nil => cases values : onTop p rest <;> simp [plugAll, Reading.stackOf, buildAll?, values]
  | cons slot below ih =>
      have first := build_slot slot (waits slot (by simp)) (fits slot (by simp)) p (below ++ rest)
      have later := ih (fun slot member => waits slot (by simp [member]))
        (fun slot member => fits slot (by simp [member])) (slot.plug p)
      calc
        _ = ((onTop p (slot :: (below ++ rest))).bind (buildAll? slot.stack)).bind
            (buildAll? (Reading.stackOf below)) := by
          rw [Option.bind_assoc]
          exact congrArg (Option.bind _) (funext fun values => build_all_append slot.stack _ values)
        _ = onTop (plugAll (slot :: below) p) rest := by
          rw [first, later]
          rfl

theorem build_slots_length (slots : List (Slot T σ)) (waits : ∀ slot ∈ slots, slot.waiting?.isSome = true)
    (fits : ∀ slot ∈ slots, slot.Fits) (values built : List (Expr T σ))
    (builds : buildAll? (Reading.stackOf slots) values = some built) :
    built.length + slotsCount slots = values.length := by
  induction slots generalizing values with
  | nil =>
      obtain rfl : values = built := Option.some.inj builds
      rfl
  | cons slot below ih =>
      have whole : buildAll? (slot.stack ++ Reading.stackOf below) values = some built := builds
      rw [build_all_append] at whole
      obtain ⟨middle, first, later⟩ := Option.bind_eq_some_iff.mp whole
      have tail := ih (fun slot member => waits slot (by simp [member]))
        (fun slot member => fits slot (by simp [member])) middle later
      have head : middle.length + slotCount slot = values.length := by
        have slotFits := fits slot (by simp)
        have slotWaits := waits slot (by simp)
        cases slot with
        | group _ => simp [Slot.waiting?] at slotWaits
        | call _ _ _ => simp [Slot.waiting?] at slotWaits
        | before operator =>
            have role : operator.lone.role ≠ .operand := by simp [slotFits.grouping]
            rw [Slot.stack, build_all_one] at first
            have length := (build_length operator.lone role 1 (lone_arity operator slotFits) values middle first).2
            exact Nat.add_right_cancel length
        | between left operator =>
            have role : operator.role ≠ .operand := by
              rcases binary_level operator slotFits.1 with h | h <;> simp [h.1]
            rw [Slot.stack, build_all_one] at first
            have length := (build_length operator role 2 (binary_arity operator slotFits.1) values middle first).2
            exact Nat.succ.inj length
      simp only [slotsCount, List.map_cons, List.sum_cons] at tail ⊢
      omega

theorem slots_fit_all (slots : List (Slot T σ)) (fits : SlotsFit slots) : ∀ slot ∈ slots, slot.Fits := by
  induction slots with
  | nil => simp
  | cons slot rest ih =>
      intro found member
      rcases List.mem_cons.mp member with rfl | later
      · exact fits.1
      · exact ih fits.2.2 found later

theorem freed_fit (free : Token T σ → Bool) (reading : Reading T σ) (fits : reading.Fits) :
    ∀ slot ∈ reading.freed free, slot.Fits :=
  fun slot member => slots_fit_all reading.slots fits.slots slot ((List.takeWhile_sublist _).subset member)

theorem settled_values (free : Token T σ → Bool) (reading : Reading T σ) (fits : reading.Fits)
    (p : Phrase T σ) (present : reading.current = some p) :
    reading.values?.bind (buildAll? (Reading.stackOf (reading.freed free))) =
      onTop (plugAll (reading.freed free) p) (reading.kept free) := by
  have built := build_slots (reading.freed free) (freed_all_wait free reading) (freed_fit free reading fits) p
    (reading.kept free)
  rw [reading.freed_kept free] at built
  simpa [Reading.values?, present] using built

theorem settled_count (free : Token T σ → Bool) (reading : Reading T σ) (fits : reading.Fits)
    (values built : List (Expr T σ)) (length : values.length = reading.count)
    (builds : buildAll? (Reading.stackOf (reading.freed free)) values = some built) :
    built.length = slotsCount (reading.kept free) + (if reading.current.isSome then 1 else 0) + reading.lost := by
  have released := build_slots_length (reading.freed free) (freed_all_wait free reading)
    (freed_fit free reading fits) values built builds
  have whole := congrArg slotsCount (reading.freed_kept free)
  simp only [slotsCount, List.map_append, List.sum_append] at whole
  simp only [slotsCount] at released
  unfold Reading.count slotsCount at length
  unfold slotsCount
  omega

theorem argument_values (done : Option (Arguments T σ × Token T σ)) (name opening : Token T σ)
    (arg : Phrase T σ) (rest : List (Slot T σ)) :
    onTop arg (.call name opening done :: rest) =
      (argumentTrees? (withArgument done arg)).bind fun trees =>
        (slotsValues? rest).map (trees.reverse ++ ·) := by
  simp only [onTop, slotsValues?]
  cases done with
  | none =>
      simp only [slotValues?, withArgument, argumentTrees?]
      cases arg.tree? <;> cases slotsValues? rest <;> simp
  | some pair =>
      obtain ⟨args, comma⟩ := pair
      simp only [slotValues?, withArgument, argumentTrees?]
      cases arg.tree? <;> cases argumentTrees? args <;> cases slotsValues? rest <;> simp

theorem argument_count (done : Option (Arguments T σ × Token T σ)) (arg : Phrase T σ) :
    argumentCount (withArgument done arg) = separators done + 1 := by
  cases done with
  | none => rfl
  | some pair => rfl

theorem counted_role (name : Token T σ) (fits : IsFunction name) (count : Nat) :
    (Reading.counted name count).role ≠ .operand := by
  have role : (Reading.counted name count).role = name.role := rfl
  simp [role, fits.role]

theorem build_counted (name : Token T σ) (fits : IsFunction name) (args values : List (Expr T σ)) :
    build? (Reading.counted name args.length) (args.reverse ++ values) =
      (name.combine? args).map (· :: values) := by
  obtain ⟨arity, takes⟩ := function_arity name fits
  exact build_takes (Reading.counted name args.length) (counted_role name fits _) arity takes args values rfl

theorem build_counted_length (name : Token T σ) (fits : IsFunction name) (count : Nat)
    (values built : List (Expr T σ)) (builds : build? (Reading.counted name count) values = some built) :
    built.length + count = values.length + 1 := by
  obtain ⟨arity, takes⟩ := function_arity name fits
  obtain ⟨counted, length⟩ :=
    build_length (Reading.counted name count) (counted_role name fits count) arity takes values built builds
  obtain rfl : count = arity := counted
  exact length

end Formula.Phrase
