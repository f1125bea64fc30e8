import Formula.Proofs.Phrase.Value

set_option autoImplicit false

namespace Formula.Phrase

variable {T σ : Type}

theorem build_nothing (values : Option (List (Expr T σ))) : values.bind (buildAll? []) = values := by
  cases values <;> rfl

theorem bind_build_append (values : Option (List (Expr T σ))) (a b : List (Token T σ)) :
    values.bind (buildAll? (a ++ b)) = (values.bind (buildAll? a)).bind (buildAll? b) := by
  cases values with
  | none => rfl
  | some values => exact build_all_append a b values

theorem slots_values_nothing (slot : Slot T σ) (rest : List (Slot T σ)) (blank : slotValues? slot = some []) :
    slotsValues? (slot :: rest) = slotsValues? rest := by
  cases values : slotsValues? rest <;> simp [slotsValues?, blank, values]

theorem slots_values_between (left : Phrase T σ) (operator : Token T σ) (rest : List (Slot T σ)) :
    slotsValues? (.between left operator :: rest) = onTop left rest := by
  cases tree : left.tree? <;> simp [slotsValues?, slotValues?, onTop, tree]

theorem build_call (name opening closing : Token T σ) (fits : IsFunction name) (args : Arguments T σ)
    (rest : List (Slot T σ)) :
    ((argumentTrees? args).bind fun trees => (slotsValues? rest).map (trees.reverse ++ ·)).bind
        (buildAll? [Reading.counted name (argumentCount args)]) =
      onTop (.call name opening args closing) rest := by
  simp only [onTop, tree?]
  cases built : argumentTrees? args with
  | none => rfl
  | some trees =>
      cases slotsValues? rest with
      | none => simp
      | some values =>
          have applied := build_counted name fits trees values
          rw [argument_trees_length args trees built] at applied
          simpa [build_all_one, Option.map_eq_bind, Function.comp_def] using applied

theorem advance_operator_values (reading next : Reading T σ) (token : Token T σ) (out : List (Token T σ))
    (fits : reading.Fits) (taken : reading.advanceOperator token = some (out, next)) :
    reading.values?.bind (buildAll? out) = next.values? := by
  unfold Reading.advanceOperator at taken
  cases present : reading.current with
  | none =>
      simp only [present, Option.ite_none_right_eq_some, Option.some.injEq, Prod.mk.injEq] at taken
      obtain ⟨-, rfl, rfl⟩ := taken
      rw [build_nothing]
      simpa [Reading.values?, present] using (slots_values_nothing (.before token) reading.slots rfl).symm
  | some p =>
      simp only [present, Option.ite_none_left_eq_some, Option.some.injEq, Prod.mk.injEq] at taken
      obtain ⟨-, rfl, rfl⟩ := taken
      rw [settled_values (Order.releases token) reading fits p present, Reading.values?, slots_values_between]

theorem advance_separator_values (reading next : Reading T σ) (token : Token T σ) (out : List (Token T σ))
    (fits : reading.Fits) (taken : reading.advanceSeparator token = some (out, next)) :
    reading.values?.bind (buildAll? out) = next.values? := by
  unfold Reading.advanceSeparator at taken
  split at taken
  · rename_i p name opening done rest present kept
    simp only [Option.some.injEq, Prod.mk.injEq] at taken
    obtain ⟨rfl, rfl⟩ := taken
    rw [settled_values Reading.notOpen reading fits p present, kept, argument_values]
    simp only [Reading.values?, slotsValues?, slotValues?]
    cases argumentTrees? (withArgument done (plugAll (reading.freed Reading.notOpen) p)) <;> rfl
  · exact absurd taken (by simp)

theorem advance_close_values (reading next : Reading T σ) (token : Token T σ) (out : List (Token T σ))
    (fits : reading.Fits) (taken : reading.advanceClose token = some (out, next)) :
    reading.values?.bind (buildAll? out) = next.values? := by
  unfold Reading.advanceClose at taken
  split at taken
  · rename_i p name opening done rest present kept
    simp only [Option.some.injEq, Prod.mk.injEq] at taken
    obtain ⟨rfl, rfl⟩ := taken
    have keptFits := slots_fit_all reading.slots fits.slots (.call name opening done)
      ((List.dropWhile_sublist _).subset (kept ▸ List.mem_cons_self))
    have function := (with_argument_fits name opening done _ keptFits
      (settled_fits Reading.notOpen reading fits p present).1).1
    rw [bind_build_append, settled_values Reading.notOpen reading fits p present, kept, argument_values]
    exact build_call name opening token function _ rest
  · rename_i p opening rest present kept
    simp only [Option.some.injEq, Prod.mk.injEq] at taken
    obtain ⟨rfl, rfl⟩ := taken
    rw [settled_values Reading.notOpen reading fits p present, kept, onTop,
      slots_values_nothing (.group opening) rest rfl]
    rfl
  · rename_i name opening rest absent kept
    simp only [Option.ite_none_right_eq_some, Option.some.injEq, Prod.mk.injEq] at taken
    obtain ⟨blank, rfl, rfl⟩ := taken
    have slots := reading.freed_kept Reading.notOpen
    rw [blank, kept, List.nil_append] at slots
    have function : IsFunction name := by
      have slotsFit := fits.slots
      rw [← slots] at slotsFit
      exact slotsFit.1.1
    simp only [Reading.values?, absent, ← slots, onTop, tree?,
      slots_values_nothing (.call name opening none) rest rfl]
    cases slotsValues? rest with
    | none => simp
    | some values =>
        have applied := build_counted name function [] values
        simpa [build_all_one, Option.map_eq_bind, Function.comp_def] using applied
  · exact absurd taken (by simp)

theorem drop_nothing (reading : Reading T σ) (nothing : reading.drop.lost = 0) : reading.current = none := by
  cases present : reading.current with
  | none => rfl
  | some p => simp [Reading.drop, present] at nothing

theorem advance_values (reading next : Reading T σ) (token : Token T σ) (out : List (Token T σ))
    (fits : reading.Fits) (taken : reading.advance token = some (out, next)) (nothing : next.lost = 0) :
    reading.values?.bind (buildAll? out) = next.values? := by
  unfold Reading.advance at taken
  split at taken
  case h_1 name pending opening =>
    simp only [Option.some.injEq, Prod.mk.injEq] at taken
    obtain ⟨rfl, rfl⟩ := taken
    have absent := (fits.pending name pending).2
    rw [build_nothing]
    simpa [Reading.values?, absent] using (slots_values_nothing (.call name token none) reading.slots rfl).symm
  case h_2 => exact absurd taken (by simp)
  case h_3 idle operand =>
    simp only [Option.some.injEq, Prod.mk.injEq] at taken
    obtain ⟨rfl, rfl⟩ := taken
    have absent := drop_nothing reading nothing
    simp only [Reading.values?, absent, Reading.drop, onTop, tree?]
    cases slotsValues? reading.slots with
    | none => simp
    | some values =>
        simpa [build_all_one, Option.map_eq_bind, Function.comp_def] using build_operand token operand values
  case h_4 idle function =>
    simp only [Option.some.injEq, Prod.mk.injEq] at taken
    obtain ⟨rfl, rfl⟩ := taken
    have absent := drop_nothing reading nothing
    rw [build_nothing]
    simp [Reading.values?, absent, Reading.drop]
  case h_5 idle opening =>
    simp only [Option.some.injEq, Prod.mk.injEq] at taken
    obtain ⟨rfl, rfl⟩ := taken
    have absent := drop_nothing reading nothing
    rw [build_nothing]
    simpa [Reading.values?, absent, Reading.drop] using (slots_values_nothing (.group token) reading.slots rfl).symm
  case h_6 => exact advance_operator_values reading next token out fits taken
  case h_7 => exact advance_operator_values reading next token out fits taken
  case h_8 => exact advance_separator_values reading next token out fits taken
  case h_9 => exact advance_close_values reading next token out fits taken

theorem build_operand_length (token : Token T σ) (role : token.role = .operand) (values built : List (Expr T σ))
    (builds : build? token values = some built) : built.length = values.length + 1 := by
  rw [build_operand token role] at builds
  obtain ⟨leaf, -, rfl⟩ := Option.map_eq_some_iff.mp builds
  rfl

theorem advance_operator_count (reading next : Reading T σ) (token : Token T σ) (out : List (Token T σ))
    (fits : reading.Fits) (taken : reading.advanceOperator token = some (out, next))
    (values built : List (Expr T σ)) (length : values.length = reading.count)
    (builds : buildAll? out values = some built) : built.length = next.count := by
  unfold Reading.advanceOperator at taken
  cases present : reading.current with
  | none =>
      simp only [present, Option.ite_none_right_eq_some, Option.some.injEq, Prod.mk.injEq] at taken
      obtain ⟨-, rfl, rfl⟩ := taken
      obtain rfl : values = built := Option.some.inj builds
      simpa [Reading.count, present, slotsCount, slotCount] using length
  | some p =>
      simp only [present, Option.ite_none_left_eq_some, Option.some.injEq, Prod.mk.injEq] at taken
      obtain ⟨-, rfl, rfl⟩ := taken
      have settled := settled_count (Order.releases token) reading fits values built length builds
      simp only [present, Option.isSome_some, if_true, slotsCount] at settled
      simp only [Reading.count, slotsCount, List.map_cons, List.sum_cons, slotCount, Option.isSome_none,
        Bool.false_eq_true, if_false]
      omega

theorem advance_separator_count (reading next : Reading T σ) (token : Token T σ) (out : List (Token T σ))
    (fits : reading.Fits) (taken : reading.advanceSeparator token = some (out, next))
    (values built : List (Expr T σ)) (length : values.length = reading.count)
    (builds : buildAll? out values = some built) : built.length = next.count := by
  unfold Reading.advanceSeparator at taken
  split at taken
  · rename_i p name opening done rest present kept
    simp only [Option.some.injEq, Prod.mk.injEq] at taken
    obtain ⟨rfl, rfl⟩ := taken
    have settled := settled_count Reading.notOpen reading fits values built length builds
    simp only [present, kept, Option.isSome_some, if_true, slotsCount, List.map_cons, List.sum_cons,
      slotCount] at settled
    have grown := argument_count done (plugAll (reading.freed Reading.notOpen) p)
    change built.length = separators (some (_, token)) + (rest.map slotCount).sum + 0 + reading.lost
    rw [show separators (some (_, token)) = argumentCount _ from rfl, grown]
    omega
  · exact absurd taken (by simp)

theorem advance_close_count (reading next : Reading T σ) (token : Token T σ) (out : List (Token T σ))
    (fits : reading.Fits) (taken : reading.advanceClose token = some (out, next))
    (values built : List (Expr T σ)) (length : values.length = reading.count)
    (builds : buildAll? out values = some built) : built.length = next.count := by
  unfold Reading.advanceClose at taken
  split at taken
  · rename_i p name opening done rest present kept
    simp only [Option.some.injEq, Prod.mk.injEq] at taken
    obtain ⟨rfl, rfl⟩ := taken
    rw [build_all_append] at builds
    obtain ⟨middle, released, builds⟩ := Option.bind_eq_some_iff.mp builds
    rw [build_all_one] at builds
    have keptFits := slots_fit_all reading.slots fits.slots (.call name opening done)
      ((List.dropWhile_sublist _).subset (kept ▸ List.mem_cons_self))
    have function := (with_argument_fits name opening done _ keptFits
      (settled_fits Reading.notOpen reading fits p present).1).1
    have settled := settled_count Reading.notOpen reading fits values middle length released
    have called := build_counted_length name function _ middle built builds
    simp only [present, kept, Option.isSome_some, if_true, slotsCount, List.map_cons, List.sum_cons,
      slotCount] at settled
    simp only [argument_count] at called
    simp only [Reading.count, slotsCount, Option.isSome_some, if_true]
    omega
  · rename_i p opening rest present kept
    simp only [Option.some.injEq, Prod.mk.injEq] at taken
    obtain ⟨rfl, rfl⟩ := taken
    have settled := settled_count Reading.notOpen reading fits values built length builds
    simp only [present, kept, Option.isSome_some, if_true, slotsCount, List.map_cons, List.sum_cons,
      slotCount] at settled
    simp only [Reading.count, slotsCount, Option.isSome_some, if_true]
    omega
  · rename_i name opening rest absent kept
    simp only [Option.ite_none_right_eq_some, Option.some.injEq, Prod.mk.injEq] at taken
    obtain ⟨blank, rfl, rfl⟩ := taken
    have slots := reading.freed_kept Reading.notOpen
    rw [blank, kept, List.nil_append] at slots
    have function : IsFunction name := by
      have slotsFit := fits.slots
      rw [← slots] at slotsFit
      exact slotsFit.1.1
    rw [build_all_one] at builds
    have called := build_counted_length name function 0 values built builds
    simp only [Reading.count, absent, ← slots, slotsCount, List.map_cons, List.sum_cons, slotCount, separators,
      Option.isSome_none, Bool.false_eq_true, if_false] at length
    simp only [Reading.count, slotsCount, Option.isSome_some, if_true]
    omega
  · exact absurd taken (by simp)

theorem advance_count (reading next : Reading T σ) (token : Token T σ) (out : List (Token T σ))
    (fits : reading.Fits) (taken : reading.advance token = some (out, next))
    (values built : List (Expr T σ)) (length : values.length = reading.count)
    (builds : buildAll? out values = some built) : built.length = next.count := by
  unfold Reading.advance at taken
  split at taken
  case h_1 name pending opening =>
    simp only [Option.some.injEq, Prod.mk.injEq] at taken
    obtain ⟨rfl, rfl⟩ := taken
    obtain rfl : values = built := Option.some.inj builds
    simpa [Reading.count, slotsCount, slotCount, separators] using length
  case h_2 => exact absurd taken (by simp)
  case h_3 idle operand =>
    simp only [Option.some.injEq, Prod.mk.injEq] at taken
    obtain ⟨rfl, rfl⟩ := taken
    rw [build_all_one] at builds
    have grown := build_operand_length token operand values built builds
    simp only [Reading.count] at length
    simp only [Reading.count, Reading.drop, Option.isSome_some, if_true]
    omega
  case h_4 idle function =>
    simp only [Option.some.injEq, Prod.mk.injEq] at taken
    obtain ⟨rfl, rfl⟩ := taken
    obtain rfl : values = built := Option.some.inj builds
    simp only [Reading.count] at length
    simp only [Reading.count, Reading.drop, Option.isSome_none, Bool.false_eq_true, if_false]
    omega
  case h_5 idle opening =>
    simp only [Option.some.injEq, Prod.mk.injEq] at taken
    obtain ⟨rfl, rfl⟩ := taken
    obtain rfl : values = built := Option.some.inj builds
    simp only [Reading.count, slotsCount] at length
    simp only [Reading.count, Reading.drop, slotsCount, List.map_cons, List.sum_cons, slotCount,
      Option.isSome_none, Bool.false_eq_true, if_false]
    omega
  case h_6 => exact advance_operator_count reading next token out fits taken values built length builds
  case h_7 => exact advance_operator_count reading next token out fits taken values built length builds
  case h_8 => exact advance_separator_count reading next token out fits taken values built length builds
  case h_9 => exact advance_close_count reading next token out fits taken values built length builds

def received (items : List (Except ParseError (Token T σ))) : List (Except Error (Token T σ)) :=
  items.map fun item => item.mapError Error.parse

theorem fold_tokens (tokens : List (Token T σ)) (items : List (Except ParseError (Token T σ)))
    (values : List (Expr T σ)) (e : Expr T σ) :
    Postfix.foldFrom treeBuilder values (received (tokens.map .ok ++ items)) = .ok e ↔
      ∃ built, buildAll? tokens values = some built ∧
        Postfix.foldFrom treeBuilder built (received items) = .ok e := by
  induction tokens generalizing values with
  | nil => simp [buildAll?]
  | cons token rest ih =>
      have first : received (List.map .ok (token :: rest) ++ items) =
          .ok token :: received (rest.map .ok ++ items) := rfl
      have built (middle : List (Expr T σ)) (pushed : Postfix.push treeBuilder token values = .ok middle) :
          buildAll? (token :: rest) values = buildAll? rest middle := by
        simp [buildAll?, List.foldlM_cons, build?, pushed, Except.toOption]
      rw [first, Postfix.foldFrom]
      cases pushed : Postfix.push treeBuilder token values with
      | ok middle => rw [built middle pushed, ih middle]
      | error error => simp [buildAll?, List.foldlM_cons, build?, pushed, Except.toOption]

theorem fold_alone (values : List (Expr T σ)) (e : Expr T σ) :
    Postfix.foldFrom treeBuilder values (received ([] : List (Except ParseError (Token T σ)))) = .ok e ↔
      values = [e] := by
  change Postfix.foldFrom treeBuilder values [] = .ok e ↔ values = [e]
  unfold Postfix.foldFrom
  split <;> simp_all

-- The stack agrees with the reading: in number always, in the trees as long as nothing is lost.
structure Holds (reading : Reading T σ) (values : List (Expr T σ)) : Prop where
  count : values.length = reading.count
  trees : reading.lost = 0 → reading.values? = some values

theorem advance_holds (reading next : Reading T σ) (token : Token T σ) (out : List (Token T σ))
    (fits : reading.Fits) (taken : reading.advance token = some (out, next))
    (values built : List (Expr T σ)) (holds : Holds reading values)
    (builds : buildAll? out values = some built) : Holds next built := by
  refine ⟨advance_count reading next token out fits taken values built holds.count builds, fun nothing => ?_⟩
  have before := advance_lost reading next token out fits.formed.paused taken
  rw [← advance_values reading next token out fits taken nothing, holds.trees (by omega)]
  exact builds

theorem run_missing (tokens : List (Token T σ)) (reading last : Reading T σ) (fits : reading.Fits)
    (proper : ∀ token ∈ tokens, Proper token) (ran : reading.run tokens = some last)
    (nothing : last.lost = 0) (missing : reading.values? = none) : last.values? = none := by
  induction tokens generalizing reading with
  | nil =>
      obtain rfl := Option.some.inj ran
      exact missing
  | cons token rest ih =>
      obtain ⟨⟨out, next⟩, taken, later⟩ := Option.bind_eq_some_iff.mp ran
      have nextFits := advance_fits reading next token out fits (proper token (by simp)) taken
      have restProper : ∀ token ∈ rest, Proper token := fun token member => proper token (by simp [member])
      have kept := (run_tokens rest next last nextFits.formed.paused later).1
      apply ih next nextFits restProper later
      rw [← advance_values reading next token out fits taken (by omega), missing]
      rfl

theorem result_value (reading : Reading T σ) (fits : reading.Fits) (p : Phrase T σ)
    (result : reading.result? = some p) :
    reading.values?.bind (buildAll? (Reading.stackOf reading.slots)) = p.tree?.map fun a => [a] := by
  unfold Reading.result? at result
  split at result
  · rename_i q _ present _ kept
    obtain rfl := Option.some.inj result
    have whole := reading.freed_kept Reading.notOpen
    rw [kept, List.append_nil] at whole
    have settled := settled_values Reading.notOpen reading fits q present
    rw [kept] at settled
    rw [← whole, settled, onTop, slotsValues?, Option.map_eq_bind]
    rfl
  · exact absurd result (by simp)

theorem finish_holds (expression : String) (reading : Reading T σ) (fits : reading.Fits)
    (values : List (Expr T σ)) (holds : Holds reading values) (e : Expr T σ) :
    (∃ out, Order.finish expression reading.order = .ok out ∧ buildAll? out values = some [e]) ↔
      ∃ p, reading.result? = some p ∧ p.tree? = some e := by
  constructor
  · rintro ⟨out, finished, built⟩
    obtain ⟨idle, kept, ended, rfl⟩ := (finish_order expression reading fits.formed out).mp finished
    have whole := reading.freed_kept Reading.notOpen
    rw [kept, List.append_nil] at whole
    have left := settled_count Reading.notOpen reading fits values [e] holds.count (by rw [whole]; exact built)
    cases present : reading.current with
    | none =>
        have nothing := fits.idle (ended present) idle present
        simp [present, kept, slotsCount, nothing] at left
    | some p =>
        have nothing : reading.lost = 0 := by
          simp [present, kept, slotsCount] at left
          omega
        have result : reading.result? = some (plugAll (reading.freed Reading.notOpen) p) := by
          simp [Reading.result?, idle, present, nothing, kept]
        refine ⟨_, result, ?_⟩
        have value := result_value reading fits _ result
        rw [holds.trees nothing, Option.bind_some, built] at value
        obtain ⟨tree, found, same⟩ := Option.map_eq_some_iff.mp value.symm
        rw [found, (List.cons.inj same).1]
  · rintro ⟨p, result, tree⟩
    refine ⟨Reading.stackOf reading.slots, ?_, ?_⟩
    · unfold Reading.result? at result
      split at result
      · rename_i idle present _ kept
        exact (finish_order expression reading fits.formed _).mpr ⟨idle, kept, by simp [present], rfl⟩
      · exact absurd result (by simp)
    · have value := result_value reading fits p result
      rw [holds.trees (result_tokens reading p result).1, tree] at value
      exact value

theorem fold_reads (expression : String) (tokens : List (Token T σ)) (reading : Reading T σ)
    (fits : reading.Fits) (proper : ∀ token ∈ tokens, Proper token) (values : List (Expr T σ))
    (holds : Holds reading values) (e : Expr T σ) :
    Postfix.foldFrom treeBuilder values
        (received (Order.orderFrom expression reading.order (tokens.map .ok))) = .ok e ↔
      ∃ last p, reading.run tokens = some last ∧ last.result? = some p ∧ p.tree? = some e := by
  induction tokens generalizing reading values with
  | nil =>
      have ends := finish_holds expression reading fits values holds e
      have here : (∃ last p, reading.run [] = some last ∧ last.result? = some p ∧ p.tree? = some e) ↔
          ∃ p, reading.result? = some p ∧ p.tree? = some e := by
        simp [Reading.run]
      rw [here, ← ends, List.map_nil, Order.orderFrom]
      cases finished : Order.finish expression reading.order with
      | error error => simp [received, Except.mapError, Postfix.foldFrom]
      | ok out =>
          have folded := fold_tokens out [] values e
          simp only [List.append_nil, fold_alone] at folded
          simp [folded]
  | cons token rest ih =>
      have agrees := accept_order expression reading token fits.formed (proper token (by simp)).alone
        (fits_spared reading fits token (proper token (by simp)))
      have restProper : ∀ token ∈ rest, Proper token := fun token member => proper token (by simp [member])
      rw [List.map_cons, Order.orderFrom]
      cases taken : reading.advance token with
      | none =>
          rw [taken] at agrees
          obtain ⟨error, refused⟩ := agrees
          simp [refused, received, Except.mapError, Postfix.foldFrom, Reading.run, taken]
      | some step =>
          obtain ⟨out, next⟩ := step
          rw [taken] at agrees
          have accepted : Order.accept expression reading.order token = .ok (out, next.order) := agrees
          have nextFits := advance_fits reading next token out fits (proper token (by simp)) taken
          have onward : reading.run (token :: rest) = next.run rest := by simp [Reading.run, taken]
          rw [accepted, onward]
          simp only [fold_tokens]
          constructor
          · rintro ⟨built, builds, folded⟩
            have nextHolds := advance_holds reading next token out fits taken values built holds builds
            exact (ih next nextFits restProper built nextHolds).mp folded
          · rintro ⟨last, p, ran, result, tree⟩
            cases builds : buildAll? out values with
            | some built =>
                have nextHolds := advance_holds reading next token out fits taken values built holds builds
                exact ⟨built, rfl, (ih next nextFits restProper built nextHolds).mpr ⟨last, p, ran, result, tree⟩⟩
            | none =>
                exfalso
                have nothing := (result_tokens last p result).1
                have nextKept := (run_tokens rest next last nextFits.formed.paused ran).1
                have kept := advance_lost reading next token out fits.formed.paused taken
                have missing : next.values? = none := by
                  rw [← advance_values reading next token out fits taken (by omega), holds.trees (by omega)]
                  exact builds
                have gone := run_missing rest next last nextFits restProper ran nothing missing
                have value := result_value last (run_fits rest next last nextFits restProper ran) p result
                simp [gone, tree] at value

end Formula.Phrase
