import Formula.Proofs.Graph.Calls
import Formula.Proofs.Literal.Writing
import Formula.Proofs.Phrase.Spelling

set_option autoImplicit false

namespace Formula

variable {T σ : Type}

namespace Numeric

theorem trim_split (text : List Char) : ∃ front back, text = front ++ (trim text ++ back) ∧
    ∀ c ∈ front ++ back, Text.isWhiteSpace c = true := by
  have first := List.takeWhile_append_dropWhile (p := Text.isWhiteSpace) (l := text)
  have last := List.takeWhile_append_dropWhile (p := Text.isWhiteSpace) (l := (text.dropWhile Text.isWhiteSpace).reverse)
  refine ⟨text.takeWhile Text.isWhiteSpace,
    ((text.dropWhile Text.isWhiteSpace).reverse.takeWhile Text.isWhiteSpace).reverse, ?_, ?_⟩
  · rw [trim, ← List.reverse_append, last, List.reverse_reverse, first]
  · rw [List.forall_mem_append]
    refine ⟨fun c member => List.mem_takeWhile_imp member, fun c member => ?_⟩
    exact List.mem_takeWhile_imp (List.mem_reverse.mp member)

theorem trim_spaced (front piece back : List Char) (white : ∀ c ∈ front ++ back, Text.isWhiteSpace c = true)
    (filled : piece ≠ []) (solid : ∀ c ∈ piece, Text.isWhiteSpace c = false) : trim (front ++ (piece ++ back)) = piece := by
  have dropped (blank piece rest : List Char) (white : ∀ c ∈ blank, Text.isWhiteSpace c = true) (filled : piece ≠ [])
      (solid : ∀ c ∈ piece, Text.isWhiteSpace c = false) :
      (blank ++ (piece ++ rest)).dropWhile Text.isWhiteSpace = piece ++ rest := by
    obtain ⟨c, more, rfl⟩ := List.exists_cons_of_ne_nil filled
    rw [List.dropWhile_append_of_pos white, List.cons_append, List.dropWhile_cons_of_neg (by simp [solid c List.mem_cons_self])]
  obtain ⟨before, behind⟩ := List.forall_mem_append.mp white
  have last := dropped back.reverse piece.reverse [] (by simpa using behind) (by simpa using filled) (by simpa using solid)
  rw [List.append_nil] at last
  rw [trim, dropped front piece back before filled solid, List.reverse_append, last, List.reverse_reverse]

theorem split_sign_literal (sign : Option Char) (signs : ∀ c ∈ sign, c = '+' ∨ c = '-') (digits : List Char)
    (found : Literal.Shape × Nat) (scanned : Literal.scan digits = some found) :
    splitSign (sign.toList ++ digits) = (decide (sign = some '-'), digits) := by
  cases sign with
  | none =>
      obtain ⟨c, rest, rfl, -, -, starts⟩ := Literal.scan_first digits found scanned
      refine split_sign_plain c rest ?_ ?_
      · rintro rfl
        exact absurd starts (by decide)
      · rintro rfl
        exact absurd starts (by decide)
  | some sign =>
      rcases signs sign rfl with rfl | rfl <;> rfl

variable [Numeric T]

theorem read_whole [Textual T] (digits : List Char) (flags : Flags) (size : T)
    (reads : (read digits 0 flags : Except String (Option (T × Nat))) = .ok (some (size, Text.width digits))) :
    ∃ shape, Literal.scan digits = some (shape, digits.length) ∧ ∀ text start stop,
      Literal.at? text start = some ⟨shape, digits, stop⟩ →
        (read text start flags : Except String (Option (T × Nat))) = .ok (some (size, stop)) := by
  cases scanned : Literal.scan digits with
  | none =>
      have nothing : Literal.at? digits 0 = none := by simp [Literal.at?, Text.drop_bytes_zero, scanned]
      exact absurd (reads.symm.trans (Literate.read digits 0 flags nothing)) (by simp)
  | some found =>
      obtain ⟨shape, length⟩ := found
      have here : Literal.at? digits 0 = some ⟨shape, digits.take length, length⟩ := by
        simp [Literal.at?, Text.drop_bytes_zero, scanned]
      have anywhere (text : List Char) (start stop : Nat)
          (there : Literal.at? text start = some ⟨shape, digits.take length, stop⟩) :
          Text.width digits = length ∧
            (read text start flags : Except String (Option (T × Nat))) = .ok (some (size, stop)) := by
        obtain ⟨outcome, alone, moved⟩ := Textual.anywhere (T := T) flags digits text 0 start _ _ _ _ here there
        rw [reads] at alone
        cases outcome with
        | error details => exact absurd alone (by simp [Except.map])
        | ok value =>
            obtain ⟨rfl, ends⟩ := Prod.mk.inj (Option.some.inj (Except.ok.inj alone))
            exact ⟨ends, moved⟩
      obtain rfl := (anywhere digits 0 length here).1
      have wide := Literal.scan_wide digits shape scanned
      rw [wide, List.take_length] at anywhere
      exact ⟨shape, by rw [wide], fun text start stop there => (anywhere text start stop there).2⟩

def Signed (sign : Option Char) (size value : T) : Prop :=
  if sign = some '-' then unary .negate size = .ok value else size = value

-- A literal, with at most one sign before it and with white space around it, and the value that is read from it.
inductive Writes (flags : Flags) : List Char → T → Prop
  | literal (front back : List Char) (white : ∀ c ∈ front ++ back, Text.isWhiteSpace c = true) (sign : Option Char)
      (signs : ∀ c ∈ sign, c = '+' ∨ c = '-') (shape : Literal.Shape) (digits : List Char)
      (scanned : Literal.scan digits = some (shape, digits.length)) (size : T)
      (reads : ∀ text start stop, Literal.at? text start = some ⟨shape, digits, stop⟩ →
        (read text start flags : Except String (Option (T × Nat))) = .ok (some (size, stop)))
      (value : T) (signed : Signed sign size value) : Writes flags (front ++ (sign.toList ++ digits ++ back)) value

theorem parse_writes [Textual T] (text : String) (value : T) (parsed : parse T text = .ok value) :
    Writes (supported T) text.toList value := by
  obtain ⟨front, back, whole, white⟩ := trim_split text.toList
  obtain ⟨sign, spelling, signs, minus⟩ := sign_split (trim text.toList)
  rw [parse] at parsed
  rw [whole]
  generalize splitSign (trim text.toList) = parts at spelling minus parsed
  obtain ⟨negative, digits⟩ := parts
  obtain rfl : negative = decide (sign = some '-') := minus
  rw [spelling]
  simp only [bind, Except.bind] at parsed
  cases reads : (read digits 0 (supported T) : Except String (Option (T × Nat))) with
  | error details => exact absurd parsed (by simp [reads])
  | ok found =>
      rw [reads] at parsed
      obtain _ | ⟨size, stop⟩ := found
      · exact absurd parsed (by simp [throw, throwThe, MonadExceptOf.throw])
      · by_cases ends : stop = Text.width digits
        · obtain ⟨shape, scanned, anywhere⟩ := read_whole digits _ size (ends ▸ reads)
          refine .literal front back white sign signs shape digits scanned size anywhere value ?_
          simp only [if_pos ends, decide_eq_true_eq] at parsed
          rw [Signed]
          by_cases negated : sign = some '-'
          · rw [if_pos negated] at parsed ⊢
            cases result : (unary .negate size : Except EvalError T) with
            | error error => exact absurd parsed (by simp [result, throw, throwThe, MonadExceptOf.throw])
            | ok result => simpa [result] using parsed
          · rw [if_neg negated] at parsed ⊢
            exact Except.ok.inj parsed
        · exact absurd parsed (by simp [ends, throw, throwThe, MonadExceptOf.throw])

theorem writes_parse (text : String) (value : T) (writes : Writes (supported T) text.toList value) :
    parse T text = .ok value := by
  generalize whole : text.toList = spelling at writes
  obtain ⟨front, back, white, sign, signs, shape, digits, scanned, size, reads, value, signed⟩ := writes
  have solid : ∀ c ∈ sign.toList ++ digits, Text.isWhiteSpace c = false := by
    rw [List.forall_mem_append]
    refine ⟨fun c member => ?_, Literal.scan_solid digits shape scanned⟩
    rcases signs c (by simpa using member) with rfl | rfl <;> decide
  have filled : sign.toList ++ digits ≠ [] := by
    have positive := (Literal.scan_takes digits shape _ scanned).1
    exact List.append_ne_nil_of_right_ne_nil _ (List.length_pos_iff.mp positive)
  have trimmed := trim_spaced front (sign.toList ++ digits) back white filled solid
  have split := split_sign_literal sign signs digits _ scanned
  have wide : Text.width digits = digits.length := by
    have ascii := Literal.scan_ascii digits shape _ scanned
    rw [List.take_length] at ascii
    exact Text.ascii_width _ ascii
  have alone := reads digits 0 digits.length (by simp [Literal.at?, Text.drop_bytes_zero, scanned])
  rw [parse, whole, trimmed, split]
  simp only [alone, wide, bind, Except.bind, if_true, decide_eq_true_eq]
  by_cases negated : sign = some '-'
  · rw [Signed, if_pos negated] at signed
    simp only [if_pos negated, signed]
  · rw [Signed, if_neg negated] at signed
    simp only [if_neg negated, signed]
    rfl

theorem parse_iff [Textual T] (text : String) (value : T) :
    parse T text = .ok value ↔ Writes (supported T) text.toList value :=
  ⟨parse_writes text value, writes_parse text value⟩

end Numeric

def Expr.Closed (e : Expr T σ) : Prop := e.Every (Shape.Within (fun _ => False) fun _ _ => False)

theorem Expr.closed_node (shape : Shape T σ (Expr T σ)) (alone : shape.borrowed? = none)
    (unnamed : ∀ value name, shape ≠ .constant value (some name)) (below : ∀ child ∈ shape.children, child.Closed) :
    Expr.Closed (.node shape) :=
  .node shape ⟨by simp [alone], fun value name same => unnamed value name same⟩ below

namespace Source

variable [Numeric T] (flags : Flags) (source : Source T σ) (readable : source.Readable flags)
  (default : source.grammar.reader = Numeric.read) (numeric : flags.numeric = true)

include readable default numeric

theorem spells_value (text : List Char) (value : T) (writes : Numeric.Writes source.grammar.flags text value) :
    source.Spells text unaryPrecedence fun e => e.Closed ∧ ∀ host, (e.run []).outcome host = .ok value := by
  obtain ⟨front, back, white, sign, signs, shape, digits, scanned, size, reads, value, signed⟩ := writes
  have literal := source.spells_lower _ _ unaryPrecedence _ (spells_literal flags source readable digits shape size scanned
    fun start stop found => by
      rw [Grammar.read, default]
      exact reads _ _ _ found) (by decide)
  have constant : Expr.Closed (.node (.constant size none) : Expr T σ) :=
    Expr.closed_node _ rfl (by simp) (by simp [Shape.children])
  refine source.spells_spaced front back _ white _ _ ?_
  cases sign with
  | none =>
      obtain rfl : size = value := by simpa [Numeric.Signed] using signed
      refine source.spells_weaker _ _ _ _ _ literal (Nat.le_refl _) ?_
      rintro e rfl
      exact ⟨constant, fun _ => rfl⟩
  | some c =>
      rcases signs c rfl with rfl | rfl
      · obtain rfl : size = value := by simpa [Numeric.Signed] using signed
        refine spells_identity flags source readable _ _ _ numeric literal ?_
        rintro e span rfl
        exact ⟨Expr.closed_node _ rfl (by simp) (by simpa [Shape.children] using constant), fun _ => rfl⟩
      · refine spells_unary flags source readable _ _ _ .negate numeric literal ?_
        rintro e span rfl
        refine ⟨Expr.closed_node _ rfl (by simp) (by simpa [Shape.children] using constant), fun host => ?_⟩
        change (Shape.locate span (Run.ofExcept (Numeric.unary .negate size))).outcome host = _
        rw [Run.locate_ok]
        exact (if_pos rfl : Numeric.Signed (some '-') size value = _) ▸ signed

end Source

namespace Evaluator

variable [Numeric T] (evaluator : Evaluator T Unit) (built : (Settings.ofFlags (Numeric.defaults T)).build = .ok evaluator)

include built

theorem names_ascii :
    ∀ entry ∈ evaluator.grammar.identifiers, ∀ c ∈ entry.template.name.toList, Text.isAscii c = true := by
  obtain ⟨base, grammar, standard, registered, rfl⟩ := (Settings.build_ok _ evaluator).mp built
  obtain rfl : base = grammar := Except.ok.inj registered
  obtain ⟨-, -, identifiers⟩ := Grammar.standard_listed _ _ _ base standard
  have each : ∀ template ∈ (Grammar.builtinIdentifiers : List (Template T Unit)),
      template.name.toList.all Text.isAscii = true := by
    simp only [Grammar.builtinIdentifiers, List.forall_mem_cons]
    exact ⟨(by decide : "if".toList.all Text.isAscii = true), (by decide : "trunc".toList.all Text.isAscii = true), by simp⟩
  exact fun entry known => List.all_eq_true.mp (each _ (identifiers ▸ List.mem_map_of_mem known))

theorem evaluate_closed [Exact T] (text : String) (e : Expr T Unit)
    (tree : evaluator.tree ⟨[], evaluator.grammar.caseSensitive⟩ text = .ok e) (closed : e.Closed) (value : T)
    (given : (e.run []).outcome () = .ok value) : evaluate text = .ok value := by
  have nothing := (Graph.of_expr_written _ _ e closed).sound.allowed
  have deterministic : (Graph.ofExpr e).Deterministic :=
    ⟨fun borrowed uses _ => (nothing borrowed uses).elim, fun borrowed _ uses _ _ _ => (nothing borrowed uses).elim⟩
  have raw : (((finish text [] false e).run ()).1.call []).outcome () = .ok value := by
    refine (Compiled.call_ok _ [] () value).mpr ⟨rfl, ?_⟩
    rw [finish_raw, Graph.run, compiled_fold _ evaluator built _ text e tree Shape.run]
    exact given
  have called : ((((finish text [] true e).run ()).1.call []).run ()).1 = .ok value :=
    compiled_preserves _ evaluator built _ text e tree deterministic [] () () [] value raw
  have compiled := evaluator.compile_run text [] true () ⟨[], evaluator.grammar.caseSensitive⟩ e rfl tree
  have optimizes : evaluator.optimizes = true := by
    obtain ⟨_, _, -, -, rfl⟩ := (Settings.build_ok _ evaluator).mp built
    rfl
  rw [evaluate, built]
  simp only [Except.mapError, bind, Except.bind, compile, optimizes, compiled, called]

theorem evaluate_written [Exact T] [Literate T] (numeric : (Numeric.defaults T).numeric = true) (text : String) (value : T)
    (writes : Numeric.Writes (Numeric.defaults T) text.toList value) : evaluate text = .ok value := by
  have declared : evaluator.grammar.Declared [] [] := ⟨by simp, by simp, by simp, by simp⟩
  have readable := built_readable _ evaluator built rfl [] (by simp [Settings.ofFlags]) declared
    (.inr ⟨names_ascii evaluator built, by simp⟩) text
  have reader := default_reader _ evaluator built rfl
  have flags : (evaluator.source ⟨[], evaluator.grammar.caseSensitive⟩ text).grammar.flags = Numeric.defaults T :=
    (Grammar.built_settings _ evaluator built).1
  rw [← flags] at writes
  have spells : (evaluator.source ⟨[], evaluator.grammar.caseSensitive⟩ text).Spells text.toList unaryPrecedence
      fun e => e.Closed ∧ ∀ host, (e.run []).outcome host = .ok value :=
    Source.spells_value _ _ readable reader numeric _ value writes
  obtain ⟨e, tree, closed, given⟩ := spelled_tree _ evaluator built _ text _ _ spells
  exact evaluate_closed evaluator built text e tree closed value (given ())

omit built in
theorem integers_built (s : Signedness) :
    ∃ evaluator : Evaluator (Integer s) Unit, (Settings.ofFlags (Numeric.defaults (Integer s))).build = .ok evaluator := by
  cases s <;> exact ⟨_, rfl⟩

end Evaluator

namespace Numeric

-- What is read as the value of an input is what is evaluated as an expression.
theorem parsed_evaluates (text : String) :
    (∀ (s : Signedness) (value : Integer s), parse (Integer s) text = .ok value → evaluate text = .ok value) ∧
      ∀ value : Rat, parse Rat text = .ok value → evaluate text = .ok value := by
  constructor
  · intro s value parsed
    obtain ⟨evaluator, built⟩ := Evaluator.integers_built s
    exact evaluator.evaluate_written built rfl text value ((parse_iff text value).mp parsed)
  · intro value parsed
    obtain ⟨evaluator, built⟩ : ∃ evaluator : Evaluator Rat Unit,
        (Settings.ofFlags (defaults Rat)).build = .ok evaluator := ⟨_, rfl⟩
    exact evaluator.evaluate_written built rfl text value ((parse_iff text value).mp parsed)

def minusSixteen : Integer .signed := ⟨-16, by decide, by decide⟩

def noughtUnsigned : Integer .unsigned := ⟨0, by decide, by decide⟩

-- An unsigned type has a minus sign, and nought is the one number that it can be applied to.
theorem spaced_literals_evaluate :
    parse (Integer .signed) "\u2003-0x10\n" = .ok minusSixteen ∧ evaluate "\u2003-0x10\n" = .ok minusSixteen ∧
      parse (Integer .unsigned) "-00" = .ok noughtUnsigned ∧ evaluate "-00" = .ok noughtUnsigned ∧
      parse Rat " +.5e-1" = .ok (1 / 20) ∧ evaluate " +.5e-1" = .ok (1 / 20 : Rat) := by
  have hexadecimal : parse (Integer .signed) "\u2003-0x10\n" = .ok minusSixteen := by decide +kernel
  have nought : parse (Integer .unsigned) "-00" = .ok noughtUnsigned := by decide +kernel
  have fraction : parse Rat " +.5e-1" = .ok (1 / 20) := by decide +kernel
  exact ⟨hexadecimal, (parsed_evaluates _).1 _ _ hexadecimal, nought, (parsed_evaluates _).1 _ _ nought, fraction,
    (parsed_evaluates _).2 _ fraction⟩

end Numeric

end Formula
