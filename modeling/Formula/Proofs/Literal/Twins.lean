import Formula.Numeric.Float
import Formula.Numeric.Integer
import Formula.Proofs.Text.Twins

set_option autoImplicit false

namespace Formula

namespace Literal

open Text

variable {text other : List Char}

theorem count_digits_twins (twins : Twins text other) : countWhile isDigit text = countWhile isDigit other :=
  twins_while isDigit (fun a b twin => (twin_kin a b twin).digit) text other twins

theorem count_hex_twins (twins : Twins text other) : countWhile isHexDigit text = countWhile isHexDigit other :=
  twins_while isHexDigit (fun a b twin => (twin_kin a b twin).hex) text other twins

theorem exponent_twins (twins : Twins text other) : exponentLength text = exponentLength other := by
  cases twins with
  | nil => rfl
  | @cons mark letter rest more twin tail =>
      have marks : (mark = 'e' || mark = 'E') = (letter = 'e' || letter = 'E') :=
        twin_blind (fun c => (c = 'e' || c = 'E' : Bool)) (ascii_all (by decide)) mark letter twin
      cases tail with
      | nil => simp only [exponentLength, marks]
      | @cons sign symbol digits others like later =>
          have signs : (sign = '+' || sign = '-') = (symbol = '+' || symbol = '-') :=
            twin_blind (fun c => (c = '+' || c = '-' : Bool)) (ascii_all (by decide)) sign symbol like
          simp only [exponentLength, marks, signs, count_digits_twins later, count_digits_twins (.cons like later)]

theorem fraction_twins (twins : Twins text other) : fractionLength text = fractionLength other := by
  cases twins with
  | nil => rfl
  | @cons point stop rest more twin tail =>
      have points : decide (point = '.') = decide (stop = '.') :=
        twin_blind (fun c => decide (c = '.')) (ascii_all (by decide)) point stop twin
      simp only [fractionLength, decide_eq_decide.mp points, count_digits_twins tail]

theorem hex_twins (twins : Twins text other) : hexLength text = hexLength other := by
  cases twins with
  | nil => rfl
  | @cons zero nought rest more twin tail =>
      cases tail with
      | nil => rfl
      | @cons mark letter digits others like later =>
          have zeros : decide (zero = '0') = decide (nought = '0') :=
            twin_blind (fun c => decide (c = '0')) (ascii_all (by decide)) zero nought twin
          have marks : (mark = 'x' || mark = 'X') = (letter = 'x' || letter = 'X') :=
            twin_blind (fun c => (c = 'x' || c = 'X' : Bool)) (ascii_all (by decide)) mark letter like
          rw [hexLength, hexLength, zeros, marks, count_hex_twins later]

theorem scan_twins (twins : Twins text other) : scan text = scan other := by
  have fraction := fraction_twins (List.forall₂_drop (countWhile isDigit other) twins)
  have exponent := exponent_twins (List.forall₂_drop
    (countWhile isDigit other + fractionLength (other.drop (countWhile isDigit other))) twins)
  simp only [scan, hex_twins twins, count_digits_twins twins, fraction, exponent]

def isMark (c : Char) : Bool := c = 'e' || c = 'E'

def isDecimal (c : Char) : Bool := isDigit c || c = '.' || c = '+' || c = '-' || isMark c

theorem count_while_kept (keep : Char → Bool) (text : List Char) :
    ∀ c ∈ text.take (countWhile keep text), keep c = true := by
  rw [countWhile, ← List.prefix_iff_eq_take.mp (List.takeWhile_prefix keep)]
  intro c member
  exact List.all_eq_true.mp (List.all_takeWhile) c member

theorem digits_decimal (text : List Char) : ∀ c ∈ text.take (countWhile isDigit text), isDecimal c = true := by
  intro c member
  simp [isDecimal, count_while_kept isDigit text c member]

theorem fraction_decimal (text : List Char) : ∀ c ∈ text.take (fractionLength text), isDecimal c = true := by
  cases text with
  | nil => simp
  | cons point rest =>
      rw [fractionLength]
      split
      · rename_i here
        by_cases blank : countWhile isDigit rest = 0
        · simp [blank]
        · simp only [blank, if_false, List.take_succ_cons, List.forall_mem_cons]
          exact ⟨by rw [here]; decide, digits_decimal rest⟩
      · simp

theorem exponent_decimal (text : List Char) : ∀ c ∈ text.take (exponentLength text), isDecimal c = true := by
  have marked (c : Char) (mark : isMark c = true) : isDecimal c = true := by simp [isDecimal, mark]
  have signed (c : Char) (sign : (c = '+' || c = '-') = true) : isDecimal c = true := by
    rcases Bool.or_eq_true_iff.mp sign with plus | minus
    · simp [isDecimal, of_decide_eq_true plus]
    · simp [isDecimal, of_decide_eq_true minus]
  fun_cases exponentLength text with
  | case1 => simp
  | case2 mark => simp
  | case3 mark here sign more isSign digits blank => simp
  | case4 mark here sign more isSign digits filled =>
      simp only [List.take_succ_cons, List.forall_mem_cons]
      exact ⟨marked mark here, signed sign isSign, digits_decimal more⟩
  | case5 mark here sign more plain digits blank => simp [show countWhile isDigit (sign :: more) = 0 from blank]
  | case6 mark here sign more plain digits filled =>
      rw [if_neg (show ¬ countWhile isDigit (sign :: more) = 0 from filled)]
      simp only [List.take_succ_cons, List.forall_mem_cons]
      exact ⟨marked mark here, digits_decimal _⟩
  | case7 mark rest plain => simp

theorem hex_digits (text : List Char) : ∀ c ∈ (text.take (hexLength text)).drop 2, isHexDigit c = true := by
  fun_cases hexLength text with
  | case1 zero mark rest marks digits blank => simp
  | case2 zero mark rest marks digits filled => exact count_while_kept isHexDigit rest
  | case3 zero mark rest plain => simp
  | case4 text short => simp

theorem scan_spelled (text : List Char) (shape : Shape) (length : Nat) (found : scan text = some (shape, length)) :
    (shape = .hex ∧ length = hexLength text ∧ ∀ c ∈ (text.take length).drop 2, isHexDigit c = true) ∨
      shape ≠ .hex ∧ ∀ c ∈ text.take length, isDecimal c = true := by
  rw [scan] at found
  split at found
  · obtain ⟨rfl, rfl⟩ := Prod.mk.inj (Option.some.inj found)
    exact .inl ⟨rfl, rfl, hex_digits text⟩
  · simp only at found
    split at found
    · exact absurd found (by simp)
    · split at found
      · obtain ⟨rfl, rfl⟩ := Prod.mk.inj (Option.some.inj found)
        exact .inr ⟨by simp, digits_decimal text⟩
      · obtain ⟨rfl, rfl⟩ := Prod.mk.inj (Option.some.inj found)
        refine .inr ⟨by simp, ?_⟩
        rw [List.take_add, List.take_add]
        exact List.forall_mem_append.mpr ⟨List.forall_mem_append.mpr ⟨digits_decimal text, fraction_decimal _⟩,
          exponent_decimal _⟩

structure Numeral (a b : Char) : Prop where
  twin : Twin a b
  value : digitValue a = digitValue b

theorem hex_numeral (a b : Char) (hex : isHexDigit a = true) (twin : Twin a b) : Numeral a b := by
  refine ⟨twin, ?_⟩
  have worth := twin_blind (fun c => if isHexDigit c then digitValue c else 0) (ascii_all (by decide)) a b twin
  simpa only [← (twin_kin a b twin).hex, hex, if_true] using worth

-- In other numbers the mark of the exponent is the only letter.
structure Marked (a b : Char) : Prop extends Numeral a b where
  same : isMark a = false → a = b

theorem decimal_marked (a b : Char) (decimal : isDecimal a = true) (twin : Twin a b) : Marked a b := by
  have known : isDecimal a = isDecimal b := twin_blind _ (ascii_all (by decide)) a b twin
  have worth := twin_blind (fun c => if isDecimal c then digitValue c else 0) (ascii_all (by decide)) a b twin
  refine ⟨⟨twin, by simpa only [← known, decimal, if_true] using worth⟩, fun plain => twin_same a b twin ?_⟩
  exact ascii_all (P := fun c => isDecimal c = true → isMark c = false → c.isAlpha = false) (by decide) a twin.left decimal plain

theorem twins_known {R : Char → Char → Prop} (keep : Char → Bool) (each : ∀ a b, keep a = true → Twin a b → R a b)
    (twins : Twins text other) (kept : ∀ c ∈ text, keep c = true) : List.Forall₂ R text other :=
  ((List.forall₂_and_left (p := fun c => keep c = true) _ _).mpr ⟨kept, twins⟩).imp fun a b known =>
    each a b known.1 known.2

structure FoundTwin (one other : Found) : Prop where
  shape : one.shape = other.shape
  stop : one.stop = other.stop
  digits : one.shape = .hex ∧ List.Forall₂ Numeral (one.text.drop 2) (other.text.drop 2) ∨
    one.shape ≠ .hex ∧ List.Forall₂ Marked one.text other.text

theorem at_twins (start : Nat) (twins : Twins text other) : Option.Rel FoundTwin (at? text start) (at? other start) := by
  have dropped := twins_drop start text other twins
  unfold at?
  revert dropped
  generalize dropBytes? start text = left
  generalize dropBytes? start other = right
  intro dropped
  cases dropped with
  | none => exact .none
  | @some rest more behind =>
      simp only [Option.bind_eq_bind, Option.bind_some, scan_twins behind]
      cases found : scan more with
      | none => exact .none
      | some number =>
          obtain ⟨shape, length⟩ := number
          have taken := List.forall₂_take length behind
          refine .some ⟨rfl, rfl, ?_⟩
          rcases scan_spelled rest shape length ((scan_twins behind).trans found) with ⟨hex, -, digits⟩ | ⟨number, digits⟩
          · exact .inl ⟨hex, twins_known isHexDigit hex_numeral (List.forall₂_drop 2 taken) digits⟩
          · exact .inr ⟨number, twins_known isDecimal decimal_marked taken digits⟩

theorem value_numerals (base : Nat) (digits others : List Char) (numerals : List.Forall₂ Numeral digits others) :
    value base digits = value base others := by
  have step (worth : Nat) : digits.foldl (fun n c => n * base + digitValue c) worth =
      others.foldl (fun n c => n * base + digitValue c) worth := by
    induction numerals generalizing worth with
    | nil => rfl
    | cons numeral _ ih => simp only [List.foldl_cons, numeral.value, ih]
  exact step 0

end Literal

namespace Numeric

open Literal

variable {text other : List Char}

theorem split_sign_plain (c : Char) (rest : List Char) (minus : c ≠ '-') (plus : c ≠ '+') :
    splitSign (c :: rest) = (false, c :: rest) := by
  unfold splitSign
  split
  · rename_i same
    exact absurd (List.cons.inj same).1 minus
  · rename_i same
    exact absurd (List.cons.inj same).1 plus
  · rfl

theorem split_sign_numerals (numerals : List.Forall₂ Numeral text other) :
    (splitSign text).1 = (splitSign other).1 ∧ List.Forall₂ Numeral (splitSign text).2 (splitSign other).2 := by
  cases numerals with
  | nil => exact ⟨rfl, .nil⟩
  | @cons a b rest more numeral tail =>
      by_cases minus : a = '-'
      · subst minus
        obtain rfl := Text.twin_same '-' b numeral.twin rfl
        exact ⟨rfl, tail⟩
      · by_cases plus : a = '+'
        · subst plus
          obtain rfl := Text.twin_same '+' b numeral.twin rfl
          exact ⟨rfl, tail⟩
        · have marks : (a = '-' || a = '+') = (b = '-' || b = '+') :=
            Text.twin_blind (fun c => (c = '-' || c = '+' : Bool)) (Text.ascii_all (by decide)) a b numeral.twin
          have neither : b ≠ '-' ∧ b ≠ '+' := by simpa [minus, plus] using marks
          rw [split_sign_plain a rest minus plus, split_sign_plain b more neither.1 neither.2]
          exact ⟨rfl, .cons numeral tail⟩

end Numeric

namespace Decimal

open Literal

variable {text other : List Char}

inductive Cut (text other : List Char) : Option (List Char × List Char) → Option (List Char × List Char) → Prop
  | whole (same : text = other) : Cut text other none none
  | parts (before after later : List Char) (numerals : List.Forall₂ Numeral after later) :
      Cut text other (some (before, after)) (some (before, later))

theorem cut_marked (marked : List.Forall₂ Marked text other) : Cut text other (cut? isMark text) (cut? isMark other) := by
  induction marked with
  | nil => exact .whole rfl
  | @cons a b rest more here tail ih =>
      have marks : isMark a = isMark b := Text.twin_blind _ (Text.ascii_all (by decide)) a b here.twin
      rw [cut?, cut?, ← marks]
      by_cases mark : isMark a = true
      · rw [if_pos mark, if_pos mark]
        exact .parts [] rest more (tail.imp fun _ _ => Marked.toNumeral)
      · obtain rfl := here.same (by simpa using mark)
        rw [if_neg mark, if_neg mark]
        revert ih
        generalize cut? isMark rest = left
        generalize cut? isMark more = right
        rintro (same | ⟨before, after, later, numerals⟩)
        · exact .whole (congrArg (a :: ·) same)
        · exact .parts (a :: before) after later numerals

theorem all_digits (numerals : List.Forall₂ Numeral text other) : text.all isDigit = other.all isDigit := by
  induction numerals with
  | nil => rfl
  | cons numeral _ ih => rw [List.all_cons, List.all_cons, (Text.twin_kin _ _ numeral.twin).digit, ih]

theorem empty_digits (numerals : List.Forall₂ Numeral text other) : text.isEmpty = other.isEmpty := by
  cases numerals <;> rfl

theorem exponent_numerals (numerals : List.Forall₂ Numeral text other) : exponent? text = exponent? other := by
  obtain ⟨sign, digits⟩ := Numeric.split_sign_numerals numerals
  simp only [exponent?, sign, empty_digits digits, all_digits digits, value_numerals 10 _ _ digits]

theorem parse_marked (marked : List.Forall₂ Marked text other) : parse? text = parse? other := by
  have cut := cut_marked marked
  unfold parse?
  revert cut
  change Cut text other (cut? (fun c => c = 'e' || c = 'E') text) (cut? (fun c => c = 'e' || c = 'E') other) → _
  generalize cut? (fun c => c = 'e' || c = 'E') text = left
  generalize cut? (fun c => c = 'e' || c = 'E') other = right
  rintro (rfl | ⟨before, after, later, numerals⟩)
  · rfl
  · simp only [exponent_numerals numerals]

end Decimal

namespace Binary64

open Literal

theorem of_digits_marked (text other : List Char) (marked : List.Forall₂ Marked text other) : ofDigits text = ofDigits other := by
  have cut := Decimal.cut_marked marked
  simp only [ofDigits]
  revert cut
  change Decimal.Cut text other (Decimal.cut? (fun c => c = 'e' || c = 'E') text)
    (Decimal.cut? (fun c => c = 'e' || c = 'E') other) → _
  generalize Decimal.cut? (fun c => c = 'e' || c = 'E') text = left
  generalize Decimal.cut? (fun c => c = 'e' || c = 'E') other = right
  rintro (rfl | ⟨before, after, later, numerals⟩)
  · rfl
  · obtain ⟨sign, digits⟩ := Numeric.split_sign_numerals numerals
    simp only [Option.getD_some, sign, value_numerals 10 _ _ digits]

end Binary64

-- The types whose numbers may be written in letters of either case: their readers find the same in texts that
-- differ in nothing else, or refuse both.
class Caseless (T : Type) [Numeric T] : Prop where
  read : ∀ (text other : List Char) (start : Nat) (flags : Flags), Text.Twins text other →
    (Numeric.read text start flags : Except String (Option (T × Nat))).mapError (fun _ => ()) =
      (Numeric.read other start flags).mapError fun _ => ()

theorem Integer.literal_twins (s : Signedness) (one other : Literal.Found) (twin : Literal.FoundTwin one other) :
    Integer.ofLiteral? s other.shape one.text = Integer.ofLiteral? s other.shape other.text := by
  rcases twin.digits with ⟨hex, digits⟩ | ⟨number, digits⟩
  · have shape := twin.shape.symm.trans hex
    simp only [Integer.ofLiteral?, shape, Literal.value_numerals 16 _ _ digits]
  · have same := Literal.value_numerals 10 _ _ (digits.imp fun _ _ => Literal.Marked.toNumeral)
    cases shape : other.shape with
    | hex => exact absurd (twin.shape.trans shape) number
    | real => rfl
    | integer => simp only [Integer.ofLiteral?, same]

instance (s : Signedness) : Caseless (Integer s) where
  read text other start flags twins := by
    change (Integer.read s text start).mapError _ = (Integer.read s other start).mapError _
    have found := Literal.at_twins start twins
    rw [Integer.read, Integer.read]
    revert found
    generalize Literal.at? text start = left
    generalize Literal.at? other start = right
    rintro (@⟨one, other, twin⟩ | _)
    · simp only [twin.shape, twin.stop, Integer.literal_twins s one other twin]
      cases Integer.ofLiteral? s other.shape other.text with
      | some value => rfl
      | none => cases other.shape <;> rfl
    · rfl

instance : Caseless Rat where
  read text other start flags twins := by
    change (Decimal.read text start).mapError _ = (Decimal.read other start).mapError _
    have found := Literal.at_twins start twins
    rw [Decimal.read, Decimal.read]
    revert found
    generalize Literal.at? text start = left
    generalize Literal.at? other start = right
    rintro (@⟨one, other, twin⟩ | _)
    · rcases twin.digits with ⟨hex, digits⟩ | ⟨number, digits⟩
      · have shape := twin.shape.symm.trans hex
        simp only [hex, shape, Literal.value_numerals 16 _ _ digits, twin.stop]
      · have parsed := Decimal.parse_marked digits
        simp only [twin.shape, twin.stop]
        cases shape : other.shape with
        | hex => exact absurd (twin.shape.trans shape) number
        | integer =>
            simp only [parsed]
            cases Decimal.parse? other.text <;> rfl
        | real =>
            simp only [parsed]
            cases Decimal.parse? other.text <;> rfl
    · rfl

instance : Caseless Float where
  read text other start flags twins := by
    change (Binary64.read text start).mapError _ = (Binary64.read other start).mapError _
    have found := Literal.at_twins start twins
    rw [Binary64.read, Binary64.read]
    revert found
    generalize Literal.at? text start = left
    generalize Literal.at? other start = right
    rintro (@⟨one, other, twin⟩ | _)
    · rcases twin.digits with ⟨hex, digits⟩ | ⟨number, digits⟩
      · have shape := twin.shape.symm.trans hex
        simp only [hex, shape, Literal.value_numerals 16 _ _ digits, twin.stop]
        split <;> rfl
      · have parsed := Binary64.of_digits_marked _ _ digits
        simp only [twin.shape, twin.stop]
        cases shape : other.shape with
        | hex => exact absurd (twin.shape.trans shape) number
        | integer => simp only [parsed]
        | real => simp only [parsed]
    · rfl

end Formula
