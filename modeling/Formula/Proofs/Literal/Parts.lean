import Formula.Proofs.Literal.Pieces
import Mathlib.Algebra.Field.Rat
import Mathlib.Data.List.Induction
import Mathlib.Data.Nat.Digits.Defs

set_option autoImplicit false

namespace Formula.Literal

def magnitude (base : Nat) (digits : List Char) : Nat := Nat.ofDigits base (digits.map digitValue).reverse

@[simp] theorem magnitude_nil (base : Nat) : magnitude base [] = 0 := rfl

theorem magnitude_append (base : Nat) (front digits : List Char) :
    magnitude base (front ++ digits) = magnitude base front * base ^ digits.length + magnitude base digits := by
  simp only [magnitude, List.map_append, List.reverse_append, Nat.ofDigits_append, List.length_reverse, List.length_map]
  rw [Nat.add_comm, Nat.mul_comm]

@[simp] theorem magnitude_digit (base : Nat) (c : Char) : magnitude base [c] = digitValue c := by simp [magnitude]

theorem value_magnitude (base : Nat) (digits : List Char) : value base digits = magnitude base digits := by
  induction digits using List.reverseRecOn with
  | nil => rfl
  | append_singleton digits c ih =>
      rw [magnitude_append, ← ih]
      simp [value]

theorem magnitude_written (n : Nat) : magnitude 10 (Nat.toDigits 10 n) = n := by rw [← value_magnitude, value_digits]

structure Exponent where
  mark : Char
  sign : Option Char
  digits : List Char
  marks : isMark mark = true
  signs : ∀ c ∈ sign, c = '+' ∨ c = '-'
  filled : digits ≠ []
  numeric : ∀ c ∈ digits, isDigit c = true

namespace Exponent

def text (exponent : Exponent) : List Char := exponent.mark :: (exponent.sign.toList ++ exponent.digits)

def worth (exponent : Exponent) : Int :=
  if exponent.sign = some '-' then -magnitude 10 exponent.digits else magnitude 10 exponent.digits

theorem mark_letter (exponent : Exponent) : isDigit exponent.mark = false ∧ exponent.mark ≠ '.' := by
  rcases Bool.or_eq_true_iff.mp exponent.marks with small | large
  · rw [of_decide_eq_true small]
    decide
  · rw [of_decide_eq_true large]
    decide

end Exponent

def pointed : List Char → List Char
  | [] => []
  | digit :: digits => '.' :: digit :: digits

theorem pointed_filled (digits : List Char) (filled : digits ≠ []) : pointed digits = '.' :: digits := by
  cases digits with
  | nil => exact absurd rfl filled
  | cons digit digits => rfl

theorem pointed_blank (digits : List Char) : (pointed digits).length = 0 ↔ digits = [] := by
  cases digits <;> simp [pointed]

structure Hexadecimal where
  mark : Char
  digits : List Char
  marks : mark = 'x' ∨ mark = 'X'
  filled : digits ≠ []
  numeric : ∀ c ∈ digits, isHexDigit c = true

structure Number where
  whole : List Char
  fraction : List Char
  exponent : Option Exponent
  filled : whole ++ fraction ≠ []
  numeric : ∀ c ∈ whole ++ fraction, isDigit c = true

namespace Number

def mantissa (number : Number) : List Char := number.whole ++ pointed number.fraction

def tail (number : Number) : List Char := number.exponent.elim [] Exponent.text

def text (number : Number) : List Char := number.mantissa ++ number.tail

def power (number : Number) : Int := number.exponent.elim 0 Exponent.worth

def worth (number : Number) : Rat :=
  (magnitude 10 number.whole + magnitude 10 number.fraction / 10 ^ number.fraction.length) * 10 ^ number.power

def Integral (number : Number) : Prop := number.fraction = [] ∧ number.exponent = none

instance (number : Number) : Decidable number.Integral :=
  decidable_of_iff (number.fraction.isEmpty ∧ number.exponent.isNone) (by simp [Integral])

def written (n : Nat) : Number :=
  ⟨Nat.toDigits 10 n, [], none, by simp [Nat.toDigits_ne_nil], by simpa using written_digits n⟩

theorem written_text (n : Nat) : (written n).text = Nat.toDigits 10 n := by simp [written, text, mantissa, tail, pointed]

theorem written_worth (n : Nat) : (written n).worth = n := by simp [written, worth, power, magnitude_written]

end Number

inductive Parts where
  | hexadecimal (parts : Hexadecimal)
  | number (parts : Number)

namespace Parts

def text : Parts → List Char
  | hexadecimal parts => '0' :: parts.mark :: parts.digits
  | number parts => parts.text

def shape : Parts → Shape
  | hexadecimal _ => .hex
  | number parts => if parts.Integral then .integer else .real

def worth : Parts → Rat
  | hexadecimal parts => magnitude 16 parts.digits
  | number parts => parts.worth

theorem written_shape (n : Nat) : (number (.written n)).shape = .integer := by rw [shape, if_pos ⟨rfl, rfl⟩]

end Parts

section

variable (text : List Char)

theorem count_while_taken (keep : Char → Bool) : (text.take (countWhile keep text)).length = countWhile keep text :=
  List.length_take_of_le (List.takeWhile_sublist keep).length_le

theorem count_while_filled (keep : Char → Bool) (some : countWhile keep text ≠ 0) :
    text.take (countWhile keep text) ≠ [] := by
  intro blank
  rw [← count_while_taken text keep, blank] at some
  exact some rfl

theorem exponent_parts : ∃ exponent : Option Exponent, exponent.elim [] Exponent.text = text.take (exponentLength text) ∧
    (exponent = none ↔ exponentLength text = 0) := by
  fun_cases exponentLength text with
  | case4 mark here sign more signed digits filled =>
      have signs : sign = '+' ∨ sign = '-' := by simpa using signed
      refine ⟨some ⟨mark, some sign, more.take digits, here, by simpa using signs, count_while_filled more isDigit filled,
        count_while_kept isDigit more⟩, ?_, by simp⟩
      simp [Exponent.text]
  | case5 mark here sign more plain digits blank =>
      have none : countWhile isDigit (sign :: more) = 0 := blank
      exact ⟨.none, by simp [none], by simp [none]⟩
  | case6 mark here sign more plain digits filled =>
      have some_digit : countWhile isDigit (sign :: more) ≠ 0 := filled
      refine ⟨some ⟨mark, none, (sign :: more).take digits, here, by simp, count_while_filled (sign :: more) isDigit filled,
        count_while_kept isDigit (sign :: more)⟩, ?_, by simp [some_digit]⟩
      simp [Exponent.text, digits, some_digit]
  | _ => exact ⟨none, by simp, by simp⟩

theorem fraction_parts : ∃ digits, pointed digits = text.take (fractionLength text) ∧
    (digits = [] ↔ fractionLength text = 0) ∧ ∀ c ∈ digits, isDigit c = true := by
  fun_cases fractionLength text with
  | case3 rest digits filled =>
      obtain ⟨c, more, spelling⟩ := List.exists_cons_of_ne_nil (count_while_filled rest isDigit filled)
      refine ⟨rest.take digits, ?_, ?_, count_while_kept isDigit rest⟩
      · rw [List.take_succ_cons, show rest.take digits = c :: more from spelling, pointed]
      · simp [show rest.take digits = c :: more from spelling]
  | _ => exact ⟨[], by simp [pointed], by simp, by simp⟩

theorem hex_parts (some : hexLength text ≠ 0) : ∃ parts, (Parts.hexadecimal parts).text = text.take (hexLength text) := by
  fun_cases hexLength text with
  | case2 zero mark rest marks digits filled =>
      obtain ⟨rfl, kind⟩ : zero = '0' ∧ (mark = 'x' ∨ mark = 'X') := by simpa using marks
      refine ⟨⟨mark, rest.take digits, kind, count_while_filled rest isHexDigit filled, count_while_kept isHexDigit rest⟩, ?_⟩
      simp [Parts.text]
  | case1 => simp_all [hexLength, show countWhile isHexDigit _ = 0 from ‹_›]
  | case3 | case4 => simp_all [hexLength]

theorem scan_parts (shape : Shape) (length : Nat) (scanned : scan text = some (shape, length)) :
    ∃ parts : Parts, parts.text = text.take length ∧ parts.shape = shape := by
  by_cases hexadecimal : hexLength text = 0
  · obtain ⟨digits, fraction, plain, numeric⟩ := fraction_parts (text.drop (countWhile isDigit text))
    obtain ⟨exponent, raised, bare⟩ := exponent_parts (text.drop (mantissaLength text))
    have counted : scan text = if mantissaLength text = 0 then none
        else if digits = [] ∧ exponent = none then some (.integer, countWhile isDigit text)
        else some (.real, mantissaLength text + exponentLength (text.drop (mantissaLength text))) := by
      simp only [scan, hexadecimal, ne_eq, not_true_eq_false, if_false, plain, bare, mantissaLength]
    by_cases blank : mantissaLength text = 0
    · simp [counted, blank] at scanned
    · have filled : text.take (countWhile isDigit text) ++ digits ≠ [] := by
        intro none
        obtain ⟨whole, unpointed⟩ := List.append_eq_nil_iff.mp none
        apply blank
        rw [mantissaLength, plain.mp unpointed, Nat.add_zero]
        exact Decidable.byContradiction fun some => count_while_filled text isDigit some whole
      let number : Number := ⟨text.take (countWhile isDigit text), digits, exponent, filled,
        List.forall_mem_append.mpr ⟨count_while_kept isDigit text, numeric⟩⟩
      have spelling : number.text = text.take (mantissaLength text + exponentLength (text.drop (mantissaLength text))) := by
        rw [List.take_add, mantissaLength, List.take_add, ← mantissaLength, ← fraction, ← raised]
        rfl
      rw [counted, if_neg blank] at scanned
      by_cases integral : digits = [] ∧ exponent = none
      · rw [if_pos integral] at scanned
        obtain ⟨rfl, rfl⟩ := Prod.mk.inj (Option.some.inj scanned)
        refine ⟨.number number, ?_, if_pos integral⟩
        rw [Parts.text, spelling, bare.mp integral.2, mantissaLength, plain.mp integral.1]
        rfl
      · rw [if_neg integral] at scanned
        obtain ⟨rfl, rfl⟩ := Prod.mk.inj (Option.some.inj scanned)
        exact ⟨.number number, spelling, if_neg integral⟩
  · obtain ⟨parts, spelling⟩ := hex_parts text hexadecimal
    obtain ⟨rfl, rfl⟩ : Shape.hex = shape ∧ hexLength text = length := by simpa [scan, hexadecimal] using scanned
    exact ⟨.hexadecimal parts, spelling, rfl⟩

end

theorem pointed_decimal (digits : List Char) (numeric : ∀ c ∈ digits, isDigit c = true) :
    ∀ c ∈ pointed digits, isDecimal c = true := by
  cases digits with
  | nil => simp [pointed]
  | cons digit digits =>
      rw [pointed, List.forall_mem_cons]
      exact ⟨by decide, fun c member => by simp [isDecimal, numeric c member]⟩

theorem Exponent.text_decimal (exponent : Exponent) : ∀ c ∈ exponent.text, isDecimal c = true := by
  rw [text, List.forall_mem_cons, List.forall_mem_append]
  refine ⟨by simp [isDecimal, exponent.marks], fun c member => ?_, fun c member => by simp [isDecimal, exponent.numeric c member]⟩
  rcases exponent.signs c (by simpa using member) with rfl | rfl <;> decide

namespace Number

variable (number : Number)

theorem text_decimal : ∀ c ∈ number.text, isDecimal c = true := by
  obtain ⟨whole, fraction⟩ := List.forall_mem_append.mp number.numeric
  rw [text, mantissa, List.forall_mem_append, List.forall_mem_append]
  refine ⟨⟨fun c member => by simp [isDecimal, whole c member], pointed_decimal number.fraction fraction⟩, ?_⟩
  rw [tail]
  cases number.exponent with
  | none => simp
  | some exponent => exact exponent.text_decimal

theorem text_digits : number.text.all isDigit = true ↔ number.Integral := by
  obtain ⟨whole, -⟩ := List.forall_mem_append.mp number.numeric
  rw [Integral, text, mantissa, tail, List.all_append, List.all_append, List.all_eq_true.mpr whole]
  constructor
  · intro digits
    constructor
    · cases fraction : number.fraction with
      | nil => rfl
      | cons digit more => simp [fraction, pointed, show isDigit '.' = false by decide] at digits
    · cases raised : number.exponent with
      | none => rfl
      | some exponent =>
          simp [raised, Exponent.text, exponent.mark_letter.1] at digits
  · rintro ⟨fraction, exponent⟩
    simp [fraction, exponent, pointed]

end Number

def shapeOf (text : List Char) : Shape :=
  if text.all isDigit then .integer else if text.all isDecimal then .real else .hex

theorem Parts.shape_text (parts : Parts) : parts.shape = shapeOf parts.text := by
  cases parts with
  | hexadecimal parts =>
      obtain ⟨digit, decimal⟩ : isDigit parts.mark = false ∧ isDecimal parts.mark = false := by
        rcases parts.marks with mark | mark <;> rw [mark] <;> decide
      simp [shape, shapeOf, text, digit, decimal]
  | number parts =>
      have decimal : parts.text.all isDecimal = true := List.all_eq_true.mpr parts.text_decimal
      by_cases integral : parts.Integral
      · rw [shape, shapeOf, text, if_pos integral, if_pos (parts.text_digits.mpr integral)]
      · rw [shape, shapeOf, text, if_neg integral, if_neg (mt parts.text_digits.mp integral), if_pos decimal]

theorem at_parts (text : List Char) (start : Nat) (found : Found) (here : at? text start = some found) :
    (∃ parts : Parts, parts.text = found.text) ∧ ∀ parts : Parts, parts.text = found.text → parts.shape = found.shape := by
  rw [at?] at here
  cases placed : Text.dropBytes? start text with
  | none => simp [placed] at here
  | some rest =>
      cases scanned : scan rest with
      | none => simp [placed, scanned] at here
      | some taken =>
          obtain ⟨shape, length⟩ := taken
          obtain rfl : Found.mk shape (rest.take length) (start + length) = found := by simpa [placed, scanned] using here
          obtain ⟨parts, spelling, same⟩ := scan_parts rest shape length scanned
          refine ⟨⟨parts, spelling⟩, fun other twin => ?_⟩
          rw [other.shape_text, twin, ← spelling, ← parts.shape_text, same]

end Formula.Literal
