import Formula.Proofs.Literal.Parts
import Formula.Proofs.Numeric.Exponent
import Formula.Proofs.Numeric.Size
import Mathlib.Data.List.Basic

set_option autoImplicit false

namespace Formula

theorem Numeric.sign_split (text : List Char) : ∃ sign : Option Char, text = sign.toList ++ (splitSign text).2 ∧
    (∀ c ∈ sign, c = '+' ∨ c = '-') ∧ (splitSign text).1 = decide (sign = some '-') := by
  fun_cases splitSign text with
  | case1 rest => exact ⟨some '-', rfl, by simp, rfl⟩
  | case2 rest => exact ⟨some '+', rfl, by simp, rfl⟩
  | case3 => exact ⟨none, rfl, by simp, rfl⟩

theorem Numeric.split_sign_digits (sign : Option Char) (signs : ∀ c ∈ sign, c = '+' ∨ c = '-') (digits : List Char)
    (filled : digits ≠ []) (numeric : ∀ c ∈ digits, Literal.isDigit c = true) :
    splitSign (sign.toList ++ digits) = (decide (sign = some '-'), digits) := by
  cases sign with
  | none =>
      have plain := Decimal.digits_plain ['-', '+'] (by decide) digits numeric
      obtain ⟨c, rest, rfl⟩ := List.exists_cons_of_ne_nil filled
      obtain ⟨minus, plus⟩ : c ≠ '-' ∧ c ≠ '+' := by simpa using plain c List.mem_cons_self
      exact split_sign_plain c rest minus plus
  | some sign =>
      rcases signs sign rfl with rfl | rfl <;> rfl

namespace Decimal

open Literal

section Cutting

variable (isMark : Char → Bool)

theorem cut_at (before after : List Char) (mark : Char) (plain : ∀ c ∈ before, ¬ isMark c = true)
    (marks : isMark mark = true) : cut? isMark (before ++ mark :: after) = some (before, after) := by
  induction before with
  | nil => simp [cut?, marks]
  | cons c rest ih =>
      rw [List.cons_append, cut?, if_neg (plain c List.mem_cons_self),
        ih fun d member => plain d (List.mem_cons_of_mem _ member)]
      rfl

theorem cut_found (text before after : List Char) (cut : cut? isMark text = some (before, after)) :
    ∃ mark, isMark mark = true ∧ text = before ++ mark :: after := by
  induction text generalizing before with
  | nil => cases cut
  | cons c rest ih =>
      rw [cut?] at cut
      split at cut
      · rename_i marks
        obtain ⟨rfl, rfl⟩ := Prod.mk.inj (Option.some.inj cut)
        exact ⟨c, marks, rfl⟩
      · obtain ⟨⟨front, back⟩, later, same⟩ := Option.map_eq_some_iff.mp cut
        obtain ⟨rfl, rfl⟩ := Prod.mk.inj same
        obtain ⟨mark, marks, rfl⟩ := ih front later
        exact ⟨mark, marks, rfl⟩

end Cutting

section Exponents

theorem exponent_read (exponent : Exponent) :
    exponent? (exponent.sign.toList ++ exponent.digits) = narrow? exponent.worth := by
  have split := Numeric.split_sign_digits exponent.sign exponent.signs exponent.digits exponent.filled exponent.numeric
  have filled : exponent.digits.isEmpty = false := by simpa using exponent.filled
  have numeric : exponent.digits.all isDigit = true := List.all_eq_true.mpr exponent.numeric
  have worth : exponent.worth = if decide (exponent.sign = some '-') = true then -(magnitude 10 exponent.digits : Int)
      else magnitude 10 exponent.digits := by
    simp [Exponent.worth]
  simp only [exponent?, split, filled, numeric, value_magnitude, worth, Bool.not_true, Bool.or_self, Bool.false_eq_true,
    if_false]

theorem exponent_found (mark : Char) (marks : isMark mark = true) (text : List Char) (n : Int32)
    (read : exponent? text = some n) : ∃ exponent : Exponent, exponent.text = mark :: text := by
  obtain ⟨sign, spelling, signs, -⟩ := Numeric.sign_split text
  have digits : ¬ ((Numeric.splitSign text).2.isEmpty || !(Numeric.splitSign text).2.all isDigit) = true := by
    intro other
    simp [exponent?, other] at read
  obtain ⟨filled, numeric⟩ : (Numeric.splitSign text).2 ≠ [] ∧ ∀ c ∈ (Numeric.splitSign text).2, isDigit c = true := by
    simpa using digits
  exact ⟨⟨mark, sign, _, marks, signs, filled, numeric⟩, by rw [Exponent.text, ← spelling]⟩

end Exponents

structure Grouped (digits : List Char) : Prop where
  starts : ∃ c ∈ digits.head?, isDigit c = true
  numeric : ∀ c ∈ digits, isDigit c = true ∨ c = '_'

def signedSize (sign : Option Char) (digits : List Char) : Int :=
  if sign = some '-' then -magnitude 10 (digits.filter isDigit) else magnitude 10 (digits.filter isDigit)

section Digits

variable (text digits : List Char)

theorem plain_grouped (filled : digits ≠ []) (numeric : ∀ c ∈ digits, isDigit c = true) : Grouped digits := by
  obtain ⟨c, rest, rfl⟩ := List.exists_cons_of_ne_nil filled
  exact ⟨⟨c, rfl, numeric c List.mem_cons_self⟩, fun d member => .inl (numeric d member)⟩

theorem grouped_cons (grouped : Grouped digits) : ∃ c rest, digits = c :: rest ∧ isDigit c = true := by
  obtain ⟨⟨c, first, digit⟩, -⟩ := grouped
  obtain ⟨rest, rfl⟩ := List.head?_eq_some_iff.mp first
  exact ⟨c, rest, rfl, digit⟩

theorem grouped_head (grouped : Grouped digits) (mark : Char) (other : isDigit mark = false) : digits.head? ≠ some mark := by
  obtain ⟨c, rest, rfl, digit⟩ := grouped_cons digits grouped
  rintro same
  rw [Option.some.inj same, other] at digit
  cases digit

theorem grouped_iff : Grouped digits ↔
    ¬ (digits.isEmpty || digits.head? = some '_' || !digits.all (fun c => isDigit c || c = '_')) = true := by
  simp only [Bool.or_eq_true, not_or, List.isEmpty_iff, decide_eq_true_iff, Bool.not_eq_true', Bool.not_eq_false,
    List.all_eq_true]
  constructor
  · intro grouped
    have bar := grouped_head digits grouped '_' (by decide)
    obtain ⟨c, rest, rfl, -⟩ := grouped_cons digits grouped
    exact ⟨⟨List.cons_ne_nil c rest, bar⟩, grouped.numeric⟩
  · rintro ⟨⟨filled, bar⟩, numeric⟩
    obtain ⟨c, rest, rfl⟩ := List.exists_cons_of_ne_nil filled
    have digit : isDigit c = true := (numeric c List.mem_cons_self).resolve_right fun same => bar (congrArg some same)
    exact ⟨⟨c, rfl, digit⟩, numeric⟩

-- What a plus sign stands before, unless that starts with another one.
def withoutPlus (text : List Char) : List Char :=
  match text with
  | '+' :: rest => if rest.head? = some '+' then text else rest
  | _ => text

theorem without_plus_split : ∃ sign : Option Char, (∀ c ∈ sign, c = '+') ∧ text = sign.toList ++ withoutPlus text := by
  fun_cases withoutPlus text with
  | case1 rest double => exact ⟨none, by simp, rfl⟩
  | case2 rest single => exact ⟨some '+', by simp, rfl⟩
  | case3 => exact ⟨none, by simp, rfl⟩

theorem without_plus_grouped (sign : Option Char) (plus : ∀ c ∈ sign, c = '+') (grouped : Grouped digits) :
    withoutPlus (sign.toList ++ digits) = digits := by
  have head := grouped_head digits grouped '+' (by decide)
  cases sign with
  | none =>
      rw [Option.toList_none, List.nil_append]
      fun_cases withoutPlus digits with
      | case1 rest double => rfl
      | case2 rest single => exact absurd rfl head
      | case3 => rfl
  | some c =>
      obtain rfl := plus c rfl
      exact if_neg head

theorem unsigned_iff (n : Nat) : unsignedDigits? text = some n ↔
    Grouped (withoutPlus text) ∧ magnitude 10 ((withoutPlus text).filter isDigit) = n := by
  have cases : unsignedDigits? text =
      if (withoutPlus text).isEmpty || (withoutPlus text).head? = some '_' ||
        !(withoutPlus text).all (fun c => isDigit c || c = '_') then none
      else some (value 10 ((withoutPlus text).filter isDigit)) := rfl
  rw [cases, grouped_iff, value_magnitude]
  split
  · rename_i other
    exact iff_of_false (by simp) fun passed => passed.1 other
  · rename_i passed
    rw [Option.some_inj]
    exact (and_iff_right passed).symm

theorem unsigned_read (sign : Option Char) (plus : ∀ c ∈ sign, c = '+') (grouped : Grouped digits) :
    unsignedDigits? (sign.toList ++ digits) = some (magnitude 10 (digits.filter isDigit)) := by
  have same := without_plus_grouped digits sign plus grouped
  exact (unsigned_iff _ _).mpr ⟨by rwa [same], by rw [same]⟩

theorem unsigned_found (n : Nat) (read : unsignedDigits? text = some n) :
    ∃ (sign : Option Char) (digits : List Char),
      (∀ c ∈ sign, c = '+') ∧ text = sign.toList ++ digits ∧ Grouped digits := by
  obtain ⟨sign, plus, spelling⟩ := without_plus_split text
  exact ⟨sign, withoutPlus text, plus, spelling, ((unsigned_iff text n).mp read).1⟩

theorem digits_minus : digits? ('-' :: text) =
    if text.head? = some '+' then none else (unsignedDigits? text).map fun n : Nat => -(n : Int) := by
  rw [digits?]
  cases unsignedDigits? text <;> rfl

theorem digits_bare (bare : text.head? ≠ some '-') : digits? text = (unsignedDigits? text).map fun n : Nat => (n : Int) := by
  fun_cases digits? text with
  | case1 | case2 => exact absurd rfl bare
  | case3 => cases unsignedDigits? text <;> rfl

theorem digits_read (sign : Option Char) (signs : ∀ c ∈ sign, c = '+' ∨ c = '-') (grouped : Grouped digits) :
    digits? (sign.toList ++ digits) = some (signedSize sign digits) := by
  have plus := grouped_head digits grouped '+' (by decide)
  have minus := grouped_head digits grouped '-' (by decide)
  have bare := unsigned_read digits none (by simp) grouped
  cases sign with
  | none =>
      rw [digits_bare (Option.none.toList ++ digits) minus, bare]
      rfl
  | some c =>
      rcases signs c rfl with rfl | rfl
      · rw [digits_bare _ (by simp), unsigned_read digits (some '+') (by simp) grouped]
        rfl
      · rw [Option.toList_some, List.singleton_append, digits_minus, if_neg plus, show unsignedDigits? digits = _ from bare]
        rfl

theorem digits_found (n : Int) (read : digits? text = some n) : ∃ (sign : Option Char) (digits : List Char),
    (∀ c ∈ sign, c = '+' ∨ c = '-') ∧ text = sign.toList ++ digits ∧ Grouped digits := by
  by_cases minus : text.head? = some '-'
  · obtain ⟨rest, rfl⟩ := List.head?_eq_some_iff.mp minus
    rw [digits_minus] at read
    split at read
    · cases read
    · rename_i plus
      obtain ⟨size, unsigned, -⟩ := Option.map_eq_some_iff.mp read
      obtain ⟨sign, digits, only, rfl, grouped⟩ := unsigned_found rest size unsigned
      cases sign with
      | none => exact ⟨some '-', digits, by simp, rfl, grouped⟩
      | some c => exact absurd (congrArg some (only c rfl)) plus
  · rw [digits_bare text minus] at read
    obtain ⟨size, unsigned, -⟩ := Option.map_eq_some_iff.mp read
    obtain ⟨sign, digits, only, rfl, grouped⟩ := unsigned_found text size unsigned
    exact ⟨sign, digits, fun c member => .inl (only c member), rfl, grouped⟩

end Digits

-- A text in its parts: a sign and digits, with a point anywhere among them or at either end, and an exponent.
structure Writing where
  whole : List Char
  fraction : Option (List Char)
  exponent : Option Exponent
  sign : Option Char
  digits : List Char
  signs : ∀ c ∈ sign, c = '+' ∨ c = '-'
  grouped : Grouped digits
  joined : whole ++ fraction.getD [] = sign.toList ++ digits

namespace Writing

variable (writing : Writing)

def mantissa : List Char := writing.whole ++ writing.fraction.elim [] ('.' :: ·)

def tail : List Char := writing.exponent.elim [] Exponent.text

def text : List Char := writing.mantissa ++ writing.tail

-- The digits are counted from the point, with whatever stands behind it.
def scale : Int := writing.exponent.elim 0 Exponent.worth - (writing.fraction.getD []).length

def worth : Rat := (signedSize writing.sign writing.digits : Rat) * 10 ^ writing.scale

-- The exponent and the number of places are integers of 32 bits.
def Narrow : Prop :=
  (∀ exponent ∈ writing.exponent, Decimal.Narrow exponent.worth) ∧ Decimal.Narrow (writing.fraction.getD []).length

def Bounded : Prop := writing.Narrow ∧ writing.scale.natAbs ≤ maxExponent

-- The one beyond the limit that is let through, as its magnitude wraps.
def Wraps : Prop := writing.Narrow ∧ writing.scale = leastExponent

instance : Decidable writing.Narrow := inferInstanceAs (Decidable (_ ∧ _))

instance : Decidable writing.Bounded := inferInstanceAs (Decidable (_ ∧ _))

instance : Decidable writing.Wraps := inferInstanceAs (Decidable (_ ∧ _))

theorem passes_iff : writing.Narrow ∧ Passes writing.scale ↔ writing.Bounded ∨ writing.Wraps := and_or_left

theorem joined_kinds (c : Char) (member : c ∈ writing.whole ++ writing.fraction.getD []) :
    isDigit c = true ∨ c ∈ ['_', '+', '-'] := by
  rw [writing.joined, List.mem_append] at member
  rcases member with sign | digit
  · exact .inr (by simpa using .inr (writing.signs c (by simpa using sign)))
  · exact (writing.grouped.numeric c digit).imp_right fun bar => by simp [bar]

theorem joined_plain (mark : Char) (other : isDigit mark = false) (marks : mark ∉ ['_', '+', '-']) :
    mark ∉ writing.whole ++ writing.fraction.getD [] := by
  intro member
  rcases writing.joined_kinds mark member with digit | known
  · exact absurd digit (by simp [other])
  · exact marks known

theorem whole_plain : ∀ c ∈ writing.whole, ¬ decide (c = '.') = true := by
  intro c member point
  have inside := List.mem_append_left (writing.fraction.getD []) member
  rw [of_decide_eq_true point] at inside
  exact writing.joined_plain '.' (by decide) (by decide) inside

theorem mantissa_kinds (c : Char) (member : c ∈ writing.mantissa) :
    c = '.' ∨ c ∈ writing.whole ++ writing.fraction.getD [] := by
  rw [mantissa] at member
  cases fraction : writing.fraction with
  | none => simpa [fraction] using Or.inr member
  | some digits =>
      rw [fraction, Option.elim_some, List.mem_append, List.mem_cons] at member
      rw [Option.getD_some, List.mem_append]
      exact or_left_comm.mp member

theorem mantissa_plain : ∀ c ∈ writing.mantissa, ¬ (c = 'e' || c = 'E') = true := by
  intro c member mark
  rcases writing.mantissa_kinds c member with rfl | inside
  · exact absurd mark (by decide)
  · rcases (by simpa using mark : c = 'e' ∨ c = 'E') with rfl | rfl
    · exact writing.joined_plain 'e' (by decide) (by decide) inside
    · exact writing.joined_plain 'E' (by decide) (by decide) inside

theorem point_cut : (cut? (· = '.') writing.mantissa).getD (writing.mantissa, []) =
    (writing.whole, writing.fraction.getD []) := by
  have plain := writing.whole_plain
  rw [mantissa]
  cases writing.fraction with
  | none =>
      rw [Option.elim_none, List.append_nil, cut_none _ _ plain]
      rfl
  | some fraction =>
      rw [Option.elim_some, cut_at _ _ fraction '.' plain (by decide)]
      rfl

theorem exponent_cut : cut? (fun c => c = 'e' || c = 'E') writing.text = writing.exponent.map fun exponent =>
    (writing.mantissa, exponent.sign.toList ++ exponent.digits) := by
  have plain := writing.mantissa_plain
  rw [text, tail]
  cases writing.exponent with
  | none =>
      rw [Option.elim_none, List.append_nil, cut_none _ _ plain]
      rfl
  | some exponent => exact cut_at _ _ _ exponent.mark plain exponent.marks

theorem fraction_width : Text.width (writing.fraction.getD []) = (writing.fraction.getD []).length := by
  refine Text.ascii_width _ fun c member => ?_
  rcases writing.joined_kinds c (List.mem_append_right _ member) with digit | mark
  · exact digit_ascii c digit
  · rcases (by simpa using mark : c = '_' ∨ c = '+' ∨ c = '-') with rfl | rfl | rfl <;> decide

def ofNumber (number : Number) (sign : Option Char) (signs : ∀ c ∈ sign, c = '+' ∨ c = '-') : Writing where
  whole := sign.toList ++ number.whole
  fraction := if number.fraction = [] then none else some number.fraction
  exponent := number.exponent
  sign := sign
  digits := number.whole ++ number.fraction
  signs := signs
  grouped := plain_grouped _ number.filled number.numeric
  joined := by by_cases integral : number.fraction = [] <;> simp [integral]

variable (number : Number) (sign : Option Char) (signs : ∀ c ∈ sign, c = '+' ∨ c = '-')

theorem of_number_text : (ofNumber number sign signs).text = sign.toList ++ number.text := by
  rw [text, mantissa, tail, Number.text, Number.mantissa, Number.tail, ofNumber]
  by_cases integral : number.fraction = []
  · simp [integral, pointed]
  · simp [integral, pointed_filled]

theorem of_number_scale : (ofNumber number sign signs).scale = number.power - number.fraction.length := by
  rw [scale, Number.power, ofNumber]
  by_cases integral : number.fraction = [] <;> simp [integral]

end Writing

theorem scale_read (size : Int) (exponent : Int32) (places : Nat) :
    (do
      let counted ← narrow? places
      let scale ← limited? (exponent.toInt - counted.toInt)
      return (size : Rat) * power 10 scale.toInt) =
      if Narrow places ∧ Passes (exponent.toInt - places) then some ((size : Rat) * 10 ^ (exponent.toInt - places))
      else none := by
  by_cases narrow : Narrow places
  · obtain ⟨counted, read, same⟩ := narrow_some places narrow
    by_cases passes : Passes (exponent.toInt - places)
    · obtain ⟨scale, taken, exactly⟩ := limited_some _ passes
      simp [read, same, taken, exactly, narrow, passes, power_zpow]
    · simp [read, same, limited_none _ passes, passes]
  · simp [narrow_none _ narrow, narrow]

theorem parse_writing (writing : Writing) :
    parse? writing.text = if writing.Bounded ∨ writing.Wraps then some writing.worth else none := by
  have point := writing.point_cut
  have digits := digits_read writing.digits writing.sign writing.signs writing.grouped
  have wide := writing.fraction_width
  rw [← writing.joined] at digits
  rw [parse?, writing.exponent_cut, Writing.worth]
  simp only [← writing.passes_iff]
  cases raised : writing.exponent with
  | none =>
      have bare : writing.text = writing.mantissa := by simp [Writing.text, Writing.tail, raised]
      have narrow : writing.Narrow ↔ Narrow (writing.fraction.getD []).length := by simp [Writing.Narrow, raised]
      have scale : writing.scale = (0 : Int32).toInt - (writing.fraction.getD []).length := by
        rw [Writing.scale, raised]
        rfl
      simp only [narrow, scale, ← scale_read]
      simp [bare, point, digits, wide]
  | some exponent =>
      by_cases fits : Narrow exponent.worth
      · obtain ⟨taken, read, same⟩ := narrow_some _ fits
        have narrow : writing.Narrow ↔ Narrow (writing.fraction.getD []).length := by simp [Writing.Narrow, raised, fits]
        have scale : writing.scale = taken.toInt - (writing.fraction.getD []).length := by
          rw [Writing.scale, raised, same, Option.elim_some]
        simp only [narrow, scale, ← scale_read]
        simp [exponent_read, read, point, digits, wide]
      · simp [exponent_read, narrow_none _ fits, Writing.Narrow, raised, fits]

theorem mantissa_found (mantissa whole digits : List Char) (exponent : Option Exponent) (n : Int)
    (cut : (cut? (· = '.') mantissa).getD (mantissa, []) = (whole, digits)) (read : digits? (whole ++ digits) = some n) :
    ∃ writing : Writing, writing.text = mantissa ++ exponent.elim [] Exponent.text := by
  obtain ⟨sign, size, signs, joined, grouped⟩ := digits_found _ n read
  cases point : cut? (· = '.') mantissa with
  | none =>
      obtain ⟨rfl, rfl⟩ : mantissa = whole ∧ [] = digits := by simpa [point] using cut
      exact ⟨⟨mantissa, none, exponent, sign, size, signs, grouped, joined⟩,
        by simp [Writing.text, Writing.mantissa, Writing.tail]⟩
  | some pair =>
      obtain rfl : pair = (whole, digits) := by simpa [point] using cut
      obtain ⟨mark, marks, rfl⟩ := cut_found _ _ _ _ point
      obtain rfl : mark = '.' := of_decide_eq_true marks
      exact ⟨⟨whole, some digits, exponent, sign, size, signs, grouped, joined⟩,
        by simp [Writing.text, Writing.mantissa, Writing.tail]⟩

theorem parse_found (text : List Char) (value : Rat) (parsed : parse? text = some value) :
    ∃ writing : Writing, writing.text = text := by
  rw [parse?] at parsed
  cases cut : cut? (fun c => c = 'e' || c = 'E') text with
  | none =>
      cases point : (cut? (· = '.') text).getD (text, []) with
      | mk whole digits =>
          cases read : digits? (whole ++ digits) with
          | none => simp [cut, point, read] at parsed
          | some n => simpa using mantissa_found text whole digits none n point read
  | some pair =>
      obtain ⟨mantissa, tail⟩ := pair
      obtain ⟨mark, marks, rfl⟩ := cut_found _ _ _ _ cut
      cases raised : exponent? tail with
      | none => simp [cut, raised] at parsed
      | some power =>
          obtain ⟨exponent, spelling⟩ := exponent_found mark marks tail power raised
          cases point : (cut? (· = '.') mantissa).getD (mantissa, []) with
          | mk whole digits =>
              cases read : digits? (whole ++ digits) with
              | none => simp [cut, raised, point, read] at parsed
              | some n => simpa [spelling] using mantissa_found mantissa whole digits (some exponent) n point read

theorem parse_iff (text : List Char) (value : Rat) : parse? text = some value ↔
    ∃ writing : Writing, writing.text = text ∧ (writing.Bounded ∨ writing.Wraps) ∧ writing.worth = value := by
  constructor
  · intro parsed
    obtain ⟨writing, rfl⟩ := parse_found text value parsed
    rw [parse_writing] at parsed
    split at parsed
    · rename_i taken
      exact ⟨writing, rfl, taken, Option.some.inj parsed⟩
    · cases parsed
  · rintro ⟨writing, rfl, taken, rfl⟩
    rw [parse_writing, if_pos taken]

end Decimal

end Formula
