import Formula.Proofs.Literal.Reading
import Mathlib.Data.Nat.ModEq
import Mathlib.Algebra.Order.Field.Basic
import Mathlib.Algebra.Order.Ring.Rat

set_option autoImplicit false

namespace Formula.Decimal

open Literal

theorem digit_written (n : Nat) (small : n < 10) :
    isDigit (Char.ofNat ('0'.toNat + n)) = true ∧ digitValue (Char.ofNat ('0'.toNat + n)) = n := by
  have each : ∀ n : Fin 10, isDigit (Char.ofNat ('0'.toNat + n)) = true ∧ digitValue (Char.ofNat ('0'.toNat + n)) = n := by
    decide
  exact each ⟨n, small⟩

theorem divides_remainder (divisor n factor : Nat) : divisor ∣ n % divisor * factor ↔ divisor ∣ n * factor :=
  ((Nat.mod_modEq n divisor).mul_right factor).dvd_iff (Nat.dvd_refl divisor)

-- The digits of a division and what is left of it: all that is asked for unless the division ends, and never more than
-- are needed to end it.
structure Expansion (divisor limit remainder : Nat) (digits : List Char) (left : Nat) : Prop where
  numeric : ∀ c ∈ digits, isDigit c = true
  divides : remainder * 10 ^ digits.length = magnitude 10 digits * divisor + left
  below : left < divisor
  within : digits.length ≤ limit
  ends : left = 0 ∨ digits.length = limit
  least : ∀ places, divisor ∣ remainder * 10 ^ places → digits.length ≤ places

theorem expansion_blank (divisor limit : Nat) (positive : 0 < divisor) : Expansion divisor limit 0 [] 0 :=
  ⟨by simp, by simp, positive, Nat.zero_le _, .inl rfl, fun _ _ => Nat.zero_le _⟩

theorem expansion_digit (divisor limit remainder : Nat) (below : remainder < divisor) (some : remainder ≠ 0)
    (digits : List Char) (left : Nat) (later : Expansion divisor limit (remainder * 10 % divisor) digits left) :
    Expansion divisor (limit + 1) remainder (Char.ofNat ('0'.toNat + remainder * 10 / divisor) :: digits) left := by
  have positive : 0 < divisor := Nat.zero_lt_of_lt below
  have small : remainder * 10 / divisor < 10 := by
    rw [Nat.div_lt_iff_lt_mul positive]
    omega
  obtain ⟨digit, worth⟩ := digit_written _ small
  refine ⟨List.forall_mem_cons.mpr ⟨digit, later.numeric⟩, ?_, later.below, ?_, ?_, ?_⟩
  · have shown : magnitude 10 (Char.ofNat ('0'.toNat + remainder * 10 / divisor) :: digits) =
        remainder * 10 / divisor * 10 ^ digits.length + magnitude 10 digits := by
      rw [← List.singleton_append, magnitude_append, magnitude_digit, worth]
    calc remainder * 10 ^ (digits.length + 1)
      _ = remainder * 10 * 10 ^ digits.length := by ring
      _ = (remainder * 10 / divisor * divisor + remainder * 10 % divisor) * 10 ^ digits.length := by rw [Nat.div_add_mod']
      _ = remainder * 10 / divisor * 10 ^ digits.length * divisor + remainder * 10 % divisor * 10 ^ digits.length := by ring
      _ = magnitude 10 (Char.ofNat ('0'.toNat + remainder * 10 / divisor) :: digits) * divisor + left := by
        rw [later.divides, shown]
        ring
  · exact Nat.succ_le_succ later.within
  · exact later.ends.imp id (congrArg Nat.succ)
  · intro places ends
    cases places with
    | zero =>
        rw [Nat.pow_zero, Nat.mul_one] at ends
        exact absurd (Nat.le_of_dvd (Nat.pos_of_ne_zero some) ends) (by omega)
    | succ places =>
        rw [Nat.pow_succ', ← Nat.mul_assoc] at ends
        exact Nat.succ_le_succ (later.least places ((divides_remainder _ _ _).mpr ends))

theorem expand_spec (divisor limit remainder : Nat) (below : remainder < divisor) :
    Expansion divisor limit remainder (expand divisor limit remainder).1 (expand divisor limit remainder).2 := by
  induction limit generalizing remainder with
  | zero =>
      refine ⟨by simp [expand], by simp [expand], below, Nat.le_refl _, .inr rfl, fun _ _ => Nat.zero_le _⟩
  | succ limit ih =>
      have positive := Nat.zero_lt_of_lt below
      rw [expand]
      split
      · rename_i ended
        rw [ended]
        exact expansion_blank divisor (limit + 1) positive
      · rename_i some
        exact expansion_digit divisor limit remainder below some _ _ (ih _ (Nat.mod_lt _ positive))

variable (x : Rat) (limit : Nat)

theorem divides_numerator (factor : Nat) : x.den ∣ x.num.natAbs % x.den * factor ↔ x.den ∣ factor := by
  rw [divides_remainder]
  exact x.reduced.symm.dvd_mul_left

theorem abs_fraction : |x| = x.num.natAbs / x.den := by
  rw [Rat.abs_def, Rat.divInt_eq_div, Int.cast_natCast, Int.cast_natCast]

theorem sign_text : (sign x).toList = signed (decide (x < 0)) := by
  by_cases negative : x < 0
  · simp [sign, signed, Rat.num_neg.mpr negative, negative]
  · simp [sign, signed, mt Rat.num_neg.mp negative, negative]

def places : List Char := (expand x.den limit (x.num.natAbs % x.den)).1

def undivided : Nat := (expand x.den limit (x.num.natAbs % x.den)).2

theorem places_spec : Expansion x.den limit (x.num.natAbs % x.den) (places x limit) (undivided x limit) :=
  expand_spec x.den limit _ (Nat.mod_lt _ x.den_pos)

theorem divided_iff : undivided x limit = 0 ↔ x.den ∣ 10 ^ limit := by
  have spec := places_spec x limit
  have exactly := spec.divides
  constructor
  · intro divided
    rw [divided, Nat.add_zero] at exactly
    have divides := (divides_numerator x _).mp ⟨_, exactly.trans (Nat.mul_comm _ _)⟩
    exact divides.trans (Nat.pow_dvd_pow 10 spec.within)
  · intro divides
    rcases spec.ends with divided | full
    · exact divided
    · rw [full] at exactly
      have whole := (divides_numerator x _).mpr divides
      rw [exactly, Nat.dvd_add_right ⟨_, Nat.mul_comm _ _⟩] at whole
      exact Nat.eq_zero_of_dvd_of_lt whole spec.below

theorem number_divides (number : Number) (plain : number.exponent = none) (worth : number.worth = |x|) :
    x.den ∣ 10 ^ number.fraction.length := by
  have nonzero : (x.den : Rat) ≠ 0 := Nat.cast_ne_zero.mpr x.den_nz
  have ten : (10 : Rat) ^ number.fraction.length ≠ 0 := pow_ne_zero _ (by norm_num)
  have known := digits_worth number
  rw [worth, abs_fraction, Number.power, plain, Option.elim_none, Int.zero_sub, power_zpow, zpow_neg, zpow_natCast] at known
  have whole : ((magnitude 10 (number.whole ++ number.fraction) * x.den : Nat) : Rat) =
      (x.num.natAbs * 10 ^ number.fraction.length : Nat) := by
    push_cast
    field_simp at known
    linarith
  refine x.reduced.symm.dvd_of_dvd_mul_left ⟨magnitude 10 (number.whole ++ number.fraction), ?_⟩
  rw [← Nat.cast_injective whole, Nat.mul_comm]

def decimal : Number where
  whole := Nat.toDigits 10 (x.num.natAbs / x.den)
  fraction := places x limit
  exponent := none
  filled := by simp [Nat.toDigits_ne_nil]
  numeric := List.forall_mem_append.mpr ⟨written_digits _, (places_spec x limit).numeric⟩

section

variable (divided : undivided x limit = 0)

include divided

theorem decimal_worth : (decimal x limit).worth = |x| := by
  have nonzero : (x.den : Rat) ≠ 0 := Nat.cast_ne_zero.mpr x.den_nz
  have exactly := (places_spec x limit).divides
  rw [divided, Nat.add_zero] at exactly
  have fraction : ((x.num.natAbs % x.den : Nat) : Rat) * 10 ^ (places x limit).length =
      magnitude 10 (places x limit) * x.den := by
    exact_mod_cast exactly
  have split : (x.num.natAbs : Rat) = (x.num.natAbs / x.den : Nat) * x.den + (x.num.natAbs % x.den : Nat) := by
    exact_mod_cast (Nat.div_add_mod' _ _).symm
  have whole : magnitude 10 (decimal x limit).whole = x.num.natAbs / x.den := magnitude_written _
  rw [Number.worth, whole, abs_fraction, eq_div_iff nonzero, split]
  change ((_ : Rat) + magnitude 10 (places x limit) / 10 ^ (places x limit).length) * 10 ^ (0 : Int) * x.den = _
  rw [zpow_zero, mul_one, add_mul, div_mul_eq_mul_div, ← fraction, mul_div_cancel_right₀ _ (pow_ne_zero _ (by norm_num))]

theorem places_blank : places x limit = [] ↔ x.den = 1 := by
  constructor
  · intro blank
    have divides := number_divides x (decimal x limit) rfl (decimal_worth x limit divided)
    simpa [decimal, blank] using divides
  · intro whole
    have short := (places_spec x limit).least 0 (by rw [whole]; exact Nat.one_dvd _)
    exact List.eq_nil_of_length_eq_zero (Nat.le_zero.mp short)

theorem places_trimmed : (places x limit).getLast? ≠ some '0' := by
  intro last
  obtain ⟨front, spelling⟩ := List.getLast?_eq_some_iff.mp last
  have spec := places_spec x limit
  have exactly := spec.divides
  have zero : magnitude 10 ['0'] = 0 := by decide
  rw [divided, spelling, magnitude_append, zero, List.length_append, List.length_singleton] at exactly
  have tenth : x.num.natAbs % x.den * 10 ^ front.length = x.den * magnitude 10 front := by
    refine Nat.eq_of_mul_eq_mul_right (by decide : 0 < 10) ?_
    rw [Nat.mul_assoc, ← Nat.pow_succ, exactly]
    ring
  have short := spec.least front.length ⟨_, tenth⟩
  rw [spelling, List.length_append, List.length_singleton] at short
  omega

end

-- A decimal without an exponent that has as few places as any other of its number.
structure Shortest (number : Number) : Prop where
  plain : number.exponent = none
  whole : number.whole = Nat.toDigits 10 (x.num.natAbs / x.den)
  worth : number.worth = |x|
  fewest : ∀ other : Number, other.exponent = none → other.worth = |x| → number.fraction.length ≤ other.fraction.length
  integral : number.fraction = [] ↔ x.den = 1
  trimmed : number.fraction.getLast? ≠ some '0'

theorem decimal_shortest (divided : undivided x limit = 0) : Shortest x (decimal x limit) where
  plain := rfl
  whole := rfl
  worth := decimal_worth x limit divided
  fewest other plain worth :=
    (places_spec x limit).least _ ((divides_numerator x _).mpr (number_divides x other plain worth))
  integral := places_blank x limit divided
  trimmed := places_trimmed x limit divided

theorem decimal_text : (decimal x limit).text = Nat.toDigits 10 (x.num.natAbs / x.den) ++ pointed (places x limit) := by
  simp [Number.text, Number.mantissa, Number.tail, decimal]

theorem format_text : (format x limit).toList = signed (decide (x < 0)) ++
    if undivided x limit = 0 then (decimal x limit).text
    else Nat.toDigits 10 x.num.natAbs ++ '/' :: Nat.toDigits 10 x.den := by
  have sign := sign_text x
  rw [format]
  by_cases whole : x.den = 1
  · have divided : undivided x limit = 0 := (divided_iff x limit).mpr (by rw [whole]; exact Nat.one_dvd _)
    rw [if_pos whole, if_pos divided, decimal_text, (places_blank x limit divided).mpr whole, display_text, if_pos whole, sign]
    simp [whole, pointed]
  · rw [if_neg whole]
    change (if undivided x limit ≠ 0 then display x
      else Decimal.sign x ++ digitText (x.num.natAbs / x.den) ++ "." ++ String.ofList (places x limit)).toList = _
    by_cases divided : undivided x limit = 0
    · have some_place : places x limit ≠ [] := mt (places_blank x limit divided).mp whole
      rw [if_neg (not_not_intro divided), if_pos divided, decimal_text, pointed_filled _ some_place]
      simp [digitText, Digits.write_to_digits, sign]
    · rw [if_pos divided, if_neg divided, display_text, if_neg whole, sign]
      simp

theorem format_plain (divided : undivided x limit = 0) :
    '/' ∉ (format x limit).toList ∧ ('.' ∈ (format x limit).toList ↔ x.den ≠ 1) := by
  have unsigned (c : Char) (sign : c ≠ '-') : c ∉ signed (decide (x < 0)) := by
    cases decide (x < 0) <;> simp [signed, sign]
  rw [format_text, if_pos divided, List.mem_append, List.mem_append]
  constructor
  · rintro (sign | text)
    · exact unsigned '/' (by decide) sign
    · exact absurd ((decimal x limit).text_decimal '/' text) (by decide)
  · have whole : '.' ∉ Nat.toDigits 10 (x.num.natAbs / x.den) := fun member =>
      digits_plain ['.'] (by decide) _ (written_digits _) '.' member (by decide)
    have point : '.' ∈ pointed (places x limit) ↔ places x limit ≠ [] := by
      cases places x limit <;> simp [pointed]
    rw [decimal_text, List.mem_append, point, Ne, places_blank x limit divided]
    simp [unsigned '.' (by decide), whole]

-- A number whose reduced denominator divides the power of ten for a number of places is written as its shortest decimal,
-- which reads as the number again; any other is written as its reduced fraction.
theorem decimals_reread :
    (x.den ∣ 10 ^ limit → ∃ number : Number, (format x limit).toList = signed (decide (x < 0)) ++ number.text ∧
      Shortest x number ∧ '/' ∉ (format x limit).toList ∧ ('.' ∈ (format x limit).toList ↔ x.den ≠ 1) ∧
      (limit ≤ maxExponent → parse? (format x limit).toList = some x)) ∧
    (¬ x.den ∣ 10 ^ limit →
      (format x limit).toList =
        signed (decide (x < 0)) ++ (Nat.toDigits 10 x.num.natAbs ++ '/' :: Nat.toDigits 10 x.den)) := by
  have written := format_text x limit
  constructor
  · intro divides
    have divided := (divided_iff x limit).mpr divides
    rw [if_pos divided] at written
    obtain ⟨bar, point⟩ := format_plain x limit divided
    have shortest := decimal_shortest x limit divided
    refine ⟨decimal x limit, written, shortest, bar, point, fun bounded => ?_⟩
    have within := (places_spec x limit).within
    have known : (decimal x limit).Bounded := by
      have few : (decimal x limit).fraction.length ≤ maxExponent := within.trans bounded
      have zero : (decimal x limit).power = 0 := rfl
      simp only [Number.Bounded, Number.Narrow, Number.scale, Narrow, zero, leastExponent, maxExponent] at few ⊢
      omega
    rw [written, parse_number, if_pos (.inl known), shortest.worth]
    by_cases negative : x < 0
    · simp [negative, abs_of_neg negative]
    · simp [negative, abs_of_nonneg (not_lt.mp negative)]
  · intro endless
    rw [if_neg (mt (divided_iff x limit).mp endless)] at written
    exact written

-- A number between minus one and zero keeps its sign, and a third is no decimal.
theorem eighth_reread :
    format (-(1 / 8)) 3 = "-0.125" ∧ parse? "-0.125".toList = some (-(1 / 8)) ∧
      (format (1 / 3) 20).toList = ['1', '/', '3'] := by
  have eighth : (-(1 / 8) : Rat).den = 8 := by decide +kernel
  have third : (1 / 3 : Rat).den = 3 := by decide +kernel
  have text : format (-(1 / 8)) 3 = "-0.125" := by decide +kernel
  obtain ⟨decimal, -⟩ := decimals_reread (-(1 / 8)) 3
  obtain ⟨-, fraction⟩ := decimals_reread (1 / 3) 20
  obtain ⟨number, -, -, -, -, reads⟩ := decimal (by rw [eighth]; decide)
  have whole := fraction (by rw [third]; decide)
  refine ⟨text, ?_, ?_⟩
  · rw [← text]
    exact reads (by decide)
  · rw [whole]
    decide +kernel

end Formula.Decimal
