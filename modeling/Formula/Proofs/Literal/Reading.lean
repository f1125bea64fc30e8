import Formula.Proofs.Literal.Writing
import Mathlib.Data.Int.ModEq
import Mathlib.Tactic.FieldSimp
import Mathlib.Tactic.Ring

set_option autoImplicit false

namespace Formula

namespace Literal

def signed (negative : Bool) : List Char := if negative then ['-'] else []

namespace Number

variable (number : Number)

-- The exponent and the number of digits of the fraction are integers of 32 bits.
def Narrow : Prop := Decimal.Narrow number.power ∧ Decimal.Narrow number.fraction.length

def scale : Int := number.power - number.fraction.length

-- The exponent and the digits of the fraction together are a power of ten that can be computed.
def Bounded : Prop := number.Narrow ∧ number.scale.natAbs ≤ Decimal.maxExponent

-- The one beyond the limit whose magnitude is no integer of 32 bits.
def Wraps : Prop := number.Narrow ∧ number.scale = Decimal.leastExponent

instance : Decidable number.Narrow := inferInstanceAs (Decidable (_ ∧ _))

instance : Decidable number.Bounded := inferInstanceAs (Decidable (_ ∧ _))

instance : Decidable number.Wraps := inferInstanceAs (Decidable (_ ∧ _))

end Number

namespace Parts

def Bounded : Parts → Prop
  | hexadecimal _ => True
  | number parts => parts.Bounded

def Wraps : Parts → Prop
  | hexadecimal _ => False
  | number parts => parts.Wraps

instance (parts : Parts) : Decidable parts.Bounded :=
  match parts with
  | hexadecimal _ => inferInstanceAs (Decidable True)
  | number parts => inferInstanceAs (Decidable parts.Bounded)

instance (parts : Parts) : Decidable parts.Wraps :=
  match parts with
  | hexadecimal _ => inferInstanceAs (Decidable False)
  | number parts => inferInstanceAs (Decidable parts.Wraps)

-- An integer type has room for hexadecimal digits of 64 bits and for plain ones in its range, and for nothing else.
def Fits (s : Signedness) : Parts → Prop
  | hexadecimal parts => magnitude 16 parts.digits < 2 ^ 64
  | number parts => parts.Integral ∧ (magnitude 10 parts.whole : Int) ≤ s.high

instance (s : Signedness) (parts : Parts) : Decidable (parts.Fits s) :=
  match parts with
  | hexadecimal parts => inferInstanceAs (Decidable (magnitude 16 parts.digits < 2 ^ 64))
  | number parts => inferInstanceAs (Decidable (parts.Integral ∧ (magnitude 10 parts.whole : Int) ≤ s.high))

def Names {s : Signedness} (value : Integer s) : Parts → Prop
  | hexadecimal parts => value.value ≡ magnitude 16 parts.digits [ZMOD 2 ^ 64]
  | number parts => value.value = magnitude 10 parts.whole

end Parts

end Literal

namespace Decimal

open Literal

section Numbers

variable (number : Number)

theorem digits_worth : ((magnitude 10 (number.whole ++ number.fraction) : Nat) : Rat) *
    power 10 (number.power - number.fraction.length) = number.worth := by
  have ten : (10 : Rat) ≠ 0 := by decide
  rw [magnitude_append, power_zpow, zpow_sub₀ ten, zpow_natCast, Number.worth]
  push_cast
  field_simp

variable (sign : Option Char) (signs : ∀ c ∈ sign, c = '+' ∨ c = '-')

theorem of_number_worth : (Writing.ofNumber number sign signs).worth =
    if sign = some '-' then -number.worth else number.worth := by
  have kept : (number.whole ++ number.fraction).filter isDigit = number.whole ++ number.fraction :=
    List.filter_eq_self.mpr number.numeric
  have worth := digits_worth number
  rw [power_zpow] at worth
  rw [Writing.worth, Writing.of_number_scale, ← worth]
  simp only [Writing.ofNumber, signedSize, kept]
  split
  · push_cast
    rw [neg_mul]
  · push_cast
    rfl

theorem of_number_narrow : (Writing.ofNumber number sign signs).Narrow ↔ number.Narrow := by
  have places : ((Writing.ofNumber number sign signs).fraction.getD []).length = number.fraction.length := by
    rw [Writing.ofNumber]
    by_cases integral : number.fraction = [] <;> simp [integral]
  rw [Writing.Narrow, places, Number.Narrow, Number.power, Writing.ofNumber]
  refine and_congr_left fun _ => ?_
  cases number.exponent with
  | none => exact iff_of_true (by simp) (by decide)
  | some exponent => simp

theorem of_number_bounded : (Writing.ofNumber number sign signs).Bounded ↔ number.Bounded := by
  rw [Writing.Bounded, of_number_narrow, Writing.of_number_scale, Number.Bounded, Number.scale]

theorem of_number_wraps : (Writing.ofNumber number sign signs).Wraps ↔ number.Wraps := by
  rw [Writing.Wraps, of_number_narrow, Writing.of_number_scale, Number.Wraps, Number.scale]

include signs in
theorem parse_signed : parse? (sign.toList ++ number.text) = if number.Bounded ∨ number.Wraps
    then some (if sign = some '-' then -number.worth else number.worth) else none := by
  have read := parse_writing (Writing.ofNumber number sign signs)
  simpa only [Writing.of_number_text, of_number_worth, of_number_bounded, of_number_wraps] using read

theorem parse_number (negative : Bool) : parse? (Literal.signed negative ++ number.text) =
    if number.Bounded ∨ number.Wraps then some (if negative then -number.worth else number.worth) else none := by
  cases negative with
  | false => exact parse_signed number none (by simp)
  | true => exact parse_signed number (some '-') (by simp)

end Numbers

theorem hex_worth (parts : Parts) (hex : parts.shape = .hex) :
    parts.Bounded ∧ parts.worth = (value 16 (parts.text.drop 2) : Nat) := by
  cases parts with
  | hexadecimal parts => exact ⟨trivial, by rw [Parts.worth, value_magnitude]; rfl⟩
  | number parts =>
      rw [Parts.shape] at hex
      split at hex <;> cases hex

theorem number_worth (parts : Parts) (number : parts.shape ≠ .hex) :
    parse? parts.text = if parts.Bounded ∨ parts.Wraps then some parts.worth else none := by
  cases parts with
  | hexadecimal parts => exact absurd rfl number
  | number parts => exact parse_number parts false

theorem read_parts (text : List Char) (start : Nat) (found : Found) (here : at? text start = some found) (parts : Parts)
    (spelling : parts.text = found.text) (same : parts.shape = found.shape) :
    (parts.Bounded ∨ parts.Wraps → read text start = .ok (some (parts.worth, found.stop))) ∧
      (¬ (parts.Bounded ∨ parts.Wraps) → ∃ details, read text start = .error details) := by
  cases shape : found.shape with
  | hex =>
      obtain ⟨bounded, worth⟩ := hex_worth parts (same.trans shape)
      refine ⟨fun _ => ?_, fun refused => absurd (.inl bounded) refused⟩
      simp only [read, here, shape, worth, spelling]
  | integer | real =>
      have worth := number_worth parts (by simp [same, shape])
      rw [spelling] at worth
      constructor
      · intro taken
        simp only [read, here, shape, worth, if_pos taken]
      · intro refused
        exact ⟨_, by simp only [read, here, shape, worth, if_neg refused]; rfl⟩

theorem read_digits (n : Nat) (text : List Char) (start stop : Nat)
    (found : at? text start = some ⟨.integer, Nat.toDigits 10 n, stop⟩) : read text start = .ok (some ((n : Rat), stop)) := by
  have small : Narrow 0 := by decide
  have bounded : (Number.written n).Bounded := ⟨⟨small, small⟩, Nat.zero_le _⟩
  have exactly :=
    (read_parts text start _ found (.number (.written n)) (Number.written_text n) (Parts.written_shape n)).1 (.inl bounded)
  rwa [Parts.worth, Number.written_worth] at exactly

end Decimal

namespace Integer

open Literal

theorem of_bits_congruent (s : Signedness) (n : Nat) : (ofBits s (BitVec.ofNat 64 n)).value ≡ n [ZMOD 2 ^ 64] := by
  have known : ((BitVec.ofNat 64 n).toNat : Int) ≡ n [ZMOD 2 ^ 64] := by
    rw [BitVec.toNat_ofNat]
    push_cast
    exact Int.mod_modEq _ _
  cases s with
  | signed =>
      have signed : (BitVec.ofNat 64 n).toInt ≡ (BitVec.ofNat 64 n).toNat [ZMOD 2 ^ 64] := by
        rw [BitVec.toInt_eq_toNat_bmod]
        exact Int.bmod_emod
      exact signed.trans known
  | unsigned => exact known

theorem literal_hex (s : Signedness) (parts : Hexadecimal) (text : List Char) (spelling : (Parts.hexadecimal parts).text = text) :
    ofLiteral? s .hex text = if magnitude 16 parts.digits < 2 ^ 64
      then some (ofBits s (BitVec.ofNat 64 (magnitude 16 parts.digits))) else none := by
  have below : ((magnitude 16 parts.digits : Nat) : Int) ≤ Signedness.unsigned.high ↔ magnitude 16 parts.digits < 2 ^ 64 := by
    rw [Signedness.high]
    omega
  subst spelling
  simp only [ofLiteral?, Parts.text, List.drop_succ_cons, List.drop_zero, value_magnitude, below]

theorem literal_number (s : Signedness) (parts : Number) :
    ofLiteral? s (Parts.number parts).shape parts.text =
      if parts.Integral then ofInt? s (magnitude 10 parts.whole) else none := by
  rw [Parts.shape]
  split
  · rename_i integral
    have spelling : parts.text = parts.whole := by
      simp [Number.text, Number.mantissa, Number.tail, integral.1, integral.2, pointed]
    rw [ofLiteral?, spelling, value_magnitude]
  · rfl

theorem magnitude_low (s : Signedness) (n : Nat) : s.low ≤ n := by
  cases s with
  | signed => exact Int.le_trans (by decide) (Int.natCast_nonneg n)
  | unsigned => exact Int.natCast_nonneg n

theorem literal_parts (s : Signedness) (parts : Parts) :
    (parts.Fits s → ∃ value, ofLiteral? s parts.shape parts.text = some value ∧ parts.Names value) ∧
      (¬ parts.Fits s → ofLiteral? s parts.shape parts.text = none) := by
  cases parts with
  | hexadecimal parts =>
      have read := literal_hex s parts _ rfl
      constructor
      · intro fits
        exact ⟨_, read.trans (if_pos fits), of_bits_congruent s _⟩
      · intro large
        exact read.trans (if_neg large)
  | number parts =>
      have read := literal_number s parts
      constructor
      · rintro ⟨integral, fits⟩
        rw [if_pos integral, ofInt?, dif_pos ⟨magnitude_low s _, fits⟩] at read
        exact ⟨_, read, rfl⟩
      · intro outside
        refine read.trans ?_
        by_cases integral : parts.Integral
        · rw [if_pos integral, ofInt?, dif_neg fun range => outside ⟨integral, range.2⟩]
        · exact if_neg integral

theorem read_parts (s : Signedness) (text : List Char) (start : Nat) (found : Found) (here : at? text start = some found)
    (parts : Parts) (spelling : parts.text = found.text) (same : parts.shape = found.shape) :
    (parts.Fits s → ∃ value : Integer s, parts.Names value ∧ read s text start = .ok (some (value, found.stop))) ∧
      (¬ parts.Fits s → ∃ details, read s text start = .error details) := by
  obtain ⟨named, refused⟩ := literal_parts s parts
  rw [spelling, same] at named refused
  constructor
  · intro fits
    obtain ⟨value, taken, names⟩ := named fits
    exact ⟨value, names, by simp only [read, here, taken]⟩
  · intro outside
    have nothing := refused outside
    cases shape : found.shape with
    | hex | integer | real =>
        rw [shape] at nothing
        exact ⟨_, by simp only [read, here, shape, nothing]; rfl⟩

end Integer

namespace Literal

def eightieth : Number :=
  ⟨['1'], ['2', '5'], some ⟨'e', some '-', ['2'], rfl, by simp, by simp, List.all_eq_true.mp rfl⟩, by simp,
    List.all_eq_true.mp rfl⟩

def beyond : Number :=
  ⟨['1'], [], some ⟨'e', none, ['4', '0', '9', '7'], rfl, by simp, by simp, List.all_eq_true.mp rfl⟩, by simp,
    List.all_eq_true.mp rfl⟩

def allBits : Hexadecimal := ⟨'X', "00ffffffffFFFFFFFF".toList, .inr rfl, by simp, List.all_eq_true.mp rfl⟩

end Literal

end Formula
