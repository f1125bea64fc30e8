import Formula.Proofs.Literal.Parts
import Mathlib.Computability.Language

set_option autoImplicit false

namespace Formula.Literal

open Computability

def isSign (c : Char) : Bool := c = '+' || c = '-'

def isHexMark (c : Char) : Bool := c = 'x' || c = 'X'

def oneOf (keep : Char → Bool) : Language Char := {word | ∃ c, word = [c] ∧ keep c = true}

def manyOf (keep : Char → Bool) : Language Char := oneOf keep * (oneOf keep)∗

def fractions : Language Char := oneOf (· = '.') * manyOf isDigit

def exponents : Language Char := oneOf isMark * (1 + oneOf isSign) * manyOf isDigit

-- One pattern for each way in which a literal may be written.
def patterns : List (Shape × Language Char) :=
  [(.hex, oneOf (· = '0') * oneOf isHexMark * manyOf isHexDigit),
    (.real, manyOf isDigit * fractions * (1 + exponents)),
    (.real, fractions * (1 + exponents)),
    (.real, manyOf isDigit * exponents),
    (.integer, manyOf isDigit)]

def Spelled (shape : Shape) (word : List Char) : Prop := ∃ pattern, (shape, pattern) ∈ patterns ∧ word ∈ pattern

theorem mem_star_of (keep : Char → Bool) (word : List Char) : word ∈ (oneOf keep)∗ ↔ ∀ c ∈ word, keep c = true := by
  rw [Language.mem_kstar]
  constructor
  · rintro ⟨words, rfl, singles⟩ c member
    obtain ⟨single, known, held⟩ := List.mem_flatten.mp member
    obtain ⟨d, rfl, kept⟩ := singles single known
    rwa [List.mem_singleton.mp held]
  · intro kept
    refine ⟨word.map fun c => [c], by simp [← List.flatMap_def], fun single known => ?_⟩
    obtain ⟨c, member, rfl⟩ := List.mem_map.mp known
    exact ⟨c, rfl, kept c member⟩

theorem mem_many_of (keep : Char → Bool) (word : List Char) :
    word ∈ manyOf keep ↔ word ≠ [] ∧ ∀ c ∈ word, keep c = true := by
  rw [manyOf, Language.mem_mul]
  constructor
  · rintro ⟨_, ⟨c, rfl, first⟩, rest, others, rfl⟩
    exact ⟨by simp, List.forall_mem_cons.mpr ⟨first, (mem_star_of keep rest).mp others⟩⟩
  · rintro ⟨filled, kept⟩
    obtain ⟨c, rest, rfl⟩ := List.exists_cons_of_ne_nil filled
    rw [List.forall_mem_cons] at kept
    exact ⟨[c], ⟨c, rfl, kept.1⟩, rest, (mem_star_of keep rest).mpr kept.2, rfl⟩

theorem mem_fractions (word : List Char) :
    word ∈ fractions ↔ ∃ digits, digits ≠ [] ∧ (∀ c ∈ digits, isDigit c = true) ∧ pointed digits = word := by
  rw [fractions, Language.mem_mul]
  constructor
  · rintro ⟨_, ⟨point, rfl, here⟩, digits, many, rfl⟩
    obtain ⟨filled, numeric⟩ := (mem_many_of isDigit digits).mp many
    exact ⟨digits, filled, numeric, by rw [pointed_filled digits filled, of_decide_eq_true here]; rfl⟩
  · rintro ⟨digits, filled, numeric, rfl⟩
    exact ⟨['.'], ⟨'.', rfl, by decide⟩, digits, (mem_many_of isDigit digits).mpr ⟨filled, numeric⟩,
      by rw [pointed_filled digits filled]; rfl⟩

theorem mem_exponents (word : List Char) : word ∈ exponents ↔ ∃ exponent : Exponent, exponent.text = word := by
  rw [exponents, Language.mem_mul]
  constructor
  · rintro ⟨_, start, digits, many, rfl⟩
    obtain ⟨_, ⟨mark, rfl, marks⟩, sign, signed, rfl⟩ := Language.mem_mul.mp start
    obtain ⟨filled, numeric⟩ := (mem_many_of isDigit digits).mp many
    rcases (Language.mem_add _ _ _).mp signed with none | ⟨c, rfl, signs⟩
    · obtain rfl := (Language.mem_one sign).mp none
      exact ⟨⟨mark, .none, digits, marks, by simp, filled, numeric⟩, rfl⟩
    · exact ⟨⟨mark, some c, digits, marks, by simpa [isSign] using signs, filled, numeric⟩, rfl⟩
  · rintro ⟨exponent, rfl⟩
    refine ⟨exponent.mark :: exponent.sign.toList, Language.mem_mul.mpr
      ⟨[exponent.mark], ⟨_, rfl, exponent.marks⟩, exponent.sign.toList, ?_, rfl⟩, exponent.digits,
      (mem_many_of isDigit _).mpr ⟨exponent.filled, exponent.numeric⟩, rfl⟩
    rw [Language.mem_add]
    cases sign : exponent.sign with
    | none => exact .inl rfl
    | some c => exact .inr ⟨c, rfl, by simpa [isSign] using exponent.signs c sign⟩

theorem mem_maybe_exponent (word : List Char) :
    word ∈ 1 + exponents ↔ ∃ exponent : Option Exponent, exponent.elim [] Exponent.text = word := by
  rw [Language.mem_add, Language.mem_one, mem_exponents]
  constructor
  · rintro (rfl | ⟨exponent, rfl⟩)
    · exact ⟨none, rfl⟩
    · exact ⟨some exponent, rfl⟩
  · rintro ⟨_ | exponent, rfl⟩
    · exact .inl rfl
    · exact .inr ⟨exponent, rfl⟩

theorem hexadecimal_spelled (parts : Hexadecimal) : Spelled .hex (Parts.hexadecimal parts).text := by
  refine ⟨_, List.mem_cons_self, Language.mem_mul.mpr ⟨['0', parts.mark], ?_, parts.digits,
    (mem_many_of isHexDigit _).mpr ⟨parts.filled, parts.numeric⟩, rfl⟩⟩
  exact Language.mem_mul.mpr ⟨['0'], ⟨'0', rfl, by decide⟩, [parts.mark], ⟨_, rfl, by simpa [isHexMark] using parts.marks⟩, rfl⟩

theorem number_spelled (number : Number) : Spelled (Parts.number number).shape number.text := by
  obtain ⟨wholeDigits, fractionDigits⟩ := List.forall_mem_append.mp number.numeric
  have raised : number.tail ∈ 1 + exponents := (mem_maybe_exponent _).mpr ⟨number.exponent, rfl⟩
  have whole (filled : number.whole ≠ []) : number.whole ∈ manyOf isDigit := (mem_many_of isDigit _).mpr ⟨filled, wholeDigits⟩
  rw [Parts.shape, Number.text, Number.mantissa]
  by_cases fraction : number.fraction = []
  · have filled : number.whole ≠ [] := by simpa [fraction] using number.filled
    rw [fraction, pointed, List.append_nil, Number.tail]
    cases exponent : number.exponent with
    | none =>
        rw [if_pos ⟨fraction, exponent⟩, Option.elim_none, List.append_nil]
        exact ⟨manyOf isDigit, by simp [patterns], whole filled⟩
    | some found =>
        rw [if_neg fun integral => by simp [integral.2] at exponent]
        exact ⟨manyOf isDigit * exponents, by simp [patterns],
          Language.mem_mul.mpr ⟨_, whole filled, _, (mem_exponents _).mpr ⟨found, rfl⟩, rfl⟩⟩
  · have behind : pointed number.fraction ∈ fractions := (mem_fractions _).mpr ⟨_, fraction, fractionDigits, rfl⟩
    rw [if_neg fun integral => fraction integral.1]
    by_cases blank : number.whole = []
    · rw [blank, List.nil_append]
      exact ⟨fractions * (1 + exponents), by simp [patterns], Language.mem_mul.mpr ⟨_, behind, _, raised, rfl⟩⟩
    · exact ⟨manyOf isDigit * fractions * (1 + exponents), by simp [patterns], Language.mem_mul.mpr
        ⟨_, Language.mem_mul.mpr ⟨_, whole blank, _, behind, rfl⟩, _, raised, rfl⟩⟩

theorem spelled_iff (shape : Shape) (word : List Char) :
    Spelled shape word ↔ ∃ parts : Parts, parts.text = word ∧ parts.shape = shape := by
  constructor
  · rintro ⟨pattern, listed, matched⟩
    simp only [patterns, List.mem_cons, Prod.mk.injEq, List.not_mem_nil, or_false] at listed
    rcases listed with ⟨rfl, rfl⟩ | ⟨rfl, rfl⟩ | ⟨rfl, rfl⟩ | ⟨rfl, rfl⟩ | ⟨rfl, rfl⟩
    · obtain ⟨_, start, digits, many, rfl⟩ := Language.mem_mul.mp matched
      obtain ⟨_, ⟨zero, rfl, here⟩, _, ⟨mark, rfl, marks⟩, rfl⟩ := Language.mem_mul.mp start
      obtain ⟨filled, numeric⟩ := (mem_many_of isHexDigit digits).mp many
      obtain rfl := of_decide_eq_true here
      exact ⟨.hexadecimal ⟨mark, digits, by simpa [isHexMark] using marks, filled, numeric⟩, rfl, rfl⟩
    · obtain ⟨_, mantissa, _, raised, rfl⟩ := Language.mem_mul.mp matched
      obtain ⟨whole, many, _, behind, rfl⟩ := Language.mem_mul.mp mantissa
      obtain ⟨-, wholeDigits⟩ := (mem_many_of isDigit whole).mp many
      obtain ⟨fraction, filled, fractionDigits, rfl⟩ := (mem_fractions _).mp behind
      obtain ⟨exponent, rfl⟩ := (mem_maybe_exponent _).mp raised
      exact ⟨.number ⟨whole, fraction, exponent, by simp [filled], List.forall_mem_append.mpr ⟨wholeDigits, fractionDigits⟩⟩,
        rfl, if_neg fun integral => filled integral.1⟩
    · obtain ⟨_, behind, _, raised, rfl⟩ := Language.mem_mul.mp matched
      obtain ⟨fraction, filled, fractionDigits, rfl⟩ := (mem_fractions _).mp behind
      obtain ⟨exponent, rfl⟩ := (mem_maybe_exponent _).mp raised
      exact ⟨.number ⟨[], fraction, exponent, filled, fractionDigits⟩, rfl, if_neg fun integral => filled integral.1⟩
    · obtain ⟨whole, many, _, raised, rfl⟩ := Language.mem_mul.mp matched
      obtain ⟨filled, wholeDigits⟩ := (mem_many_of isDigit whole).mp many
      obtain ⟨exponent, rfl⟩ := (mem_exponents _).mp raised
      exact ⟨.number ⟨whole, [], some exponent, by simpa using filled, by simpa using wholeDigits⟩,
        by simp [Parts.text, Number.text, Number.mantissa, Number.tail, pointed], by simp [Parts.shape, Number.Integral]⟩
    · obtain ⟨filled, wholeDigits⟩ := (mem_many_of isDigit word).mp matched
      exact ⟨.number ⟨word, [], none, by simpa using filled, by simpa using wholeDigits⟩,
        by simp [Parts.text, Number.text, Number.mantissa, Number.tail, pointed], by simp [Parts.shape, Number.Integral]⟩
  · rintro ⟨parts, rfl, rfl⟩
    cases parts with
    | hexadecimal parts => exact hexadecimal_spelled parts
    | number parts => exact number_spelled parts

theorem spelled_shape (shape : Shape) (word : List Char) (spelled : Spelled shape word) : shape = shapeOf word := by
  obtain ⟨parts, rfl, rfl⟩ := (spelled_iff shape word).mp spelled
  exact parts.shape_text

end Formula.Literal
