import Formula.Proofs.Literal
import Mathlib.Data.List.Basic

set_option autoImplicit false

namespace Formula

namespace Text

-- Neither a name nor a number goes on into this text.
def Clear (text : List Char) : Prop := ∀ c, text.head? = some c → isIdentifierContinue c = false ∧ c ≠ '.'

theorem clear_nil : Clear [] := by simp [Clear]

theorem clear_cons (c : Char) (rest : List Char) (stops : isIdentifierContinue c = false) (point : c ≠ '.') :
    Clear (c :: rest) := by
  rintro d ⟨⟩
  exact ⟨stops, point⟩

theorem clear_ends_word (text : List Char) (clear : Clear text) : endsWord text = true := by
  cases text with
  | nil => rfl
  | cons c rest => simp [endsWord, (clear c rfl).1]

end Text

namespace Literal

theorem digit_continues (c : Char) (digit : isDigit c = true) : Text.isIdentifierContinue c = true :=
  Text.ascii_all (P := fun c => isDigit c = true → Text.isIdentifierContinue c = true) (by decide) c (digit_ascii c digit) digit

theorem digit_not_white (c : Char) (digit : isDigit c = true) : Text.isWhiteSpace c = false :=
  Text.ascii_all (P := fun c => isDigit c = true → Text.isWhiteSpace c = false) (by decide) c (digit_ascii c digit) digit

theorem written_digits (n : Nat) : ∀ c ∈ Nat.toDigits 10 n, isDigit c = true := by
  intro c member
  exact Nat.isDigit_of_mem_toDigits (by decide) (by decide) member

theorem count_spelled (keep : Char → Bool) (digits rest : List Char) (all : ∀ c ∈ digits, keep c = true)
    (stops : countWhile keep rest = 0) : countWhile keep (digits ++ rest) = digits.length := by
  rw [countWhile] at stops
  rw [countWhile, List.takeWhile_append_of_pos all, List.length_append, stops, Nat.add_zero]

section

variable (rest : List Char) (clear : Text.Clear rest)

include clear

theorem clear_count (keep : Char → Bool) (continues : ∀ c, keep c = true → Text.isIdentifierContinue c = true) :
    countWhile keep rest = 0 := by
  cases rest with
  | nil => rfl
  | cons c more =>
      have other : keep c = false := by
        rw [Bool.eq_false_iff]
        intro kept
        simpa [continues c kept] using clear c rfl
      simp [countWhile, other]

theorem clear_digits : countWhile isDigit rest = 0 := clear_count rest clear isDigit digit_continues

theorem clear_fraction : fractionLength rest = 0 := by
  cases rest with
  | nil => rfl
  | cons c more => rw [fractionLength, if_neg (by simpa using (clear c rfl).2)]

theorem mark_follows (marks : List Char) (letters : marks.all (fun c => !isDigit c && Text.isIdentifierContinue c) = true)
    (digits : List Char) (all : ∀ c ∈ digits, isDigit c = true) (c : Char) (follows : (digits ++ rest).head? = some c) :
    c ∉ marks := by
  intro mark
  obtain ⟨other, continues⟩ : isDigit c = false ∧ Text.isIdentifierContinue c = true := by
    simpa using List.all_eq_true.mp letters c mark
  cases digits with
  | nil => simpa [continues] using clear c follows
  | cons d more =>
      obtain rfl := Option.some.inj follows
      simp [all d List.mem_cons_self] at other

theorem clear_exponent : exponentLength rest = 0 := by
  cases rest with
  | nil => rfl
  | cons c more =>
      have plain := mark_follows (c :: more) clear ['e', 'E'] (by decide) [] (by simp) c rfl
      rw [exponentLength.eq_def]
      exact if_neg (by simpa using plain)

end

theorem value_digits (n : Nat) : value 10 (Nat.toDigits 10 n) = n := by
  refine Eq.trans ?_ Nat.ofDigitChars_ten_toDigits
  rw [Nat.ofDigitChars_eq_foldl, value]
  refine List.foldl_ext _ _ _ fun total c member => ?_
  rw [digitValue, if_pos (written_digits n c member), Nat.mul_comm]

end Literal

namespace Integer

variable {s : Signedness} (value : Integer s)

theorem read_digits (positive : 0 ≤ value.value) (text : List Char) (start stop : Nat)
    (found : Literal.at? text start = some ⟨.integer, Nat.toDigits 10 value.value.natAbs, stop⟩) :
    Integer.read s text start = .ok (some (value, stop)) := by
  have same : ((value.value.natAbs : Nat) : Int) = value.value := Int.natAbs_of_nonneg positive
  have fits : ofLiteral? s .integer (Nat.toDigits 10 value.value.natAbs) = some value := by
    rw [ofLiteral?, Literal.value_digits, same, ofInt?, dif_pos ⟨value.low_le, value.le_high⟩]
  simp only [Integer.read, found, fits]

theorem display_text : (Numeric.display value).toList =
    (if value.value < 0 then ['-'] else []) ++ Nat.toDigits 10 value.value.natAbs := by
  change (toString value.value).toList = _
  rw [Int.toString_eq_repr, Int.repr_eq_if]
  by_cases negative : value.value < 0
  · have size : (-value.value).toNat = value.value.natAbs := by omega
    rw [if_neg (by omega), if_pos negative, size, String.toList_append, Nat.toList_repr]
    rfl
  · have size : value.value.toNat = value.value.natAbs := by omega
    rw [if_pos (by omega), if_neg negative, size, Nat.toList_repr, List.nil_append]

end Integer

namespace Decimal

theorem cut_none (isMark : Char → Bool) (text : List Char) (plain : ∀ c ∈ text, ¬ isMark c = true) :
    cut? isMark text = none := by
  induction text with
  | nil => rfl
  | cons c rest ih =>
      rw [cut?, if_neg (plain c List.mem_cons_self), ih fun d member => plain d (List.mem_cons_of_mem _ member)]
      rfl

theorem digits_plain (marks : List Char) (signs : marks.any Literal.isDigit = false) (digits : List Char)
    (all : ∀ c ∈ digits, Literal.isDigit c = true) : ∀ c ∈ digits, c ∉ marks := by
  intro c member mark
  exact List.any_eq_false.mp signs c mark (all c member)

theorem display_text (value : Rat) :
    (display value).toList = (sign value).toList ++ Nat.toDigits 10 value.num.natAbs ++
      if value.den = 1 then [] else "/".toList ++ Nat.toDigits 10 value.den := by
  rw [display]
  split <;> simp [digitText, Digits.write_to_digits, *]

end Decimal

end Formula
