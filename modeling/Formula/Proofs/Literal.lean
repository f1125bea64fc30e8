import Formula.Numeric.Decimal
import Formula.Numeric.Float
import Formula.Numeric.Integer
import Formula.Proofs.Text.Letters

set_option autoImplicit false

namespace Formula

namespace Literal

theorem digit_ascii (c : Char) (digit : isDigit c = true) : Text.isAscii c = true := by
  simp only [isDigit, Bool.and_eq_true, decide_eq_true_eq, Char.le_def, UInt32.le_iff_toNat_le] at digit
  have high : c.toNat ≤ 57 := digit.2
  simp only [Text.isAscii, decide_eq_true_eq]
  omega

theorem digit_not_start (c : Char) (digit : isDigit c = true) : Text.isIdentifierStart c = false :=
  Text.ascii_all (P := fun c => isDigit c = true → Text.isIdentifierStart c = false) (by decide) c (digit_ascii c digit) digit

theorem count_while_head (keep : Char → Bool) (text : List Char) (some : countWhile keep text ≠ 0) :
    ∃ c rest, text = c :: rest ∧ keep c = true := by
  cases text with
  | nil => exact absurd rfl some
  | cons c rest =>
      by_cases kept : keep c = true
      · exact ⟨c, rest, rfl, kept⟩
      · exact absurd (by simp [countWhile, kept]) some

theorem hex_head (text : List Char) (some : hexLength text ≠ 0) : ∃ rest, text = '0' :: rest := by
  unfold hexLength at some
  split at some
  · split at some
    · rename_i marks
      simp only [Bool.and_eq_true, decide_eq_true_eq] at marks
      exact ⟨_, by rw [marks.1]⟩
    · exact absurd rfl some
  · exact absurd rfl some

theorem fraction_head (text : List Char) (some : fractionLength text ≠ 0) :
    ∃ d rest, text = '.' :: d :: rest ∧ isDigit d = true := by
  cases text with
  | nil => exact absurd rfl some
  | cons point rest =>
      rw [fractionLength] at some
      by_cases here : point = '.'
      · by_cases digits : countWhile isDigit rest = 0
        · simp [here, digits] at some
        · obtain ⟨d, more, rfl, digit⟩ := count_while_head isDigit rest digits
          exact ⟨d, more, by rw [here], digit⟩
      · simp [here] at some

theorem scan_head (text : List Char) (found : Shape × Nat) (scanned : scan text = some found) :
    (∃ c rest, text = c :: rest ∧ isDigit c = true) ∨ ∃ d rest, text = '.' :: d :: rest ∧ isDigit d = true := by
  by_cases hex : hexLength text = 0
  · by_cases whole : countWhile isDigit text = 0
    · by_cases fraction : fractionLength text = 0
      · simp [scan, hex, whole, fraction] at scanned
      · exact .inr (fraction_head text fraction)
    · exact .inl (count_while_head isDigit text whole)
  · obtain ⟨rest, rfl⟩ := hex_head text hex
    exact .inl ⟨'0', rest, rfl, by decide⟩

theorem scan_first (text : List Char) (found : Shape × Nat) (scanned : scan text = some found) :
    ∃ c rest, text = c :: rest ∧ Text.isAscii c = true ∧ Text.isIdentifierStart c = false ∧ (isDigit c = true ∨ c = '.') := by
  rcases scan_head text found scanned with ⟨c, rest, rfl, digit⟩ | ⟨d, rest, rfl, -⟩
  · exact ⟨c, rest, rfl, digit_ascii c digit, digit_not_start c digit, .inl digit⟩
  · exact ⟨'.', d :: rest, rfl, by decide, by decide, .inr rfl⟩

theorem scan_name (c : Char) (rest : List Char) (start : Text.isIdentifierStart c = true) : scan (c :: rest) = none := by
  cases scanned : scan (c :: rest) with
  | none => rfl
  | some found =>
      obtain ⟨d, more, same, -, other, -⟩ := scan_first _ found scanned
      obtain ⟨rfl, -⟩ := List.cons.inj same
      simp [other] at start

theorem scan_point (d : Char) (rest : List Char) (start : Text.isIdentifierStart d = true) :
    scan ('.' :: d :: rest) = none := by
  cases scanned : scan ('.' :: d :: rest) with
  | none => rfl
  | some found =>
      rcases scan_head _ found scanned with ⟨c, more, same, digit⟩ | ⟨e, more, same, digit⟩
      · obtain ⟨rfl, -⟩ := List.cons.inj same
        exact absurd digit (by decide)
      · obtain ⟨rfl, -⟩ := List.cons.inj (List.cons.inj same).2
        simp [digit_not_start d digit] at start

end Literal

-- Without a reader of its own a type reads literals and nothing else.
class Literate (T : Type) [Numeric T] : Prop where
  read : ∀ (text : List Char) (start : Nat) (flags : Flags), Literal.at? text start = none →
    (Numeric.read text start flags : Except String (Option (T × Nat))) = .ok none

instance (s : Signedness) : Literate (Integer s) where
  read text start flags nothing := by
    change Integer.read s text start = .ok none
    rw [Integer.read, nothing]

instance : Literate Rat where
  read text start flags nothing := by
    change Decimal.read text start = .ok none
    rw [Decimal.read, nothing]

instance : Literate Float where
  read text start flags nothing := by
    change Binary64.read text start = .ok none
    rw [Binary64.read, nothing]

-- And of a literal it reads the characters, wherever they stand.
class Textual (T : Type) [Numeric T] : Prop extends Literate T where
  anywhere : ∀ (flags : Flags) (text other : List Char) (start place : Nat) (shape : Literal.Shape) (digits : List Char)
    (stop last : Nat), Literal.at? text start = some ⟨shape, digits, stop⟩ →
    Literal.at? other place = some ⟨shape, digits, last⟩ →
      ∃ outcome : Except String T, Numeric.read text start flags = outcome.map (fun value => some (value, stop)) ∧
        Numeric.read other place flags = outcome.map fun value => some (value, last)

instance (s : Signedness) : Textual (Integer s) where
  anywhere flags text other start place shape digits stop last here there := by
    change ∃ outcome, Integer.read s text start = _ ∧ Integer.read s other place = _
    rw [Integer.read, Integer.read, here, there]
    cases worth : Integer.ofLiteral? s shape digits with
    | some value => exact ⟨.ok value, by simp only [worth]; rfl, by simp only [worth]; rfl⟩
    | none =>
        cases shape with
        | real => exact ⟨.error _, by simp only [worth]; rfl, by simp only [worth]; rfl⟩
        | hex | integer => exact ⟨.error _, by simp only [worth]; rfl, by simp only [worth]; rfl⟩

instance : Textual Rat where
  anywhere flags text other start place shape digits stop last here there := by
    change ∃ outcome, Decimal.read text start = _ ∧ Decimal.read other place = _
    rw [Decimal.read, Decimal.read, here, there]
    cases shape with
    | hex => exact ⟨.ok _, rfl, rfl⟩
    | integer | real =>
        cases parsed : Decimal.parse? digits with
        | some value => exact ⟨.ok value, by simp only [parsed]; rfl, by simp only [parsed]; rfl⟩
        | none => exact ⟨.error _, by simp only [parsed]; rfl, by simp only [parsed]; rfl⟩

instance : Textual Float where
  anywhere flags text other start place shape digits stop last here there := by
    change ∃ outcome, Binary64.read text start = _ ∧ Binary64.read other place = _
    rw [Binary64.read, Binary64.read, here, there]
    cases shape with
    | integer | real => exact ⟨.ok _, rfl, rfl⟩
    | hex =>
        by_cases fits : Literal.value 16 (digits.drop 2) < Nat.pow 2 64
        · exact ⟨.ok _, by simp only [if_pos fits]; rfl, by simp only [if_pos fits]; rfl⟩
        · exact ⟨.error _, by simp only [if_neg fits]; rfl, by simp only [if_neg fits]; rfl⟩

end Formula
