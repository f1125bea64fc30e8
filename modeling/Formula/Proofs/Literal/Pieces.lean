import Formula.Proofs.Literal.Twins
import Formula.Proofs.Text.Pieces

set_option autoImplicit false

namespace Formula

namespace Literal

theorem hex_ascii (c : Char) (hex : isHexDigit c = true) : Text.isAscii c = true := by
  have below (last : Char) (ascii : last.toNat < 128) (bound : c ≤ last) : Text.isAscii c = true := by
    have small : c.toNat ≤ last.toNat := bound
    simp only [Text.isAscii, decide_eq_true_eq]
    omega
  simp only [isHexDigit, isDigit, Bool.or_eq_true, Bool.and_eq_true, decide_eq_true_eq] at hex
  rcases hex with (digit | small) | large
  · exact below '9' (by decide) digit.2
  · exact below 'f' (by decide) small.2
  · exact below 'F' (by decide) large.2

theorem hex_continues (c : Char) (hex : isHexDigit c = true) : Text.isIdentifierContinue c = true :=
  Text.ascii_all (P := fun c => isHexDigit c = true → Text.isIdentifierContinue c = true) (by decide) c (hex_ascii c hex) hex

theorem decimal_ascii (c : Char) (decimal : isDecimal c = true) : Text.isAscii c = true := by
  simp only [isDecimal, isMark, Bool.or_eq_true, decide_eq_true_eq] at decimal
  rcases decimal with (((digit | rfl) | rfl) | rfl) | rfl | rfl
  · exact digit_ascii c digit
  all_goals decide

theorem scan_ascii (text : List Char) (shape : Shape) (length : Nat) (scanned : scan text = some (shape, length)) :
    ∀ c ∈ text.take length, Text.isAscii c = true := by
  rcases scan_spelled text shape length scanned with ⟨-, rfl, -⟩ | ⟨-, decimal⟩
  · fun_cases hexLength text with
    | case2 zero mark rest marks digits filled =>
        obtain ⟨rfl, small | large⟩ : zero = '0' ∧ (mark = 'x' ∨ mark = 'X') := by simpa using marks
        · subst small
          simp only [List.take_succ_cons, List.forall_mem_cons]
          exact ⟨by decide, by decide, fun c member => hex_ascii c (count_while_kept isHexDigit rest c member)⟩
        · subst large
          simp only [List.take_succ_cons, List.forall_mem_cons]
          exact ⟨by decide, by decide, fun c member => hex_ascii c (count_while_kept isHexDigit rest c member)⟩
    | _ => simp
  · exact fun c member => decimal_ascii c (decimal c member)

variable (piece rest : List Char)

theorem count_fits (keep : Char → Bool) (within : countWhile keep (piece ++ rest) ≤ piece.length) :
    countWhile keep piece = countWhile keep (piece ++ rest) :=
  congrArg List.length (Text.take_while_fits keep piece rest within)

theorem part_fits (digits extra size : Nat) (within : (if digits = 0 then 0 else digits + extra) ≤ size + extra) :
    digits ≤ size := by
  by_cases blank : digits = 0
  · omega
  · rw [if_neg blank] at within
    omega

theorem part_within (digits extra size : Nat) (fits : digits ≤ size) :
    (if digits = 0 then 0 else digits + extra) ≤ size + extra := by
  split <;> omega

theorem fraction_fits (within : fractionLength (piece ++ rest) ≤ piece.length) :
    fractionLength piece = fractionLength (piece ++ rest) := by
  cases piece with
  | nil => exact (Nat.le_zero.mp within).symm
  | cons point more =>
      rw [List.cons_append, fractionLength] at within
      rw [List.cons_append, fractionLength, fractionLength]
      by_cases here : point = '.'
      · rw [if_pos here] at within
        have fits := part_fits _ 1 more.length within
        simp only [if_pos here, count_fits more rest isDigit fits]
      · rw [if_neg here, if_neg here]

-- A mark, and a mark with a sign, are not yet an exponent.
theorem exponent_short (text : List Char) : exponentLength text = 0 ∨ 2 ≤ exponentLength text := by
  fun_cases exponentLength text with
  | case4 mark here sign more isSign digits filled => exact .inr (by omega)
  | case5 mark here sign more plain digits blank => exact .inl (by simp [show countWhile isDigit (sign :: more) = 0 from blank])
  | case6 mark here sign more plain digits filled =>
      have positive : countWhile isDigit (sign :: more) ≠ 0 := filled
      exact .inr (by rw [if_neg positive]; omega)
  | _ => exact .inl (by simp)

theorem exponent_fits (within : exponentLength (piece ++ rest) ≤ piece.length) :
    exponentLength piece = exponentLength (piece ++ rest) := by
  rcases piece with _ | ⟨mark, _ | ⟨sign, more⟩⟩
  · exact (Nat.le_zero.mp within).symm
  · have none : exponentLength [mark] = 0 := by simp [exponentLength]
    rw [none]
    rcases exponent_short ([mark] ++ rest) with short | long
    · exact short.symm
    · exact absurd within (by simp only [List.length_singleton]; omega)
  · simp only [List.cons_append, exponentLength, List.length_cons] at within ⊢
    by_cases marked : (mark = 'e' || mark = 'E') = true
    · simp only [if_pos marked] at within ⊢
      by_cases signed : (sign = '+' || sign = '-') = true
      · simp only [if_pos signed] at within ⊢
        have fits := part_fits _ 2 more.length within
        rw [count_fits more rest isDigit fits]
      · simp only [if_neg signed] at within ⊢
        have fits := part_fits _ 1 (sign :: more).length within
        rw [← List.cons_append] at fits ⊢
        rw [count_fits (sign :: more) rest isDigit fits]
    · simp only [if_neg marked]

theorem hex_short (text : List Char) : hexLength text = 0 ∨ 3 ≤ hexLength text := by
  fun_cases hexLength text with
  | case2 zero mark rest marks digits filled => exact .inr (by omega)
  | _ => exact .inl (by simp)

theorem hex_fits (within : hexLength (piece ++ rest) ≤ piece.length) : hexLength piece = hexLength (piece ++ rest) := by
  rcases piece with _ | ⟨zero, _ | ⟨mark, more⟩⟩
  · exact (Nat.le_zero.mp within).symm
  · rcases hex_short ([zero] ++ rest) with short | long
    · exact short.symm
    · exact absurd within (by simp only [List.length_singleton]; omega)
  · simp only [List.cons_append, hexLength, List.length_cons] at within ⊢
    by_cases marks : (zero = '0' && (mark = 'x' || mark = 'X')) = true
    · simp only [if_pos marks] at within ⊢
      have fits := part_fits _ 2 more.length within
      rw [count_fits more rest isHexDigit fits]
    · simp only [if_neg marks]

def mantissaLength (text : List Char) : Nat :=
  countWhile isDigit text + fractionLength (text.drop (countWhile isDigit text))

theorem scan_fits (hex : hexLength (piece ++ rest) ≤ piece.length)
    (mantissa : hexLength (piece ++ rest) = 0 → mantissaLength (piece ++ rest) ≤ piece.length)
    (exponent : hexLength (piece ++ rest) = 0 → mantissaLength (piece ++ rest) ≠ 0 →
      mantissaLength (piece ++ rest) + exponentLength ((piece ++ rest).drop (mantissaLength (piece ++ rest))) ≤
        piece.length) :
    scan piece = scan (piece ++ rest) := by
  have hexes := hex_fits piece rest hex
  by_cases hexadecimal : hexLength (piece ++ rest) = 0
  · have fits := mantissa hexadecimal
    rw [mantissaLength] at fits
    have digits := count_fits piece rest isDigit (by omega)
    have behind : (piece ++ rest).drop (countWhile isDigit (piece ++ rest)) =
        piece.drop (countWhile isDigit (piece ++ rest)) ++ rest := List.drop_append_of_le_length (by omega)
    have fraction := fraction_fits (piece.drop (countWhile isDigit (piece ++ rest))) rest (by
      rw [← behind, List.length_drop]
      omega)
    rw [← behind] at fraction
    by_cases blank : mantissaLength (piece ++ rest) = 0
    · rw [mantissaLength] at blank
      simp only [scan, hexes, digits, fraction, blank, if_true]
    · have last := exponent hexadecimal blank
      have after : (piece ++ rest).drop (mantissaLength (piece ++ rest)) =
          piece.drop (mantissaLength (piece ++ rest)) ++ rest := List.drop_append_of_le_length (mantissa hexadecimal)
      have raised := exponent_fits (piece.drop (mantissaLength (piece ++ rest))) rest (by
        rw [← after, List.length_drop]
        omega)
      rw [← after, mantissaLength] at raised
      simp only [scan, hexes, digits, fraction, raised]
  · simp only [scan, hexes, ne_eq, hexadecimal, not_false_eq_true, if_true]

theorem scan_length (text : List Char) (hexadecimal : hexLength text = 0) (filled : mantissaLength text ≠ 0) :
    ∃ shape, scan text = some (shape, mantissaLength text + exponentLength (text.drop (mantissaLength text))) := by
  rw [scan, if_neg (by simpa using hexadecimal)]
  by_cases plain : fractionLength (text.drop (countWhile isDigit text)) = 0 ∧
      exponentLength (text.drop (mantissaLength text)) = 0
  · refine ⟨.integer, ?_⟩
    rw [plain.2, Nat.add_zero]
    simp only [mantissaLength] at filled plain ⊢
    rw [if_neg filled, if_pos plain, plain.1, Nat.add_zero]
  · refine ⟨.real, ?_⟩
    simp only [mantissaLength] at filled plain ⊢
    rw [if_neg filled, if_neg plain]

theorem scan_whole (shape : Shape) (scanned : scan (piece ++ rest) = some (shape, piece.length)) :
    scan piece = some (shape, piece.length) := by
  rw [← scanned]
  by_cases hexadecimal : hexLength (piece ++ rest) = 0
  · by_cases blank : mantissaLength (piece ++ rest) = 0
    · apply scan_fits <;> omega
    · obtain ⟨found, same⟩ := scan_length (piece ++ rest) hexadecimal blank
      obtain ⟨-, length⟩ := Prod.mk.inj (Option.some.inj (same.symm.trans scanned))
      apply scan_fits <;> omega
  · have same : scan (piece ++ rest) = some (.hex, hexLength (piece ++ rest)) := by
      rw [scan, if_pos hexadecimal]
    obtain ⟨-, length⟩ := Prod.mk.inj (Option.some.inj (same.symm.trans scanned))
    apply scan_fits <;> omega

section

variable (ended : Text.Ended rest)

include ended

theorem count_ended (keep : Char → Bool) (solid : ∀ c, keep c = true → Text.isWhiteSpace c = false) :
    countWhile keep (piece ++ rest) ≤ piece.length :=
  Text.take_while_ended keep piece rest solid ended

theorem digits_ended : countWhile isDigit (piece ++ rest) ≤ piece.length :=
  count_ended piece rest ended isDigit digit_not_white

theorem fraction_ended : fractionLength (piece ++ rest) ≤ piece.length := by
  cases piece with
  | nil => exact Nat.le_of_eq (clear_fraction rest (Text.ended_clear rest ended))
  | cons point more =>
      rw [List.cons_append, fractionLength, List.length_cons]
      by_cases here : point = '.'
      · rw [if_pos here]
        exact part_within _ 1 more.length (digits_ended more rest ended)
      · rw [if_neg here]
        exact Nat.zero_le _

theorem exponent_ended : exponentLength (piece ++ rest) ≤ piece.length := by
  have clear := Text.ended_clear rest ended
  rcases piece with _ | ⟨mark, _ | ⟨sign, more⟩⟩
  · exact Nat.le_of_eq (clear_exponent rest clear)
  · -- White space is neither a sign nor a digit.
    cases rest with
    | nil => simp [exponentLength]
    | cons c after =>
        have none := clear_digits (c :: after) clear
        have plain : ¬ (c = '+' || c = '-') = true := by
          intro signed
          have white := ended c rfl
          rcases Bool.or_eq_true_iff.mp signed with plus | minus
          · rw [of_decide_eq_true plus] at white
            exact absurd white (by decide)
          · rw [of_decide_eq_true minus] at white
            exact absurd white (by decide)
        simp only [List.singleton_append, exponentLength, if_neg plain, none, if_true, ite_self]
        exact Nat.zero_le _
  · simp only [List.cons_append, exponentLength, List.length_cons]
    by_cases marked : (mark = 'e' || mark = 'E') = true
    · rw [if_pos marked]
      by_cases signed : (sign = '+' || sign = '-') = true
      · rw [if_pos signed]
        exact part_within _ 2 more.length (digits_ended more rest ended)
      · rw [if_neg signed]
        exact part_within _ 1 (more.length + 1) (digits_ended (sign :: more) rest ended)
    · rw [if_neg marked]
      exact Nat.zero_le _

theorem hex_ended : hexLength (piece ++ rest) ≤ piece.length := by
  rcases piece with _ | ⟨zero, _ | ⟨mark, more⟩⟩
  · by_cases blank : hexLength rest = 0
    · exact Nat.le_of_eq blank
    · obtain ⟨more, rfl⟩ := hex_head rest blank
      exact absurd (ended '0' rfl) (by decide)
  · cases rest with
    | nil => exact Nat.zero_le _
    | cons c after =>
        have plain : ¬ (zero = '0' && (c = 'x' || c = 'X')) = true := by
          intro marks
          have white := ended c rfl
          rcases Bool.or_eq_true_iff.mp (Bool.and_eq_true_iff.mp marks).2 with small | large
          · rw [of_decide_eq_true small] at white
            exact absurd white (by decide)
          · rw [of_decide_eq_true large] at white
            exact absurd white (by decide)
        rw [List.singleton_append, hexLength, if_neg plain]
        exact Nat.zero_le _
  · rw [List.cons_append, List.cons_append, hexLength]
    by_cases marks : (zero = '0' && (mark = 'x' || mark = 'X')) = true
    · have solid (c : Char) (hex : isHexDigit c = true) : Text.isWhiteSpace c = false :=
        Text.continue_not_white c (hex_continues c hex)
      rw [if_pos marks]
      exact part_within _ 2 more.length (count_ended more rest ended isHexDigit solid)
    · rw [if_neg marks]
      exact Nat.zero_le _

theorem mantissa_ended : mantissaLength (piece ++ rest) ≤ piece.length := by
  have digits := digits_ended piece rest ended
  have fraction := fraction_ended (piece.drop (countWhile isDigit (piece ++ rest))) rest ended
  rw [← List.drop_append_of_le_length digits, List.length_drop] at fraction
  rw [mantissaLength]
  omega

theorem number_ended : mantissaLength (piece ++ rest) +
    exponentLength ((piece ++ rest).drop (mantissaLength (piece ++ rest))) ≤ piece.length := by
  have mantissa := mantissa_ended piece rest ended
  have exponent := exponent_ended (piece.drop (mantissaLength (piece ++ rest))) rest ended
  rw [← List.drop_append_of_le_length mantissa, List.length_drop] at exponent
  omega

theorem scan_ended : scan (piece ++ rest) = scan piece :=
  (scan_fits piece rest (hex_ended piece rest ended) (fun _ => mantissa_ended piece rest ended)
    (fun _ _ => number_ended piece rest ended)).symm

end

theorem scan_takes (text : List Char) (shape : Shape) (length : Nat) (scanned : scan text = some (shape, length)) :
    0 < length ∧ length ≤ text.length := by
  have hex := hex_ended text [] Text.ended_nil
  have number := number_ended text [] Text.ended_nil
  rw [List.append_nil] at hex number
  by_cases hexadecimal : hexLength text = 0
  · by_cases blank : mantissaLength text = 0
    · rw [scan, if_neg (by simpa using hexadecimal)] at scanned
      rw [mantissaLength] at blank
      simp [blank] at scanned
    · obtain ⟨found, same⟩ := scan_length text hexadecimal blank
      obtain ⟨-, rfl⟩ := Prod.mk.inj (Option.some.inj (same.symm.trans scanned))
      omega
  · rw [scan, if_pos hexadecimal] at scanned
    obtain ⟨-, rfl⟩ := Prod.mk.inj (Option.some.inj scanned)
    exact ⟨Nat.pos_of_ne_zero hexadecimal, hex⟩

end Literal

end Formula
