import Formula.Proofs.Literal.Parts

set_option autoImplicit false

namespace Formula.Literal

namespace Number

variable (number : Number)

theorem mantissa_filled : number.mantissa.length ≠ 0 := by
  intro blank
  rw [mantissa, List.length_append, Nat.add_eq_zero_iff, pointed_blank] at blank
  exact number.filled (by rw [List.eq_nil_of_length_eq_zero blank.1, blank.2, List.nil_append])

theorem text_filled : number.text ≠ [] := by
  rw [text, Ne, List.append_eq_nil_iff]
  exact fun blank => number.mantissa_filled (List.length_eq_zero_iff.mpr blank.1)

theorem integral_iff : number.Integral ↔ (pointed number.fraction).length = 0 ∧ number.tail.length = 0 := by
  rw [Integral, pointed_blank, tail]
  refine and_congr_right fun _ => ?_
  cases number.exponent <;> simp [Exponent.text]

end Number

section

variable (behind : List Char) (stops : ∀ c, behind.head? = some c → isDigit c = false ∧ c ≠ '.')

include stops

theorem stopped_digits : countWhile isDigit behind = 0 := by
  cases behind with
  | nil => rfl
  | cons c more => simp [countWhile, (stops c rfl).1]

theorem pointed_digits (fraction : List Char) : countWhile isDigit (pointed fraction ++ behind) = 0 := by
  cases fraction with
  | nil => exact stopped_digits behind stops
  | cons digit digits => simp [pointed, countWhile, show isDigit '.' = false by decide]

theorem pointed_fraction (fraction : List Char) (numeric : ∀ c ∈ fraction, isDigit c = true) :
    fractionLength (pointed fraction ++ behind) = (pointed fraction).length := by
  by_cases blank : fraction = []
  · rw [blank, pointed, List.nil_append, List.length_nil]
    cases behind with
    | nil => rfl
    | cons c more => rw [fractionLength, if_neg (stops c rfl).2]
  · have digits := count_spelled isDigit fraction behind numeric (stopped_digits behind stops)
    rw [pointed_filled _ blank, List.cons_append, fractionLength, if_pos rfl, digits,
      if_neg (mt List.eq_nil_of_length_eq_zero blank), List.length_cons]

end

section

variable (rest : List Char) (clear : Text.Clear rest)

include clear

namespace Number

variable (number : Number)

theorem tail_plain (c : Char) (first : (number.tail ++ rest).head? = some c) : isDigit c = false ∧ c ≠ '.' := by
  rw [tail] at first
  cases raised : number.exponent with
  | none =>
      rw [raised, Option.elim_none, List.nil_append] at first
      have stops := clear c first
      refine ⟨?_, stops.2⟩
      rw [Bool.eq_false_iff]
      intro digit
      simpa [digit_continues c digit] using stops.1
  | some exponent =>
      rw [raised] at first
      obtain rfl : exponent.mark = c := Option.some.inj first
      exact exponent.mark_letter

theorem tail_exponent : exponentLength (number.tail ++ rest) = number.tail.length := by
  rw [tail]
  cases number.exponent with
  | none => exact clear_exponent rest clear
  | some exponent =>
      have digits := count_spelled isDigit exponent.digits rest exponent.numeric (clear_digits rest clear)
      have filled : exponent.digits.length ≠ 0 := mt List.eq_nil_of_length_eq_zero exponent.filled
      have marks := exponent.marks
      rw [isMark] at marks
      cases sign : exponent.sign with
      | none =>
          obtain ⟨c, more, spelling⟩ := List.exists_cons_of_ne_nil exponent.filled
          have plain := Decimal.digits_plain ['+', '-'] (by decide) exponent.digits exponent.numeric c (by simp [spelling])
          rw [spelling, List.cons_append] at digits
          rw [spelling] at filled
          simp only [Option.elim_some, Exponent.text, sign, Option.toList_none, List.nil_append, spelling, List.cons_append,
            exponentLength, if_pos marks]
          rw [if_neg (by simpa using plain), digits, if_neg filled]
          rfl
      | some mark =>
          have signs : (mark = '+' || mark = '-') = true := by simpa using exponent.signs mark sign
          simp only [Option.elim_some, Exponent.text, sign, Option.toList_some, List.cons_append, List.nil_append,
            exponentLength, if_pos marks, if_pos signs, digits, if_neg filled, List.length_cons]

theorem text_no_hex : hexLength (number.text ++ rest) = 0 := by
  obtain ⟨c, more, spelling⟩ := List.exists_cons_of_ne_nil number.text_filled
  have decimal := number.text_decimal
  rw [spelling, List.forall_mem_cons] at decimal
  rw [spelling, List.cons_append]
  cases behind : more ++ rest with
  | nil => rfl
  | cons mark after =>
      have plain : mark ∉ ['x', 'X'] := by
        cases more with
        | nil =>
            have first : rest.head? = some mark := by rw [← List.nil_append rest, behind, List.head?_cons]
            exact mark_follows rest clear ['x', 'X'] (by decide) [] (by simp) mark first
        | cons d more =>
            obtain ⟨rfl, -⟩ := List.cons.inj behind
            have known := decimal.2 d List.mem_cons_self
            intro hexadecimal
            rcases List.mem_pair.mp hexadecimal with rfl | rfl <;> exact absurd known (by decide)
      rw [hexLength, if_neg (by simpa using fun _ => plain)]

end Number

theorem scan_text (parts : Parts) : scan (parts.text ++ rest) = some (parts.shape, parts.text.length) := by
  cases parts with
  | hexadecimal parts =>
      have digits := count_spelled isHexDigit parts.digits rest parts.numeric (clear_count rest clear isHexDigit hex_continues)
      have filled : parts.digits.length ≠ 0 := mt List.eq_nil_of_length_eq_zero parts.filled
      have marks : ('0' = '0' && (parts.mark = 'x' || parts.mark = 'X')) = true := by simpa using parts.marks
      have hex : hexLength ('0' :: parts.mark :: (parts.digits ++ rest)) = parts.digits.length + 2 := by
        rw [hexLength, if_pos marks, digits, if_neg filled]
      rw [Parts.text, List.cons_append, List.cons_append, scan, hex, if_pos (by omega)]
      rfl
  | number parts =>
      have hex := parts.text_no_hex rest clear
      obtain ⟨wholeDigits, fractionDigits⟩ := List.forall_mem_append.mp parts.numeric
      have stops := parts.tail_plain rest clear
      have whole := count_spelled isDigit parts.whole _ wholeDigits (pointed_digits _ stops parts.fraction)
      have fraction := pointed_fraction _ stops parts.fraction fractionDigits
      have exponent := parts.tail_exponent rest clear
      have behind : (parts.whole ++ (pointed parts.fraction ++ (parts.tail ++ rest))).drop
          (parts.whole ++ pointed parts.fraction).length = parts.tail ++ rest := by
        rw [← List.append_assoc, List.drop_left]
      have filled := parts.mantissa_filled
      rw [Number.mantissa] at filled
      simp only [Parts.text, Parts.shape, Number.text, Number.mantissa, List.append_assoc, parts.integral_iff] at hex ⊢
      rw [List.length_append] at behind filled
      simp only [scan, hex, whole, List.drop_left, fraction, behind, exponent, ne_eq, not_true_eq_false, if_false,
        if_neg filled, List.length_append]
      by_cases integral : (pointed parts.fraction).length = 0 ∧ parts.tail.length = 0
      · rw [if_pos integral, if_pos integral, integral.1, integral.2, Nat.add_zero]
      · rw [if_neg integral, if_neg integral, Nat.add_assoc]

theorem scan_clear (piece : List Char) (shape : Shape) (scanned : scan piece = some (shape, piece.length)) :
    scan (piece ++ rest) = some (shape, piece.length) := by
  obtain ⟨parts, spelling, rfl⟩ := scan_parts piece shape piece.length scanned
  rw [List.take_length] at spelling
  rw [← spelling]
  exact scan_text rest clear parts

end

theorem scan_written (n : Nat) : scan (Nat.toDigits 10 n) = some (.integer, (Nat.toDigits 10 n).length) := by
  have found := scan_text [] Text.clear_nil (.number (.written n))
  rwa [List.append_nil, Parts.written_shape, Parts.text, Number.written_text] at found

theorem Parts.text_solid (parts : Parts) : ∀ c ∈ parts.text, Text.isWhiteSpace c = false := by
  cases parts with
  | hexadecimal parts =>
      have mark : Text.isWhiteSpace parts.mark = false := by
        rcases parts.marks with same | same <;> rw [same] <;> decide
      simp only [Parts.text, List.forall_mem_cons]
      exact ⟨by decide, mark, fun c member => Text.continue_not_white c (hex_continues c (parts.numeric c member))⟩
  | number parts =>
      intro c member
      have decimal := parts.text_decimal c member
      exact Text.ascii_all (P := fun c => isDecimal c = true → Text.isWhiteSpace c = false) (by decide) c
        (decimal_ascii c decimal) decimal

theorem scan_solid (piece : List Char) (shape : Shape) (scanned : scan piece = some (shape, piece.length)) :
    ∀ c ∈ piece, Text.isWhiteSpace c = false := by
  obtain ⟨parts, spelling, -⟩ := scan_parts piece shape piece.length scanned
  rw [List.take_length] at spelling
  exact spelling ▸ parts.text_solid

theorem scan_wide (text : List Char) (shape : Shape) (scanned : scan text = some (shape, Text.width text)) :
    Text.width text = text.length := by
  have within := (scan_takes text shape _ scanned).2
  have ascii := Text.ascii_width _ (scan_ascii text shape _ scanned)
  have sum := Text.width_append (text.take (Text.width text)) (text.drop (Text.width text))
  rw [List.take_append_drop, ascii, List.length_take_of_le within] at sum
  have blank : text.drop (Text.width text) = [] := by
    by_contra filled
    have positive := Text.width_pos _ filled
    omega
  exact Nat.le_antisymm within (List.drop_eq_nil_iff.mp blank)

end Formula.Literal
