import Formula.Proofs.Literal.Reading

set_option autoImplicit false

namespace Formula.Decimal

open Literal

-- The notation: digits with a fraction or without one, or a fraction alone, with an exponent or without one, and at
-- most one sign before them.
def Regular (text : List Char) : Prop :=
  ∃ (sign : Option Char) (number : Number), (∀ c ∈ sign, c = '+' ∨ c = '-') ∧ text = sign.toList ++ number.text

-- No bars, and no point without a digit right behind it.
def Strict (text : List Char) : Prop :=
  '_' ∉ text ∧ ∀ before after, text = before ++ '.' :: after → ∃ c ∈ after.head?, isDigit c = true

section Regular

variable (sign : Option Char) (signs : ∀ c ∈ sign, c = '+' ∨ c = '-') (number : Number)

theorem tail_unpointed : '.' ∉ number.tail := by
  rw [Number.tail]
  cases number.exponent with
  | none => simp
  | some exponent =>
      rw [Option.elim_some, Exponent.text, List.mem_cons, List.mem_append, not_or, not_or]
      refine ⟨exponent.mark_letter.2.symm, fun sign => ?_, fun digit => ?_⟩
      · exact absurd (exponent.signs '.' (by simpa using sign)) (by decide)
      · exact absurd (exponent.numeric '.' digit) (by decide)

include signs

theorem whole_unpointed : '.' ∉ sign.toList ++ number.whole := by
  rw [List.mem_append, not_or]
  refine ⟨fun member => ?_, fun digit => ?_⟩
  · exact absurd (signs '.' (by simpa using member)) (by decide)
  · exact absurd (number.numeric '.' (List.mem_append_left _ digit)) (by decide)

theorem number_strict : Strict (sign.toList ++ number.text) := by
  constructor
  · rw [List.mem_append, not_or]
    refine ⟨fun member => ?_, fun member => ?_⟩
    · exact absurd (signs '_' (by simpa using member)) (by decide)
    · exact absurd (number.text_decimal '_' member) (by decide)
  · intro before after spelling
    have whole := whole_unpointed sign signs number
    have tail := tail_unpointed number
    have numeric := (List.forall_mem_append.mp number.numeric).2
    rw [Number.text, Number.mantissa] at spelling
    cases fraction : number.fraction with
    | nil =>
        have point : '.' ∈ before ++ '.' :: after := List.mem_append_right _ List.mem_cons_self
        rw [← spelling, fraction, pointed, List.append_nil, ← List.append_assoc, List.mem_append] at point
        exact absurd point (not_or.mpr ⟨whole, tail⟩)
    | cons digit digits =>
        rw [fraction] at numeric
        have behind : '.' ∉ digit :: digits ++ number.tail := by
          rw [List.mem_append, not_or]
          exact ⟨fun member => absurd (numeric '.' member) (by decide), tail⟩
        have placed : (sign.toList ++ number.whole) ++ '.' :: (digit :: digits ++ number.tail) = before ++ '.' :: after := by
          simp only [← spelling, fraction, pointed, List.append_assoc, List.cons_append]
        obtain ⟨-, -, rfl⟩ := (List.append_cons_inj_of_notMem whole behind).mp placed
        exact ⟨digit, rfl, numeric digit List.mem_cons_self⟩

end Regular

theorem regular_strict (text : List Char) (regular : Regular text) : Strict text := by
  obtain ⟨sign, number, signs, rfl⟩ := regular
  exact number_strict sign signs number

namespace Writing

variable (writing : Writing)

theorem joined_text (c : Char) (member : c ∈ writing.whole ++ writing.fraction.getD []) : c ∈ writing.text := by
  rw [text, mantissa, List.mem_append, List.mem_append]
  refine .inl ((List.mem_append.mp member).imp_right fun behind => ?_)
  cases here : writing.fraction with
  | none => simp [here] at behind
  | some fraction => exact List.mem_cons_of_mem _ (by simpa [here] using behind)

theorem digits_numeric (unbarred : '_' ∉ writing.text) : ∀ c ∈ writing.digits, isDigit c = true := by
  intro c member
  refine (writing.grouped.numeric c member).resolve_right fun bar => unbarred (writing.joined_text '_' ?_)
  rw [writing.joined, ← bar]
  exact List.mem_append_right _ member

theorem point_behind (fraction : List Char) (here : writing.fraction = some fraction)
    (pointed : ∃ c ∈ fraction.head?, isDigit c = true) :
    ∃ whole, writing.whole = writing.sign.toList ++ whole ∧ writing.digits = whole ++ fraction := by
  have joined := writing.joined
  rw [here, Option.getD_some] at joined
  rcases List.append_eq_append_iff.mp joined with ⟨front, sign, digits⟩ | found
  · cases front with
    | nil => exact ⟨[], by rw [sign, List.append_nil, List.append_nil], by rw [digits]; rfl⟩
    | cons mark front =>
        obtain ⟨c, first, digit⟩ := pointed
        obtain rfl : mark = c := by simpa [digits] using first
        have signs := writing.signs mark (by simp [← Option.mem_toList, sign])
        rcases signs with rfl | rfl <;> exact absurd digit (by decide)
  · exact found

theorem tail_first (c : Char) (first : writing.tail.head? = some c) : isDigit c = false := by
  rw [tail] at first
  cases raised : writing.exponent with
  | none => simp [raised] at first
  | some exponent =>
      obtain rfl : exponent.mark = c := by simpa [raised, Exponent.text] using first
      exact exponent.mark_letter.1

theorem strict_regular (strict : Strict writing.text) : Regular writing.text := by
  have numeric := writing.digits_numeric strict.1
  obtain ⟨first, rest, starts, -⟩ := grouped_cons writing.digits writing.grouped
  have filled : writing.digits ≠ [] := by simp [starts]
  cases here : writing.fraction with
  | none =>
      have joined := writing.joined
      rw [here, Option.getD_none, List.append_nil] at joined
      refine ⟨writing.sign, ⟨writing.digits, [], writing.exponent, by simpa using filled, by simpa using numeric⟩,
        writing.signs, ?_⟩
      simp [text, mantissa, tail, here, joined, Number.text, Number.mantissa, Number.tail, pointed]
  | some fraction =>
      have spelling : writing.text = writing.whole ++ '.' :: (fraction ++ writing.tail) := by simp [text, mantissa, here]
      obtain ⟨c, head, digit⟩ := strict.2 _ _ spelling
      have some_digit : fraction ≠ [] := by
        rintro rfl
        exact absurd digit (by simp [writing.tail_first c head])
      have behind : ∃ c ∈ fraction.head?, isDigit c = true := by
        rw [List.head?_append_of_ne_nil _ some_digit] at head
        exact ⟨c, head, digit⟩
      obtain ⟨whole, placed, digits⟩ := writing.point_behind fraction here behind
      rw [digits] at filled numeric
      refine ⟨writing.sign, ⟨whole, fraction, writing.exponent, filled, numeric⟩, writing.signs, ?_⟩
      simp [spelling, placed, tail, Number.text, Number.mantissa, Number.tail, pointed_filled _ some_digit]

end Writing

-- What is read is a text in its parts, with what they stand for; numbers in the notation are read unless their exponent
-- is out of bounds; and among the texts that are read, those in the notation are the strict ones.
theorem decimals_accepted (text : List Char) :
    (∀ value, parse? text = some value ↔
      ∃ writing : Writing, writing.text = text ∧ (writing.Bounded ∨ writing.Wraps) ∧ writing.worth = value) ∧
    (∀ (sign : Option Char) (number : Number), (∀ c ∈ sign, c = '+' ∨ c = '-') → text = sign.toList ++ number.text →
      parse? text = if number.Bounded ∨ number.Wraps
        then some (if sign = some '-' then -number.worth else number.worth) else none) ∧
    (∀ value, parse? text = some value → (Regular text ↔ Strict text)) := by
  refine ⟨parse_iff text, ?_, ?_⟩
  · rintro sign number signs rfl
    exact parse_signed number sign signs
  · intro value parsed
    obtain ⟨writing, rfl⟩ := parse_found text value parsed
    exact ⟨regular_strict _, writing.strict_regular⟩

-- A sign, a fraction and an exponent.
def fifteenHundred : Number :=
  ⟨['1'], ['5'], some ⟨'E', some '+', ['3'], rfl, fun _ member => .inl (Option.some.inj member).symm, List.cons_ne_nil _ _,
    List.all_eq_true.mp rfl⟩, List.cons_ne_nil _ _, List.all_eq_true.mp rfl⟩

theorem fifteen_hundred_accepted : parse? "-1.5E+3".toList = some (-1500) ∧ Strict "-1.5E+3".toList := by
  obtain ⟨-, inside, strict⟩ := decimals_accepted "-1.5E+3".toList
  have signs : ∀ c ∈ some '-', c = '+' ∨ c = '-' := by simp
  have worth : -fifteenHundred.worth = -1500 := by
    have whole : magnitude 10 fifteenHundred.whole = 1 := by decide
    have fraction : magnitude 10 fifteenHundred.fraction = 5 := by decide
    have power : fifteenHundred.power = 3 := by decide
    rw [Number.worth, whole, fraction, power]
    norm_num [fifteenHundred]
  have read := inside (some '-') fifteenHundred signs rfl
  rw [if_pos (by decide), if_pos rfl, worth] at read
  exact ⟨read, (strict _ read).mp ⟨some '-', fifteenHundred, signs, rfl⟩⟩

-- A bar among the digits, a point at the end, and a sign behind the point, which is counted as a place of the fraction.
theorem loose_accepted :
    (parse? "1_000".toList = some 1000 ∧ ¬ Regular "1_000".toList) ∧
    (parse? "5.".toList = some 5 ∧ ¬ Regular "5.".toList) ∧
    (parse? ".-5".toList = some (-1 / 20) ∧ ¬ Regular ".-5".toList) := by
  refine ⟨⟨by decide +kernel, ?_⟩, ⟨by decide +kernel, ?_⟩, by decide +kernel, ?_⟩ <;> intro regular
  · exact (regular_strict _ regular).1 (by decide)
  · exact absurd ((regular_strict _ regular).2 ['5'] [] rfl) (by simp)
  · exact absurd ((regular_strict _ regular).2 [] ['-', '5'] rfl) (by simp [show isDigit '-' = false by decide])

end Formula.Decimal
