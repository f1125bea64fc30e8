import Formula.Proofs.Literal.Pattern
import Formula.Proofs.Literal.Spelling

set_option autoImplicit false

namespace Formula.Literal

theorem spelled_filled (shape : Shape) (word : List Char) (spelled : Spelled shape word) : word ≠ [] := by
  obtain ⟨parts, rfl, -⟩ := (spelled_iff shape word).mp spelled
  cases parts with
  | hexadecimal parts => exact List.cons_ne_nil _ _
  | number parts => exact parts.text_filled

section

variable (rest : List Char)

theorem count_reaches (keep : Char → Bool) (kept : List Char) (all : ∀ c ∈ kept, keep c = true) :
    kept.length ≤ countWhile keep (kept ++ rest) := by
  rw [countWhile, List.takeWhile_append_of_pos all, List.length_append]
  exact Nat.le_add_right _ _

theorem part_reaches (digits count extra : Nat) (filled : digits ≠ 0) (reaches : digits ≤ count) :
    digits + extra ≤ if count = 0 then 0 else count + extra := by
  rw [if_neg (by omega)]
  omega

theorem hex_reaches (parts : Hexadecimal) :
    (Parts.hexadecimal parts).text.length ≤ hexLength ((Parts.hexadecimal parts).text ++ rest) := by
  have marks : ('0' = '0' && (parts.mark = 'x' || parts.mark = 'X')) = true := by simpa using parts.marks
  rw [Parts.text, List.cons_append, List.cons_append, hexLength, if_pos marks]
  exact part_reaches _ _ 2 (mt List.eq_nil_of_length_eq_zero parts.filled)
    (count_reaches rest isHexDigit parts.digits parts.numeric)

theorem fraction_reaches (digits : List Char) (numeric : ∀ c ∈ digits, isDigit c = true) :
    (pointed digits).length ≤ fractionLength (pointed digits ++ rest) := by
  by_cases blank : digits = []
  · simp [blank, pointed]
  · rw [pointed_filled digits blank, List.cons_append, fractionLength, if_pos rfl]
    exact part_reaches _ _ 1 (mt List.eq_nil_of_length_eq_zero blank) (count_reaches rest isDigit digits numeric)

theorem exponent_reaches (exponent : Exponent) : exponent.text.length ≤ exponentLength (exponent.text ++ rest) := by
  have filled : exponent.digits.length ≠ 0 := mt List.eq_nil_of_length_eq_zero exponent.filled
  have digits := count_reaches rest isDigit exponent.digits exponent.numeric
  have marks := exponent.marks
  rw [isMark] at marks
  cases sign : exponent.sign with
  | none =>
      obtain ⟨c, more, spelling⟩ := List.exists_cons_of_ne_nil exponent.filled
      have plain := Decimal.digits_plain ['+', '-'] (by decide) exponent.digits exponent.numeric c (by simp [spelling])
      rw [spelling] at filled digits
      simp only [Exponent.text, sign, Option.toList_none, List.nil_append, spelling, List.cons_append, exponentLength,
        if_pos marks, List.length_cons]
      rw [if_neg (by simpa using plain)]
      exact part_reaches _ _ 1 filled digits
  | some mark =>
      have signs : (mark = '+' || mark = '-') = true := by simpa using exponent.signs mark sign
      simp only [Exponent.text, sign, Option.toList_some, List.cons_append, List.nil_append, exponentLength, if_pos marks,
        if_pos signs, List.length_cons]
      exact part_reaches _ _ 2 filled digits

theorem exponent_stops (exponent : Exponent) (c : Char) (first : (exponent.text ++ rest).head? = some c) :
    isDigit c = false ∧ c ≠ '.' := by
  obtain rfl : exponent.mark = c := Option.some.inj first
  exact exponent.mark_letter

variable (number : Number)

theorem mantissa_stops (stops : ∀ c, rest.head? = some c → isDigit c = false ∧ c ≠ '.') :
    mantissaLength (number.mantissa ++ rest) = number.mantissa.length := by
  obtain ⟨whole, fraction⟩ := List.forall_mem_append.mp number.numeric
  rw [mantissaLength, Number.mantissa, List.append_assoc,
    count_spelled isDigit number.whole _ whole (pointed_digits rest stops number.fraction), List.drop_left,
    pointed_fraction rest stops number.fraction fraction, List.length_append]

theorem mantissa_reaches : number.mantissa.length ≤ mantissaLength (number.mantissa ++ rest) := by
  obtain ⟨whole, fraction⟩ := List.forall_mem_append.mp number.numeric
  rw [mantissaLength, Number.mantissa, List.append_assoc]
  by_cases blank : number.fraction = []
  · rw [blank, pointed, List.append_nil]
    exact Nat.le_add_right_of_le (count_reaches _ isDigit number.whole whole)
  · -- The point ends the digits before it.
    have stopped : countWhile isDigit (pointed number.fraction ++ rest) = 0 := by
      simp [pointed_filled _ blank, countWhile, show isDigit '.' = false by decide]
    rw [count_spelled isDigit number.whole _ whole stopped, List.drop_left, List.length_append]
    exact Nat.add_le_add_left (fraction_reaches rest number.fraction fraction) _

theorem number_reaches : number.text.length ≤ mantissaLength (number.text ++ rest) +
    exponentLength ((number.text ++ rest).drop (mantissaLength (number.text ++ rest))) := by
  rw [Number.text, Number.tail, List.append_assoc]
  cases number.exponent with
  | none =>
      rw [Option.elim_none, List.append_nil, List.nil_append]
      exact Nat.le_add_right_of_le (mantissa_reaches rest number)
  | some exponent =>
      rw [Option.elim_some, mantissa_stops _ number (exponent_stops rest exponent), List.drop_left, List.length_append]
      exact Nat.add_le_add_left (exponent_reaches rest exponent) _

-- Of a number only the first digit may be that of a hexadecimal literal.
theorem number_before_hex (hexadecimal : hexLength (number.text ++ rest) ≠ 0) : number.text.length ≤ 1 := by
  have decimal := number.text_decimal
  cases spelling : number.text with
  | nil => exact Nat.zero_le 1
  | cons c more =>
      cases more with
      | nil => exact Nat.le_refl 1
      | cons d more =>
          rw [spelling] at decimal hexadecimal
          have plain : d ∉ ['x', 'X'] := by
            intro mark
            have known := decimal d (by simp)
            rcases List.mem_pair.mp mark with rfl | rfl <;> exact absurd known (by decide)
          exact absurd (by rw [List.cons_append, List.cons_append, hexLength, if_neg (by simpa using fun _ => plain)])
            hexadecimal

theorem scan_reaches (parts : Parts) :
    ∃ shape length, scan (parts.text ++ rest) = some (shape, length) ∧ parts.text.length ≤ length := by
  by_cases hexadecimal : hexLength (parts.text ++ rest) = 0
  · cases parts with
    | hexadecimal parts =>
        have reaches := hex_reaches rest parts
        rw [hexadecimal] at reaches
        exact absurd reaches (by simp [Parts.text])
    | number parts =>
        have filled : mantissaLength (parts.text ++ rest) ≠ 0 := by
          have reaches := mantissa_reaches (parts.tail ++ rest) parts
          have some := parts.mantissa_filled
          rw [Number.text, List.append_assoc]
          omega
        obtain ⟨shape, scanned⟩ := scan_length _ hexadecimal filled
        exact ⟨shape, _, scanned, number_reaches rest parts⟩
  · refine ⟨.hex, hexLength (parts.text ++ rest), by rw [scan, if_pos hexadecimal], ?_⟩
    cases parts with
    | hexadecimal parts => exact hex_reaches rest parts
    | number parts =>
        have short := number_before_hex rest parts hexadecimal
        rw [Parts.text] at hexadecimal ⊢
        exact Nat.le_trans short (Nat.one_le_iff_ne_zero.mpr hexadecimal)

end

-- A word of the patterns that a text starts with, and no longer one starts it.
structure Longest (text : List Char) (shape : Shape) (word : List Char) : Prop where
  spelled : Spelled shape word
  within : word <+: text
  longest : ∀ other kind, other <+: text → Spelled kind other → other.length ≤ word.length

theorem scan_longest (text : List Char) (shape : Shape) (length : Nat) (scanned : scan text = some (shape, length)) :
    Longest text shape (text.take length) := by
  refine ⟨(spelled_iff _ _).mpr (scan_parts text shape length scanned), List.take_prefix length text, ?_⟩
  rintro other kind ⟨rest, rfl⟩ spelled
  obtain ⟨parts, rfl, -⟩ := (spelled_iff kind other).mp spelled
  obtain ⟨found, reached, again, reaches⟩ := scan_reaches rest parts
  obtain ⟨-, rfl⟩ := Prod.mk.inj (Option.some.inj (scanned.symm.trans again))
  rwa [List.length_take_of_le (scan_takes _ _ _ scanned).2]

theorem scan_none_iff (text : List Char) :
    scan text = none ↔ ∀ word, word <+: text → word ≠ [] → ∀ shape, ¬ Spelled shape word := by
  constructor
  · rintro nothing _ ⟨rest, rfl⟩ - shape spelled
    obtain ⟨parts, rfl, -⟩ := (spelled_iff shape _).mp spelled
    obtain ⟨_, _, found, -⟩ := scan_reaches rest parts
    exact absurd (nothing.symm.trans found) (by simp)
  · intro nothing
    cases scanned : scan text with
    | none => rfl
    | some found =>
        have best := scan_longest text found.1 found.2 scanned
        exact absurd best.spelled (nothing _ best.within (spelled_filled _ _ best.spelled) _)

theorem longest_unique (text : List Char) (shape other : Shape) (word twin : List Char) (first : Longest text shape word)
    (second : Longest text other twin) : shape = other ∧ word = twin := by
  have same : word = twin := by
    have length := Nat.le_antisymm (second.longest word shape first.within first.spelled)
      (first.longest twin other second.within second.spelled)
    exact (List.prefix_of_prefix_length_le first.within second.within length.le).eq_of_length length
  refine ⟨?_, same⟩
  rw [spelled_shape shape word first.spelled, same, ← spelled_shape other twin second.spelled]

def Lacks (part : Language Char) (text : List Char) : Prop := ∀ word, word <+: text → word ∉ part

-- A literal, and a tail that begins like a further part of it but completes none.
inductive Torn : List Char → List Char → Prop
  | exponent (word : List Char) (mark : Char) (rest : List Char)
      (mantissa : word ∈ manyOf isDigit + (1 + manyOf isDigit) * fractions) (marks : isMark mark = true)
      (lacks : Lacks exponents (mark :: rest)) : Torn word (mark :: rest)
  | fraction (word rest : List Char) (digits : word ∈ manyOf isDigit) (lacks : Lacks fractions ('.' :: rest)) :
      Torn word ('.' :: rest)
  | hexadecimal (mark : Char) (rest : List Char) (marks : isHexMark mark = true)
      (lacks : Lacks (manyOf isHexDigit) rest) : Torn ['0'] (mark :: rest)

theorem mem_mantissas (word : List Char) (mantissa : word ∈ manyOf isDigit + (1 + manyOf isDigit) * fractions) :
    ∃ number : Number, number.mantissa = word := by
  rcases (Language.mem_add _ _ _).mp mantissa with many | both
  · obtain ⟨filled, numeric⟩ := (mem_many_of isDigit word).mp many
    exact ⟨⟨word, [], none, by simpa using filled, by simpa using numeric⟩, by simp [Number.mantissa, pointed]⟩
  · obtain ⟨whole, before, _, behind, rfl⟩ := Language.mem_mul.mp both
    obtain ⟨fraction, filled, numeric, rfl⟩ := (mem_fractions _).mp behind
    have digits : ∀ c ∈ whole, isDigit c = true := by
      rcases (Language.mem_add _ _ _).mp before with blank | many
      · simp [(Language.mem_one whole).mp blank]
      · exact ((mem_many_of isDigit whole).mp many).2
    exact ⟨⟨whole, fraction, none, by simp [filled], List.forall_mem_append.mpr ⟨digits, numeric⟩⟩, rfl⟩

section

variable (text : List Char)

theorem lacks_exponent (lacks : Lacks exponents text) : exponentLength text = 0 := by
  obtain ⟨exponent, taken, blank⟩ := exponent_parts text
  rw [← blank]
  cases exponent with
  | none => rfl
  | some exponent => exact absurd ((mem_exponents _).mpr ⟨exponent, taken⟩) (lacks _ (List.take_prefix _ text))

theorem lacks_fraction (lacks : Lacks fractions text) : fractionLength text = 0 := by
  obtain ⟨digits, taken, blank, numeric⟩ := fraction_parts text
  rw [← blank]
  by_contra filled
  exact lacks _ (List.take_prefix _ text) ((mem_fractions _).mpr ⟨digits, filled, numeric, taken⟩)

theorem lacks_hex (lacks : Lacks (manyOf isHexDigit) text) : countWhile isHexDigit text = 0 := by
  by_contra filled
  exact lacks _ (List.take_prefix _ text)
    ((mem_many_of isHexDigit _).mpr ⟨count_while_filled text isHexDigit filled, count_while_kept isHexDigit text⟩)

end

theorem scan_stops (number : Number) (rest : List Char) (plain : hexLength (number.mantissa ++ rest) = 0)
    (whole : mantissaLength (number.mantissa ++ rest) = number.mantissa.length) (none : exponentLength rest = 0) :
    ∃ shape, scan (number.mantissa ++ rest) = some (shape, number.mantissa.length) := by
  obtain ⟨shape, scanned⟩ := scan_length _ plain (whole.trans_ne number.mantissa_filled)
  rw [whole, List.drop_left, none, Nat.add_zero] at scanned
  exact ⟨shape, scanned⟩

theorem mantissa_no_hex (number : Number) (mark : Char) (rest : List Char) (plain : isHexMark mark = false) :
    hexLength (number.mantissa ++ mark :: rest) = 0 := by
  let bare : Number := ⟨number.whole, number.fraction, none, number.filled, number.numeric⟩
  have text : bare.text = number.mantissa := List.append_nil _
  by_contra hexadecimal
  have short := number_before_hex (mark :: rest) bare (text ▸ hexadecimal)
  rw [text] at short
  obtain ⟨c, single⟩ := List.length_eq_one_iff.mp
    (Nat.le_antisymm short (Nat.one_le_iff_ne_zero.mpr number.mantissa_filled))
  rw [single, List.singleton_append, hexLength, ← isHexMark, plain, Bool.and_false] at hexadecimal
  exact hexadecimal (if_neg Bool.false_ne_true)

theorem mark_kinds (mark : Char) (marks : (isMark mark || isHexMark mark) = true) :
    isDigit mark = false ∧ mark ≠ '.' ∧ (isMark mark && isHexMark mark) = false := by
  have listed : mark ∈ ['e', 'E', 'x', 'X'] := by simpa [isMark, isHexMark, or_assoc] using marks
  simp only [List.mem_cons, List.not_mem_nil, or_false] at listed
  rcases listed with rfl | rfl | rfl | rfl
  all_goals decide

theorem torn_scanned (word tail : List Char) (torn : Torn word tail) :
    ∃ shape, scan (word ++ tail) = some (shape, word.length) := by
  cases torn with
  | exponent _ mark rest mantissa marks lacks =>
      obtain ⟨number, rfl⟩ := mem_mantissas word mantissa
      obtain ⟨digit, point, apart⟩ := mark_kinds mark (by simp [marks])
      have decimal : isHexMark mark = false := by simpa [marks] using apart
      refine scan_stops number _ (mantissa_no_hex number mark rest decimal) ?_ (lacks_exponent _ lacks)
      apply mantissa_stops
      rintro c ⟨⟩
      exact ⟨digit, point⟩
  | fraction _ rest digits lacks =>
      obtain ⟨filled, numeric⟩ := (mem_many_of isDigit word).mp digits
      let number : Number := ⟨word, [], none, by simpa using filled, by simpa using numeric⟩
      have same : number.mantissa = word := List.append_nil word
      have stopped : countWhile isDigit ('.' :: rest) = 0 := by simp [countWhile, show isDigit '.' = false by decide]
      have whole : mantissaLength (word ++ '.' :: rest) = word.length := by
        rw [mantissaLength, count_spelled isDigit word _ numeric stopped, List.drop_left, lacks_fraction _ lacks,
          Nat.add_zero]
      have found := scan_stops number ('.' :: rest) (mantissa_no_hex number '.' rest (by decide)) (by rwa [same])
        (by simp [exponentLength])
      rwa [same] at found
  | hexadecimal mark rest marks lacks =>
      let zero : Number := ⟨['0'], [], none, by simp, by simp [show isDigit '0' = true by decide]⟩
      obtain ⟨digit, point, apart⟩ := mark_kinds mark (by simp [marks])
      have hexadecimal : isMark mark = false := by simpa [marks] using apart
      refine scan_stops zero (mark :: rest) ?_ (mantissa_stops _ zero ?_) ?_
      · simp [zero, Number.mantissa, pointed, hexLength, lacks_hex rest lacks]
      · rintro c ⟨⟩
        exact ⟨digit, point⟩
      · rw [exponentLength.eq_def]
        exact if_neg (by simpa [isMark] using hexadecimal)

theorem at_scan (before rest : List Char) : at? (before ++ rest) (Text.width before) =
    (scan rest).map fun found => ⟨found.1, rest.take found.2, Text.width before + found.2⟩ := by
  have placed : Text.dropBytes? (Text.width before) (before ++ rest) = some rest :=
    (Text.drop_bytes_iff _ _ _).mpr ⟨before, rfl, rfl⟩
  rw [at?, placed, Option.bind_eq_bind, Option.bind_some]
  cases scan rest <;> rfl

theorem scan_width (text : List Char) (shape : Shape) (length : Nat) (scanned : scan text = some (shape, length)) :
    Text.width (text.take length) = length := by
  rw [Text.ascii_width _ (scan_ascii text shape length scanned), List.length_take_of_le (scan_takes _ _ _ scanned).2]

theorem at_iff (before rest : List Char) (found : Found) : at? (before ++ rest) (Text.width before) = some found ↔
    Longest rest found.shape found.text ∧ found.stop = Text.width before + Text.width found.text := by
  rw [at_scan]
  constructor
  · intro here
    obtain ⟨⟨shape, length⟩, scanned, rfl⟩ := Option.map_eq_some_iff.mp here
    exact ⟨scan_longest rest shape length scanned, by rw [scan_width rest shape length scanned]⟩
  · rintro ⟨best, stop⟩
    cases scanned : scan rest with
    | none =>
        exact absurd best.spelled ((scan_none_iff rest).mp scanned _ best.within (spelled_filled _ _ best.spelled) _)
    | some taken =>
        obtain ⟨shape, length⟩ := taken
        obtain ⟨sameShape, sameText⟩ := longest_unique _ _ _ _ _ best (scan_longest rest shape length scanned)
        rw [sameText, scan_width rest shape length scanned] at stop
        rw [Option.map_some, ← sameShape, ← sameText, ← stop]

-- The scanner takes the longest piece at a character boundary that a pattern matches, with the one shape that it has
-- and the offset behind it; it takes nothing exactly where no pattern matches a piece. What begins like a further part
-- of a literal and is none stays unread.
theorem scanner_longest_match (before rest : List Char) :
    (at? (before ++ rest) (Text.width before) = none ↔
      ∀ word, word <+: rest → word ≠ [] → ∀ shape, ¬ Spelled shape word) ∧
    (∀ found, at? (before ++ rest) (Text.width before) = some found ↔
      Longest rest found.shape found.text ∧ found.stop = Text.width before + Text.width found.text) ∧
    (∀ word shape other, Spelled shape word → Spelled other word → shape = other) ∧
    ∀ word tail, Torn word tail → rest = word ++ tail → ∃ shape, Spelled shape word ∧
      at? (before ++ rest) (Text.width before) = some ⟨shape, word, Text.width before + Text.width word⟩ := by
  refine ⟨?_, at_iff before rest, ?_, ?_⟩
  · rw [at_scan, Option.map_eq_none_iff]
    exact scan_none_iff rest
  · intro word shape other first second
    rw [spelled_shape shape word first, spelled_shape other word second]
  · rintro word tail torn rfl
    obtain ⟨shape, scanned⟩ := torn_scanned word tail torn
    have best := scan_longest _ shape word.length scanned
    rw [List.take_left] at best
    exact ⟨shape, best.spelled, (at_iff before _ _).mpr ⟨best, rfl⟩⟩

example : at? "1e+".toList 0 = some ⟨.integer, "1".toList, 1⟩ ∧ at? "1.".toList 0 = some ⟨.integer, "1".toList, 1⟩ ∧
    at? "0x".toList 0 = some ⟨.integer, "0".toList, 1⟩ ∧ at? "2.5e-x".toList 0 = some ⟨.real, "2.5".toList, 3⟩ :=
  ⟨rfl, rfl, rfl, rfl⟩

end Formula.Literal
