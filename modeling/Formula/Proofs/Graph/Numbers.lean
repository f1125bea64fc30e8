import Formula.CommandLine
import Formula.Proofs.Graph.Values

set_option autoImplicit false

namespace Formula

namespace Integer

variable {s : Signedness} (value : Integer s)

theorem sized (above : value.value ≠ Signedness.signed.low) : ∃ size : Integer s, size.value = value.value.natAbs ∧
    if decide (value.value < 0) = true then Numeric.unary .negate size = .ok value else size = value := by
  have low := value.low_le
  have high := value.le_high
  have apart : value.value ≠ -9223372036854775808 := above
  by_cases negative : value.value < 0
  · have fits : s.low ≤ value.value.natAbs ∧ (value.value.natAbs : Int) ≤ s.high := by
      cases s <;> simp only [Signedness.low, Signedness.high] at low high ⊢ <;> omega
    have back : -(value.value.natAbs : Int) = value.value := by omega
    refine ⟨⟨value.value.natAbs, fits.1, fits.2⟩, rfl, ?_⟩
    rw [if_pos (decide_eq_true negative)]
    change checked s (-(value.value.natAbs : Int)) = .ok value
    rw [back, checked, ofInt?, dif_pos ⟨low, high⟩]
  · exact ⟨value, by omega, by rw [if_neg (by simpa using negative)]⟩

theorem display_writes (above : value.value ≠ Signedness.signed.low) (flags : Flags) :
    Numeric.Writes flags (Numeric.display value).toList value := by
  obtain ⟨size, same, means⟩ := value.sized above
  have scanned := Literal.scan_written value.value.natAbs
  have magnitude : size.value.natAbs = value.value.natAbs := by rw [same, Int.natAbs_natCast]
  have reads (text : List Char) (start stop : Nat)
      (found : Literal.at? text start = some ⟨.integer, Nat.toDigits 10 value.value.natAbs, stop⟩) :
      Numeric.read text start flags = .ok (some (size, stop)) :=
    size.read_digits (by omega) text start stop (magnitude ▸ found)
  have spelling : (Numeric.display value).toList = [] ++
      ((if value.value < 0 then some '-' else none : Option Char).toList ++ Nat.toDigits 10 value.value.natAbs ++ []) := by
    rw [value.display_text]
    split <;> simp
  rw [spelling]
  refine .literal [] [] (by simp) _ ?_ .integer _ scanned size reads value ?_
  · split <;> simp
  · rw [Numeric.Signed]
    by_cases negative : value.value < 0
    · simpa [negative] using means
    · simpa [negative] using means

theorem parse_display (above : value.value ≠ Signedness.signed.low) :
    Numeric.parse (Integer s) (Numeric.display value) = .ok value :=
  (Numeric.parse_iff _ value).mpr (value.display_writes above _)

end Integer

theorem Evaluator.evaluate_display {s : Signedness} (value : Integer s) (above : value.value ≠ Signedness.signed.low) :
    evaluate (Numeric.display value) = .ok value := by
  obtain ⟨evaluator, built⟩ := integers_built s
  exact evaluator.evaluate_written built rfl _ value (value.display_writes above _)

theorem CommandLine.binding_display {s : Signedness} (name : String) (plain : '=' ∉ name.toList) (value : Integer s)
    (above : value.value ≠ Signedness.signed.low) :
    binding (Integer s) (name ++ "=" ++ Numeric.display value) = .ok (String.ofList (Numeric.trim name.toList), value) := by
  have spelling : (name ++ "=" ++ Numeric.display value).toList = name.toList ++ '=' :: (Numeric.display value).toList := by
    simp
  have marked : '=' ∈ name.toList ++ '=' :: (Numeric.display value).toList := by simp
  have others : ∀ c ∈ name.toList, decide (c ≠ '=') = true :=
    fun c member => decide_eq_true fun same => plain (same ▸ member)
  have before : (name.toList ++ '=' :: (Numeric.display value).toList).takeWhile (· ≠ '=') = name.toList := by
    rw [List.takeWhile_append_of_pos others]
    simp
  have after : (name.toList ++ '=' :: (Numeric.display value).toList).dropWhile (· ≠ '=') =
      '=' :: (Numeric.display value).toList := by
    rw [List.dropWhile_append_of_pos others]
    simp
  simp only [binding, spelling, if_pos marked, before, after, List.tail_cons, String.ofList_toList,
    value.parse_display above]

namespace Integer

variable {s : Signedness}

def lowest : Integer .signed := ⟨Signedness.signed.low, Int.le_refl _, by decide⟩

theorem lowest_text : Numeric.display lowest = "-9223372036854775808" := by decide +kernel

-- Its digits are read before its sign is applied.
theorem lowest_evaluated : (evaluate "-9223372036854775808" : Except Error (Integer .signed)) =
    .error (.parse ⟨.invalidLiteral, "-9223372036854775808", 1, some 20,
      "literal '9223372036854775808' does not fit in i64"⟩) := by
  decide +kernel

theorem lowest_hexadecimal : Numeric.parse (Integer .signed) "0x8000000000000000" = .ok lowest ∧
    evaluate "0x8000000000000000" = .ok lowest :=
  ⟨by decide +kernel, by decide +kernel⟩

-- A number that is printed is read again, by itself, as an expression and as the value of an input. The lowest one is
-- refused as an expression, because its digits are out of range before its sign is applied; in hexadecimal it is read.
theorem numbers_reread (value : Integer s) :
    (value.value ≠ Signedness.signed.low →
      Numeric.parse (Integer s) (Numeric.display value) = .ok value ∧ evaluate (Numeric.display value) = .ok value ∧
        ∀ name : String, '=' ∉ name.toList → CommandLine.binding (Integer s) (name ++ "=" ++ Numeric.display value) =
          .ok (String.ofList (Numeric.trim name.toList), value)) ∧
      (value.value = Signedness.signed.low →
        (evaluate (Numeric.display value) : Except Error (Integer s)) = .error (.parse ⟨.invalidLiteral,
          Numeric.display value, 1, some 20, "literal '9223372036854775808' does not fit in i64"⟩) ∧
        Numeric.parse (Integer s) "0x8000000000000000" = .ok value ∧ evaluate "0x8000000000000000" = .ok value) := by
  constructor
  · intro above
    exact ⟨value.parse_display above, Evaluator.evaluate_display value above,
      fun name plain => CommandLine.binding_display name plain value above⟩
  · intro least
    cases s with
    | unsigned => exact absurd (least ▸ value.low_le) (by decide)
    | signed =>
        obtain rfl : value = lowest := ext_value value lowest least
        rw [lowest_text]
        exact ⟨lowest_evaluated, lowest_hexadecimal⟩

def secondLowest : Integer .signed := ⟨-9223372036854775807, by decide, by decide⟩

theorem second_lowest_rereads :
    secondLowest.value ≠ Signedness.signed.low ∧ Numeric.display secondLowest = "-9223372036854775807" ∧
      Numeric.parse (Integer .signed) "-9223372036854775807" = .ok secondLowest ∧
      evaluate "-9223372036854775807" = .ok secondLowest ∧ '=' ∉ "x".toList ∧
      CommandLine.binding (Integer .signed) ("x" ++ "=" ++ "-9223372036854775807") =
        .ok (String.ofList (Numeric.trim "x".toList), secondLowest) ∧
      lowest.value = Signedness.signed.low ∧ evaluate "0x8000000000000000" = .ok lowest := by
  have text : Numeric.display secondLowest = "-9223372036854775807" := by decide +kernel
  have reread := (numbers_reread secondLowest).1 (by decide)
  rw [text] at reread
  exact ⟨by decide, text, reread.1, reread.2.1, by decide, reread.2.2 "x" (by decide), rfl,
    ((numbers_reread lowest).2 rfl).2.2⟩

theorem lowest_lost :
    Numeric.display lowest = "-9223372036854775808" ∧
      Numeric.parse (Integer .signed) (Numeric.display lowest) =
        .error "literal '9223372036854775808' does not fit in i64" ∧
      (evaluate (Numeric.display lowest) : Except Error (Integer .signed)) ≠ .ok lowest := by
  rw [lowest_text, lowest_evaluated]
  exact ⟨rfl, by decide +kernel, by simp⟩

end Integer

end Formula
