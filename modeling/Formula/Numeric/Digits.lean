/-!
Decimal text of whole numbers, written block by block, since a long number is divided by a block far
more often than by ten.
-/

set_option autoImplicit false

namespace Formula.Digits

def unit (place : Nat) : Nat := Nat.pow 10 place

def lowest (count n : Nat) : List Char :=
  let digits := Nat.toDigits 10 (n % unit count)
  List.replicate (count - digits.length) '0' ++ digits

def blockLength : Nat := 200

def within : Nat → Nat → List Char
  | 0, n => Nat.toDigits 10 n
  | blocks + 1, n =>
      if n < unit blockLength then Nat.toDigits 10 n
      else within blocks (n / unit blockLength) ++ lowest blockLength n

-- A block takes more than 600 bits, so the blocks that are allowed for always suffice.
def write (n : Nat) : List Char := within (n.log2 / 600) n

theorem unit_succ (place : Nat) : unit (place + 1) = 10 * unit place := Nat.mul_comm ..

theorem unit_positive (place : Nat) : 0 < unit place := Nat.pow_pos (by decide)

theorem lowest_digits_succ (count n : Nat) (some_digit : 0 < count) :
    lowest (count + 1) n = lowest count (n / 10) ++ [(n % 10).digitChar] := by
  have last : n % unit (count + 1) % 10 = n % 10 := Nat.mod_mod_of_dvd n ⟨_, unit_succ count⟩
  have front : n % unit (count + 1) / 10 = n / 10 % unit count := by
    rw [unit_succ, Nat.mod_mul_right_div_self]
  by_cases small : n % unit (count + 1) < 10
  · have digit : n % unit (count + 1) = n % 10 := by omega
    have none_above : n / 10 % unit count = 0 := by omega
    obtain ⟨k, rfl⟩ : ∃ k, count = k + 1 := ⟨count - 1, by omega⟩
    rw [lowest, lowest, digit, none_above, Nat.toDigits_of_lt_base (by omega)]
    simp [List.replicate_succ']
  · rw [lowest, lowest, Nat.toDigits_of_base_le (by omega) (by omega), front, last]
    simp [List.append_assoc]

theorem digits_split (count n : Nat) (some_digit : 0 < count) (long : unit count ≤ n) :
    Nat.toDigits 10 n = Nat.toDigits 10 (n / unit count) ++ lowest count n := by
  induction count generalizing n with
  | zero => omega
  | succ count ih =>
      rw [unit_succ] at long
      have positive := unit_positive count
      rw [Nat.toDigits_of_base_le (by omega) (by omega)]
      by_cases first : count = 0
      · subst first
        simp [lowest, unit, Nat.toDigits_of_lt_base (Nat.mod_lt n (by omega : 10 > 0))]
      · rw [ih (n / 10) (by omega) (by omega), lowest_digits_succ count n (by omega),
          Nat.div_div_eq_div_mul, unit_succ, List.append_assoc]

theorem within_to_digits (blocks n : Nat) : within blocks n = Nat.toDigits 10 n := by
  induction blocks generalizing n with
  | zero => rfl
  | succ blocks ih =>
      rw [within]
      split
      · rfl
      · next short =>
          rw [ih]
          exact (digits_split blockLength n (by decide) (Nat.le_of_not_lt short)).symm

theorem write_to_digits (n : Nat) : write n = Nat.toDigits 10 n := within_to_digits _ n

end Formula.Digits
