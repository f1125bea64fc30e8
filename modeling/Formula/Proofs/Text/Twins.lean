import Mathlib.Data.List.Forall2
import Formula.Proofs.Text.Letters
import Formula.Numeric.Decimal

set_option autoImplicit false

namespace Formula.Text

-- ASCII characters that are one letter.
structure Twin (a b : Char) : Prop where
  left : isAscii a = true
  right : isAscii b = true
  same : a.toLower = b.toLower

theorem Twin.symm {a b : Char} (twin : Twin a b) : Twin b a := ⟨twin.right, twin.left, twin.same.symm⟩

abbrev Twins (text other : List Char) : Prop := List.Forall₂ Twin text other

theorem twin_blind {α : Type} (f : Char → α) (blind : ∀ c, isAscii c = true → f c.toLower = f c) (a b : Char)
    (twin : Twin a b) : f a = f b := by
  rw [← blind a twin.left, twin.same, blind b twin.right]

structure Kin (a b : Char) : Prop where
  white : isWhiteSpace a = isWhiteSpace b
  start : isIdentifierStart a = isIdentifierStart b
  continues : isIdentifierContinue a = isIdentifierContinue b
  sign : isOperatorContinue a = isOperatorContinue b
  digit : Literal.isDigit a = Literal.isDigit b
  hex : Literal.isHexDigit a = Literal.isHexDigit b
  size : a.utf8Size = b.utf8Size

theorem twin_kin (a b : Char) (twin : Twin a b) : Kin a b where
  white := twin_blind _ (ascii_all (by decide)) a b twin
  start := twin_blind _ (ascii_all (by decide)) a b twin
  continues := twin_blind _ (ascii_all (by decide)) a b twin
  sign := twin_blind _ (ascii_all (by decide)) a b twin
  digit := twin_blind _ (ascii_all (by decide)) a b twin
  hex := twin_blind _ (ascii_all (by decide)) a b twin
  size := twin_blind _ (ascii_all (by decide)) a b twin

theorem twin_same (a b : Char) (twin : Twin a b) (other : a.isAlpha = false) : a = b := by
  have lowered := ascii_all (P := fun c => c.isAlpha = false → c.toLower = c) (by decide)
  have alike : a.isAlpha = b.isAlpha := twin_blind _ (ascii_all (by decide)) a b twin
  rw [← lowered a twin.left other, twin.same, lowered b twin.right (alike ▸ other)]

theorem twin_letter (a b : Char) (twin : Twin a b) : letter false a = letter false b := by
  change lower a = lower b
  rw [ascii_lower a twin.left, ascii_lower b twin.right, twin.same]

theorem twins_letters (text other : List Char) (twins : Twins text other) : letters false text = letters false other := by
  induction twins with
  | nil => rfl
  | @cons a b rest more twin _ ih =>
      change letter false a :: letters false rest = letter false b :: letters false more
      rw [twin_letter a b twin, ih]

theorem letters_twins (text other : List Char) (ascii : ∀ c ∈ text, isAscii c = true) (plain : ∀ c ∈ other, isAscii c = true)
    (same : letters false text = letters false other) : Twins text other := by
  induction text generalizing other with
  | nil =>
      cases other with
      | nil => exact .nil
      | cons b more => exact absurd same (by simp [letters])
  | cons a rest ih =>
      cases other with
      | nil => exact absurd same (by simp [letters])
      | cons b more =>
          obtain ⟨head, tail⟩ := List.cons.inj same
          have left := ascii a List.mem_cons_self
          have right := plain b List.mem_cons_self
          have low : [a.toLower] = [b.toLower] := by
            rw [← ascii_lower a left, ← ascii_lower b right]
            exact head
          exact .cons ⟨left, right, List.singleton_inj.mp low⟩
            (ih more (fun c member => ascii c (List.mem_cons_of_mem _ member))
              (fun c member => plain c (List.mem_cons_of_mem _ member)) tail)

theorem lowercase_twins (text other : String) (ascii : ∀ c ∈ text.toList, isAscii c = true)
    (plain : ∀ c ∈ other.toList, isAscii c = true) (same : lowercase text = lowercase other) :
    Twins text.toList other.toList :=
  letters_twins _ _ ascii plain (letters_lowercase text other ascii plain same)

theorem twins_width (text other : List Char) (twins : Twins text other) : width text = width other := by
  induction twins with
  | nil => rfl
  | cons twin _ ih => rw [width, width, (twin_kin _ _ twin).size, ih]

theorem twins_characters (bytes : Nat) (text other : List Char) (twins : Twins text other) :
    charactersIn? bytes text = charactersIn? bytes other := by
  induction twins generalizing bytes with
  | nil => rfl
  | cons twin _ ih =>
      cases bytes with
      | zero => rfl
      | succ bytes => rw [charactersIn?, charactersIn?, (twin_kin _ _ twin).size, ih]

theorem twins_drop (start : Nat) (text other : List Char) (twins : Twins text other) :
    Option.Rel Twins (dropBytes? start text) (dropBytes? start other) := by
  rw [dropBytes?, dropBytes?, twins_characters start text other twins]
  cases charactersIn? start other with
  | none => exact .none
  | some count => exact .some (List.forall₂_drop count twins)

theorem twins_while (keep : Char → Bool) (blind : ∀ a b, Twin a b → keep a = keep b) (text other : List Char)
    (twins : Twins text other) : (text.takeWhile keep).length = (other.takeWhile keep).length := by
  induction twins with
  | nil => rfl
  | @cons a b rest more twin _ ih =>
      rw [List.takeWhile_cons, List.takeWhile_cons, blind a b twin]
      by_cases kept : keep b = true
      · simp only [kept, if_true, List.length_cons, ih]
      · simp only [kept]
        rfl

theorem twins_run (keep : Char → Bool) (blind : ∀ a b, Twin a b → keep a = keep b) (text other : List Char)
    (twins : Twins text other) : runLength keep text = runLength keep other := by
  cases twins with
  | nil => rfl
  | cons _ rest => exact congrArg (1 + ·) (twins_while keep blind _ _ rest)

theorem twins_begin (name text other : List Char) (twins : Twins text other) :
    begins false name text = begins false name other := by
  rw [Bool.eq_iff_iff, begins_iff, begins_iff, twins_letters text other twins]

theorem twins_word (text other : List Char) (twins : Twins text other) : endsWord text = endsWord other := by
  cases twins with
  | nil => rfl
  | cons twin _ => exact congrArg Bool.not (twin_kin _ _ twin).continues

end Formula.Text
