import Formula.Proofs.Literal.Digits

set_option autoImplicit false

namespace Formula.Text

-- White space, or nothing at all.
def Ended (tail : List Char) : Prop := ∀ c, tail.head? = some c → isWhiteSpace c = true

theorem ended_nil : Ended [] := by simp [Ended]

theorem ended_gap (gap rest : List Char) (filled : gap ≠ []) (white : ∀ c ∈ gap, isWhiteSpace c = true) :
    Ended (gap ++ rest) := by
  obtain ⟨c, more, rfl⟩ := List.exists_cons_of_ne_nil filled
  intro d first
  obtain rfl : c = d := by simpa using first
  exact white c List.mem_cons_self

theorem sign_not_white (c : Char) (sign : isOperatorContinue c = true) : isWhiteSpace c = false := by
  simp only [isOperatorContinue, Bool.and_eq_true, Bool.not_eq_true'] at sign
  exact sign.1.1

theorem qualified_solid (name : List Char) (qualified : Qualified name) : ∀ c ∈ name, isWhiteSpace c = false := by
  intro c member
  obtain ⟨index, read⟩ := List.mem_iff_getElem?.mp member
  rcases qualified.parts index c read with continues | ⟨rfl, -⟩
  · exact continue_not_white c continues
  · decide

theorem identifier_solid (name : List Char) (identifier : isIdentifier name = true) : ∀ c ∈ name, isWhiteSpace c = false := by
  obtain ⟨-, -, -, -, continues⟩ := identifier_spelled name identifier
  exact fun c member => continue_not_white c (continues c member)

theorem ended_clear (tail : List Char) (ended : Ended tail) : Clear tail := by
  intro c first
  have white := ended c first
  constructor
  · rw [Bool.eq_false_iff]
    intro continues
    simp [continue_not_white c continues] at white
  · rintro rfl
    exact absurd white (by decide)

section

variable (keep : Char → Bool) (piece rest : List Char)

theorem take_while_fits (within : ((piece ++ rest).takeWhile keep).length ≤ piece.length) :
    piece.takeWhile keep = (piece ++ rest).takeWhile keep := by
  induction piece with
  | nil => exact (List.eq_nil_of_length_eq_zero (Nat.le_zero.mp within)).symm
  | cons c more ih =>
      rw [List.cons_append] at within ⊢
      by_cases kept : keep c = true
      · rw [List.takeWhile_cons_of_pos kept] at within ⊢
        rw [List.takeWhile_cons_of_pos kept, ih (by simpa using within)]
      · rw [List.takeWhile_cons_of_neg kept, List.takeWhile_cons_of_neg kept]

theorem run_fits (filled : piece ≠ []) (within : runLength keep (piece ++ rest) ≤ piece.length) :
    runLength keep piece = runLength keep (piece ++ rest) := by
  obtain ⟨c, more, rfl⟩ := List.exists_cons_of_ne_nil filled
  simp only [List.cons_append, runLength, List.length_cons] at within ⊢
  rw [take_while_fits keep more rest (by omega)]

theorem take_while_stops (whole : ((piece ++ rest).takeWhile keep).length = piece.length) : rest.takeWhile keep = [] := by
  induction piece with
  | nil => exact List.eq_nil_of_length_eq_zero whole
  | cons c more ih =>
      rw [List.cons_append] at whole
      by_cases kept : keep c = true
      · rw [List.takeWhile_cons_of_pos kept] at whole
        exact ih (Nat.succ.inj whole)
      · rw [List.takeWhile_cons_of_neg kept] at whole
        exact absurd whole (by simp)

theorem run_stops (filled : piece ≠ []) (whole : runLength keep (piece ++ rest) = piece.length) :
    rest.takeWhile keep = [] := by
  obtain ⟨c, more, rfl⟩ := List.exists_cons_of_ne_nil filled
  simp only [List.cons_append, runLength, List.length_cons] at whole
  exact take_while_stops keep more rest (by omega)

variable (solid : ∀ c, keep c = true → isWhiteSpace c = false) (ended : Ended rest)

include solid ended

theorem take_while_ended : ((piece ++ rest).takeWhile keep).length ≤ piece.length := by
  induction piece with
  | nil =>
      cases rest with
      | nil => simp
      | cons c more =>
          have stops : ¬ keep c = true := by
            intro kept
            simpa [solid c kept] using ended c rfl
          simp [List.takeWhile_cons_of_neg stops]
  | cons c more ih =>
      rw [List.cons_append]
      by_cases kept : keep c = true
      · rw [List.takeWhile_cons_of_pos kept]
        exact Nat.succ_le_succ ih
      · simp [List.takeWhile_cons_of_neg kept]

theorem run_ended (filled : piece ≠ []) : runLength keep piece = runLength keep (piece ++ rest) := by
  apply run_fits keep piece rest filled
  obtain ⟨c, more, rfl⟩ := List.exists_cons_of_ne_nil filled
  have shorter := take_while_ended keep more rest solid ended
  simp only [List.cons_append, runLength, List.length_cons]
  omega

end

variable (caseSensitive : Bool) (name piece rest : List Char)

theorem begins_fits (within : name.length ≤ piece.length) :
    begins caseSensitive name (piece ++ rest) = begins caseSensitive name piece := by
  have whole : letters caseSensitive (piece ++ rest) = letters caseSensitive piece ++ letters caseSensitive rest := by
    simp [letters]
  have shorter : (letters caseSensitive name).length ≤ (letters caseSensitive piece).length := by
    rw [letters_length, letters_length]
    exact within
  rw [Bool.eq_iff_iff, begins_iff, begins_iff, whole]
  exact ⟨fun longer => List.prefix_of_prefix_length_le longer (List.prefix_append _ _) shorter,
    fun here => here.trans (List.prefix_append _ _)⟩

theorem begins_ended (solid : ∀ c ∈ name, isWhiteSpace c = false) (ended : Ended rest)
    (matched : begins caseSensitive name (piece ++ rest) = true) : name.length ≤ piece.length := by
  refine Nat.le_of_not_lt fun longer => ?_
  have read := List.getElem?_eq_getElem longer
  obtain ⟨d, found, same⟩ := begins_read caseSensitive name (piece ++ rest) matched piece.length _ read
  have first : rest.head? = some d := by
    rw [List.getElem?_append_right (Nat.le_refl _), Nat.sub_self] at found
    rw [List.head?_eq_getElem?, found]
  have white := ended d first
  have own := white_letter caseSensitive d _ white same.symm
  have other := solid _ (List.mem_of_getElem? read)
  simp [own, white] at other

theorem ends_word_fits (length : Nat) (within : length ≤ piece.length) (ends : endsWord rest = true) :
    endsWord ((piece ++ rest).drop length) = endsWord (piece.drop length) := by
  rw [List.drop_append_of_le_length within]
  cases piece.drop length with
  | nil => exact ends
  | cons c more => rfl

theorem begins_word (c : Char) (ascii : isAscii c = true) (starts : ∃ d more, name = d :: more ∧ isIdentifierStart d = true)
    (matched : begins caseSensitive name (c :: rest) = true) : isIdentifierStart c = true := by
  obtain ⟨d, more, rfl, start⟩ := starts
  have same := (same_letter_iff _ _ _).mp (Bool.and_eq_true_iff.mp matched).1
  exact (resembles_same caseSensitive d c same.symm (.inr ascii)).start.symm.trans start

end Formula.Text
