import Formula.Text.Word

set_option autoImplicit false

namespace Formula.Text

@[simp] theorem width_append (before after : List Char) : width (before ++ after) = width before + width after := by
  induction before with
  | nil => simp [width]
  | cons c rest ih => simp [width, ih, Nat.add_assoc]

theorem width_pos (text : List Char) (filled : text ≠ []) : 0 < width text := by
  cases text with
  | nil => exact absurd rfl filled
  | cons c rest => exact Nat.add_pos_left c.utf8Size_pos _

theorem characters_in_spec (bytes : Nat) (text : List Char) (length : Nat)
    (found : charactersIn? bytes text = some length) :
    length ≤ text.length ∧ width (text.take length) = bytes := by
  fun_induction charactersIn? bytes text generalizing length with
  | case1 text =>
      obtain rfl := Option.some.inj found
      simp [width]
  | case2 bytes => exact absurd found (by simp)
  | case3 bytes c rest fits ih =>
      obtain ⟨count, counted, rfl⟩ := Option.map_eq_some_iff.mp found
      obtain ⟨within, filled⟩ := ih count counted
      refine ⟨by simpa using within, ?_⟩
      rw [List.take_succ_cons, width, filled]
      omega
  | case4 bytes c rest short => exact absurd found (by simp)

theorem characters_in_width (before after : List Char) :
    charactersIn? (width before) (before ++ after) = some before.length := by
  induction before with
  | nil => simp [width, charactersIn?]
  | cons c rest ih =>
      have size := c.utf8Size_pos
      obtain ⟨bytes, sum⟩ : ∃ bytes, c.utf8Size + width rest = bytes + 1 := ⟨c.utf8Size + width rest - 1, by omega⟩
      have later : bytes + 1 - c.utf8Size = width rest := by omega
      rw [width, sum, List.cons_append, charactersIn?, if_pos (by omega), later, ih]
      rfl

theorem drop_bytes_iff (bytes : Nat) (text rest : List Char) :
    dropBytes? bytes text = some rest ↔ ∃ before, text = before ++ rest ∧ width before = bytes := by
  constructor
  · intro dropped
    obtain ⟨length, found, rfl⟩ := Option.map_eq_some_iff.mp dropped
    obtain ⟨-, filled⟩ := characters_in_spec bytes text length found
    exact ⟨text.take length, (List.take_append_drop length text).symm, filled⟩
  · rintro ⟨before, rfl, rfl⟩
    simp [dropBytes?, characters_in_width]

theorem drop_bytes_zero (text : List Char) : dropBytes? 0 text = some text := (drop_bytes_iff _ _ _).mpr ⟨[], rfl, rfl⟩

theorem drop_bytes_later (start : Nat) (text piece rest : List Char) (placed : dropBytes? start text = some (piece ++ rest)) :
    dropBytes? (start + width piece) text = some rest := by
  obtain ⟨before, whole, filled⟩ := (drop_bytes_iff _ _ _).mp placed
  exact (drop_bytes_iff _ _ _).mpr ⟨before ++ piece, by rw [whole, List.append_assoc], by rw [width_append, filled]⟩

theorem slice_between (before piece after : List Char) :
    slice? (width before) (width (before ++ piece)) (before ++ piece ++ after) = some piece := by
  have dropped : dropBytes? (width before) (before ++ (piece ++ after)) = some (piece ++ after) :=
    (drop_bytes_iff _ _ _).mpr ⟨before, rfl, rfl⟩
  have size : width (before ++ piece) - width before = width piece := by simp
  rw [slice?, if_pos (by simp), List.append_assoc, dropped, size]
  simp [characters_in_width]

theorem width_take (text : List Char) (few many : Nat) (fewer : few ≤ many) :
    width (text.take few) ≤ width (text.take many) := by
  have split := List.take_append_drop few (text.take many)
  rw [List.take_take, Nat.min_eq_left fewer] at split
  rw [← split, width_append]
  exact Nat.le_add_right _ _

theorem begins_length (caseSensitive : Bool) (name text : List Char) (matched : begins caseSensitive name text = true) :
    name.length ≤ text.length := by
  fun_induction begins caseSensitive name text with
  | case1 text => simp
  | case2 expected name => exact absurd matched (by simp)
  | case3 expected name found text ih =>
      have rest := ih (Bool.and_eq_true_iff.mp matched).2
      simpa using rest

theorem start_continues (c : Char) (start : isIdentifierStart c = true) : isIdentifierContinue c = true := by
  rcases Bool.or_eq_true_iff.mp start with alphabetic | underscore
  · simp [isIdentifierContinue, alphabetic]
  · simp [isIdentifierContinue, underscore]

theorem identifier_spelled (name : List Char) (identifier : isIdentifier name = true) :
    ∃ c rest, name = c :: rest ∧ isIdentifierStart c = true ∧ ∀ d ∈ name, isIdentifierContinue d = true := by
  cases name with
  | nil => exact absurd identifier (by simp [isIdentifier])
  | cons c rest =>
      obtain ⟨start, all⟩ := Bool.and_eq_true_iff.mp identifier
      exact ⟨c, rest, rfl, start, List.forall_mem_cons.mpr ⟨start_continues c start, List.all_eq_true.mp all⟩⟩

theorem identifier_filled (name : List Char) (identifier : isIdentifier name = true) : name ≠ [] := by
  rintro rfl
  simp [isIdentifier] at identifier

theorem word_whole (name : List Char) (continues : ∀ c ∈ name, isIdentifierContinue c = true) (length : Nat)
    (within : length ≤ name.length) (ends : endsWord (name.drop length) = true) : length = name.length := by
  cases after : name.drop length with
  | nil => exact Nat.le_antisymm within (List.drop_eq_nil_iff.mp after)
  | cons c rest =>
      have inside : c ∈ name := List.mem_of_mem_drop (after ▸ List.mem_cons_self)
      simp [after, endsWord, continues c inside] at ends

-- Identifiers joined by points: one starts the name, and one comes after each point.
structure Qualified (name : List Char) : Prop where
  start : ∃ c rest, name = c :: rest ∧ isIdentifierStart c = true
  parts : ∀ (index : Nat) (c : Char), name[index]? = some c →
    isIdentifierContinue c = true ∨ c = '.' ∧ ∃ d, name[index + 1]? = some d ∧ isIdentifierStart d = true

theorem qualified_from_spelled (word text : List Char) (qualified : isQualifiedFrom word text = true) :
    (∀ c ∈ word, isIdentifierContinue c = true) ∧ (∃ c rest, word.reverse ++ text = c :: rest ∧ isIdentifierStart c = true) ∧
      ∀ (index : Nat) (c : Char), text[index]? = some c →
        isIdentifierContinue c = true ∨ c = '.' ∧ ∃ d, text[index + 1]? = some d ∧ isIdentifierStart d = true := by
  fun_induction isQualifiedFrom word text with
  | case1 word =>
      obtain ⟨c, rest, spelling, start, continues⟩ := identifier_spelled _ qualified
      exact ⟨by simpa using continues, ⟨c, rest, by simpa using spelling, start⟩, by simp⟩
  | case2 word rest ih =>
      obtain ⟨identifier, later⟩ := Bool.and_eq_true_iff.mp qualified
      obtain ⟨c, more, spelling, start, continues⟩ := identifier_spelled _ identifier
      obtain ⟨-, ⟨d, after, next, starts⟩, parts⟩ := ih later
      refine ⟨by simpa using continues, ⟨c, more ++ '.' :: rest, by simp [spelling], start⟩, fun index e read => ?_⟩
      cases index with
      | zero =>
          obtain rfl : '.' = e := by simpa using read
          exact .inr ⟨rfl, d, by simp [show rest = d :: after from next], starts⟩
      | succ index => exact parts index e (by simpa using read)
  | case3 word c rest other ih =>
      obtain ⟨continues, start, parts⟩ := ih qualified
      refine ⟨fun d member => continues d (List.mem_cons_of_mem _ member), by simpa using start, fun index e read => ?_⟩
      cases index with
      | zero =>
          obtain rfl : c = e := by simpa using read
          exact .inl (continues c List.mem_cons_self)
      | succ index => exact parts index e (by simpa using read)

theorem qualified_spelled (name : List Char) (qualified : isQualified name = true) : Qualified name := by
  obtain ⟨-, start, parts⟩ := qualified_from_spelled [] name qualified
  exact ⟨start, parts⟩

theorem run_length_spec (keep : Char → Bool) (c : Char) (rest : List Char) :
    0 < runLength keep (c :: rest) ∧ runLength keep (c :: rest) ≤ (c :: rest).length := by
  have shorter := (List.takeWhile_sublist keep (l := rest)).length_le
  simp only [runLength, List.length_cons]
  omega

theorem run_within (keep : Char → Bool) (text : List Char) (filled : text ≠ []) : runLength keep text ≤ text.length := by
  obtain ⟨c, rest, rfl⟩ := List.exists_cons_of_ne_nil filled
  exact (run_length_spec keep c rest).2

-- In a text that starts at an offset, another one stands between two characters or at an end.
def Boundary (start : Nat) (text : List Char) (offset : Nat) : Prop :=
  ∃ before after, text = before ++ after ∧ start + width before = offset

theorem boundary_start (start : Nat) (text : List Char) : Boundary start text start := ⟨[], text, rfl, rfl⟩

theorem boundary_stop (start : Nat) (text : List Char) : Boundary start text (start + width text) :=
  ⟨text, [], by simp, rfl⟩

theorem boundary_ahead (start : Nat) (piece text : List Char) (offset : Nat) (boundary : Boundary start piece offset) :
    Boundary start (piece ++ text) offset := by
  obtain ⟨before, after, rfl, rfl⟩ := boundary
  exact ⟨before, after ++ text, by simp, rfl⟩

theorem boundary_behind (start : Nat) (piece text : List Char) (offset : Nat)
    (boundary : Boundary (start + width piece) text offset) : Boundary start (piece ++ text) offset := by
  obtain ⟨before, after, rfl, rfl⟩ := boundary
  exact ⟨piece ++ before, after, by simp, by simp [Nat.add_assoc]⟩

theorem boundary_within (start : Nat) (text : List Char) (offset : Nat) (boundary : Boundary start text offset) :
    start ≤ offset ∧ offset ≤ start + width text := by
  obtain ⟨before, after, rfl, rfl⟩ := boundary
  rw [width_append]
  omega

end Formula.Text
