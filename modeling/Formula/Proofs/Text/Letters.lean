import Formula.Proofs.Text

set_option autoImplicit false

namespace Formula.Text

def letter (caseSensitive : Bool) (c : Char) : List Char := if caseSensitive then [c] else lower c

theorem same_letter_iff (caseSensitive : Bool) (a b : Char) :
    sameLetter caseSensitive a b = true ↔ letter caseSensitive a = letter caseSensitive b := by
  cases caseSensitive with
  | true => simp [sameLetter, letter]
  | false =>
      simp only [sameLetter, letter, Bool.or_eq_true, decide_eq_true_eq, Bool.not_false, Bool.true_and, Bool.false_eq_true,
        if_false]
      exact ⟨fun same => same.elim (congrArg lower) id, .inr⟩

def letters (caseSensitive : Bool) (text : List Char) : List (List Char) := text.map (letter caseSensitive)

theorem letters_length (caseSensitive : Bool) (text : List Char) : (letters caseSensitive text).length = text.length := by
  simp [letters]

theorem begins_iff (caseSensitive : Bool) (name text : List Char) :
    begins caseSensitive name text = true ↔ letters caseSensitive name <+: letters caseSensitive text := by
  fun_induction begins caseSensitive name text with
  | case1 text => simp [letters]
  | case2 expected name => simp [letters]
  | case3 expected name found text ih =>
      rw [Bool.and_eq_true, same_letter_iff, ih]
      simp only [letters, List.map_cons, List.cons_prefix_cons]
      exact and_congr_left fun _ => eq_comm

theorem begins_append (caseSensitive : Bool) (name rest : List Char) : begins caseSensitive name (name ++ rest) = true := by
  rw [begins_iff, letters, letters, List.map_append]
  exact List.prefix_append _ _

theorem begins_whole (caseSensitive : Bool) (name text : List Char) (matched : begins caseSensitive name text = true)
    (whole : name.length = text.length) : letters caseSensitive name = letters caseSensitive text := by
  have lengths : (letters caseSensitive name).length = (letters caseSensitive text).length := by
    rw [letters_length, letters_length, whole]
  exact ((begins_iff _ _ _).mp matched).eq_of_length lengths

theorem begins_read (caseSensitive : Bool) (name text : List Char) (matched : begins caseSensitive name text = true)
    (index : Nat) (c : Char) (read : name[index]? = some c) :
    ∃ d, text[index]? = some d ∧ letter caseSensitive d = letter caseSensitive c := by
  obtain ⟨after, same⟩ := (begins_iff _ _ _).mp matched
  have here : (letters caseSensitive text)[index]? = some (letter caseSensitive c) := by
    rw [← same, List.getElem?_append_left (by simpa [letters] using (List.getElem?_eq_some_iff.mp read).1)]
    simp [letters, read]
  obtain ⟨d, found, letters⟩ := Option.map_eq_some_iff.mp ((List.getElem?_map ..).symm.trans here)
  exact ⟨d, found, letters⟩

theorem begins_both (caseSensitive : Bool) (a b text : List Char) (matchedA : begins caseSensitive a text = true)
    (matchedB : begins caseSensitive b text = true) (length : a.length = b.length) :
    letters caseSensitive a = letters caseSensitive b := by
  have prefixA := List.prefix_iff_eq_take.mp ((begins_iff _ _ _).mp matchedA)
  have prefixB := List.prefix_iff_eq_take.mp ((begins_iff _ _ _).mp matchedB)
  rw [letters_length] at prefixA prefixB
  rw [prefixA, prefixB, length]

theorem begins_letters (caseSensitive : Bool) (a b text : List Char) (same : letters caseSensitive a = letters caseSensitive b)
    (matched : begins caseSensitive a text = true) : begins caseSensitive b text = true := by
  rw [begins_iff] at matched ⊢
  rwa [← same]

-- The case forms of the character lead back to it.
def Restored (c : Char) : Prop := lower c = [c] ∨ (lower c).flatMap upper = [c]

instance (c : Char) : Decidable (Restored c) := inferInstanceAs (Decidable (_ ∨ _))

theorem case_variants_iff (c d : Char) : d ∈ caseVariants c ↔ d = c ∨ d ∈ lower c ∨ d ∈ upper c := by
  have once (kept more : List Char) :
      d ∈ more.foldl (fun kept e => if e ∈ kept then kept else kept ++ [e]) kept ↔ d ∈ kept ∨ d ∈ more := by
    induction more generalizing kept with
    | nil => simp
    | cons e rest ih =>
        rw [List.foldl_cons, ih]
        by_cases old : e ∈ kept
        · rw [if_pos old, List.mem_cons]
          exact ⟨Or.imp_right .inr, fun either => either.elim .inl fun more => more.elim (fun same => .inl (same ▸ old)) .inr⟩
        · simp [old, or_assoc]
  rw [caseVariants, once]
  simp

theorem variant_of_same (c d : Char) (same : lower d = lower c) (restoredC : Restored c) (restoredD : Restored d) :
    d ∈ caseVariants c := by
  rw [case_variants_iff]
  rcases restoredD with low | back
  · exact .inr (.inl (by simp [← same, low]))
  · rw [same] at back
    rcases restoredC with low | other
    · rw [low, List.flatMap_singleton] at back
      exact .inr (.inr (by simp [back]))
    · exact .inl (List.singleton_inj.mp (back.symm.trans other))

theorem ascii_all {P : Char → Prop} (each : ∀ code : Fin 128, P (Char.ofNat code)) (c : Char) (ascii : isAscii c = true) :
    P c := by
  have bound : c.toNat < 128 := by simpa [isAscii] using ascii
  simpa using each ⟨c.toNat, bound⟩

theorem ascii_variants (c : Char) (ascii : isAscii c = true) : ∀ d ∈ caseVariants c, isAscii d = true :=
  List.all_eq_true.mp (ascii_all (P := fun c => (caseVariants c).all isAscii = true) (by decide) c ascii)

theorem ascii_lower (c : Char) (ascii : isAscii c = true) : lower c = [c.toLower] := if_pos ascii

theorem ascii_restored (c : Char) (ascii : isAscii c = true) : Restored c :=
  ascii_all (P := Restored) (by decide) c ascii

theorem ascii_width (text : List Char) (ascii : ∀ c ∈ text, isAscii c = true) : width text = text.length := by
  induction text with
  | nil => rfl
  | cons c rest ih =>
      have one := ascii_all (P := fun c => c.utf8Size = 1) (by decide) c (ascii c List.mem_cons_self)
      rw [width, one, ih fun d member => ascii d (List.mem_cons_of_mem _ member), List.length_cons, Nat.add_comm]

theorem image_sent (runs : List Run) (n image : Nat) (found : image? n runs = some image) :
    ∃ run ∈ runs, run.send? n = some image := by
  induction runs with
  | nil => exact absurd found (by simp [image?])
  | cons run rest ih =>
      rw [image?] at found
      split at found
      · exact absurd found (by simp)
      · rcases Option.or_eq_some_iff.mp found with here | ⟨-, later⟩
        · exact ⟨run, by simp, here⟩
        · obtain ⟨other, member, sent⟩ := ih later
          exact ⟨other, List.mem_cons_of_mem _ member, sent⟩

-- The Kelvin sign, the only character beyond ASCII whose lower form is one within.
def kelvin : Char := '\u212a'

theorem lower_runs_beyond : ∀ run ∈ Letter.lower, (128 ≤ run.image ∨ run.first = kelvin.toNat ∧ run.last = kelvin.toNat) ∧
    (run.image + (run.last - run.first) < 0xD800 ∨
      0xDFFF < run.image ∧ run.image + (run.last - run.first) < 0x110000) := by
  decide +kernel

theorem lower_image (c d : Char) (low : lower c = [d]) :
    isAscii c = true ∨ c = d ∨
      ∃ run ∈ Letter.lower, run.first ≤ c.toNat ∧ c.toNat ≤ run.last ∧ d.toNat = run.image + (c.toNat - run.first) := by
  unfold lower at low
  split at low
  · exact .inl ‹_›
  · rw [convert] at low
    split at low
    · -- The one expansion has two characters.
      rename_i image expanded
      have two : image.length = 2 := by
        simp only [Letter.lowerExpansions, List.lookup_cons, List.lookup_nil] at expanded
        split at expanded
        · obtain rfl := Option.some.inj expanded
          rfl
        · exact absurd expanded (by simp)
      exact absurd (congrArg List.length low) (by simp [two])
    · split at low
      · rename_i image found
        obtain ⟨run, member, sent⟩ := image_sent _ _ _ found
        obtain ⟨-, valid⟩ := lower_runs_beyond run member
        unfold Run.send? at sent
        split at sent
        · rename_i inside
          obtain rfl := Option.some.inj sent
          refine .inr (.inr ⟨run, member, inside.1, inside.2.1, ?_⟩)
          have sound : (run.image + (c.toNat - run.first)).isValidChar := by
            rw [Nat.isValidChar]
            omega
          rw [← List.singleton_inj.mp low, Char.ofNat, dif_pos sound]
          rfl
        · exact absurd sent (by simp)
      · exact .inr (.inl (List.singleton_inj.mp low))

theorem lower_within (c d : Char) (low : lower c = [d]) (ascii : isAscii d = true) : isAscii c = true ∨ c = kelvin := by
  rcases lower_image c d low with within | rfl | ⟨run, member, first, last, code⟩
  · exact .inl within
  · exact .inl ascii
  · have small : d.toNat < 128 := by simpa [isAscii] using ascii
    rcases (lower_runs_beyond run member).1 with far | ⟨starts, ends⟩
    · omega
    · exact .inr (Char.ext (UInt32.toNat_inj.mp (show c.toNat = kelvin.toNat by omega)))

theorem ascii_classes (c : Char) (ascii : isAscii c = true) :
    isIdentifierStart c.toLower = isIdentifierStart c ∧ isIdentifierContinue c.toLower = isIdentifierContinue c :=
  ascii_all (P := fun c => isIdentifierStart c.toLower = isIdentifierStart c ∧
    isIdentifierContinue c.toLower = isIdentifierContinue c) (by decide) c ascii

theorem kelvin_classes : isIdentifierStart kelvin = true ∧ isIdentifierContinue kelvin = true := by decide +kernel

-- A character that is the same letter as an ASCII one is in the same classes, and beyond letters it is that character.
structure Resembles (found expected : Char) : Prop where
  start : isIdentifierStart found = isIdentifierStart expected
  continues : isIdentifierContinue found = isIdentifierContinue expected
  point : found = '.' ↔ expected = '.'

theorem resembles_same (caseSensitive : Bool) (found expected : Char)
    (same : letter caseSensitive found = letter caseSensitive expected)
    (plain : caseSensitive = true ∨ isAscii expected = true) : Resembles found expected := by
  cases caseSensitive with
  | true =>
      obtain rfl : found = expected := by simpa [letter] using same
      exact ⟨rfl, rfl, Iff.rfl⟩
  | false =>
      have ascii : isAscii expected = true := by simpa using plain
      have low : lower found = [expected.toLower] := by simpa [letter, ascii_lower expected ascii] using same
      have lowered : isAscii expected.toLower = true :=
        ascii_all (P := fun c => isAscii c.toLower = true) (by decide) expected ascii
      obtain ⟨start, continues⟩ := ascii_classes expected ascii
      rcases lower_within found _ low lowered with within | rfl
      · have lows : found.toLower = expected.toLower := by
          rw [ascii_lower found within] at low
          exact List.singleton_inj.mp low
        obtain ⟨startFound, continuesFound⟩ := ascii_classes found within
        have point (c : Char) (here : isAscii c = true) : c = '.' ↔ c.toLower = '.' :=
          ascii_all (P := fun c => c = '.' ↔ c.toLower = '.') (by decide) c here
        exact ⟨by rw [← startFound, lows, start], by rw [← continuesFound, lows, continues],
          by rw [point found within, lows, ← point expected ascii]⟩
      · have k : expected.toLower = 'k' := (List.singleton_inj.mp ((show lower kelvin = ['k'] by decide).symm.trans low)).symm
        rw [k] at start continues
        refine ⟨kelvin_classes.1.trans start, kelvin_classes.2.trans continues, iff_of_false (by decide) ?_⟩
        rintro rfl
        exact absurd k (by decide)

theorem begins_resembles (caseSensitive : Bool) (name text : List Char)
    (plain : caseSensitive = true ∨ ∀ c ∈ name, isAscii c = true) (matched : begins caseSensitive name text = true)
    (index : Nat) (c : Char) (read : name[index]? = some c) : ∃ d, text[index]? = some d ∧ Resembles d c := by
  obtain ⟨d, found, same⟩ := begins_read caseSensitive name text matched index c read
  exact ⟨d, found, resembles_same caseSensitive d c same (plain.imp_right fun ascii => ascii c (List.mem_of_getElem? read))⟩

theorem begins_start (caseSensitive : Bool) (name : List Char) (c : Char) (rest : List Char)
    (plain : caseSensitive = true ∨ ∀ c ∈ name, isAscii c = true)
    (starts : ∃ d more, name = d :: more ∧ isIdentifierStart d = true)
    (matched : begins caseSensitive name (c :: rest) = true) : isIdentifierStart c = true := by
  obtain ⟨d, more, spelling, start⟩ := starts
  obtain ⟨e, here, like⟩ := begins_resembles caseSensitive name _ plain matched 0 d (by simp [spelling])
  obtain rfl : c = e := by simpa using here
  exact like.start.trans start

theorem ends_word_read (text : List Char) (length : Nat) (ends : endsWord (text.drop length) = true) (c : Char)
    (read : text[length]? = some c) : isIdentifierContinue c = false := by
  have head : (text.drop length).head? = some c := by rw [List.head?_drop, read]
  obtain ⟨rest, after⟩ := List.head?_eq_some_iff.mp head
  simpa [after, endsWord] using ends

theorem word_reaches (caseSensitive : Bool) (name text : List Char)
    (plain : caseSensitive = true ∨ ∀ c ∈ name, isAscii c = true) (continues : ∀ c ∈ name, isIdentifierContinue c = true)
    (matched : begins caseSensitive name text = true) (length : Nat) (ends : endsWord (text.drop length) = true) :
    name.length ≤ length := by
  refine Nat.le_of_not_lt fun shorter => ?_
  have read := List.getElem?_eq_getElem shorter
  obtain ⟨d, found, like⟩ := begins_resembles caseSensitive name text plain matched length _ read
  have goes := like.continues.trans (continues _ (List.mem_of_getElem? read))
  simp [ends_word_read text length ends d found] at goes

theorem point_follows (caseSensitive : Bool) (name text : List Char)
    (plain : caseSensitive = true ∨ ∀ c ∈ name, isAscii c = true) (qualified : Qualified name)
    (matched : begins caseSensitive name text = true) (length : Nat) (ends : endsWord (text.drop length) = true)
    (longer : length < name.length) : ∃ d rest, text.drop length = '.' :: d :: rest ∧ isIdentifierStart d = true := by
  have stands := begins_resembles caseSensitive name text plain matched
  obtain ⟨point, found, like⟩ := stands length _ (List.getElem?_eq_getElem longer)
  have stops := like.continues.symm.trans (ends_word_read text length ends point found)
  rcases qualified.parts length _ (List.getElem?_eq_getElem longer) with goes | ⟨here, c, next, start⟩
  · exact absurd (stops.symm.trans goes) (by simp)
  · obtain ⟨d, after, alike⟩ := stands (length + 1) c next
    obtain rfl := like.point.mpr here
    obtain ⟨inside, read⟩ := List.getElem?_eq_some_iff.mp found
    obtain ⟨further, reads⟩ := List.getElem?_eq_some_iff.mp after
    refine ⟨d, text.drop (length + 2), ?_, alike.start.trans start⟩
    rw [List.drop_eq_getElem_cons inside, read, List.drop_eq_getElem_cons further, reads]

def blanks : List Nat :=
  [133, 160, 5760, 8192, 8193, 8194, 8195, 8196, 8197, 8198, 8199, 8200, 8201, 8202, 8232, 8233, 8239, 8287, 12288]

theorem white_space_blank (code : Nat) (white : inside code Property.whiteSpace = true) : code ∈ blanks := by
  simp only [Property.whiteSpace, inside, Bool.if_false_right, Bool.and_true, Bool.if_false_left, Bool.if_true_left,
    Bool.and_eq_true, Bool.not_eq_eq_eq_not, Bool.not_true, decide_eq_false_iff_not, Nat.not_lt, Bool.or_eq_true,
    decide_eq_true_eq] at white
  simp only [blanks, List.mem_cons, List.not_mem_nil, or_false]
  omega

theorem blank_code (c : Char) (white : isWhiteSpace c = true) (beyond : isAscii c = false) : c.toNat ∈ blanks :=
  white_space_blank _ (by simpa [isWhiteSpace, beyond] using white)

theorem blanks_no_word : ∀ code ∈ blanks, inside code Property.alphabetic = false ∧ inside code Property.numeric = false := by
  decide +kernel

theorem continue_not_white (c : Char) (continues : isIdentifierContinue c = true) : isWhiteSpace c = false := by
  cases ascii : isAscii c with
  | true =>
      have apart := ascii_all (P := fun c => isIdentifierContinue c = true → isWhiteSpace c = false) (by decide) c ascii
      exact apart continues
  | false =>
      rw [Bool.eq_false_iff]
      intro white
      obtain ⟨letter, number⟩ := blanks_no_word _ (blank_code c white ascii)
      have underscore : c ≠ '_' := by
        rintro rfl
        exact absurd ascii (by decide)
      simp [isIdentifierContinue, isAlphabetic, isNumeric, ascii, letter, number, underscore] at continues

theorem start_not_white (c : Char) (start : isIdentifierStart c = true) : isWhiteSpace c = false :=
  continue_not_white c (start_continues c start)

theorem blanks_own_case : ∀ code ∈ blanks, lower (Char.ofNat code) = [Char.ofNat code] := by decide +kernel

theorem lower_runs_no_blank : ∀ run ∈ Letter.lower, ∀ code ∈ blanks,
    code < run.image ∨ run.image + (run.last - run.first) < code := by
  decide +kernel

theorem white_letter (caseSensitive : Bool) (c d : Char) (white : isWhiteSpace c = true)
    (same : letter caseSensitive d = letter caseSensitive c) : d = c := by
  cases caseSensitive with
  | true => simpa [letter] using same
  | false =>
      have lowers : lower d = lower c := same
      cases ascii : isAscii c with
      | true =>
          have own := ascii_all (P := fun c => isWhiteSpace c = true → c.toLower = c) (by decide) c ascii white
          have low : lower d = [c] := by rw [lowers, ascii_lower c ascii, own]
          rcases lower_within d c low ascii with within | rfl
          · have lowered : d.toLower = c := by
              rw [ascii_lower d within] at low
              exact List.singleton_inj.mp low
            have solid := ascii_all (P := fun d => isWhiteSpace d.toLower = true → d.toLower = d) (by decide) d within
            exact (solid (lowered ▸ white)).symm.trans lowered
          · obtain rfl := List.singleton_inj.mp ((show lower kelvin = ['k'] by decide).symm.trans low)
            exact absurd white (by decide)
      | false =>
          have code := blank_code c white ascii
          have own : lower c = [c] := by simpa using blanks_own_case _ code
          rcases lower_image d c (lowers.trans own) with within | rfl | ⟨run, member, first, last, place⟩
          · have low : d.toLower = c := by
              rw [ascii_lower d within, own] at lowers
              exact List.singleton_inj.mp lowers
            have plain := ascii_all (P := fun d => isAscii d.toLower = true) (by decide) d within
            simp [low, ascii] at plain
          · rfl
          · rcases lower_runs_no_blank run member _ code with below | above
            · omega
            · omega

-- The lower form of the name is that of its letters: no sigma ends a word in it.
def Letterwise (name : String) : Prop := lowercase name = String.ofList (name.toList.flatMap lower)

theorem lowercase_plain (before text : List Char) (plain : 'Σ' ∉ text) :
    lowercaseAfter before text = text.flatMap lower := by
  induction text generalizing before with
  | nil => rfl
  | cons c rest ih =>
      simp only [List.mem_cons, not_or] at plain
      rw [lowercaseAfter, if_neg (Ne.symm plain.1), ih (c :: before) plain.2, List.flatMap_cons]

theorem letterwise_plain (name : String) (plain : 'Σ' ∉ name.toList) : Letterwise name :=
  congrArg String.ofList (lowercase_plain [] name.toList plain)

theorem ascii_letterwise (name : String) (ascii : ∀ c ∈ name.toList, isAscii c = true) : Letterwise name :=
  letterwise_plain name fun sigma => absurd (ascii _ sigma) (by decide)

theorem lowercase_letters (a b : String) (letterwiseA : Letterwise a) (letterwiseB : Letterwise b)
    (same : letters false a.toList = letters false b.toList) : lowercase a = lowercase b := by
  rw [letterwiseA, letterwiseB, List.flatMap_def, List.flatMap_def]
  exact congrArg (fun forms => String.ofList (List.flatten forms)) same

theorem letters_lowercase (a b : String) (asciiA : ∀ c ∈ a.toList, isAscii c = true)
    (asciiB : ∀ c ∈ b.toList, isAscii c = true) (same : lowercase a = lowercase b) :
    letters false a.toList = letters false b.toList := by
  have single (text : List Char) (ascii : ∀ c ∈ text, isAscii c = true) :
      letters false text = (text.flatMap lower).map fun c => [c] := by
    induction text with
    | nil => rfl
    | cons c rest ih =>
        have low : letter false c = [c.toLower] := ascii_lower c (ascii c (by simp))
        have later := ih fun d member => ascii d (by simp [member])
        rw [letters, List.map_cons, low, List.flatMap_cons, ascii_lower c (ascii c (by simp))]
        exact congrArg _ later
  rw [ascii_letterwise a asciiA, ascii_letterwise b asciiB] at same
  rw [single _ asciiA, single _ asciiB, String.ofList_injective same]

end Formula.Text
