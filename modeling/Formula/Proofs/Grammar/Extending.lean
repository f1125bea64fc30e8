import Formula.Proofs.Grammar.Inputs
import Formula.Proofs.Graph.Compiled
import Formula.Proofs.Literal

set_option autoImplicit false

namespace Formula

variable {T σ : Type}

-- A character that no operator, name, input or number starts with.
structure Grammar.Idle (grammar : Grammar T σ) (names : List String) (c : Char) : Prop where
  operator : ∀ entry ∈ grammar.operators, entry.template.name.toList.head? ≠ some c
  identifier : ∀ entry ∈ grammar.identifiers, entry.template.name.toList.head? ≠ some c
  input : ∀ name ∈ names, name.toList.head? ≠ some c
  digit : Literal.isDigit c = false
  point : c ≠ '.'

namespace Source

-- A source that adds nothing to what the language calls a name or a literal, and whose own white space hides neither.
structure Ordinary (source : Source T σ) : Prop where
  symbols : ∀ entry ∈ source.grammar.operators, Grammar.Symbol entry.template
  qualified : ∀ entry ∈ source.grammar.identifiers, Text.Qualified entry.template.name.toList
  orderly : source.grammar.Orderly
  whitespace : ∀ c ∈ source.grammar.whitespace, source.grammar.Idle source.parameters.names c
  literate : ∀ text start, Literal.at? text start = none → source.grammar.read text start = .ok none
  sensitive : source.parameters.caseSensitive = source.grammar.caseSensitive
  declared : source.grammar.Declared [] source.parameters.names
  plain : source.grammar.caseSensitive = true ∨
    (∀ entry ∈ source.grammar.identifiers, ∀ c ∈ entry.template.name.toList, Text.isAscii c = true) ∧
      ∀ name ∈ source.parameters.names, ∀ c ∈ name.toList, Text.isAscii c = true

-- The second source splits the same text with more names.
structure Extends (first second : Source T σ) : Prop where
  like : first.Alike second
  identifiers : first.grammar.identifiers ⊆ second.grammar.identifiers

theorem ordinary_shown (source : Source T σ) (ordinary : source.Ordinary) (c : Char) (shown : Text.isWhiteSpace c = false)
    (starts : ¬ source.grammar.Idle source.parameters.names c) : source.grammar.isWhitespace c = false := by
  have own : c ∉ source.grammar.whitespace := fun white => starts (ordinary.whitespace c white)
  simp [Grammar.isWhitespace, shown, own]

theorem no_identifier (source : Source T σ) (ordinary : source.Ordinary) (c : Char) (rest : List Char)
    (other : Text.isIdentifierStart c = false) : source.grammar.matchIdentifier (c :: rest) = none := by
  cases found : source.grammar.matchIdentifier (c :: rest) with
  | none => rfl
  | some best =>
      obtain ⟨entry, stands, -, -⟩ := source.grammar.identifier_stands _ best.1 best.2 found
      have start := Text.begins_start _ _ c rest (ordinary.plain.imp_right fun ascii => ascii.1 entry stands.known)
        (ordinary.qualified entry stands.known).start stands.begins
      simp [start] at other

theorem no_input (source : Source T σ) (ordinary : source.Ordinary) (c : Char) (rest : List Char)
    (other : Text.isIdentifierStart c = false) : source.parameters.find? (c :: rest) = none := by
  cases found : source.parameters.find? (c :: rest) with
  | none => rfl
  | some best =>
      obtain ⟨name, declared, -, begins, -⟩ := source.parameters.find_name _ best.1 best.2 found
      rw [ordinary.sensitive] at begins
      have member := List.mem_of_getElem? declared
      obtain ⟨d, more, spelling, starts, -⟩ := Text.identifier_spelled _ (ordinary.declared.identifiers name member)
      have start := Text.begins_start _ _ c rest (ordinary.plain.imp_right fun ascii => ascii.2 name member)
        ⟨d, more, spelling, starts⟩ begins
      simp [start] at other

theorem point_refused (source : Source T σ) (ordinary : source.Ordinary) (start : Nat) (d : Char) (rest : List Char)
    (placed : Text.dropBytes? start source.text = some ('.' :: d :: rest)) (starts : Text.isIdentifierStart d = true) :
    ∃ error, source.tokensFrom start ('.' :: d :: rest) = [.error error] := by
  have point : Text.isIdentifierStart '.' = false := by decide
  have visible := source.ordinary_shown ordinary '.' (by decide) fun idle => idle.point rfl
  have refused : ∃ error, source.scan start ('.' :: d :: rest) = .error error := by
    rw [scan, source.grammar.operator_missing ordinary.symbols '.' _ (.inr rfl), source.no_identifier ordinary _ _ point]
    simp only [Option.or_none, source.no_input ordinary _ _ point]
    rw [source.literal_unknown ordinary.literate start _ placed (Literal.scan_point d rest starts), scanUnknown]
    rw [if_neg (by simp [point])]
    exact ⟨_, rfl⟩
  obtain ⟨error, refused⟩ := refused
  exact ⟨error, by rw [tokensFrom, visible]; simp [refused]⟩

section

variable (first second : Source T σ) (wider : first.Extends second)

include wider

theorem identifier_kept (ordinary : second.Ordinary) (text : List Char) (template : Template T σ) (length : Nat)
    (found : first.grammar.matchIdentifier text = some (template, length))
    (stops : ∀ d rest, text.drop length = '.' :: d :: rest → Text.isIdentifierStart d = false) :
    second.grammar.matchIdentifier text = some (template, length) := by
  obtain ⟨entry, stands, rfl, rfl⟩ := first.grammar.identifier_stands text template length found
  have stays : entry ∈ second.grammar.identifiers := wider.identifiers stands.known
  have begins := stands.begins
  rw [← first.alike_sensitive second wider.like] at begins
  obtain ⟨_, _, best, reach⟩ := second.grammar.identifier_reaches text entry ⟨stays, begins, stands.ends, stands.lead⟩
  obtain ⟨rival, rivalStands, rfl, rfl⟩ := second.grammar.identifier_stands text _ _ best
  rcases Nat.eq_or_lt_of_le reach with even | longer
  · rw [best, second.grammar.stands_unique ordinary.orderly (ordinary.plain.imp_right And.left) text entry rival stays
      rivalStands.known begins rivalStands.begins even]
  · obtain ⟨d, rest, after, start⟩ := Text.point_follows _ _ text
      (ordinary.plain.imp_right fun ascii => ascii.1 rival rivalStands.known)
      (ordinary.qualified rival rivalStands.known) rivalStands.begins _ stands.ends longer
    simp [stops d rest after] at start

theorem input_kept (ordinary : second.Ordinary) (text : List Char) (index length : Nat)
    (found : first.parameters.find? text = some (index, length))
    (stops : ∀ d rest, text.drop length = '.' :: d :: rest → Text.isIdentifierStart d = false) :
    second.grammar.matchIdentifier text = none := by
  cases best : second.grammar.matchIdentifier text with
  | none => rfl
  | some chosen =>
      obtain ⟨rival, stands, -, -⟩ := second.grammar.identifier_stands text chosen.1 chosen.2 best
      rw [← wider.like.parameters] at found
      obtain ⟨name, declared, rfl, begins, ends⟩ := second.parameters.find_name _ _ _ found
      rw [ordinary.sensitive] at begins
      have member := List.mem_of_getElem? declared
      obtain ⟨-, -, -, -, continues⟩ := Text.identifier_spelled _ (ordinary.declared.identifiers name member)
      have within := Text.word_reaches _ _ text (ordinary.plain.imp_right fun ascii => ascii.2 name member) continues begins _
        stands.ends
      rcases Nat.eq_or_lt_of_le within with even | longer
      · have key := second.grammar.key_letters name rival.template.name
          (ordinary.plain.imp_right fun ascii => ⟨Text.ascii_letterwise _ (ascii.2 name member),
            Text.ascii_letterwise _ (ascii.1 rival stands.known)⟩)
          (Text.begins_both _ _ _ text begins stands.begins even)
        exact absurd (key ▸ ordinary.orderly.reserved rival stands.known) (ordinary.declared.free name member)
      · obtain ⟨d, rest, after, start⟩ := Text.point_follows _ _ text
          (ordinary.plain.imp_right fun ascii => ascii.1 rival stands.known) (ordinary.qualified rival stands.known)
          stands.begins _ ends longer
        simp [stops d rest after] at start

theorem scan_extends (known : first.Ordinary) (ordinary : second.Ordinary) (start : Nat) (c : Char) (rest : List Char)
    (placed : Text.dropBytes? start first.text = some (c :: rest)) (template : Template T σ) (length : Nat)
    (scanned : first.scan start (c :: rest) = .ok (template, length))
    (clear : template.form.role = .operand → ∀ name, template.form.action ≠ .unknown name)
    (stops : ∀ d after, (c :: rest).drop length = '.' :: d :: after → Text.isIdentifierStart d = false) :
    second.scan start (c :: rest) = .ok (template, length) := by
  rw [scan] at scanned ⊢
  rw [first.alike_operator second wider.like]
  cases sign : first.grammar.matchOperator (c :: rest) with
  | some found => simpa [sign] using scanned
  | none =>
      simp only [sign, Option.none_or] at scanned ⊢
      cases identifier : first.grammar.matchIdentifier (c :: rest) with
      | some found =>
          simp only [identifier, Except.ok.injEq] at scanned
          subst scanned
          rw [first.identifier_kept second wider ordinary _ _ _ identifier stops]
      | none =>
          simp only [identifier] at scanned
          cases input : first.parameters.find? (c :: rest) with
          | some found =>
              obtain ⟨index, reach⟩ := found
              simp only [input, Except.ok.injEq, Prod.mk.injEq] at scanned
              obtain ⟨rfl, rfl⟩ := scanned
              rw [first.input_kept second wider ordinary _ _ _ input stops, wider.like.parameters]
              simp only [input]
          | none =>
              simp only [input] at scanned
              have number : Text.isIdentifierStart c = false := by
                rw [Bool.eq_false_iff]
                intro starts
                rw [first.literal_unknown known.literate start _ placed (Literal.scan_name c rest starts)] at scanned
                obtain ⟨name, rfl⟩ := Phrase.scan_unknown_operand first start _ template length scanned
                exact clear rfl name rfl
              rw [second.no_identifier ordinary c rest number, wider.like.parameters]
              simp only [input]
              rw [first.alike_literal second wider.like, scanned]

theorem tokens_extend (known : first.Ordinary) (ordinary : second.Ordinary) (spelled : first.grammar.Spelled)
    (start : Nat) (text : List Char) (placed : Text.dropBytes? start first.text = some text)
    (clear : ∀ item ∈ first.tokensFrom start text, ∃ token, item = .ok token ∧
      (token.role = .operand → ∀ name, token.form.action ≠ .unknown name)) :
    second.tokensFrom start text = first.tokensFrom start text := by
  have white := first.alike_white second wider.like
  fun_induction tokensFrom first start text with
  | case1 start => rw [tokensFrom]
  | case2 start c rest blank ih =>
      rw [tokensFrom, white, if_pos blank]
      exact ih (Text.drop_bytes_later start _ [c] rest placed) clear
  | case3 start c rest _ error scanned =>
      obtain ⟨token, wrong, -⟩ := clear (.error error) (by simp)
      exact absurd wrong (by simp)
  | case4 start c rest visible template length scanned stop ih =>
      have named : ∀ name ∈ first.parameters.names, name.toList ≠ [] :=
        fun name member => Text.identifier_filled _ (known.declared.identifiers name member)
      obtain ⟨taken, -⟩ := first.scan_takes spelled named start c rest template length scanned
      have behind : (c :: rest).drop length = rest.drop (length - 1) := by
        obtain ⟨count, rfl⟩ := Nat.exists_eq_add_one.mpr taken
        rfl
      have later : Text.dropBytes? stop first.text = some (rest.drop (length - 1)) :=
        Text.drop_bytes_later start _ (c :: rest.take (length - 1)) _ (by rwa [List.cons_append, List.take_append_drop])
      obtain ⟨token, same, plain⟩ := clear _ List.mem_cons_self
      obtain rfl := Except.ok.inj same
      have again := first.scan_extends second wider known ordinary start c rest placed template length scanned plain (by
        intro d after next
        rw [behind] at next
        rw [next] at later clear
        rw [Bool.eq_false_iff]
        intro starts
        obtain ⟨error, refused⟩ := first.point_refused known stop d after later starts
        obtain ⟨token, wrong, -⟩ := clear (.error error) (List.mem_cons_of_mem _ (by simp [refused]))
        exact absurd wrong (by simp))
      rw [tokensFrom, white, if_neg visible, again]
      simp only
      rw [ih later fun item member => clear item (List.mem_cons_of_mem _ member)]

end

end Source

namespace Grammar

theorem check_reserved (grammar : Grammar T σ) (taken names : List String)
    (identifiers : ∀ name ∈ names, Text.isIdentifier name.toList = true) (fresh : ∀ name ∈ names, grammar.key name ∉ taken)
    (apart : (names.map grammar.key).Nodup) :
    grammar.checkParameters taken names = .ok () ∨
      ∃ name ∈ names, grammar.isReserved name = true ∧ grammar.checkParameters taken names = .error (.reservedName name) := by
  fun_induction checkParameters grammar taken names with
  | case1 taken => exact .inl rfl
  | case2 taken name rest invalid => simp [identifiers name] at invalid
  | case3 taken name rest valid reserved => exact .inr ⟨name, by simp, reserved, rfl⟩
  | case4 taken name rest valid free twice => exact absurd twice (fresh name (by simp))
  | case5 taken name rest valid free _ ih =>
      obtain ⟨once, apart⟩ := List.nodup_cons.mp (List.map_cons ▸ apart)
      have later := ih (fun other member => identifiers other (by simp [member])) (fun other member => by
        rw [List.mem_cons]
        rintro (same | old)
        · exact once (same ▸ List.mem_map_of_mem member)
        · exact fresh other (by simp [member]) old) apart
      refine later.imp_right ?_
      rintro ⟨other, member, reserved, refused⟩
      exact ⟨other, by simp [member], reserved, refused⟩

theorem bind_reserved (grammar : Grammar T σ) (names : List String)
    (identifiers : ∀ name ∈ names, Text.isIdentifier name.toList = true) (apart : (names.map grammar.key).Nodup) :
    grammar.bindParameters names = .ok ⟨names, grammar.caseSensitive⟩ ∨
      ∃ name ∈ names, grammar.isReserved name = true ∧ grammar.bindParameters names = .error (.reservedName name) := by
  rcases grammar.check_reserved [] names identifiers (by simp) apart with accepted | ⟨name, member, reserved, refused⟩
  · exact .inl (by rw [bindParameters, accepted]; rfl)
  · exact .inr ⟨name, member, reserved, by rw [bindParameters, refused]; rfl⟩

end Grammar

namespace Evaluator

theorem idle_ordinary [Numeric T] [Literate T] (settings : Settings T σ) (evaluator : Evaluator T σ)
    (built : settings.build = .ok evaluator) (default : settings.reader = none) (names : List String)
    (idle : ∀ c ∈ settings.whitespace, evaluator.grammar.Idle names c) (declared : evaluator.grammar.Declared [] names)
    (plain : evaluator.grammar.caseSensitive = true ∨
      (∀ entry ∈ evaluator.grammar.identifiers, ∀ c ∈ entry.template.name.toList, Text.isAscii c = true) ∧
        ∀ name ∈ names, ∀ c ∈ name.toList, Text.isAscii c = true)
    (expression : String) : (evaluator.source ⟨names, evaluator.grammar.caseSensitive⟩ expression).Ordinary := by
  have whitespace := (Grammar.built_settings settings evaluator built).2.1
  refine ⟨Grammar.built_symbols settings evaluator built,
    Grammar.reached_qualified _ (Grammar.built_reached settings evaluator built),
    Grammar.built_orderly settings evaluator built, whitespace ▸ idle, fun text start nothing => ?_, rfl, declared, plain⟩
  change evaluator.grammar.reader text start evaluator.grammar.flags = .ok none
  rw [default_reader settings evaluator built default]
  exact Literate.read text start _ nothing

theorem built_ordinary [Numeric T] [Literate T] (settings : Settings T σ) (evaluator : Evaluator T σ)
    (built : settings.build = .ok evaluator) (default : settings.reader = none) (blank : settings.whitespace = [])
    (names : List String) (declared : evaluator.grammar.Declared [] names)
    (plain : evaluator.grammar.caseSensitive = true ∨
      (∀ entry ∈ evaluator.grammar.identifiers, ∀ c ∈ entry.template.name.toList, Text.isAscii c = true) ∧
        ∀ name ∈ names, ∀ c ∈ name.toList, Text.isAscii c = true)
    (expression : String) : (evaluator.source ⟨names, evaluator.grammar.caseSensitive⟩ expression).Ordinary :=
  idle_ordinary settings evaluator built default names (by simp [blank]) declared plain expression

theorem tree_clear [Numeric T] (settings : Settings T σ) (evaluator : Evaluator T σ)
    (built : settings.build = .ok evaluator) (parameters : Parameters) (expression : String) (e : Expr T σ)
    (found : evaluator.tree parameters expression = .ok e) :
    ∀ item ∈ (evaluator.source parameters expression).tokens, ∃ token, item = .ok token ∧
      (token.role = .operand → ∀ name, token.form.action ≠ .unknown name) := by
  obtain ⟨p, fits, tokens, carried, tree⟩ := Phrase.tree_sentence settings evaluator built parameters expression e found
  have proper : ∀ token ∈ p.tokens, Phrase.Proper token :=
    fun token member => Phrase.carried_proper settings evaluator built token (carried token member)
  have complete := (Phrase.tree_complete p fits proper).mp (by simp [tree])
  rw [tokens]
  intro item member
  obtain ⟨token, inside, rfl⟩ := List.mem_map.mp member
  exact ⟨token, rfl, Phrase.complete_known p fits complete token inside⟩

-- With more names an expression that compiled compiles to the same program, unless one of its inputs is a name now.
theorem extending_conservative [Numeric T] [Literate T] (settings : Settings T σ) (more : List (Extension T σ))
    (evaluator extended : Evaluator T σ) (built : settings.build = .ok evaluator)
    (rebuilt : { settings with extensions := settings.extensions ++ more }.build = .ok extended)
    (default : settings.reader = none) (blank : settings.whitespace = []) (expression : String) (names : List String)
    (plain : extended.grammar.caseSensitive = true ∨
      (∀ entry ∈ extended.grammar.identifiers, ∀ c ∈ entry.template.name.toList, Text.isAscii c = true) ∧
        ∀ name ∈ names, ∀ c ∈ name.toList, Text.isAscii c = true)
    (optimized : Bool) (host : σ) (program : Compiled T σ)
    (compiles : ((evaluator.compileWith expression names optimized).run host).1 = .ok program) :
    (∃ name ∈ names, evaluator.grammar.isReserved name = false ∧ extended.grammar.isReserved name = true ∧
        extended.grammar.bindParameters names = .error (.reservedName name)) ∨
      ∀ (optimize : Bool) (before : σ), ∃ compiled after,
        (evaluator.compileWith expression names optimize).run before = (.ok compiled, after) ∧
          (extended.compileWith expression names optimize).run before = (.ok compiled, after) := by
  obtain ⟨widens, allowUnknown⟩ := Grammar.build_widens settings more evaluator extended built rebuilt
  obtain ⟨parameters, e, bound, tree, -⟩ := (compile_ok evaluator expression names optimized host program).mp compiles
  obtain ⟨rfl, declared⟩ := (Grammar.bind_parameters_declared _ _ _).mp bound
  have sensitive : extended.grammar.caseSensitive = evaluator.grammar.caseSensitive := by
    rw [Grammar.caseSensitive, Grammar.caseSensitive, widens.flags]
  have apart : (names.map extended.grammar.key).Nodup := by
    rw [Grammar.key_flags _ _ widens.flags]
    exact declared.apart
  rcases extended.grammar.bind_reserved names declared.identifiers apart with again | ⟨name, member, reserved, refused⟩
  · refine .inr fun optimize before => ?_
    obtain ⟨-, redeclared⟩ := (Grammar.bind_parameters_declared _ _ _).mp again
    have fewer : evaluator.grammar.caseSensitive = true ∨
        (∀ entry ∈ evaluator.grammar.identifiers, ∀ c ∈ entry.template.name.toList, Text.isAscii c = true) ∧
          ∀ name ∈ names, ∀ c ∈ name.toList, Text.isAscii c = true := by
      rw [← sensitive]
      exact plain.imp_right (And.imp_left fun ascii entry member => ascii entry (widens.grown.subset member))
    have known := built_ordinary settings evaluator built default blank names declared fewer expression
    have ordinary := built_ordinary _ extended rebuilt default blank names redeclared plain expression
    rw [sensitive] at again ordinary
    have wider : (evaluator.source ⟨names, evaluator.grammar.caseSensitive⟩ expression).Extends
        (extended.source ⟨names, evaluator.grammar.caseSensitive⟩ expression) :=
      ⟨⟨rfl, allowUnknown, rfl, widens.flags, widens.operators, widens.whitespace, widens.reader⟩, widens.grown.subset⟩
    have tokens := Source.tokens_extend _ _ wider known ordinary (Grammar.built_spelled settings evaluator built) 0 _
      ((Text.drop_bytes_iff _ _ _).mpr ⟨[], rfl, rfl⟩) (tree_clear settings evaluator built _ expression e tree)
    have same : extended.tree ⟨names, evaluator.grammar.caseSensitive⟩ expression = .ok e := by
      rw [← tree, Evaluator.tree, Evaluator.tree]
      exact congrArg (fun items => foldTree (Postfix.order expression items)) tokens
    exact ⟨_, _, evaluator.compile_run expression names optimize before _ e bound tree,
      extended.compile_run expression names optimize before _ e again same⟩
  · refine .inl ⟨name, member, ?_, reserved, refused⟩
    simpa [Grammar.isReserved] using declared.free name member

def lengths : Settings (Integer .signed) Unit :=
  { integers with extensions := [⟨"lengths", none, [("foot", .constant (Integer.ofBits .signed 12))]⟩] }

-- A name that goes on after `foot` and one that is taken.
def fractions : List (Extension (Integer .signed) Unit) :=
  [⟨"fractions", none, [("foot.half", .constant (Integer.ofBits .signed 6)), ("Foot", .constant (Integer.ofBits .signed 1))]⟩]

theorem lengths_conserved :
    ∃ evaluator extended program, lengths.build = .ok evaluator ∧
      { lengths with extensions := lengths.extensions ++ fractions }.build = .ok extended ∧
      ((evaluator.compileWith "foot*x" ["x"] false).run ()).1 = .ok program ∧
      ((∃ name ∈ ["x"], evaluator.grammar.isReserved name = false ∧ extended.grammar.isReserved name = true ∧
          extended.grammar.bindParameters ["x"] = .error (.reservedName name)) ∨
        ∀ (optimize : Bool) (before : Unit), ∃ compiled after,
          (evaluator.compileWith "foot*x" ["x"] optimize).run before = (.ok compiled, after) ∧
            (extended.compileWith "foot*x" ["x"] optimize).run before = (.ok compiled, after)) := by
  obtain ⟨evaluator, extended, program, built, rebuilt, names, compiles⟩ :
      ∃ evaluator extended program, lengths.build = .ok evaluator ∧
        { lengths with extensions := lengths.extensions ++ fractions }.build = .ok extended ∧
        extended.grammar.identifiers.map (fun entry => entry.template.name) = ["if", "trunc", "foot", "foot.half"] ∧
        ((evaluator.compileWith "foot*x" ["x"] false).run ()).1 = .ok program := by
    refine ⟨_, _, ⟨"foot*x", ["x"], ⟨#[.constant (Integer.ofBits .signed 12) (some "foot"), .parameter 0,
      .binary .mul 0 1 ⟨4, 5⟩]⟩, none⟩, rfl, rfl, rfl, ?_⟩
    with_unfolding_all rfl
  have ascii : ∀ name ∈ ["if", "trunc", "foot", "foot.half", "x"], name.toList.all Text.isAscii = true := by decide
  refine ⟨evaluator, extended, program, built, rebuilt, compiles, ?_⟩
  refine extending_conservative lengths fractions evaluator extended built rebuilt rfl rfl "foot*x" ["x"] (.inr ⟨?_, ?_⟩)
    false () program compiles
  · intro entry known
    have member : entry.template.name ∈ ["if", "trunc", "foot", "foot.half"] := names ▸ List.mem_map_of_mem known
    exact List.all_eq_true.mp (ascii _ (List.mem_append_left ["x"] member))
  · exact fun name member =>
      List.all_eq_true.mp (ascii name (List.mem_append_right ["if", "trunc", "foot", "foot.half"] member))

end Evaluator

end Formula
