import Formula.Proofs.Grammar.Registry
import Formula.Proofs.Graph.Compiled
import Formula.Proofs.Token.Respelling

set_option autoImplicit false

namespace Formula

variable {T σ : Type}

namespace Settings

def key (settings : Settings T σ) (name : String) : String :=
  if settings.flags.caseSensitive then name else Text.lowercase name

theorem key_grammar (settings : Settings T σ) (grammar : Grammar T σ) (flags : grammar.flags = settings.flags) :
    grammar.key = settings.key := by
  funext name
  rw [Grammar.key, Grammar.caseSensitive, flags]
  rfl

-- What a host offers under a key, in some spelling of its name: the first offer, where the language has no name
-- of its own.
def offered? (settings : Settings T σ) (spell : String → String) (key : String) : Option (String × Offer T σ) :=
  if key ∈ (Grammar.builtinOperators settings.flags ++ Grammar.builtinIdentifiers : List (Template T σ)).map
      fun template => settings.key template.name then
    none
  else
    ((offers settings.extensions).find? fun named => settings.key named.1 = key).map (Prod.map spell id)

theorem offered_free (settings : Settings T σ) (spell : String → String) (key : String)
    (free : key ∉ (Grammar.builtinOperators settings.flags ++ Grammar.builtinIdentifiers : List (Template T σ)).map
      fun template => settings.key template.name) :
    settings.offered? spell key =
      ((offers settings.extensions).find? fun named => settings.key named.1 = key).map (Prod.map spell id) :=
  if_neg free

end Settings

theorem Extension.template_respelled (spell : String → String) (name : String) (offer : Offer T σ) :
    (Extension.template name offer).respelled spell = Extension.template (spell name) offer := by
  cases offer <;> rfl

namespace Grammar

section

variable (spell : String → String)

structure Follows (first second : Grammar T σ) : Prop where
  flags : second.flags = first.flags
  counterpart : ∀ entry ∈ first.identifiers, ∃ other ∈ second.identifiers,
    first.key other.template.name = first.key entry.template.name ∧
      other.template.respelled spell = entry.template.respelled spell

variable (base first second : Grammar T σ) (offers others : List (String × Offer T σ)) (wide : base.Widens offers first)
  (wider : base.Widens others second)
  (same : ∀ key, key ∉ base.reserved →
    (base.firstUnder? offers key).map (Prod.map spell id) = (base.firstUnder? others key).map (Prod.map spell id))

include wide wider same

theorem widened_follows : Follows spell first second := by
  have key := base.key_flags first wide.flags
  refine ⟨wider.flags.trans wide.flags.symm, fun entry known => ?_⟩
  rcases wide.added entry known with old | ⟨name, offer, free, found, rfl⟩
  · exact ⟨entry, wider.grown.subset old, rfl, rfl⟩
  · have offered := same (base.key name) free
    rw [found] at offered
    obtain ⟨⟨name', offer'⟩, found', spelled⟩ := Option.map_eq_some_iff.mp offered.symm
    obtain rfl : offer' = offer := congrArg Prod.snd spelled
    have spelled : spell name' = spell name := congrArg Prod.fst spelled
    have taken : base.key name' = base.key name := by simpa using List.find?_some found'
    refine ⟨_, wider.listed _ name' offer' free found', ?_⟩
    simp only [entry, Extension.template_name, Extension.template_respelled, key, taken, spelled, and_self]

theorem widened_reserved (key : String) : key ∈ first.reserved ↔ key ∈ second.reserved := by
  rw [wide.reserved, wider.reserved]
  by_cases taken : key ∈ base.reserved
  · exact iff_of_true (.inl taken) (.inl taken)
  · have offered := congrArg Option.isSome (same key taken)
    simp only [Option.isSome_map] at offered
    rw [offered]

end

-- A grammar whose names stand apart and are written without letters of more forms.
structure Plain (grammar : Grammar T σ) : Prop where
  orderly : grammar.Orderly
  indexed : grammar.Indexed
  ascii : grammar.caseSensitive = true ∨
    ∀ entry ∈ grammar.identifiers, ∀ c ∈ entry.template.name.toList, Text.isAscii c = true

theorem leads_same (grammar : Grammar T σ) (a b : String)
    (plain : grammar.caseSensitive = true ∨
      (∀ c ∈ a.toList, Text.isAscii c = true) ∧ ∀ c ∈ b.toList, Text.isAscii c = true)
    (same : grammar.key a = grammar.key b) (first : Char) (rest : List Char)
    (begins : Text.begins grammar.caseSensitive a.toList (first :: rest) = true) (lead : first ∈ grammar.leads a) :
    first ∈ grammar.leads b := by
  cases sensitive : grammar.caseSensitive with
  | true =>
      have spelled : a = b := by simpa [key, sensitive] using same
      rwa [← spelled]
  | false =>
      obtain ⟨asciiA, asciiB⟩ := plain.resolve_left (by simp [sensitive])
      have letters := grammar.letters_key a b plain same
      rw [sensitive] at letters begins
      rw [leads] at lead ⊢
      cases spellingA : a.toList with
      | nil => simp [spellingA] at lead
      | cons c more =>
          cases spellingB : b.toList with
          | nil => simp [spellingA, spellingB, Text.letters] at letters
          | cons d others =>
              simp only [spellingA, sensitive, Bool.false_eq_true, if_false] at lead ⊢
              have asciiC := asciiA c (by simp [spellingA])
              have asciiD := asciiB d (by simp [spellingB])
              rw [spellingA] at begins
              rw [spellingA, spellingB] at letters
              have low : Text.lower c = Text.lower d := (List.cons.inj letters).1
              have here : Text.lower first = Text.lower c :=
                (Text.same_letter_iff false first c).mp (Bool.and_eq_true_iff.mp begins).1
              exact Text.variant_of_same d first (here.trans low) (Text.ascii_restored d asciiD)
                (Text.ascii_restored first (Text.ascii_variants c asciiC first lead))

section

variable (spell : String → String) (first second : Grammar T σ) (follows : Follows spell first second)
  (plain : first.Plain) (other : second.Plain)

include follows

include plain other

theorem counterpart_stands (text : List Char) (entry : Entry T σ) (stands : first.Stands text entry) :
    ∃ partner, second.Stands text partner ∧ partner.template.name.toList.length = entry.template.name.toList.length ∧
      partner.template.respelled spell = entry.template.respelled spell := by
  have sensitive : second.caseSensitive = first.caseSensitive := congrArg Flags.caseSensitive follows.flags
  obtain ⟨known, begins, ends, head, starts, lead⟩ := stands
  obtain ⟨rest, rfl⟩ := List.head?_eq_some_iff.mp starts
  obtain ⟨partner, partners, taken, spelled⟩ := follows.counterpart entry known
  have both : first.caseSensitive = true ∨ (∀ c ∈ entry.template.name.toList, Text.isAscii c = true) ∧
      ∀ c ∈ partner.template.name.toList, Text.isAscii c = true := by
    rcases plain.ascii with exact | each
    · exact .inl exact
    · rw [← sensitive]
      exact other.ascii.imp_right fun ascii => ⟨each entry known, ascii partner partners⟩
  have letters := first.letters_key entry.template.name partner.template.name both taken.symm
  have count : partner.template.name.toList.length = entry.template.name.toList.length := by
    rw [← Text.letters_length first.caseSensitive, ← letters, Text.letters_length]
  refine ⟨partner, ⟨partners, ?_, by rwa [count], head, rfl, ?_⟩, count, spelled⟩
  · rw [sensitive]
    exact Text.begins_letters _ _ _ _ letters begins
  · rw [other.indexed.identifiers partner partners]
    rw [plain.indexed.identifiers entry known] at lead
    have moved := first.leads_same _ _ both taken.symm head rest begins lead
    rwa [Grammar.leads, sensitive]

theorem identifier_follows (text : List Char) (template : Template T σ) (length : Nat)
    (found : first.matchIdentifier text = some (template, length)) :
    ∃ rival reach, second.matchIdentifier text = some (rival, reach) ∧ length ≤ reach ∧
      (reach = length → rival.respelled spell = template.respelled spell) := by
  obtain ⟨entry, stands, rfl, rfl⟩ := first.identifier_stands text template length found
  obtain ⟨partner, partners, count, spelled⟩ := counterpart_stands spell first second follows plain other text entry stands
  obtain ⟨_, _, best, reach⟩ := second.identifier_reaches _ partner partners
  obtain ⟨member, rival, rfl, rfl⟩ := second.identifier_stands _ _ _ best
  refine ⟨_, _, best, count ▸ reach, fun even => ?_⟩
  rw [← spelled, second.stands_unique other.orderly other.ascii text partner member partners.known rival.known
    partners.begins rival.begins (count.trans even.symm)]

end

section

variable (spell : String → String) (first second : Grammar T σ) (follows : Follows spell first second)
  (back : Follows spell second first) (plain : first.Plain) (other : second.Plain)

include follows back plain other

theorem identifier_agrees (text : List Char) :
    (first.matchIdentifier text).map (fun (template, length) => (template.respelled spell, length)) =
      (second.matchIdentifier text).map fun (template, length) => (template.respelled spell, length) := by
  cases found : first.matchIdentifier text with
  | none =>
      cases rival : second.matchIdentifier text with
      | none => rfl
      | some best =>
          obtain ⟨_, _, again, -⟩ := identifier_follows spell second first back other plain text best.1 best.2 rival
          exact absurd (found.symm.trans again) (by simp)
  | some best =>
      obtain ⟨rival, reach, there, within, same⟩ :=
        identifier_follows spell first second follows plain other text best.1 best.2 found
      obtain ⟨_, _, again, beyond, -⟩ := identifier_follows spell second first back other plain text rival reach there
      obtain rfl := Option.some.inj (found.symm.trans again)
      have even : reach = _ := Nat.le_antisymm beyond within
      simp only [there, Option.map_some, same even, even]

end

end Grammar

namespace Source

-- Sources over grammars that offer the same under every key.
structure Agrees (spell : String → String) (first second : Source T σ) : Prop where
  like : first.Alike second
  follows : Grammar.Follows spell first.grammar second.grammar
  back : Grammar.Follows spell second.grammar first.grammar
  plain : first.grammar.Plain
  other : second.grammar.Plain

section

variable (spell : String → String) (first second : Source T σ) (agrees : Agrees spell first second)

include agrees

theorem scan_agrees (start : Nat) (rest : List Char) :
    (first.scan start rest).map (fun (template, length) => (template.respelled spell, length)) =
      (second.scan start rest).map fun (template, length) => (template.respelled spell, length) := by
  have identifiers := Grammar.identifier_agrees spell first.grammar second.grammar agrees.follows agrees.back agrees.plain
    agrees.other rest
  rw [scan, scan, first.alike_operator second agrees.like]
  cases first.grammar.matchOperator rest with
  | some found => rfl
  | none =>
      simp only [Option.none_or]
      generalize first.grammar.matchIdentifier rest = found at identifiers
      generalize second.grammar.matchIdentifier rest = rival at identifiers
      cases found with
      | some best =>
          obtain ⟨other, rfl, same⟩ := Option.map_eq_some_iff.mp identifiers.symm
          exact congrArg Except.ok same.symm
      | none =>
          obtain rfl := Option.map_eq_none_iff.mp identifiers.symm
          simp only [agrees.like.parameters, first.alike_literal second agrees.like]

theorem tokens_agree (start : Nat) (text : List Char) :
    (first.tokensFrom start text).map (Except.map (Token.respelled spell)) =
      (second.tokensFrom start text).map (Except.map (Token.respelled spell)) := by
  have white := first.alike_white second agrees.like
  fun_induction tokensFrom first start text with
  | case1 start => rw [tokensFrom]
  | case2 start c rest blank ih => rw [tokensFrom, white, if_pos blank, ih]
  | case3 start c rest visible error scanned =>
      have agreed := scan_agrees spell first second agrees start (c :: rest)
      rw [scanned] at agreed
      rw [tokensFrom, white, if_neg visible]
      cases again : second.scan start (c :: rest) with
      | ok found => exact absurd agreed (by simp [again, Except.map])
      | error other =>
          obtain rfl := Except.error.inj (agreed.trans (congrArg _ again))
          rfl
  | case4 start c rest visible template length scanned stop ih =>
      have agreed := scan_agrees spell first second agrees start (c :: rest)
      rw [scanned] at agreed
      rw [tokensFrom, white, if_neg visible]
      cases again : second.scan start (c :: rest) with
      | error other => exact absurd agreed (by simp [again, Except.map])
      | ok found =>
          obtain ⟨rival, reach⟩ := found
          obtain ⟨same, rfl⟩ := Prod.mk.inj (Except.ok.inj (agreed.trans (congrArg _ again)))
          simp only [List.map_cons, ih]
          refine congrArg (· :: _) (congrArg Except.ok ?_)
          obtain ⟨form, alone⟩ := Template.mk.inj same
          simp only [Token.respelled, Token.ofTemplate, form, alone]
          rfl

end

end Source

namespace Grammar

theorem bind_agrees (first second : Grammar T σ) (flags : second.flags = first.flags)
    (reserved : ∀ key, key ∈ first.reserved ↔ key ∈ second.reserved) (names : List String) :
    second.bindParameters names = first.bindParameters names := by
  have sensitive : second.caseSensitive = first.caseSensitive := congrArg Flags.caseSensitive flags
  have key := first.key_flags second flags
  have taken (name : String) : second.isReserved name = first.isReserved name := by
    rw [isReserved, isReserved, key, decide_eq_decide]
    exact (reserved _).symm
  have checked (before : List String) : second.checkParameters before names = first.checkParameters before names := by
    fun_induction checkParameters first before names with
    | case1 before => rfl
    | _ => simp_all [checkParameters]
  rw [bindParameters, bindParameters, checked, sensitive]

def Lists (grammar : Grammar T σ) (name : String) : Prop := ∃ entry ∈ grammar.identifiers, entry.template.name = name

theorem lists_apart (grammar : Grammar T σ) (orderly : grammar.Orderly) (spell : String → String)
    (keeps : ∀ a b, spell a = spell b → grammar.key a = grammar.key b) : Apart spell grammar.Lists := by
  rintro _ _ ⟨entry, known, rfl⟩ ⟨other, known', rfl⟩ same
  rw [grammar.entry_unique orderly entry other known known' (keeps _ _ same)]

theorem covers_named {ι : Type} (grammar : Grammar T σ) (orderly : grammar.Orderly) (shape : Shape T σ ι)
    (covers : grammar.Covers shape) : shape.Named grammar.Lists := by
  have listed (action : Action T σ) (name : String) (offers : grammar.Offers action) (here : action.offered? = some name) :
      grammar.Lists name := by
    obtain ⟨entry, known, rfl⟩ := offers
    exact ⟨entry, known, orderly.named entry known name here⟩
  intro name here
  cases shape with
  | constant value named =>
      obtain rfl : named = some name := here
      exact listed _ name (covers.2 value name rfl) rfl
  | member source => exact listed _ name (covers.1 (.member source) rfl) here
  | call routine args span => exact listed _ name (covers.1 (.routine routine) rfl) here
  | _ => exact absurd here (by simp [Shape.name?])

end Grammar

def Compiled.respelled (spell : String → String) (compiled : Compiled T σ) : Compiled T σ :=
  { compiled with graph := compiled.graph.respelled spell }

theorem Compiled.respelled_labels (spell : String → String) (compiled : Compiled T σ) :
    compiled.respelled spell = compiled.relabelled (.spelling spell) compiled.parameters := by
  rw [respelled, relabelled, Graph.respelled_labels]

namespace Evaluator

def respelled (spell : String → String) (outcome : Except Error (Compiled T σ)) : Except Error (Compiled T σ) :=
  (outcome.map (Compiled.respelled spell)).mapError Error.anonymous

theorem finish_respelled [Numeric T] (spell : String → String) (known : String → Prop) (apart : Apart spell known)
    (expression : String) (names : List String) (optimize : Bool) (e : Expr T σ) (every : e.Every (Shape.Named known))
    (host : σ) :
    (finish expression names optimize (e.respelled spell)).run host =
      (((finish expression names optimize e).run host).1.respelled spell,
        ((finish expression names optimize e).run host).2) := by
  have finished := finish_relabelled (.spelling spell) known (Labels.spelling_distinct spell known apart) expression names
    names optimize e every host
  rw [Expr.respelled_labels, finished, Compiled.respelled_labels, finish_declares]

theorem tree_agrees (spell : String → String) (first second : Evaluator T σ) (parameters : Parameters) (expression : String)
    (agrees : Source.Agrees spell (first.source parameters expression) (second.source parameters expression)) :
    (((first.tree parameters expression).mapError foldError).map (Expr.respelled spell)).mapError Error.anonymous =
      (((second.tree parameters expression).mapError foldError).map (Expr.respelled spell)).mapError Error.anonymous := by
  have plain := respelled_tree spell expression (first.source parameters expression).tokens
  have other := respelled_tree spell expression (second.source parameters expression).tokens
  have same := Source.tokens_agree spell _ _ agrees 0 (first.source parameters expression).text
  refine plain.symm.trans (Eq.trans ?_ other)
  exact congrArg (fun items => ((foldTree (Postfix.order expression items)).mapError foldError).mapError Error.anonymous) same

theorem splits_agree (spell : String → String) (first second : Evaluator T σ) (parameters : Parameters) (expression : String)
    (agrees : Source.Agrees spell (first.source parameters expression) (second.source parameters expression)) :
    infos expression.toList (first.source parameters expression).tokens =
        infos expression.toList (second.source parameters expression).tokens ∧
      infos expression.toList (Postfix.order expression (first.source parameters expression).tokens) =
        infos expression.toList (Postfix.order expression (second.source parameters expression).tokens) := by
  have same : (first.source parameters expression).tokens.map (Except.map (Token.respelled spell)) =
      (second.source parameters expression).tokens.map (Except.map (Token.respelled spell)) :=
    Source.tokens_agree spell _ _ agrees 0 (first.source parameters expression).text
  have ordered (items : List (Except ParseError (Token T σ))) :
      (Postfix.order expression items).map (Except.map (Token.respelled spell)) =
        Postfix.order expression (items.map (Except.map (Token.respelled spell))) :=
    (Order.respelled_order spell expression Order.start items).symm
  constructor
  · rw [← infos_respelled spell, same, infos_respelled]
  · rw [← infos_respelled spell, ordered, same, ← ordered, infos_respelled]

theorem compile_agrees [Numeric T] (spell : String → String) (known rival : String → Prop) (apart : Apart spell known)
    (apart' : Apart spell rival) (first second : Evaluator T σ) (expression : String) (names : List String) (optimize : Bool)
    (bound : second.grammar.bindParameters names = first.grammar.bindParameters names)
    (agrees : ∀ parameters, Source.Agrees spell (first.source parameters expression) (second.source parameters expression))
    (named : ∀ parameters e, first.tree parameters expression = .ok e → e.Every (Shape.Named known))
    (named' : ∀ parameters e, second.tree parameters expression = .ok e → e.Every (Shape.Named rival)) :
    respelled spell <$> first.compileWith expression names optimize =
      respelled spell <$> second.compileWith expression names optimize := by
  rw [compileWith, compileWith, bound]
  cases first.grammar.bindParameters names with
  | error error => rfl
  | ok parameters =>
      have trees := tree_agrees spell first second parameters expression (agrees parameters)
      simp only
      cases one : first.tree parameters expression with
      | error failure =>
          cases other : second.tree parameters expression with
          | ok e => exact absurd trees (by simp [one, other, Except.mapError, Except.map])
          | error rival =>
              rw [one, other] at trees
              have blank : (foldError failure).anonymous = (foldError rival).anonymous := Except.error.inj trees
              simp only [map_pure, respelled, Except.map, Except.mapError, blank]
      | ok e =>
          cases other : second.tree parameters expression with
          | error failure => exact absurd trees (by simp [one, other, Except.mapError, Except.map])
          | ok f =>
              rw [one, other] at trees
              have same : e.respelled spell = f.respelled spell := Except.ok.inj trees
              funext host
              have finished := finish_respelled spell known apart expression names optimize e (named parameters e one) host
              have finished' := finish_respelled spell rival apart' expression names optimize f (named' parameters f other) host
              rw [same] at finished
              obtain ⟨graphs, hosts⟩ := Prod.mk.inj (finished.symm.trans finished')
              exact Prod.ext (congrArg Except.ok graphs) hosts

end Evaluator

theorem Grammar.built_agrees [Numeric T] (spell : String → String) (settings : Settings T σ) (others : List (Extension T σ))
    (first second : Evaluator T σ) (built : settings.build = .ok first)
    (rebuilt : { settings with extensions := others }.build = .ok second)
    (ascii : settings.flags.caseSensitive = true ∨ ∀ entry ∈ first.grammar.identifiers ++ second.grammar.identifiers,
      ∀ c ∈ entry.template.name.toList, Text.isAscii c = true)
    (offered : ∀ key, settings.offered? spell key = { settings with extensions := others }.offered? spell key) :
    (∀ names, second.grammar.bindParameters names = first.grammar.bindParameters names) ∧
      ∀ parameters expression,
        Source.Agrees spell (first.source parameters expression) (second.source parameters expression) := by
  have plain : first.grammar.Plain ∧ second.grammar.Plain := by
    have sensitive : first.grammar.caseSensitive = settings.flags.caseSensitive ∧
        second.grammar.caseSensitive = settings.flags.caseSensitive :=
      ⟨congrArg Flags.caseSensitive (built_settings settings first built).1,
        congrArg Flags.caseSensitive (built_settings _ second rebuilt).1⟩
    refine ⟨⟨built_orderly settings first built, reached_indexed _ (built_reached settings first built), ?_⟩,
      ⟨built_orderly _ second rebuilt, reached_indexed _ (built_reached _ second rebuilt), ?_⟩⟩
    · exact sensitive.1 ▸ ascii.imp_right fun each entry known => each entry (List.mem_append_left _ known)
    · exact sensitive.2 ▸ ascii.imp_right fun each entry known => each entry (List.mem_append_right _ known)
  obtain ⟨base, grammar, standard, registered, rfl⟩ := (settings.build_ok first).mp built
  obtain ⟨_, rival, standard', registered', rfl⟩ := (Settings.build_ok _ second).mp rebuilt
  obtain rfl := Except.ok.inj (standard.symm.trans standard')
  rw [register_all_offers] at registered registered'
  have wide := offers_widen _ base grammar registered
  have wider := offers_widen _ base rival registered'
  obtain ⟨flags, reserved⟩ := standard_reserved _ _ _ base standard
  have key := settings.key_grammar base flags
  have same (taken : String) (free : taken ∉ base.reserved) :
      (base.firstUnder? (Settings.offers settings.extensions) taken).map (Prod.map spell id) =
        (base.firstUnder? (Settings.offers others) taken).map (Prod.map spell id) := by
    rw [reserved, key] at free
    rw [firstUnder?, firstUnder?, key, ← settings.offered_free spell taken free, offered taken]
    exact Settings.offered_free _ spell taken free
  have follows := widened_follows spell base grammar rival _ _ wide wider same
  have back := widened_follows spell base rival grammar _ _ wider wide fun taken free => (same taken free).symm
  refine ⟨bind_agrees grammar rival follows.flags (widened_reserved spell base grammar rival _ _ wide wider same), ?_⟩
  exact fun parameters expression =>
    ⟨⟨rfl, rfl, rfl, follows.flags, wider.operators.trans wide.operators.symm, wider.whitespace.trans wide.whitespace.symm,
      wider.reader.trans wide.reader.symm⟩, follows, back, plain.1, plain.2⟩

theorem Grammar.built_apart [Numeric T] (spell : String → String) (settings : Settings T σ) (evaluator : Evaluator T σ)
    (built : settings.build = .ok evaluator) (keeps : ∀ a b, spell a = spell b → settings.key a = settings.key b) :
    Apart spell evaluator.grammar.Lists := by
  refine lists_apart _ (built_orderly settings evaluator built) spell ?_
  rw [settings.key_grammar _ (built_settings settings evaluator built).1]
  exact keeps

namespace Evaluator

theorem compiled_named [Numeric T] (settings : Settings T σ) (evaluator : Evaluator T σ)
    (built : settings.build = .ok evaluator) (parameters : Parameters) (expression : String) (e : Expr T σ)
    (found : evaluator.tree parameters expression = .ok e) : e.Every (Shape.Named evaluator.grammar.Lists) :=
  e.every_imp _ _ (evaluator.grammar.covers_named (Grammar.built_orderly settings evaluator built))
    (compiled_covered settings evaluator built parameters expression e found)

-- Of the offers under one key the first counts, and the order of the others, how they are grouped and what they
-- are called before they are qualified do not. A spelling says which names are one: the key of a name, or the
-- name itself.
theorem registration_order_irrelevant [Numeric T] (spell : String → String) (settings : Settings T σ)
    (others : List (Extension T σ)) (first second : Evaluator T σ) (built : settings.build = .ok first)
    (rebuilt : { settings with extensions := others }.build = .ok second)
    (keeps : ∀ a b, spell a = spell b → settings.key a = settings.key b)
    (ascii : settings.flags.caseSensitive = true ∨ ∀ entry ∈ first.grammar.identifiers ++ second.grammar.identifiers,
      ∀ c ∈ entry.template.name.toList, Text.isAscii c = true)
    (offered : ∀ key, settings.offered? spell key = { settings with extensions := others }.offered? spell key)
    (expression : String) (names : List String) :
    first.tokenize expression names = second.tokenize expression names ∧
      first.postfix? expression names = second.postfix? expression names ∧
      respelled spell <$> first.compile expression names = respelled spell <$> second.compile expression names ∧
      ∀ optimize, respelled spell <$> first.compileWith expression names optimize =
        respelled spell <$> second.compileWith expression names optimize := by
  obtain ⟨bound, agrees⟩ := Grammar.built_agrees spell settings others first second built rebuilt ascii offered
  have compiles (optimize : Bool) : respelled spell <$> first.compileWith expression names optimize =
      respelled spell <$> second.compileWith expression names optimize :=
    compile_agrees spell _ _ (Grammar.built_apart spell settings first built keeps)
      (Grammar.built_apart spell _ second rebuilt keeps) first second expression names optimize (bound names)
      (fun parameters => agrees parameters expression)
      (fun parameters e found => compiled_named settings first built parameters expression e found)
      fun parameters e found => compiled_named _ second rebuilt parameters expression e found
  have optimizes : second.optimizes = first.optimizes := by
    obtain ⟨base, grammar, -, -, rfl⟩ := (settings.build_ok first).mp built
    obtain ⟨other, rival, -, -, rfl⟩ := (Settings.build_ok _ second).mp rebuilt
    rfl
  refine ⟨?_, ?_, ?_, compiles⟩
  · rw [tokenize, tokenize, bound]
    cases first.grammar.bindParameters names with
    | error error => rfl
    | ok parameters => exact (splits_agree spell first second parameters expression (agrees parameters expression)).1
  · rw [postfix?, postfix?, bound]
    cases first.grammar.bindParameters names with
    | error error => rfl
    | ok parameters => exact (splits_agree spell first second parameters expression (agrees parameters expression)).2
  · rw [compile, compile, optimizes]
    exact compiles _

def five : Integer .signed := Integer.ofBits .signed 5

def three : Integer .signed := Integer.ofBits .signed 3

-- Two sources of which the second comes under the qualifier of the first.
def merged : Settings (Integer .signed) Unit :=
  ⟨⟨true, false, false, false⟩, [(Extension.mk "units" (some "m") [("k", .constant five)]).merge
    ⟨"more", some "cm", [("j", .constant three)]⟩], [], false, true, none⟩

-- The same in another order and in other letters, and behind it what is not taken up.
def listed : List (Extension (Integer .signed) Unit) :=
  [⟨"listed", none, [("M.j", .constant three), ("m.K", .constant five), ("m.J", .constant five), ("If", .constant three)]⟩]

theorem merged_offers_listed (key : String) :
    merged.offered? merged.key key = { merged with extensions := listed }.offered? merged.key key := by
  have offers : Settings.offers merged.extensions = [("m.k", .constant five), ("m.j", .constant three)] := by
    with_unfolding_all rfl
  have others : Settings.offers listed =
      [("M.j", .constant three), ("m.K", .constant five), ("m.J", .constant five), ("If", .constant three)] := by
    with_unfolding_all rfl
  have keys : ["m.k", "m.j", "M.j", "m.K", "m.J", "If"].map merged.key = ["m.k", "m.j", "m.j", "m.k", "m.j", "if"] := by
    with_unfolding_all rfl
  simp only [List.map_cons, List.map_nil, List.cons.injEq, and_true] at keys
  by_cases free : key ∈ (Grammar.builtinOperators merged.flags ++ Grammar.builtinIdentifiers :
      List (Template (Integer .signed) Unit)).map fun template => merged.key template.name
  · exact (if_pos free).trans (if_pos free).symm
  · have word : "if" ≠ key := by
      rintro rfl
      exact free (List.mem_map.mpr ⟨.function "if" .conditional, by simp [Grammar.builtinIdentifiers], keys.2.2.2.2.2⟩)
    have second : { merged with extensions := listed }.offered? merged.key key =
        ((Settings.offers listed).find? fun named => merged.key named.1 = key).map (Prod.map merged.key id) :=
      Settings.offered_free { merged with extensions := listed } merged.key key free
    rw [merged.offered_free _ key free, second, offers, others]
    by_cases k : "m.k" = key
    · simp [← k, keys]
    · by_cases j : "m.j" = key
      · simp [← j, keys]
      · simp [k, j, word, keys]

theorem merged_listed_agree :
    ∃ first second program, merged.build = .ok first ∧ { merged with extensions := listed }.build = .ok second ∧
      first.grammar.identifiers.map (fun entry => entry.template.name) = ["if", "trunc", "m.k", "m.j"] ∧
      second.grammar.identifiers.map (fun entry => entry.template.name) = ["if", "trunc", "M.j", "m.K"] ∧
      ((first.compileWith "m.k*M.J+x" ["x"] false).run ()).1 = .ok program ∧
      first.tokenize "m.k*M.J+x" ["x"] = second.tokenize "m.k*M.J+x" ["x"] ∧
      respelled merged.key <$> first.compile "m.k*M.J+x" ["x"] = respelled merged.key <$> second.compile "m.k*M.J+x" ["x"] := by
  obtain ⟨first, second, program, built, rebuilt, names, others, done⟩ :
      ∃ first second program, merged.build = .ok first ∧ { merged with extensions := listed }.build = .ok second ∧
        first.grammar.identifiers.map (fun entry => entry.template.name) = ["if", "trunc", "m.k", "m.j"] ∧
        second.grammar.identifiers.map (fun entry => entry.template.name) = ["if", "trunc", "M.j", "m.K"] ∧
        ((first.compileWith "m.k*M.J+x" ["x"] false).run ()).1 = .ok program := by
    refine ⟨_, _, ⟨"m.k*M.J+x", ["x"], ⟨#[.constant five (some "m.k"), .constant three (some "m.j"), .binary .mul 0 1 ⟨3, 4⟩,
      .parameter 0, .binary .add 2 3 ⟨7, 8⟩]⟩, none⟩, rfl, rfl, rfl, rfl, ?_⟩
    with_unfolding_all rfl
  have ascii : ∀ name ∈ ["if", "trunc", "m.k", "m.j", "if", "trunc", "M.j", "m.K"], name.toList.all Text.isAscii = true := by
    decide
  have both : (first.grammar.identifiers ++ second.grammar.identifiers).map (fun entry => entry.template.name) =
      ["if", "trunc", "m.k", "m.j", "if", "trunc", "M.j", "m.K"] := by
    rw [List.map_append, names, others]
    rfl
  obtain ⟨tokens, -, compiles, -⟩ := registration_order_irrelevant merged.key merged listed first second built rebuilt
    (fun _ _ => id) (.inr fun entry known => List.all_eq_true.mp (ascii _ (both ▸ List.mem_map_of_mem known)))
    merged_offers_listed "m.k*M.J+x" ["x"]
  exact ⟨first, second, program, built, rebuilt, names, others, done, tokens, compiles⟩

end Evaluator

end Formula
