import Formula.Proofs.Literal.Spelling
import Formula.Proofs.Numeric.Dependable
import Formula.Proofs.Token.Written

set_option autoImplicit false

namespace Formula

variable {T σ : Type}

def BinaryOperator.level : BinaryOperator → Nat × Role
  | .add | .sub => (10, .leftOperator)
  | .mul | .div | .rem => (20, .leftOperator)
  | .pow => (30, .rightOperator)
  | .shl | .shr => (5, .leftOperator)
  | .bitOr | .bitAnd | .bitXor => (1, .leftOperator)

def BinaryOperator.leftNeed (op : BinaryOperator) : Nat :=
  if op.level.2 = .rightOperator then op.level.1 + 1 else op.level.1

def BinaryOperator.rightNeed (op : BinaryOperator) : Nat :=
  if op.level.2 = .rightOperator then op.level.1 else op.level.1 + 1

def BinaryOperator.form (op : BinaryOperator) : Form T σ := ⟨op.symbol, op.level.2, op.level.1, .binary op⟩

namespace Grammar

theorem brackets_listed (flags : Flags) :
    (.punctuation "(" .openParen : Template T σ) ∈ builtinOperators flags ∧
      (.punctuation ")" .closeParen : Template T σ) ∈ builtinOperators flags ∧
      (.punctuation "," .separator : Template T σ) ∈ builtinOperators flags := by
  simp [builtinOperators, punctuationTemplates]

theorem numeric_listed (flags : Flags) (enabled : flags.numeric = true) :
    (numericTemplates : List (Template T σ)) ⊆ builtinOperators flags :=
  fun _ member => by simp [builtinOperators, enabled, member]

theorem decimal_listed (flags : Flags) (enabled : flags.decimal = true) :
    (decimalTemplates : List (Template T σ)) ⊆ builtinOperators flags :=
  fun _ member => by simp [builtinOperators, enabled, member]

theorem integer_listed (flags : Flags) (enabled : flags.integer = true) :
    (integerTemplates : List (Template T σ)) ⊆ builtinOperators flags :=
  fun _ member => by simp [builtinOperators, enabled, member]

theorem binary_listed (flags : Flags) (op : BinaryOperator) (enabled : op.under flags = true) :
    ∃ template ∈ builtinOperators flags, (template : Template T σ).form = op.form := by
  have among (table : List (Template T σ)) (listed : table ⊆ builtinOperators flags)
      (here : op.form ∈ table.map Template.form) :
      ∃ template ∈ builtinOperators flags, (template : Template T σ).form = op.form := by
    obtain ⟨template, member, same⟩ := List.mem_map.mp here
    exact ⟨template, listed member, same⟩
  cases op with
  | add | sub | mul | div | rem =>
      refine among numericTemplates (numeric_listed flags enabled) ?_
      simp [numericTemplates, Template.leftBinary, BinaryOperator.form, BinaryOperator.symbol, BinaryOperator.level]
  | pow =>
      refine among decimalTemplates (decimal_listed flags enabled) ?_
      simp [decimalTemplates, Template.rightBinary, BinaryOperator.form, BinaryOperator.symbol, BinaryOperator.level]
  | shl | shr =>
      rcases Bool.or_eq_true_iff.mp enabled with decimal | integer
      · refine among decimalTemplates (decimal_listed flags decimal) ?_
        simp [decimalTemplates, Template.leftBinary, BinaryOperator.form, BinaryOperator.symbol, BinaryOperator.level]
      · refine among integerTemplates (integer_listed flags integer) ?_
        simp [integerTemplates, Template.leftBinary, BinaryOperator.form, BinaryOperator.symbol, BinaryOperator.level]
  | bitOr | bitAnd | bitXor =>
      refine among integerTemplates (integer_listed flags enabled) ?_
      simp [integerTemplates, Template.leftBinary, BinaryOperator.form, BinaryOperator.symbol, BinaryOperator.level]

end Grammar

namespace Source

-- Wherever the text goes on with the piece and with what stops it, the piece is a phrase that an operator of this level
-- takes whole, and its tree means what it should.
def Spells (source : Source T σ) (piece : List Char) (need : Nat) (means : Expr T σ → Prop) : Prop :=
  ∀ start rest, Text.Clear rest → Text.dropBytes? start source.text = some (piece ++ rest) →
    ∃ (p : Phrase T σ) (e : Expr T σ), p.Fits ∧ need ≤ p.rank ∧ p.tree? = some e ∧ means e ∧
      source.Lexes start piece rest p.tokens

theorem spells_weaker (source : Source T σ) (piece : List Char) (need less : Nat) (means after : Expr T σ → Prop)
    (spells : source.Spells piece need means) (fewer : less ≤ need) (implies : ∀ e, means e → after e) :
    source.Spells piece less after := by
  intro start rest clear placed
  obtain ⟨p, e, fits, rank, tree, means, tokens⟩ := spells start rest clear placed
  exact ⟨p, e, fits, Nat.le_trans fewer rank, tree, implies e means, tokens⟩

theorem spells_lower (source : Source T σ) (piece : List Char) (need less : Nat) (means : Expr T σ → Prop)
    (spells : source.Spells piece need means) (fewer : less ≤ need) : source.Spells piece less means :=
  source.spells_weaker piece need less means means spells fewer fun _ meant => meant

section

variable (flags : Flags) (source : Source T σ) (readable : source.Readable flags)

theorem sign_clear (template : Template T σ) (known : template ∈ Grammar.builtinOperators flags) (rest : List Char) :
    Text.Clear (template.name.toList ++ rest) := by
  obtain ⟨c, name, spelling, sign⟩ := Grammar.signs_spelled flags template.name
    (Grammar.operators_signs flags ▸ List.mem_map_of_mem known)
  simp only [Grammar.isSign, Bool.and_eq_true, Bool.not_eq_true', decide_eq_true_eq] at sign
  rw [spelling]
  exact Text.clear_cons c _ sign.1.1.2 sign.1.2

theorem blanks_clear (gap : List Char) (blank : ∀ c ∈ gap, c = ' ') (rest : List Char) (clear : Text.Clear rest) :
    Text.Clear (gap ++ rest) := by
  cases gap with
  | nil => exact clear
  | cons c more =>
      obtain rfl := blank c List.mem_cons_self
      exact Text.clear_cons ' ' _ (by decide) (by decide)

def following (pieces : List (List Char)) : List Char := pieces.flatMap fun piece => ",".toList ++ (" ".toList ++ piece)

theorem intercalate_following (first : List Char) (pieces : List (List Char)) :
    ", ".toList.intercalate (first :: pieces) = first ++ following pieces := by
  induction pieces generalizing first with
  | nil => simp [following]
  | cons piece pieces ih =>
      rw [List.intercalate_cons_cons, ih, following, following, List.flatMap_cons]
      simp [List.append_assoc]

theorem following_clear (pieces : List (List Char)) (rest : List Char) (clear : Text.Clear rest) :
    Text.Clear (following pieces ++ rest) := by
  cases pieces with
  | nil => exact clear
  | cons next more => exact Text.clear_cons ',' _ (by decide) (by decide)

include readable

theorem spells_literal (piece : List Char) (shape : Literal.Shape) (value : T)
    (scanned : Literal.scan piece = some (shape, piece.length))
    (reads : ∀ start stop, Literal.at? source.text start = some ⟨shape, piece, stop⟩ →
      source.grammar.read source.text start = .ok (some (value, stop))) :
    source.Spells piece Phrase.primary (· = .node (.constant value none)) := by
  intro start rest clear placed
  have again := Literal.scan_clear rest clear piece shape scanned
  have found : Literal.at? source.text start = some ⟨shape, piece, start + piece.length⟩ := by
    simp [Literal.at?, placed, again]
  obtain ⟨name, lexes⟩ := literal_lexes flags source readable start piece rest shape value again (reads _ _ found)
  refine ⟨.operand _, _, ?_, Nat.le_refl _, rfl, rfl, lexes⟩
  exact rfl

theorem spells_written (n : Nat) (value : T)
    (reads : ∀ start stop, Literal.at? source.text start = some ⟨.integer, Nat.toDigits 10 n, stop⟩ →
      source.grammar.read source.text start = .ok (some (value, stop))) :
    source.Spells (Nat.toDigits 10 n) Phrase.primary (· = .node (.constant value none)) :=
  spells_literal flags source readable _ .integer value (Literal.scan_written n) reads

theorem spells_input (index : Nat) (name : String) (named : source.parameters.names[index]? = some name) :
    source.Spells name.toList Phrase.primary (· = .node (.parameter index)) := by
  intro start rest clear _
  refine ⟨.operand _, _, ?_, Nat.le_refl _, rfl, rfl, input_lexes flags source readable start index name named rest clear⟩
  exact rfl

theorem spells_member (member : Member T σ) (offered : source.grammar.Offers (.member member)) :
    source.Spells member.name.toList Phrase.primary (· = .node (.member member)) := by
  intro start rest clear _
  obtain ⟨entry, known, action⟩ := offered
  have named : entry.template.name = member.name :=
    readable.ordinary.orderly.named entry known member.name (by rw [action]; rfl)
  have role := (readable.cast.2 entry known).member member action
  have lexes := word_lexes flags source readable start entry known rest clear
  rw [named] at lexes
  refine ⟨.operand _, .node (.member member), ?_, Nat.le_refl _, ?_, rfl, lexes⟩
  · exact role
  · simp only [Phrase.tree?, Token.leaf?, Token.ofTemplate, action]

omit readable in
theorem spells_spaced (front back piece : List Char) (white : ∀ c ∈ front ++ back, Text.isWhiteSpace c = true) (need : Nat)
    (means : Expr T σ → Prop) (inner : source.Spells piece need means) :
    source.Spells (front ++ (piece ++ back)) need means := by
  intro start rest clear placed
  obtain ⟨before, behind⟩ := List.forall_mem_append.mp white
  have gap (start : Nat) (gap rest : List Char) (white : ∀ c ∈ gap, Text.isWhiteSpace c = true) :
      source.Lexes start gap rest [] :=
    source.gap_lexes start gap (fun c member => Bool.or_eq_true_iff.mpr (.inl (white c member))) rest
  have stops : Text.Clear (back ++ rest) := by
    cases back with
    | nil => exact clear
    | cons c more => exact Text.ended_clear _ (Text.ended_gap _ rest (by simp) behind)
  simp only [List.append_assoc] at placed
  obtain ⟨p, e, fits, rank, tree, meant, lexes⟩ := inner _ _ stops (Text.drop_bytes_later _ _ _ _ placed)
  refine ⟨p, e, fits, rank, tree, meant, ?_⟩
  have within := source.lexes_append _ _ _ _ _ _ lexes (gap _ back rest behind)
  rw [List.append_nil] at within
  exact source.lexes_append _ _ _ _ _ _ (gap start front (piece ++ back ++ rest) before) within

theorem spells_group (piece : List Char) (means : Expr T σ → Prop) (inner : source.Spells piece 0 means) :
    source.Spells ("(".toList ++ (piece ++ ")".toList)) Phrase.primary means := by
  intro start rest clear placed
  obtain ⟨opening, closing, -⟩ := Grammar.brackets_listed (T := T) (σ := σ) flags
  rw [List.append_assoc, List.append_assoc] at placed
  have later := Text.drop_bytes_later _ _ _ _ placed
  obtain ⟨p, e, fits, -, tree, means, lexes⟩ := inner _ _ (sign_clear flags _ closing rest) later
  have first := sign_lexes flags source readable start _ opening (piece ++ ")".toList ++ rest)
  have last := sign_lexes flags source readable (start + Text.width "(".toList + Text.width piece) _ closing rest
  refine ⟨.group _ p _, e, ⟨?_, fits, ?_⟩, Nat.le_refl _, tree, means,
    source.lexes_append _ _ _ _ _ _ first (source.lexes_append _ _ _ _ _ _ lexes last)⟩
  · exact rfl
  · exact rfl

theorem spells_before (template : Template T σ) (known : template ∈ Grammar.builtinOperators flags)
    (role : template.form.role.isOperator = true) (alone : ∀ span, (Token.ofTemplate template span).lone.form.isPrefix = true)
    (piece : List Char) (means after : Expr T σ → Prop) (inner : source.Spells piece unaryPrecedence means)
    (makes : ∀ span e, means e → ∃ whole, (Token.ofTemplate template span).lone.combine? [e] = some whole ∧ after whole) :
    source.Spells (template.name.toList ++ piece) unaryPrecedence after := by
  intro start rest clear placed
  obtain ⟨entry, listed, rfl⟩ := Grammar.operator_entry flags source.grammar readable.standard template known
  rw [List.append_assoc] at placed
  obtain ⟨p, e, fits, rank, tree, meant, lexes⟩ := inner _ _ clear (Text.drop_bytes_later _ _ _ _ placed)
  have first := sign_lexes flags source readable start _ known (piece ++ rest)
  obtain ⟨whole, combined, follows⟩ := makes ⟨start, start + Text.width entry.template.name.toList⟩ e meant
  refine ⟨.before _ p, whole, ⟨?_, rank, fits⟩, Nat.le_refl _, ?_, follows, source.lexes_append _ _ _ _ _ _ first lexes⟩
  · exact (readable.vetted.1 entry listed _).isPrefix role (alone _)
  · rw [Phrase.tree?, tree]
    exact combined

theorem spaced_lexes (start : Nat) (template : Template T σ) (known : template ∈ Grammar.builtinOperators flags)
    (gap : List Char) (blank : ∀ c ∈ gap, c = ' ') (rest : List Char) :
    ∃ span, source.Lexes start (gap ++ (template.name.toList ++ gap)) rest [.ofTemplate template span] := by
  have before := source.blanks_lex start gap blank (template.name.toList ++ gap ++ rest)
  have sign := sign_lexes flags source readable (start + Text.width gap) template known (gap ++ rest)
  have behind := source.blanks_lex (start + Text.width gap + Text.width template.name.toList) gap blank rest
  exact ⟨_, source.lexes_append _ _ _ _ _ _ before (source.lexes_append _ _ _ _ _ _ sign behind)⟩

theorem spells_between (op : BinaryOperator) (enabled : op.under flags = true) (gap : List Char)
    (blank : ∀ c ∈ gap, c = ' ') (left right : List Char) (leftMeans rightMeans after : Expr T σ → Prop)
    (first : source.Spells left op.leftNeed leftMeans) (second : source.Spells right op.rightNeed rightMeans)
    (makes : ∀ a b, leftMeans a → rightMeans b → ∀ span, after (.node (.binary op a b span))) :
    source.Spells (left ++ (gap ++ (op.symbol.toList ++ gap) ++ right)) op.level.1 after := by
  intro start rest clear placed
  obtain ⟨template, known, form⟩ := Grammar.binary_listed (T := T) (σ := σ) flags op enabled
  obtain ⟨entry, listed, rfl⟩ := Grammar.operator_entry flags source.grammar readable.standard template known
  have name : entry.template.name = op.symbol := congrArg Form.name form
  rw [← name] at placed ⊢
  have stops : Text.Clear (gap ++ (entry.template.name.toList ++ gap) ++ right ++ rest) := by
    simp only [List.append_assoc]
    exact blanks_clear gap blank _ (sign_clear flags entry.template known _)
  rw [List.append_assoc] at placed
  obtain ⟨p, a, leftFits, leftRank, leftTree, leftMeant, leftLexes⟩ := first start _ stops placed
  obtain ⟨span, sign⟩ := spaced_lexes flags source readable (start + Text.width left) _ known gap blank (right ++ rest)
  have later := Text.drop_bytes_later _ _ _ _ placed
  rw [List.append_assoc] at later
  obtain ⟨q, b, rightFits, rightRank, rightTree, rightMeant, rightLexes⟩ :=
    second _ rest clear (Text.drop_bytes_later _ _ _ _ later)
  have binary : Phrase.IsBinary (.ofTemplate entry.template span) := by
    refine (readable.vetted.1 entry listed _).isBinary ?_ ?_
    · rw [Token.role, Token.ofTemplate, form]
      cases op <;> rfl
    · rw [Token.ofTemplate, form]
      cases op <;> rfl
  refine ⟨.between p (.ofTemplate entry.template span) q, .node (.binary op a b span),
    ⟨binary, ?_, ?_, leftFits, rightFits⟩, ?_, ?_,
    makes a b leftMeant rightMeant span,
    source.lexes_append _ _ _ _ _ _ leftLexes (source.lexes_append _ _ _ _ _ _ sign rightLexes)⟩
  · simpa [Phrase.leftNeed, BinaryOperator.leftNeed, Token.role, Token.ofTemplate, form, BinaryOperator.form] using leftRank
  · simpa [Phrase.rightNeed, BinaryOperator.rightNeed, Token.role, Token.ofTemplate, form, BinaryOperator.form] using rightRank
  · simp [Phrase.rank, Token.ofTemplate, form, BinaryOperator.form]
  · simp [Phrase.tree?, leftTree, rightTree, Token.combine?, Token.ofTemplate, form, BinaryOperator.form]

theorem following_lexes (pieces : List (List Char)) (meanings : List (Expr T σ → Prop))
    (spells : List.Forall₂ (fun piece means => source.Spells piece 0 means) pieces meanings) (args : Arguments T σ)
    (trees : List (Expr T σ)) (fit : Phrase.ArgumentsFit args) (built : Phrase.argumentTrees? args = some trees)
    (start : Nat) (rest : List Char) (clear : Text.Clear rest)
    (placed : Text.dropBytes? start source.text = some (following pieces ++ rest)) :
    ∃ all more es, Phrase.ArgumentsFit all ∧ Phrase.argumentTrees? all = some (trees ++ es) ∧
      List.Forall₂ (fun means e => means e) meanings es ∧ Phrase.argumentTokens all = Phrase.argumentTokens args ++ more ∧
      source.Lexes start (following pieces) rest more := by
  obtain ⟨-, -, comma⟩ := Grammar.brackets_listed (T := T) (σ := σ) flags
  induction spells generalizing args trees start with
  | nil => exact ⟨args, [], [], fit, by simpa using built, .nil, by simp, source.lexes_nothing start rest⟩
  | @cons piece means pieces meanings first _ ih =>
      have stops := following_clear pieces rest clear
      rw [following, List.flatMap_cons, ← following, List.append_assoc] at placed
      have later := Text.drop_bytes_later _ _ _ _ placed
      simp only [List.append_assoc] at placed
      obtain ⟨p, e, pFits, -, tree, meant, lexes⟩ := first _ _ stops
        (Text.drop_bytes_later _ _ _ _ (Text.drop_bytes_later _ _ _ _ placed))
      have blank := source.blanks_lex (start + Text.width ",".toList) " ".toList (by simp)
        (piece ++ (following pieces ++ rest))
      have sign := sign_lexes flags source readable start _ comma (" ".toList ++ piece ++ (following pieces ++ rest))
      have here := source.lexes_append _ _ _ _ _ _ sign (source.lexes_append _ _ _ _ _ _ blank lexes)
      obtain ⟨all, more, es, allFit, allBuilt, meantAll, tokens, lexesAll⟩ := ih
        (.more args (.ofTemplate (.punctuation "," .separator) ⟨start, start + Text.width ",".toList⟩) p) (trees ++ [e])
        ⟨fit, rfl, pFits⟩ (by simp [Phrase.argumentTrees?, built, tree]) _ later
      refine ⟨all, _, e :: es, allFit, by simpa using allBuilt, .cons meant meantAll, ?_,
        source.lexes_append _ _ _ _ _ _ here lexesAll⟩
      rw [tokens, Phrase.argumentTokens, List.append_assoc]
      rfl

theorem spells_call (entry : Entry T σ) (known : entry ∈ source.grammar.identifiers)
    (role : entry.template.form.role = .function) (pieces : List (List Char)) (meanings : List (Expr T σ → Prop))
    (spells : List.Forall₂ (fun piece means => source.Spells piece 0 means) pieces meanings) (after : Expr T σ → Prop)
    (makes : ∀ span es, List.Forall₂ (fun means e => means e) meanings es →
      ∃ whole, (Token.ofTemplate entry.template span).combine? es = some whole ∧ after whole) :
    source.Spells (entry.template.name.toList ++ ("(".toList ++ (", ".toList.intercalate pieces ++ ")".toList)))
      Phrase.primary after := by
  intro start rest clear placed
  obtain ⟨opening, closing, -⟩ := Grammar.brackets_listed (T := T) (σ := σ) flags
  have function (span : Span) : Phrase.IsFunction (.ofTemplate entry.template span) :=
    (readable.vetted.2 entry known span).isFunction role
  simp only [List.append_assoc] at placed
  have inside := Text.drop_bytes_later _ _ _ _ (Text.drop_bytes_later _ _ _ _ placed)
  obtain ⟨named, word⟩ : ∃ span, source.Lexes start entry.template.name.toList
      ("(".toList ++ (", ".toList.intercalate pieces ++ ")".toList) ++ rest) [.ofTemplate entry.template span] :=
    ⟨_, word_lexes flags source readable start entry known _ (by rw [List.append_assoc]; exact sign_clear flags _ opening _)⟩
  obtain ⟨opened, bracket⟩ : ∃ span, source.Lexes (start + Text.width entry.template.name.toList) "(".toList
      (", ".toList.intercalate pieces ++ ")".toList ++ rest) [.ofTemplate (.punctuation "(" .openParen) span] :=
    ⟨_, sign_lexes flags source readable _ _ opening _⟩
  obtain ⟨closed, last⟩ : ∃ span, source.Lexes (start + Text.width entry.template.name.toList + Text.width "(".toList +
      Text.width (", ".toList.intercalate pieces)) ")".toList rest [.ofTemplate (.punctuation ")" .closeParen) span] :=
    ⟨_, sign_lexes flags source readable _ _ closing rest⟩
  have stops := sign_clear flags _ closing rest
  cases spells with
  | nil =>
      obtain ⟨whole, combined, follows⟩ := makes named [] .nil
      exact ⟨.emptyCall (.ofTemplate entry.template named) (.ofTemplate (.punctuation "(" .openParen) opened)
        (.ofTemplate (.punctuation ")" .closeParen) closed), whole, ⟨function named, rfl, rfl⟩, Nat.le_refl _, combined,
        follows, source.lexes_append _ _ _ _ _ _ word (source.lexes_append _ _ _ _ _ _ bracket last)⟩
  | @cons piece means pieces meanings first others =>
      rw [intercalate_following, List.append_assoc] at inside
      obtain ⟨p, e, pFits, -, tree, meant, lexes⟩ := first _ _ (following_clear pieces _ stops) inside
      obtain ⟨all, more, es, allFit, built, meantAll, tokens, lexesAll⟩ := following_lexes flags source readable pieces
        meanings others (.one p) [e] pFits (by simp [Phrase.argumentTrees?, tree]) _ _ stops
        (Text.drop_bytes_later _ _ _ _ inside)
      have arguments := source.lexes_append _ _ _ _ _ _ lexes lexesAll
      rw [← intercalate_following] at arguments
      obtain ⟨whole, combined, follows⟩ := makes named (e :: es) (.cons meant meantAll)
      refine ⟨.call (.ofTemplate entry.template named) (.ofTemplate (.punctuation "(" .openParen) opened) all
        (.ofTemplate (.punctuation ")" .closeParen) closed), whole, ⟨function named, rfl, allFit, rfl⟩, Nat.le_refl _, ?_,
        follows, ?_⟩
      · rw [Phrase.tree?, built]
        exact combined
      · rw [Phrase.tokens, tokens]
        exact source.lexes_append _ _ _ _ _ _ word (source.lexes_append _ _ _ _ _ _ bracket
          (source.lexes_append _ _ _ _ _ _ arguments last))

section

variable (piece : List Char) (means after : Expr T σ → Prop)

theorem spells_unary (op : UnaryOperator) (enabled : op.under flags = true) (inner : source.Spells piece unaryPrecedence means)
    (makes : ∀ e span, means e → after (.node (.unary op e span))) :
    source.Spells (op.symbol.toList ++ piece) unaryPrecedence after := by
  cases op with
  | negate =>
      exact spells_before flags source readable
        (.leftBinary "-" .sub 10 (some ⟨"-", .rightOperator, unaryPrecedence, .unary .negate⟩))
        (Grammar.numeric_listed flags enabled (by simp [Grammar.numericTemplates])) rfl (fun _ => rfl) piece means after inner
        fun span e meant => ⟨_, rfl, makes e span meant⟩
  | complement =>
      exact spells_before flags source readable (.before "~" (.unary .complement) unaryPrecedence)
        (Grammar.integer_listed flags enabled (by simp [Grammar.integerTemplates])) rfl (fun _ => rfl) piece means after inner
        fun span e meant => ⟨_, rfl, makes e span meant⟩

theorem spells_identity (enabled : flags.numeric = true) (inner : source.Spells piece unaryPrecedence means)
    (makes : ∀ e span, means e → after (.node (.convert .identity e span))) :
    source.Spells ("+".toList ++ piece) unaryPrecedence after :=
  spells_before flags source readable
    (.leftBinary "+" .add 10 (some ⟨"+", .rightOperator, unaryPrecedence, .convert .identity⟩))
    (Grammar.numeric_listed flags enabled (by simp [Grammar.numericTemplates])) rfl (fun _ => rfl) piece means after inner
    fun span e meant => ⟨_, rfl, makes e span meant⟩

theorem spells_integral (inner : source.Spells piece 0 means)
    (makes : ∀ e span, means e → after (.node (.convert .integral e span))) :
    source.Spells ("trunc".toList ++ ("(".toList ++ (", ".toList.intercalate [piece] ++ ")".toList))) Phrase.primary after := by
  obtain ⟨entry, known, same⟩ := readable.standard.identifiers (.function "trunc" (.convert .integral))
    (by simp [Grammar.builtinIdentifiers])
  have spells := spells_call flags source readable entry known (by rw [same]; rfl) [piece] [means] (.cons inner .nil) after
  rw [same] at spells
  refine spells fun span es meant => ?_
  obtain _ | ⟨here, ⟨⟩⟩ := meant
  exact ⟨_, rfl, makes _ span here⟩

end

theorem spells_conditional (condition accepted rejected : List Char) (first second third after : Expr T σ → Prop)
    (decides : source.Spells condition 0 first) (accepts : source.Spells accepted 0 second)
    (rejects : source.Spells rejected 0 third)
    (makes : ∀ a b c, first a → second b → third c → after (.node (.conditional a b c))) :
    source.Spells ("if".toList ++ ("(".toList ++ (", ".toList.intercalate [condition, accepted, rejected] ++ ")".toList)))
      Phrase.primary after := by
  obtain ⟨entry, known, same⟩ := readable.standard.identifiers (.function "if" .conditional)
    (by simp [Grammar.builtinIdentifiers])
  have spells := spells_call flags source readable entry known (by rw [same]; rfl) [condition, accepted, rejected]
    [first, second, third] (.cons decides (.cons accepts (.cons rejects .nil))) after
  rw [same] at spells
  refine spells fun span es meant => ?_
  obtain _ | ⟨here, _ | ⟨there, _ | ⟨last, ⟨⟩⟩⟩⟩ := meant
  exact ⟨_, rfl, makes _ _ _ here there last⟩

theorem spells_routine (routine : Routine T σ) (offered : source.grammar.Offers (.call routine)) (pieces : List (List Char))
    (meanings : List (Expr T σ → Prop))
    (spells : List.Forall₂ (fun piece means => source.Spells piece 0 means) pieces meanings)
    (counted : pieces.length = routine.arity) (after : Expr T σ → Prop)
    (makes : ∀ es span, List.Forall₂ (fun means e => means e) meanings es → after (.node (.call routine es span))) :
    source.Spells (routine.name.toList ++ ("(".toList ++ (", ".toList.intercalate pieces ++ ")".toList))) Phrase.primary
      after := by
  obtain ⟨entry, known, action⟩ := offered
  have named : entry.template.name = routine.name :=
    readable.ordinary.orderly.named entry known routine.name (by rw [action]; rfl)
  have role := (readable.cast.2 entry known).call routine action
  have called := spells_call flags source readable entry known role pieces meanings spells after
  rw [named] at called
  refine called fun span es meant => ⟨.node (.call routine es span), ?_, makes es span meant⟩
  have arity : es.length = routine.arity := by rw [← counted, spells.length_eq, meant.length_eq]
  simp [Token.combine?, Token.ofTemplate, action, arity]

end

end Source

namespace Evaluator

theorem built_readable [Numeric T] [Literate T] (settings : Settings T σ) (evaluator : Evaluator T σ)
    (built : settings.build = .ok evaluator) (default : settings.reader = none) (names : List String)
    (idle : ∀ c ∈ settings.whitespace, evaluator.grammar.Idle names c) (declared : evaluator.grammar.Declared [] names)
    (plain : evaluator.grammar.caseSensitive = true ∨
      (∀ entry ∈ evaluator.grammar.identifiers, ∀ c ∈ entry.template.name.toList, Text.isAscii c = true) ∧
        ∀ name ∈ names, ∀ c ∈ name.toList, Text.isAscii c = true)
    (expression : String) :
    (evaluator.source ⟨names, evaluator.grammar.caseSensitive⟩ expression).Readable settings.flags :=
  ⟨idle_ordinary settings evaluator built default names idle declared plain expression,
    Grammar.built_standard settings evaluator built, Phrase.build_vetted settings evaluator built,
    Grammar.built_cast settings evaluator built⟩

theorem spelled_tree [Numeric T] (settings : Settings T σ) (evaluator : Evaluator T σ)
    (built : settings.build = .ok evaluator) (parameters : Parameters) (expression : String) (need : Nat)
    (means : Expr T σ → Prop) (spells : (evaluator.source parameters expression).Spells expression.toList need means) :
    ∃ e, evaluator.tree parameters expression = .ok e ∧ means e := by
  have placed : Text.dropBytes? 0 (evaluator.source parameters expression).text = some (expression.toList ++ []) :=
    (Text.drop_bytes_iff _ _ _).mpr ⟨[], by simp [Source.text, source], rfl⟩
  obtain ⟨p, e, fits, -, tree, meant, lexes⟩ := spells 0 [] Text.clear_nil placed
  have tokens : (evaluator.source parameters expression).tokens = p.tokens.map .ok := by
    rw [Source.Lexes, List.append_nil, Source.tokensFrom, List.append_nil] at lexes
    exact lexes
  have proper : ∀ token ∈ p.tokens, Phrase.Proper token := by
    intro token member
    refine Phrase.carried_proper settings evaluator built token (Phrase.tokens_from_carried
      (evaluator.source parameters expression) 0 (evaluator.source parameters expression).text token ?_)
    exact (show (evaluator.source parameters expression).tokensFrom 0 _ = _ from tokens) ▸ List.mem_map_of_mem member
  refine ⟨e, ?_, meant⟩
  rw [Evaluator.tree, tokens]
  exact (Phrase.fold_tree_sentence expression p.tokens proper e).mpr ⟨p, fits, rfl, tree⟩

end Evaluator

end Formula
