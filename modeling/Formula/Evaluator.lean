import Formula.Extension
import Formula.Graph.Optimize
import Formula.Postfix.Order
import Formula.Token.Scan

set_option autoImplicit false

namespace Formula

structure Evaluator (T σ : Type) where
  grammar : Grammar T σ
  allowUnknown : Bool
  optimizes : Bool

-- What an evaluator is made of. Of two extensions with one name the earlier wins.
structure Settings (T σ : Type) where
  flags : Flags
  extensions : List (Extension T σ)
  whitespace : List Char
  allowUnknown : Bool
  optimizes : Bool
  -- The reader of the type itself where none is given.
  reader : Option (Reader T)

structure Compiled (T σ : Type) where
  expression : String
  parameters : List String
  graph : Graph T σ
  reports : Option (List PassReport)

namespace Settings

variable {T σ : Type}

def ofFlags (flags : Flags) : Settings T σ := ⟨flags, [], [], false, true, none⟩

def registerAll (grammar : Grammar T σ) (extensions : List (Extension T σ)) :
    Except GrammarError (Grammar T σ) :=
  extensions.foldlM (fun grammar extension => (extension.register grammar).map Prod.fst) grammar

def build [Numeric T] (settings : Settings T σ) : Except GrammarError (Evaluator T σ) := do
  let grammar ← Grammar.standard settings.flags (settings.reader.getD Numeric.read)
    settings.whitespace
  let grammar ← registerAll grammar settings.extensions
  return ⟨grammar, settings.allowUnknown, settings.optimizes⟩

end Settings

namespace Compiled

variable {T σ : Type}

def stats? (compiled : Compiled T σ) : Option OptimizeStats :=
  compiled.reports.map OptimizeStats.ofReports

def render [Numeric T] (compiled : Compiled T σ) : String :=
  compiled.graph.render compiled.parameters

def call [Numeric T] (compiled : Compiled T σ) (inputs : List T) : Run σ T :=
  if inputs.length = compiled.parameters.length then
    compiled.graph.run inputs
  else
    throw (.inputCount compiled.parameters.length inputs.length)

end Compiled

-- The error of a stream that could not be folded; one that was met while building a token is
-- placed at it.
def foldError {T σ : Type} : Postfix.Failure (Token T σ) Error → Error
  | .stream error => error
  | .build token (.eval error) => .eval (error.locate token.span)
  | .build _ error => error
  | .leftover count => .eval (Postfix.leftoverError count)

def treeBuilder {T σ : Type} : Postfix.Builder (Token T σ) Error (Expr T σ) where
  isOperand := Token.builder.isOperand
  leaf token := (Token.builder.leaf token).mapError .eval
  node token stack := (Token.builder.node token stack).mapError .eval

def foldTree {T σ : Type} (items : List (Except ParseError (Token T σ))) :
    Except (Postfix.Failure (Token T σ) Error) (Expr T σ) :=
  Postfix.fold treeBuilder (items.map fun item => item.mapError Error.parse)

namespace Evaluator

variable {T σ : Type}

def source (evaluator : Evaluator T σ) (parameters : Parameters) (expression : String) :
    Source T σ :=
  ⟨evaluator.grammar, parameters, evaluator.allowUnknown, expression⟩

def tree (evaluator : Evaluator T σ) (parameters : Parameters) (expression : String) :
    Except (Postfix.Failure (Token T σ) Error) (Expr T σ) :=
  foldTree (Postfix.order expression (evaluator.source parameters expression).tokens)

-- Makes a tree ready, whether or not it is to be optimized. Only the optimizer reaches the host.
def finish [Numeric T] (expression : String) (names : List String) (optimize : Bool)
    (e : Expr T σ) : StateM σ (Compiled T σ) := do
  let raw := Graph.ofExpr e
  if optimize then
    let (graph, reports) ← raw.optimize
    return ⟨expression, names, graph, some reports⟩
  else
    return ⟨expression, names, raw, none⟩

def compileWith [Numeric T] (evaluator : Evaluator T σ) (expression : String)
    (names : List String) (optimize : Bool) : StateM σ (Except Error (Compiled T σ)) :=
  match evaluator.grammar.bindParameters names with
  | .error error => return .error (.grammar error)
  | .ok parameters =>
      match evaluator.tree parameters expression with
      | .error failure => return .error (foldError failure)
      | .ok e => return .ok (← finish expression names optimize e)

def compile [Numeric T] (evaluator : Evaluator T σ) (expression : String)
    (names : List String) : StateM σ (Except Error (Compiled T σ)) :=
  evaluator.compileWith expression names evaluator.optimizes

def infos (text : List Char) (items : List (Except ParseError (Token T σ))) :
    Except Error (List TokenInfo) :=
  items.mapM fun item => (item.map (TokenInfo.ofToken text)).mapError .parse

def tokenize (evaluator : Evaluator T σ) (expression : String) (names : List String) :
    Except Error (List TokenInfo) := do
  let parameters ← (evaluator.grammar.bindParameters names).mapError .grammar
  infos expression.toList (evaluator.source parameters expression).tokens

def postfix? (evaluator : Evaluator T σ) (expression : String) (names : List String) :
    Except Error (List TokenInfo) := do
  let parameters ← (evaluator.grammar.bindParameters names).mapError .grammar
  infos expression.toList
    (Postfix.order expression (evaluator.source parameters expression).tokens)

end Evaluator

def evaluate {T : Type} [Numeric T] (expression : String) : Except Error T := do
  let evaluator : Evaluator T Unit ←
    ((Settings.ofFlags (Numeric.defaults T)).build).mapError .grammar
  let compiled ← ((evaluator.compile expression []).run ()).1
  ((compiled.call []).run ()).1.mapError .eval

end Formula
