import Formula.CommandLine.Log
import Formula.CommandLine.Options
import Formula.Evaluator
import Formula.Extension.Library
import Formula.Numeric.Integer

set_option autoImplicit false

namespace Formula.CommandLine

structure Outcome where
  code : Nat
  stdout : String
  stderr : String
deriving DecidableEq, Repr

-- Work that leaves a record of what it did, also when it fails.
abbrev Logged (α : Type) := ExceptT Error (StateM (List Record)) α

def note (level : Level) (target message : String) : Logged Unit :=
  modify (· ++ [⟨level, target, message⟩])

def require {α : Type} (outcome : Except Error α) : Logged α := fun records =>
  (outcome, records)

def badBinding (param details : String) : Error := .eval (.extension s!"--param {param}" details)

def binding (T : Type) [Numeric T] (param : String) : Except Error (String × T) :=
  let text := param.toList
  if '=' ∈ text then
    let name := text.takeWhile (· ≠ '=')
    let value := (text.dropWhile (· ≠ '=')).tail
    match Numeric.parse T (String.ofList value) with
    | .ok value => .ok (String.ofList (Numeric.trim name), value)
    | .error details => .error (badBinding param details)
  else
    .error (badBinding param "expected NAME=VALUE")

section

variable {T : Type} [Numeric T]

def buildEvaluator (settings : Settings T Unit) : Logged (Evaluator T Unit) := do
  let grammar : Grammar T Unit ← require
    ((Grammar.standard settings.flags Numeric.read settings.whitespace).mapError .grammar)
  note .debug "exprc::interpreter::grammar"
    (s!"built {Numeric.name T} grammar with flags {settings.flags.display}: " ++
      s!"{grammar.operators.length} operators, {grammar.identifiers.length} identifiers")
  let mut grammar := grammar
  for extension in settings.extensions do
    let (larger, count) ← require ((extension.register grammar).mapError .grammar)
    note .debug "exprc::interpreter::evaluator::extensions"
      s!"extension '{extension.label}' registered {count} name(s)"
    grammar := larger
  return ⟨grammar, settings.allowUnknown, settings.optimizes⟩

def buildTree (evaluator : Evaluator T Unit) (parameters : Parameters) (expression : String) :
    Logged (Expr T Unit) := do
  match evaluator.tree parameters expression with
  | .ok e => return e
  | .error failure =>
      match failure with
      | .build token (.eval error) =>
          note .trace "exprc::interpreter::evaluator::core"
            s!"building '{token.name}' at {token.span.display} failed: {error.message}"
      | _ => pure ()
      throw (foldError failure)

def notePasses (number : Nat) : List PassReport → Logged Unit
  | [] => pure ()
  | report :: rest => do
      note .trace "exprc::interpreter::optimizer::core"
        (s!"optimizer pass {number}: {report.rewrites} rewrite(s), {report.removed} removed, " ++
          s!"{report.merged} merged")
      notePasses (number + 1) rest

def compile (evaluator : Evaluator T Unit) (expression : String) (names : List String) :
    Logged (Compiled T Unit) := do
  let parameters ← require ((evaluator.grammar.bindParameters names).mapError .grammar)
  let e ← buildTree evaluator parameters expression
  let (compiled, _) := (Evaluator.finish expression names evaluator.optimizes e).run ()
  notePasses 1 (compiled.reports.getD [])
  note .debug "exprc::interpreter::evaluator::core"
    s!"compiled '{expression}' into {compiled.graph.count} node(s)"
  return compiled

def treeText (evaluator : Evaluator T Unit) (compiled : Compiled T Unit) : String :=
  compiled.render ++ "\ngrammar: " ++ evaluator.grammar.flags.display ++
    match compiled.stats? with
    | none => ""
    | some stats =>
        s!"\n{compiled.graph.count} node(s) after {stats.passes} pass(es), " ++
          s!"{stats.removed} removed, {stats.merged} merged"

def answer (options : Options) (expression : String) (extension : Extension T Unit)
    (format : T → String) : Logged String := do
  let defaults := Numeric.defaults T
  let flags := { defaults with caseSensitive := options.has .caseSensitive }
  let evaluator ← buildEvaluator
    ⟨flags, [extension], [], false, !options.has .noOptimize, none⟩
  let bindings ← require (options.params.mapM (binding T))
  let names := bindings.map Prod.fst
  if options.has .tokens then
    let infos ← require (evaluator.tokenize expression names)
    return "\n".intercalate (infos.map TokenInfo.display)
  let compiled ← compile evaluator expression names
  if options.has .tree then
    return treeText evaluator compiled
  let value ← require (((compiled.call (bindings.map Prod.snd)).run ()).1.mapError .eval)
  return format value

end

def decimalPlaces : Nat := 40

def answerFor (options : Options) (expression : String) : Logged String :=
  match options.mode.getD .float with
  | .float => answer options expression Library.floatMath Numeric.display
  | .decimal =>
      answer options expression Library.decimalMath fun x => Decimal.format x decimalPlaces
  | .int => answer (T := Integer .signed) options expression Library.common Numeric.display
  | .uint => answer (T := Integer .unsigned) options expression Library.common Numeric.display

def expressionText (readFile : String → Except String String) (options : Options) :
    Except String String :=
  if options.has .file then
    match readFile options.expression with
    | .ok text => .ok (String.ofList (Numeric.trim text.toList))
    | .error details =>
        .error s!"Failed to read the input file '{options.expression}': {details}\n"
  else
    .ok options.expression

-- What the options print. Records go to the same stream as the error, in front of it.
def execute (readFile : String → Except String String) (options : Options) : Outcome :=
  let level := Level.ofVerbosity options.verbosity
  let opening : Record := ⟨.debug, "exprc::logging", s!"logging at {level.display}"⟩
  match expressionText readFile options with
  | .error message => ⟨1, "", Record.lines level [opening] ++ message⟩
  | .ok expression =>
      let (result, records) := (answerFor options expression).run.run [opening]
      match result with
      | .ok text => ⟨0, text ++ "\n", Record.lines level records⟩
      | .error error =>
          ⟨1, "", Record.lines level records ++ "error: " ++ error.render expression ++ "\n"⟩

-- Nothing is run when the arguments do not follow the usage.
def run? (readFile : String → Except String String) (args : List String) : Option Outcome :=
  (Options.ofArgs? args).map (execute readFile)

end Formula.CommandLine
