set_option autoImplicit false

namespace Formula.CommandLine

inductive Level where
  | warn
  | info
  | debug
  | trace
deriving DecidableEq, Repr

namespace Level

def ofVerbosity : Nat → Level
  | 0 => warn
  | 1 => info
  | 2 => debug
  | _ => trace

def rank : Level → Nat
  | warn => 0
  | info => 1
  | debug => 2
  | trace => 3

def display : Level → String
  | warn => "WARN"
  | info => "INFO"
  | debug => "DEBUG"
  | trace => "TRACE"

end Level

structure Record where
  level : Level
  target : String
  message : String
deriving DecidableEq, Repr

namespace Record

def line (record : Record) : String :=
  let name := record.level.display
  let padded := name ++ String.ofList (List.replicate (5 - name.length) ' ')
  "[" ++ padded ++ " " ++ record.target ++ "] " ++ record.message ++ "\n"

def lines (level : Level) (records : List Record) : String :=
  String.join ((records.filter fun record => record.level.rank ≤ level.rank).map line)

end Record

end Formula.CommandLine
