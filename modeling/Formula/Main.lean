import Formula.CommandLine

set_option autoImplicit false

namespace Formula.CommandLine

def fileError : IO.Error → String
  | .noFileOrDirectory _ _ _ => "No such file or directory (os error 2)"
  | error => toString error

def loadFile (args : List String) : IO (Except String String) := do
  match Options.ofArgs? args with
  | none => return .error ""
  | some options =>
      if options.has .file then
        try
          return .ok (← IO.FS.readFile options.expression)
        catch error =>
          return .error (fileError error)
      else
        return .error ""

end Formula.CommandLine

def main (args : List String) : IO UInt32 := do
  let file ← Formula.CommandLine.loadFile args
  match Formula.CommandLine.run? (fun _ => file) args with
  | none =>
      IO.eprintln "usage: [OPTIONS] <EXPRESSION>"
      return 2
  | some outcome =>
      IO.print outcome.stdout
      IO.eprint outcome.stderr
      return outcome.code.toUInt32
