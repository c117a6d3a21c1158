import TemplateVm.Console.Session

set_option autoImplicit false

/-!
# The program

Reads the settings that the command line names and prints what its command gives. Failures go to the
error output.
-/
namespace TemplateVm.Console

def usage : String :=
  "usage: interp [-v]... [-c PATH] stubs | disassemble NAME | config | run DEMO [INT]... [OPTIONS]"

/-- The settings in a file, or the defaults without one. -/
def readSettings (path : Option String) : IO (Except String Settings) := do
  match path with
  | none => pure (.ok {})
  | some path =>
    try
      let text ← IO.FS.readFile path
      pure ((Settings.ofText text).mapError fun d => (SessionError.settings d).message)
    catch e => pure (.error ("could not read config: " ++ toString e))

def execute (c : CommandLine) : IO (Except String String) := do
  match ← readSettings c.configPath with
  | .error message => pure (.error message)
  | .ok settings => pure ((Session.execute settings c.command).mapError SessionError.message)

end TemplateVm.Console

open TemplateVm.Console in
def main (arguments : List String) : IO UInt32 := do
  match CommandLine.ofArguments? arguments with
  | none =>
    IO.eprintln usage
    pure 2
  | some c =>
    match ← execute c with
    | .ok text =>
      IO.print text
      pure 0
    | .error message =>
      IO.eprintln ("Error: " ++ message)
      pure 1
