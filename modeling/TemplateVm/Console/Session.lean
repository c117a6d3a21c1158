import TemplateVm.Console.Arguments

set_option autoImplicit false

/-!
# Sessions

A session carries out commands under fixed settings and gives what they print.
-/
namespace TemplateVm.Console

inductive SessionError where
  | machine (failure : Failure)
  | settings (defect : SettingsDefect)
  | unknownCode (name : String)
  deriving DecidableEq

def SessionError.message : SessionError → String
  | machine failure => "vm error: " ++ failure.message
  | settings defect => "invalid configuration: " ++ defect.message
  | unknownCode name => s!"no code named '{name}'"

/-- What a run shows. -/
structure Report where
  call : String
  outcome : Outcome
  bytecodes : Option UInt64
  histogram : List (Opcode × UInt64)
  trace : List TraceRecord

/-- How a call ended, as a line. -/
def outcomeLine (call : String) : Outcome → String
  | .returned .void => call ++ " returned"
  | .returned value => call ++ " = " ++ value.text
  | .threw _ name (some message) => s!"{call} threw {name}: {message}"
  | .threw _ name none => s!"{call} threw {name}"
  | .popped arguments =>
    let words := String.intercalate ", " (arguments.map fun w => toString w.toNat)
    s!"{call} popped with [{words}]"

def Report.text (r : Report) : String :=
  let count := (r.bytecodes.map fun n => s!"bytecodes executed: {n.toNat}").toList
  let histogram := r.histogram.map fun (o, n) =>
    "  " ++ Text.padLeft 12 ' ' (toString n.toNat) ++ "  " ++ o.name
  let trace := r.trace.map fun record => "  " ++ record.text
  String.join ((outcomeLine r.call r.outcome :: count ++ histogram ++ trace).map (· ++ "\n"))

namespace Session

/-- Runs a demo program on a machine for the settings. -/
def report (s : Settings) (d : Demo) (given : List Int32) : Except Failure Report := do
  let vm ← Vm.create s
  let arguments := d.arguments given
  let texts := arguments.map fun n => toString n.toInt
  let go : Vm.Action Report := do
    d.install
    let outcome ← Vm.callStatic Demo.className d.entry (arguments.map Value.int)
    let bytecodes ← if s.countBytecodes then some <$> Vm.bytecodeCount else pure none
    let histogram ← if s.histogram then Vm.histogram else pure []
    pure
      { call := Demo.className ++ "." ++ d.entry ++ "(" ++ String.intercalate ", " texts ++ ")"
        outcome, bytecodes, histogram, trace := (← get).trace.recent.toList }
  match go vm with
  | .ok report _ => .ok report
  | .error failure _ => .error failure

def image (s : Settings) : Except SessionError Image :=
  (Image.generate s).mapError fun d => .machine (.codeGeneration d.message)

/-- What a command prints. -/
def execute (s : Settings) : Command → Except SessionError String
  | .stubs => return (← image s).summary
  | .config => .ok (s.toText ++ "\n")
  | .disassemble name => do
    match (← image s).listing? name with
    | some text => .ok text
    | none => .error (.unknownCode name)
  | .run o => do
    let s ← (o.apply s).validate.mapError SessionError.settings
    let report ← (report s o.demo o.arguments).mapError SessionError.machine
    pure report.text

end Session
end TemplateVm.Console
