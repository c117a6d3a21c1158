import TemplateVm.Console.Demo

set_option autoImplicit false

/-!
# Command line arguments

A command line has options of its own, a command, and then the options and positional arguments of
the command. The common options may stand on both sides of the command. Anything that does not fit
makes the whole command line unusable.
-/
namespace TemplateVm.Console

/-- How much is logged. -/
inductive LogLevel where
  | warn | info | debug | trace
  deriving DecidableEq, Inhabited

namespace LogLevel

/-- The level for a number of requests to be verbose. -/
def ofVerbosity (n : UInt8) : LogLevel :=
  if n = 0 then warn else if n = 1 then info else if n = 2 then debug else trace

def name : LogLevel → String
  | warn => "WARN" | info => "INFO" | debug => "DEBUG" | trace => "TRACE"

end LogLevel

/-- What a program is run with. -/
structure RunOptions where
  demo : Demo
  arguments : List Int32 := []
  trace : Bool := false
  countBytecodes : Bool := false
  histogram : Bool := false
  verifyReferences : Bool := false
  stopAt : Option UInt64 := none
  maxSteps : Option UInt64 := none
  compileThreshold : Option UInt32 := none
  deriving DecidableEq, Inhabited

/-- The settings with what the options ask for. Stopping at a count needs the count. -/
def RunOptions.apply (o : RunOptions) (s : Settings) : Settings :=
  { s with
    traceBytecodes := s.traceBytecodes || o.trace
    countBytecodes := s.countBytecodes || o.countBytecodes || o.stopAt.isSome
    histogram := s.histogram || o.histogram
    verifyReferences := s.verifyReferences || o.verifyReferences
    stopAt := o.stopAt.getD s.stopAt
    maxSteps := o.maxSteps.getD s.maxSteps
    compileThreshold := o.compileThreshold.getD s.compileThreshold }

inductive Command where
  | stubs
  | disassemble (name : String)
  | config
  | run (options : RunOptions)
  deriving DecidableEq, Inhabited

structure CommandLine where
  /-- How often verbosity was asked for, up to 255. -/
  verbosity : UInt8
  configPath : Option String
  command : Command
  deriving DecidableEq, Inhabited

/-- What one side of the command accepts. -/
structure Grammar where
  /-- Names of options without and with a value, besides the common ones. -/
  flags : List String := []
  options : List String := []
  /-- The first argument that is no option ends this side. -/
  endsAtPositional : Bool := false
  /-- Behind so many positional arguments, negative numbers are arguments and no options. -/
  negativesAfter : Option Nat := none

/-- What was found on one side of the command, the latest first. -/
structure Found where
  verbosity : UInt8 := 0
  flags : List String := []
  options : List (String × String) := []
  positionals : List String := []
  deriving DecidableEq, Inhabited

namespace Found

def addVerbose (f : Found) : Found :=
  { f with verbosity := if f.verbosity = 255 then 255 else f.verbosity + 1 }

/-- Only requests to be verbose may come more than once. -/
def addFlag (f : Found) (name : String) : Option Found :=
  if name = "verbose" then some f.addVerbose
  else if f.flags.contains name then none
  else some { f with flags := name :: f.flags }

def addOption (f : Found) (name value : String) : Option Found :=
  if (f.options.lookup name).isSome then none
  else some { f with options := (name, value) :: f.options }

def addPositional (f : Found) (s : String) : Found :=
  { f with positionals := s :: f.positionals }

def option? (f : Found) (name : String) : Option String := f.options.lookup name

end Found

/-- What an argument looks like. -/
inductive Shape where
  | positional
  /-- A name after two dashes, perhaps with a value. -/
  | long (name : String) (value : Option String)
  /-- Letters after one dash. -/
  | letters (cs : List Char)
  /-- Two dashes: only positional arguments follow. -/
  | divider

def Shape.of (s : String) : Shape :=
  match s.toList with
  | ['-', '-'] => .divider
  | '-' :: '-' :: cs =>
    match cs.span (· ≠ '=') with
    | (name, '=' :: value) => .long (String.ofList name) (some (String.ofList value))
    | (name, _) => .long (String.ofList name) none
  | '-' :: c :: cs => .letters (c :: cs)
  | _ => .positional

/-- Digits with perhaps a point among or after them, and perhaps an exponent of digits. -/
def isNumber (cs : List Char) : Bool :=
  let rest := match cs.dropWhile Char.isDigit with
    | '.' :: rest => rest.dropWhile Char.isDigit
    | rest => rest
  cs.head?.any Char.isDigit && match rest with
    | [] => true
    | 'e' :: exponent => !exponent.isEmpty && exponent.all Char.isDigit
    | _ => false

namespace Grammar

def isFlag (g : Grammar) (name : String) : Bool := name == "verbose" || g.flags.contains name

def isOption (g : Grammar) (name : String) : Bool := name == "config" || g.options.contains name

/-- A negative number in a place where it is no option. Whether an argument then reads is seen
    later: not every number is an integer. -/
def isNegative (g : Grammar) (f : Found) (cs : List Char) : Bool :=
  isNumber cs && g.negativesAfter.any (· ≤ f.positionals.length)

/-- An argument that may be the value of the option before it. -/
def isValue (g : Grammar) (f : Found) (s : String) : Bool :=
  match Shape.of s with
  | .positional => true
  | .letters cs => g.isNegative f cs
  | _ => false

/-- Letters after one dash: any number of requests to be verbose, and then perhaps the path of the
    settings, which may be in the next argument. -/
def letters (f : Found) : List Char → Option (Found × Bool)
  | [] => some (f, false)
  | 'v' :: cs => letters f.addVerbose cs
  | ['c'] => some (f, true)
  | 'c' :: '=' :: cs => (f.addOption "config" (String.ofList cs)).map (·, false)
  | 'c' :: cs => (f.addOption "config" (String.ofList cs)).map (·, false)
  | _ => none

/-- Reads one side; gives what was found and the arguments behind it. -/
def scan (g : Grammar) (f : Found) : List String → Option (Found × List String)
  | [] => some (f, [])
  | s :: rest =>
    match Shape.of s with
    | .positional =>
      if g.endsAtPositional then some (f, s :: rest) else scan g (f.addPositional s) rest
    | .divider =>
      if g.endsAtPositional then none else some (rest.foldl Found.addPositional f, [])
    | .long name value =>
      if g.isFlag name then
        match value with
        | none => (f.addFlag name).bind (scan g · rest)
        | some _ => none
      else if g.isOption name then
        match value, rest with
        | some value, rest => (f.addOption name value).bind (scan g · rest)
        | none, value :: rest =>
          if g.isValue f value then (f.addOption name value).bind (scan g · rest) else none
        | none, [] => none
      else none
    | .letters cs =>
      if g.isNegative f cs then scan g (f.addPositional s) rest
      else
        match letters f cs, rest with
        | some (f, false), rest => scan g f rest
        | some (f, true), value :: rest =>
          if g.isValue f value then (f.addOption "config" value).bind (scan g · rest) else none
        | _, _ => none

end Grammar

/-- A number without sign, or with a plus. -/
def natural? (s : String) : Option Nat :=
  let digits := match s.toList with
    | '+' :: cs => cs
    | cs => cs
  if digits.isEmpty || !digits.all Char.isDigit then none else (String.ofList digits).toNat?

def natural64? (s : String) : Option UInt64 :=
  (natural? s).bind fun n => if n < UInt64.size then some n.toUInt64 else none

/-- A number with or without sign. -/
def integer? (s : String) : Option Int :=
  match s.toList with
  | '-' :: '+' :: _ => none
  | '-' :: cs => (natural? (String.ofList cs)).map fun n => -(n : Int)
  | _ => (natural? s).map fun n => (n : Int)

/-- A number in the range of half a word; minus zero is one too. -/
def natural32? (s : String) : Option UInt32 :=
  (integer? s).bind fun n =>
    if 0 ≤ n ∧ n < (UInt32.size : Int) then some n.toNat.toUInt32 else none

def int32? (s : String) : Option Int32 :=
  (integer? s).bind fun n =>
    if Int32.minValue.toInt ≤ n ∧ n ≤ Int32.maxValue.toInt then some (Int32.ofInt n) else none

/-- The value of an option, none if it is not there; fails if it does not read. -/
def optional? {α : Type} (read : String → Option α) : Option String → Option (Option α)
  | none => some none
  | some s => (read s).map some

def outerGrammar : Grammar := { endsAtPositional := true }

def runGrammar : Grammar :=
  { flags := ["trace", "count-bytecodes", "histogram", "verify-oops"]
    options := ["stop-at", "max-steps", "compile-threshold"]
    negativesAfter := some 1 }

def runOptions? (f : Found) : Option RunOptions :=
  match f.positionals.reverse with
  | [] => none
  | demo :: arguments => do
    let demo ← Demo.ofName? demo
    let arguments ← arguments.mapM int32?
    let stopAt ← optional? natural64? (f.option? "stop-at")
    let maxSteps ← optional? natural64? (f.option? "max-steps")
    let compileThreshold ← optional? natural32? (f.option? "compile-threshold")
    pure
      { demo, arguments, stopAt, maxSteps, compileThreshold
        trace := f.flags.contains "trace"
        countBytecodes := f.flags.contains "count-bytecodes"
        histogram := f.flags.contains "histogram"
        verifyReferences := f.flags.contains "verify-oops" }

/-- The command of the given name with what follows it. -/
def command? (name : String) (rest : List String) : Option (Command × Found) := do
  let (f, _) ← Grammar.scan (if name = "run" then runGrammar else {}) {} rest
  match name, f.positionals with
  | "stubs", [] => some (.stubs, f)
  | "config", [] => some (.config, f)
  | "disassemble", [code] => some (.disassemble code, f)
  | "run", _ => (runOptions? f).map fun o => (.run o, f)
  | _, _ => none

/-- A path is never empty. -/
def path? (f : Found) : Option (Option String) :=
  optional? (fun s => if s = "" then none else some s) (f.option? "config")

/-- What the arguments ask for, if they can be used. A common option counts where it stands last. -/
def CommandLine.ofArguments? (arguments : List String) : Option CommandLine := do
  let (outer, rest) ← outerGrammar.scan {} arguments
  match rest with
  | [] => none
  | name :: rest =>
    let (command, inner) ← command? name rest
    let outerPath ← path? outer
    let innerPath ← path? inner
    pure
      { verbosity := if inner.verbosity = 0 then outer.verbosity else inner.verbosity
        configPath := innerPath <|> outerPath
        command }

end TemplateVm.Console
