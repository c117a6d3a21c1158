import TemplateVm.Failure
import TemplateVm.Text.Json

set_option autoImplicit false

/-!
# Settings

What can be chosen when a machine is built. A machine is built from valid settings only; `validate`
finds the first objection. Settings are read from and written to JSON, where an object may leave
members out and an array gives the values in order.
-/
namespace TemplateVm

structure Settings where
  pageSize : UInt64 := 4096
  shadowPages : UInt64 := 4
  redPages : UInt64 := 1
  yellowPages : UInt64 := 2
  stackSize : UInt64 := 262144
  stackBanging : Bool := true
  compiler : Bool := true
  countCompiledCalls : Bool := false
  compileThreshold : UInt32 := 10000
  fastEmptyMethods : Bool := true
  fastAccessorMethods : Bool := true
  membar : Bool := true
  countBytecodes : Bool := false
  histogram : Bool := false
  traceBytecodes : Bool := false
  /-- Stop when so many bytecodes have run; zero for never. -/
  stopAt : UInt64 := 0
  verifyReferences : Bool := false
  debugChecks : Bool := true
  markBarrier : Bool := false
  invokeDynamic : Bool := true
  heapSize : UInt64 := 4194304
  metaspaceSize : UInt64 := 4194304
  maxSteps : UInt64 := 50000000
  deriving DecidableEq, Inhabited

inductive SettingsDefect where
  | pageSize (value : UInt64)
  | unaligned (name : String) (value : UInt64)
  | stackTooSmall (stackSize guardPages : UInt64)
  | emptyZone (name : String)
  | compileThreshold
  | maxSteps
  | unreadable
  deriving DecidableEq

def SettingsDefect.message : SettingsDefect → String
  | pageSize value => s!"page_size {value.toNat} must be a power of two >= 1024"
  | unaligned name value =>
    s!"{name} ({value.toNat}) must be a positive multiple of page_size"
  | stackTooSmall stackSize guardPages =>
    s!"stack_size {stackSize.toNat} leaves no room beyond {guardPages.toNat} guard pages"
  | emptyZone name => s!"stack_{name}_pages must be at least 1"
  | compileThreshold => "compile_threshold must be positive"
  | maxSteps => "max_steps must be positive"
  | unreadable => "parse error"

namespace Settings

/-- Powers of two have no bit in common with their predecessor. -/
def isPowerOfTwo (n : UInt64) : Bool := n != 0 && n &&& (n - 1) == 0

def guardPages (s : Settings) : UInt64 := s.redPages + s.yellowPages + s.shadowPages

/-- The first objection: page size, sizes, zones, stack, thresholds. -/
def defect? (s : Settings) : Option SettingsDefect :=
  let sizes := [("stack_size", s.stackSize), ("heap_size", s.heapSize),
    ("metaspace_size", s.metaspaceSize)]
  let zones := [("shadow", s.shadowPages), ("red", s.redPages), ("yellow", s.yellowPages)]
  if !isPowerOfTwo s.pageSize || s.pageSize < 1024 then some (.pageSize s.pageSize)
  else match sizes.find? fun (_, v) => v == 0 || v % s.pageSize != 0 with
  | some (name, v) => some (.unaligned name v)
  | none =>
    match zones.find? fun (_, pages) => pages == 0 with
    | some (name, _) => some (.emptyZone name)
    | none =>
      if s.stackSize / s.pageSize ≤ s.guardPages + 1 then
        some (.stackTooSmall s.stackSize s.guardPages)
      else if s.compileThreshold == 0 then some .compileThreshold
      else if s.maxSteps == 0 then some .maxSteps
      else none

def validate (s : Settings) : Except SettingsDefect Settings :=
  match s.defect? with
  | some d => .error d
  | none => .ok s

/-- Invocations are counted. -/
def countsInvocations (s : Settings) : Bool := s.compiler || s.countCompiledCalls

/-- A counter of executed bytecodes is needed. -/
def needsBytecodeCounter (s : Settings) : Bool :=
  s.countBytecodes || s.traceBytecodes || s.stopAt > 0

def maxGuardPages (s : Settings) : UInt64 := max s.shadowPages (s.redPages + s.yellowPages)

/-- One member of the JSON form. -/
structure Member where
  name : String
  read : Text.Json → Settings → Option Settings
  written : Settings → String

def word (name : String) (value : Settings → UInt64) (replace : UInt64 → Settings → Settings) :
    Member where
  name := name
  read j s := j.natural?.bind fun n => if n < UInt64.size then some (replace n.toUInt64 s) else none
  written s := toString (value s).toNat

def halfWord (name : String) (value : Settings → UInt32)
    (replace : UInt32 → Settings → Settings) : Member where
  name := name
  read j s := j.natural?.bind fun n => if n < UInt32.size then some (replace n.toUInt32 s) else none
  written s := toString (value s).toNat

def switch (name : String) (value : Settings → Bool) (replace : Bool → Settings → Settings) :
    Member where
  name := name
  read j s := match j with
    | .bool b => some (replace b s)
    | _ => none
  written s := if value s then "true" else "false"

def members : List Member := [
  word "page_size" pageSize fun v s => { s with pageSize := v },
  word "stack_shadow_pages" shadowPages fun v s => { s with shadowPages := v },
  word "stack_red_pages" redPages fun v s => { s with redPages := v },
  word "stack_yellow_pages" yellowPages fun v s => { s with yellowPages := v },
  word "stack_size" stackSize fun v s => { s with stackSize := v },
  switch "use_stack_banging" stackBanging fun v s => { s with stackBanging := v },
  switch "use_compiler" compiler fun v s => { s with compiler := v },
  switch "count_compiled_calls" countCompiledCalls fun v s => { s with countCompiledCalls := v },
  halfWord "compile_threshold" compileThreshold fun v s => { s with compileThreshold := v },
  switch "use_fast_empty_methods" fastEmptyMethods fun v s => { s with fastEmptyMethods := v },
  switch "use_fast_accessor_methods" fastAccessorMethods
    fun v s => { s with fastAccessorMethods := v },
  switch "use_membar" membar fun v s => { s with membar := v },
  switch "count_bytecodes" countBytecodes fun v s => { s with countBytecodes := v },
  switch "print_bytecode_histogram" histogram fun v s => { s with histogram := v },
  switch "trace_bytecodes" traceBytecodes fun v s => { s with traceBytecodes := v },
  word "stop_interpreter_at" stopAt fun v s => { s with stopAt := v },
  switch "verify_oops" verifyReferences fun v s => { s with verifyReferences := v },
  switch "debug_checks" debugChecks fun v s => { s with debugChecks := v },
  switch "use_satb_barrier" markBarrier fun v s => { s with markBarrier := v },
  switch "enable_invoke_dynamic" invokeDynamic fun v s => { s with invokeDynamic := v },
  word "heap_size" heapSize fun v s => { s with heapSize := v },
  word "metaspace_size" metaspaceSize fun v s => { s with metaspaceSize := v },
  word "max_steps" maxSteps fun v s => { s with maxSteps := v }]

/-- Reads the members of an object over the settings so far. Unknown names are skipped; `seen` holds
    the names read, and none may come twice. -/
def readObject (seen : List String) (s : Settings) :
    List (Option String × Text.Json) → Option Settings
  | [] => some s
  | (none, _) :: _ => none
  | (some key, j) :: rest =>
    match members.find? (·.name = key) with
    | none => readObject seen s rest
    | some m => if key ∈ seen then none else (m.read j s).bind (readObject (key :: seen) · rest)

/-- Reads values in the order of the members; there may be fewer of them, but not more. -/
def readArray (s : Settings) : List Member → List Text.Json → Option Settings
  | _, [] => some s
  | [], _ => none
  | m :: ms, j :: rest => (m.read j s).bind (readArray · ms rest)

def ofJson? : Text.Json → Option Settings
  | .object ms => readObject [] {} ms
  | .array items => readArray {} members items
  | _ => none

/-- Valid settings from JSON text. -/
def ofText (text : String) : Except SettingsDefect Settings :=
  match (Text.Json.ofText? text).bind ofJson? with
  | some s => s.validate
  | none => .error .unreadable

/-- JSON text with one member a line. -/
def toText (s : Settings) : String :=
  let lines := members.map fun m => "  \"" ++ m.name ++ "\": " ++ m.written s
  "\x7b\n" ++ String.intercalate ",\n" lines ++ "\n\x7d"

end Settings
end TemplateVm
