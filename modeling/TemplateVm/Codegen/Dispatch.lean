import TemplateVm.Codegen.Template

set_option autoImplicit false

/-!
# Dispatch

Each opcode has an entry for every state in which the topmost operand may be held. A template that
wants nothing held pushes whatever is; one that wants a value pops it unless it is held already;
all other combinations are errors of the program.
-/
namespace TemplateVm

/-- An address for each state, in their order. -/
structure EntryPoint where
  entries : Vector UInt64 10
  deriving DecidableEq, Inhabited

namespace EntryPoint

def uniform (a : UInt64) : EntryPoint := ⟨.replicate 10 a⟩

def ofList (l : List UInt64) : EntryPoint := ⟨Vector.ofFn fun i => l.getD i.val 0⟩

def get (e : EntryPoint) (tos : TopOfStack) : UInt64 := e.entries[tos.index]?.getD 0

def set (e : EntryPoint) (tos : TopOfStack) (a : UInt64) : EntryPoint :=
  ⟨e.entries.setIfInBounds tos.index a⟩

end EntryPoint

/-- The entry points of all bytes. -/
structure DispatchTable where
  rows : Array EntryPoint
  deriving Inhabited

namespace DispatchTable

/-- `entry` gives the entry points of the opcodes; every other byte has `otherwise`. -/
def ofOpcodes (entry : Opcode → EntryPoint) (otherwise : EntryPoint) : DispatchTable :=
  ⟨Array.ofFn fun i : Fin 256 => ((Opcode.ofByte? i.val.toUInt8).map entry).getD otherwise⟩

def get (t : DispatchTable) (tos : TopOfStack) (byte : UInt8) : UInt64 :=
  ((t.rows[byte.toNat]?).map (·.get tos)).getD 0

/-- The words of the table in the order of their slots: state by state, byte by byte. -/
def words (t : DispatchTable) : List UInt64 :=
  TopOfStack.all.flatMap fun tos => t.rows.toList.map (·.get tos)

end DispatchTable

namespace Emit

open Register

/-- Adds one to a global word. -/
def countAt (a : UInt64) : Emit Unit := do
  movImm scratch1 a
  movImm scratch2 1
  ldadd scratch2 zero scratch1

/-- Stops when as many bytecodes as the settings say have been counted. -/
def stopAtCount (n : UInt64) : Emit Unit := do
  let goOn ← newLabel
  movImm scratch1 Place.bytecodeCounter
  ldr scratch1 scratch1.at
  movImm scratch2 n
  cmp scratch1 scratch2
  bIf .ne goOn
  brk 0
  bind goOn

/-- Reports the bytecode with the value that is held in the state. -/
def traceEntry (tos : TopOfStack) : Emit UInt64 := do
  let entry ← pc
  stp x0 link (.pre sp (-16))
  strd .v0 (.pre sp (-16))
  movImm x1 tos.index.toUInt64
  mov x2 x0
  emit (.bitsOfFloat x3 .v0 .double)
  callVm none .traceBytecode [x1, x2, x3]
  ldrd .v0 (.post sp 16)
  ldp x0 link (.post sp 16)
  ret link
  pure entry

/-- The entries for reporting a bytecode, one for each state. -/
def tracing : Emit (List UInt64) := do
  let (_, entries) ← stub "bytecode tracing" (TopOfStack.all.mapM traceEntry)
  pure entries

/-- The tracing entries, if bytecodes are traced. -/
def traceEntries : Emit (List UInt64) := do
  if (← settings).traceBytecodes then tracing else pure []

/-- Counters and tracing. -/
def beforeTemplate (o : Opcode) (tosIn : TopOfStack) (trace : EntryPoint) : Emit Unit := do
  let s ← settings
  whenM s.histogram (countAt (Place.histogram + o.byte.toUInt64 * 8))
  whenM s.needsBytecodeCounter (countAt Place.bytecodeCounter)
  whenM s.traceBytecodes (blTo (trace.get tosIn))
  whenM (s.stopAt > 0) (stopAtCount s.stopAt)

/-- What comes before the template, the template, then dispatch of the next bytecode. -/
def templateCode (o : Opcode) (t : Template) (trace : EntryPoint) : Emit Unit := do
  beforeTemplate o t.tosIn trace
  t.code
  whenM (!t.dispatches) (dispatchNext t.tosOut o.length.toUInt64)

/-- Entries of a template that wants nothing held: each pushes its value. -/
def pushingEntries : Emit EntryPoint := do
  let ready ← newLabel
  let object ← pc
  pushWord x0
  b ready
  let float ← pc
  pushFloat .v0
  b ready
  let double ← pc
  pushDouble .v0
  b ready
  let long ← pc
  pushLong x0
  b ready
  let int ← pc
  pushWord x0
  let none ← pc
  bind ready
  pure (.ofList [int, int, int, int, int, long, float, double, object, none])

/-- The entries of a template that takes the state. `illegal` is for states that it cannot take. -/
def stateEntries (illegal : UInt64) (tosIn : TopOfStack) : Emit EntryPoint :=
  if tosIn = .none then pushingEntries
  else do
    let unheld ← pc
    pop tosIn
    let held ← pc
    pure (((EntryPoint.uniform illegal).set .none unheld).set tosIn held)

/-- The entry points of an opcode. -/
def entryPoint (e : ExceptionEntries) (illegal : UInt64) (trace : EntryPoint) (o : Opcode) :
    Emit EntryPoint := do
  let t := Template.ofOpcode e o
  let (_, entries) ← stub o.name do
    let entries ← stateEntries illegal t.tosIn
    templateCode o t trace
    pure entries
  pure entries

/-- The entry points of all opcodes, in their order. -/
def entryPoints (e : ExceptionEntries) (illegal : UInt64) (trace : EntryPoint) :
    Emit (List (Opcode × EntryPoint)) :=
  Opcode.all.toList.mapM fun o => do
    let entry ← entryPoint e illegal trace o
    pure (o, entry)

end Emit
end TemplateVm
