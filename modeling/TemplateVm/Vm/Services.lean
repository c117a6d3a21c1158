import TemplateVm.Vm.Linking
import TemplateVm.Vm.Locking

set_option autoImplicit false

/-!
# Runtime services

What happens when generated code calls a service: arguments are in the first registers, the
result, if there is one, goes to the first register, and control returns to the link register.
-/
namespace TemplateVm.Vm

open Memory (Guarded)
open Register

def counterOverflow : Action Unit := do
  let id ← methodOf (← lastFrame)
  let t ← classes
  let count ← onMemory (Guarded.readA ((t.method id).address + MethodRecord.invocationCounter) 4)
  modify fun vm =>
    { vm with hooks := vm.hooks.counterOverflow (t.member id) count.toUInt32 }

/-- Asks for the current frame to be popped. -/
def requestPop : Action Unit := onThread fun t => do
  let p ← t.pop
  t.setPop (.ofBits (p.bits ||| FramePop.pendingBit))

def methodEntry : Action Unit := do
  let id ← methodOf (← lastFrame)
  let t ← classes
  if ← consult (·.methodEntry (t.member id)) then requestPop

def tosAt (what : String) (index : UInt64) : Action TopOfStack :=
  match TopOfStack.ofIndex? index.toNat with
  | some tos => pure tos
  | none => throw (.internal s!"{what} with bad tos {index.toNat}")

def methodExit (index : UInt64) : Action Unit := do
  let tos ← tosAt "method exit" index
  let id ← methodOf (← lastFrame)
  let t ← classes
  if ← consult (·.methodExit (t.member id) tos) then requestPop

def traceBytecode (index x0 v0 : UInt64) : Action Unit := do
  let tos ← tosAt "trace" index
  let frame ← lastFrame
  let id ← methodOf frame
  let (bcp, byte) ← onMemory do
    let bcp ← frame.read Frame.bytecode
    let byte ← Guarded.readA bcp 1
    pure (bcp, byte)
  let t ← classes
  let record : TraceRecord :=
    { method := t.member id, bci := ((t.method id).bci? bcp).getD 0
      opcode := Opcode.ofByte? byte.toUInt8, tos, x0, v0 }
  modify fun vm => { vm with trace := vm.trace.push record }

def atSafepoint : Action Unit := do
  let operations ← onSafepoints Safepoints.atSafepoint
  operations.forM fun name => note (.safepoint name)

/-- A native call returns: a safepoint that is armed is taken, a suspended thread goes on. -/
def checkNativeTransition : Action Unit := do
  if (← get).safepoints.armed then atSafepoint
  onThread fun t => do
    if (← t.suspend) ≠ 0 then t.setSuspend 0

/-- Arms the yellow zone again if it is disarmed and nothing objects; says whether it is armed. -/
def reguard : Action Bool := do
  if (← onThread (·.guard)) ≠ .yellowDisabled then pure true
  else if !(← consult Hooks.shouldReguard) then pure false
  else
    let map := (← get).map
    onMemory (modify fun m => m.protect map.redEnd map.yellowSize GuardTag.yellowZone)
    onThread (·.setGuard .enabled)
    pure true

/-- Moves the arguments of the call that the caller is about to make again. The number of words is
    that of the resolved call. -/
def movePoppedArguments (source target : UInt64) : Action Unit := do
  let caller : Frame := ⟨← reg frame⟩
  let id ← methodOf caller
  let (bcp, byte) ← onMemory do
    let bcp ← caller.read Frame.bytecode
    let byte ← Guarded.readA bcp 1
    pure (bcp, byte)
  let some o := Opcode.ofByte? byte.toUInt8
    | throw (.internal s!"popframe into a non-invoke at {Text.hex bcp.toNat}")
  let index ← poolIndex o bcp
  let t ← classes
  let cache := (t.get (t.method id).holder).cacheAddress
  onMemory do
    let flags ← Guarded.readA (cache + CacheRecord.entryField index.toUInt64 CacheRecord.flags) 8
    let words := (unpackFlags flags).1
    if source ≠ target ∧ words ≠ 0 then
      let arguments ← Guarded.readBytesA source (words * 8)
      Guarded.writeBytes target arguments

/-- Keeps the arguments of a frame that the host called, the first one first. -/
def preserveArguments (bytes start : UInt64) : Action Unit := do
  let words ← onMemory <| (List.range (bytes / 8).toNat).mapM fun i =>
    Guarded.readA (start + i.toUInt64 * 8) 8
  modify fun vm => { vm with preserved := some words.reverse }

/-- A reference is null or an object. -/
def verifyReference (reference pc : UInt64) : Action Unit := do
  if reference ≠ 0 ∧ !(← get).world.store.heap.isObject reference then
    throw (.stop ("broken oop " ++ Text.hex reference.toNat) pc)

/-- The functions of one argument, by their service. -/
def function? : Service → Option (Float → Float)
  | .sin => some Float.sin
  | .cos => some Float.cos
  | .tan => some Float.tan
  | .log => some Float.log
  | .log10 => some Float.log10
  | .exp => some Float.exp
  | _ => none

/-- Computes a function of floating registers. -/
def compute (f : Float → Float → Float) : Action Unit := modifyCpu fun cpu =>
  let x := Float.ofBits (cpu.float .v0)
  let y := Float.ofBits (cpu.float .v1)
  cpu.setFloat .v0 (f x y).toBits

/-- The work of a service. -/
def perform (s : Service) : Action Unit := do
  let a0 ← reg x0
  let a1 ← reg x1
  let a2 ← reg x2
  match s with
  | .resolve => resolve a1
  | .newInstance => newInstance a1
  | .newArray => newArray a1 a2
  | .createException => createException a1 a2
  | .createClassException => createClassException a1 a2
  | .throwArrayIndexOutOfBounds =>
    post .arrayIndexOutOfBounds (some (toString a1.toUInt32.toInt32.toInt))
  | .throwIllegalMonitorState => post .illegalMonitorState
  | .newIllegalMonitorState => newIllegalMonitorState
  | .throwIncompatibleClassChange =>
    post .incompatibleClassChange (some "invokedynamic is disabled")
  | .throwPendingException => pure ()
  | .handlerForException => setReg x0 (← handlerForException a1)
  | .monitorEnter => monitorEnter a1
  | .monitorExit => monitorExit a1
  | .counterOverflow => counterOverflow
  | .prepareNativeCall => prepareNativeCall a1
  | .postMethodEntry => methodEntry
  | .postMethodExit => methodExit a1
  | .atSafepoint => atSafepoint
  | .interpreterContains => setReg x0 ((← get).image.contains a0).toUInt64
  | .popframeMoveArguments => movePoppedArguments a1 a2
  | .popframePreserveArguments => preserveArguments a1 a2
  | .traceBytecode => traceBytecode a1 a2 (← reg x3)
  | .handlerForReturnAddress => setReg x0 (← handlerForReturnAddress a1)
  | .throwStackOverflow => post .stackOverflow
  | .throwAbstractMethod => post .abstractMethod
  | .throwNullPointer => post .nullPointer
  | .checkNativeTransition => checkNativeTransition
  | .reguardYellowZone => setReg x0 (← reguard).toUInt64
  | .sin | .cos | .tan | .log | .log10 | .exp => compute fun x _ => (function? s).elim x (· x)
  | .pow => compute Float.pow
  | .markBarrier => modify fun vm => { vm with marks := vm.marks.enqueue a0 }
  | .verifyReference => verifyReference a0 (← reg link)

/-- Performs a service and returns from it. The thread is in the runtime meanwhile, unless the
    service is a leaf. -/
def serve (s : Service) : Action Unit := do
  if !s.isLeaf then onThread (·.setState .inRuntime)
  perform s
  if !s.isLeaf then onThread (·.setState .inGuest)
  goTo (← reg link)

end TemplateVm.Vm
