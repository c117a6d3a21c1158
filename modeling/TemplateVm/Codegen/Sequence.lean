import TemplateVm.Codegen.Emit
import TemplateVm.Frame
import TemplateVm.Guest.Access
import TemplateVm.Records
import TemplateVm.ThreadBlock

set_option autoImplicit false

/-!
# Code sequences

The sequences that entries and templates are made of: the operand stack, dispatch to the next
bytecode, calls of services, frames, and the end of an activation.
-/
namespace TemplateVm.Emit

open Register

/-- A field of the thread's block. -/
abbrev threadField (offset : UInt64) : Address := .base thread offset

/-- A word of the current frame. -/
abbrev frameSlot (offset : UInt64) : Address := .base frame offset

/-- A field of the cache entry that a register points to. -/
abbrev cacheField (entry : Register) (field : UInt64) : Address :=
  .base entry (CacheRecord.base + field)

/-! ## Checks -/

def unreachable : Emit Unit := stop "should not reach here"

/-- Has the runtime check a reference, with all registers kept. -/
def verifyReference (r : Register) : Emit Unit := do
  if (← settings).verifyReferences then
    stp x0 link (.pre sp (-16))
    if r ≠ x0 then mov x0 r
    movImm scratch1 Service.verifyReference.address
    blr scratch1
    ldp x0 link (.post sp 16)

/-! ## The operand stack -/

def pushWord (r : Register) : Emit Unit := str r (.pre operands (-8))
def pushLong (r : Register) : Emit Unit := str r (.pre operands (-16))
def pushFloat (v : FloatRegister) : Emit Unit := strs v (.pre operands (-8))
def pushDouble (v : FloatRegister) : Emit Unit := strd v (.pre operands (-16))
def popInt (r : Register) : Emit Unit := ldrsw r (.post operands 8)
def popWord (r : Register) : Emit Unit := ldr r (.post operands 8)
def popLong (r : Register) : Emit Unit := ldr r (.post operands 16)
def popFloat (v : FloatRegister) : Emit Unit := ldrs v (.post operands 8)
def popDouble (v : FloatRegister) : Emit Unit := ldrd v (.post operands 16)

/-- Pushes the held value. -/
def push : TopOfStack → Emit Unit
  | .object => do
    verifyReference x0
    pushWord x0
  | .byte | .boolean | .char | .short | .int => pushWord x0
  | .long => pushLong x0
  | .float => pushFloat .v0
  | .double => pushDouble .v0
  | .none => pure ()

/-- Pops a value to be held. -/
def pop : TopOfStack → Emit Unit
  | .object => do
    popWord x0
    verifyReference x0
  | .byte | .boolean | .char | .short | .int => popInt x0
  | .long => popLong x0
  | .float => popFloat .v0
  | .double => popDouble .v0
  | .none => pure ()

/-! ## Dispatch -/

def loadDispatch : Emit Unit := movImm dispatch Place.activeTable

/-- Goes on with the opcode in the first scratch register. -/
def dispatchOn (tos : TopOfStack) : Emit Unit := do
  if tos.index ≠ 0 then add scratch1 scratch1 (tos.index * 256).toUInt64
  ldr scratch2 (.index dispatch scratch1 3)
  br scratch2

/-- Goes on with the bytecode `step` bytes further. -/
def dispatchNext (tos : TopOfStack) (step : UInt64) : Emit Unit := do
  ldrb scratch1 (.pre bytecode step)
  dispatchOn tos

/-- Goes on with the current bytecode, by another table than the active one. -/
def dispatchVia (tos : TopOfStack) (table : UInt64) : Emit Unit := do
  ldrb scratch1 bytecode.at
  movImm scratch2 (table + (tos.index * 256 * 8).toUInt64)
  ldr scratch2 (.index scratch2 scratch1 3)
  br scratch2

/-! ## The frame -/

def saveBytecode : Emit Unit := str bytecode (frameSlot Frame.bytecode)
def restoreBytecode : Emit Unit := ldr bytecode (frameSlot Frame.bytecode)
def restoreLocals : Emit Unit := ldr locals (frameSlot Frame.locals)
def restoreCache : Emit Unit := ldr cache (frameSlot Frame.cache)
def loadMethod (r : Register) : Emit Unit := ldr r (frameSlot Frame.method)

def emptyOperands : Emit Unit := do
  ldr operands (frameSlot Frame.monitorTop)
  str zero (frameSlot Frame.lastSp)

/-- Puts the machine's stack pointer below the operands that the method can push, and `2 + extra`
    words more. -/
def restoreSp (extra : UInt64) : Emit Unit := do
  ldr scratch1 (method.at MethodRecord.constMethod)
  ldrh scratch1 (scratch1.at ConstMethodRecord.maxStack)
  add scratch1 scratch1 (.imm (2 + extra))
  ldr scratch2 (frameSlot Frame.monitorTop)
  sub scratch1 scratch2 (scratch1.lsl 3)
  and sp scratch1 (.imm (-16))

/-- The cache entry that the operand at `offset` behind the bytecode names. -/
def loadCacheEntry (entry index : Register) (offset : UInt64) (indexBytes : Nat) : Emit Unit := do
  if indexBytes = 4 then ldrw index (bytecode.at offset) else ldrh index (bytecode.at offset)
  add entry cache (index.lsl CacheRecord.entryShift)

/-- Sets up the frame of the method that is being entered. A native method has no bytecode and no
    operands, but a place for a reference. -/
def buildFrame (previousSp : Register) (native : Bool) : Emit Unit := do
  comment "build fixed frame"
  if native then stp previousSp zero (.pre sp (-16)) else str previousSp (.pre sp (-16))
  stp frame link (.pre sp (-16))
  mov frame sp
  stp zero operands (.pre sp (-16))
  stp zero method (.pre sp (-16))
  ldr cache (method.at MethodRecord.constMethod)
  ldr cache (cache.at ConstMethodRecord.constants)
  ldr cache (cache.at PoolRecord.cache)
  stp locals cache (.pre sp (-16))
  if native then
    mov bytecode zero
    stp zero zero (.pre sp (-16))
  else
    ldr bytecode (method.at MethodRecord.constMethod)
    add bytecode bytecode ConstMethodRecord.code
    stp zero bytecode (.pre sp (-16))
  mov operands sp
  if !native then
    ldr scratch1 (method.at MethodRecord.constMethod)
    ldrh scratch1 (scratch1.at ConstMethodRecord.maxStack)
    add scratch1 scratch1 4
    sub scratch1 sp (scratch1.lsl 3)
    and sp scratch1 (.imm (-16))
  str operands (frameSlot Frame.monitorTop)

def removeFrame : Emit Unit := do
  comment "remove frame"
  ldr operands (frameSlot Frame.senderSp)
  mov sp frame
  ldp frame link (.post sp 16)
  ldr scratch1 sp.at
  mov sp scratch1

def verifyFrame : Emit Unit := do
  if (← settings).debugChecks then
    let ok ← newLabel
    ldr scratch1 (frameSlot Frame.monitorTop)
    cmp operands scratch1
    bIf .eq ok
    stop "broken stack frame setup in interpreter"
    bind ok

/-! ## Services -/

def setLastFrame (lastSp : Register) (resume : CodeLabel) : Emit Unit := do
  str lastSp (threadField ThreadBlock.lastSp)
  str frame (threadField ThreadBlock.lastFp)
  adr scratch1 resume
  str scratch1 (threadField ThreadBlock.lastPc)

def resetLastFrame : Emit Unit := do
  str zero (threadField ThreadBlock.lastSp)
  str zero (threadField ThreadBlock.lastFp)
  str zero (threadField ThreadBlock.lastPc)

/-- Moves arguments into the registers that take them, one after the other. -/
def passArguments (registers arguments : List Register) : Emit Unit :=
  (registers.zip arguments).forM fun (r, a) => if r = a then pure () else mov r a

def loadVmResult (r : Register) : Emit Unit := do
  ldr r (threadField ThreadBlock.vmResult)
  str zero (threadField ThreadBlock.vmResult)

def takeResult : Option Register → Emit Unit
  | some r => loadVmResult r
  | none => pure ()

/-- Takes a request to pop the frame to the code that pops frames, if there is such code yet. -/
def honourPop : Emit Unit := do
  match (← read).popFrame with
  | none => pure ()
  | some popFrame =>
    let none ← newLabel
    ldrw scratch1 (threadField ThreadBlock.framePop)
    tbz scratch1 ThreadBlock.framePopPending none
    -- a service that is called while a frame is popped must not start another pop
    tbnz scratch1 ThreadBlock.framePopProcessing none
    b popFrame
    bind none

def forwardPending : Emit Unit := do
  let ok ← newLabel
  ldr scratch1 (threadField ThreadBlock.pendingException)
  cbz scratch1 ok
  movImm scratch1 (← read).forwardException
  br scratch1
  bind ok

/-- Goes on after a service: a request to pop the frame is honoured, then a pending exception is
    forwarded. -/
def resumeGuest (result : Option Register) : Emit Unit := do
  resetLastFrame
  honourPop
  forwardPending
  takeResult result
  restoreBytecode
  restoreLocals

/-- Calls a service that may inspect frames. -/
def callVm (result : Option Register) (service : Service) (arguments : List Register) :
    Emit Unit := do
  saveBytecode
  passArguments (Register.arguments.drop 1) arguments
  mov x0 thread
  let resume ← newLabel
  setLastFrame operands resume
  movImm scratch1 service.address
  blr scratch1
  bind resume
  resumeGuest result

/-- Calls a service that needs neither the frame nor the bytecode. -/
def callLeaf (service : Service) (arguments : List Register) : Emit Unit := do
  passArguments Register.arguments arguments
  movImm scratch1 service.address
  blr scratch1

/-! ## Debugger -/

def notifyEntry : Emit Unit := do
  let done ← newLabel
  ldrw x3 (threadField ThreadBlock.interpretOnly)
  cbz x3 done
  callVm none .postMethodEntry []
  bind done

def notifyExit (tos : TopOfStack) : Emit Unit := do
  let done ← newLabel
  ldrw x3 (threadField ThreadBlock.interpretOnly)
  cbz x3 done
  push tos
  movImm x1 tos.index.toUInt64
  callVm none .postMethodExit [x1]
  pop tos
  bind done

/-! ## The end of an activation -/

def lockObject (record : Register) : Emit Unit := callVm none .monitorEnter [record]
def unlockObject (record : Register) : Emit Unit := callVm none .monitorExit [record]

/-- What to do about a monitor that is not in the state in which the method should leave it. -/
inductive MonitorPolicy where
  /-- Throw an exception from the method. -/
  | throwing
  /-- Replace the exception that is leaving the method. -/
  | installing
  | silent
  deriving DecidableEq

/-- Unlocks the monitor of a synchronized method and all others, notifies a debugger if asked to,
    and removes the frame. A method that failed before it locked is not unlocked. -/
def removeActivation (tos : TopOfStack) (policy : MonitorPolicy) (notify : Bool) : Emit Unit := do
  let unlocked ← newLabel
  let unlock ← newLabel
  let noUnlock ← newLabel
  ldrb x3 (threadField ThreadBlock.doNotUnlock)
  strb zero (threadField ThreadBlock.doNotUnlock)
  loadMethod x1
  ldrw x2 (x1.at MethodRecord.accessFlags)
  tst x2 Access.synchronizedBit.toUInt64
  bIf .eq unlocked
  cbnz x3 noUnlock
  push tos
  add x1 frame Frame.firstMonitor
  ldr x0 (x1.at Frame.monitorObject)
  cbnz x0 unlock
  pop tos
  if policy = .throwing then
    callVm none .throwIllegalMonitorState []
    unreachable
  else
    if policy = .installing then callVm none .newIllegalMonitorState []
    b unlocked
  bind unlock
  unlockObject x1
  pop tos
  bind unlocked
  let restart ← newLabel
  let next ← newLabel
  let entry ← newLabel
  let held ← newLabel
  bind restart
  ldr x1 (frameSlot Frame.monitorTop)
  add x19 frame Frame.monitorBottom
  b entry
  bind held
  if policy = .throwing then
    callVm none .throwIllegalMonitorState []
    unreachable
  else
    push tos
    unlockObject x1
    pop tos
    if policy = .installing then callVm none .newIllegalMonitorState []
    b restart
  bind next
  ldr scratch1 (x1.at Frame.monitorObject)
  cbnz scratch1 held
  add x1 x1 Frame.monitorSize
  bind entry
  cmp x1 x19
  bIf .ne next
  bind noUnlock
  if notify then notifyExit tos
  removeFrame

/-! ## Entering a method -/

/-- Touches the stack at a distance below its pointer. -/
def bangStack (distance : UInt64) : Emit Unit := do
  movImm scratch2 distance
  sub scratch2 sp scratch2
  ldr zero scratch2.at

/-- Goes to the entry of the method in the method register. -/
def jumpToMethod : Emit Unit := do
  mov sender sp
  str operands (frameSlot Frame.lastSp)
  ldr scratch1 (method.at MethodRecord.fromInterpreted)
  br scratch1

end TemplateVm.Emit
