import TemplateVm.Codegen.Entry.Prologue

set_option autoImplicit false

/-!
# Native methods

The entry of native methods: it links the method on its first call, has its signature handler put
the arguments into registers, leaves the machine, and takes the result through the handler for its
type.
-/
namespace TemplateVm.Emit

open Register

/-- Makes a native result of the type into a value. A reference has been taken out of its handle by
    the entry already. -/
def resultHandler (t : TypeTag) : Emit UInt64 := do
  let entry ← pc
  match t with
  | .boolean =>
    and x0 x0 0xff
    cmp x0 0
    movImm scratch1 1
    csel x0 scratch1 zero .ne
  | .char => extend .zeroHalf x0 x0
  | .byte => extend .signByte x0 x0
  | .short => extend .signHalf x0 x0
  | .int => sxtw x0 x0
  | .object | .array =>
    ldr x0 (frameSlot Frame.referenceTemp)
    verifyReference x0
  | .long | .void | .float | .double => pure ()
  ret link
  pure entry

/-- The handlers in the order of `TypeTag.resultHandlers`. -/
def resultHandlers : Emit (List UInt64) := do
  let (_, handlers) ← stub "result handlers for native calls"
    (TypeTag.resultHandlers.mapM resultHandler)
  pure handlers

def setThreadState (s : ThreadState) : Emit Unit := do
  movImm scratch1 s.code.toUInt64
  strw scratch1 (threadField ThreadBlock.threadState)

/-- Leaves the function in `x10`; it is looked up on the first call. -/
def linkNative : Emit Unit := do
  let linked ← newLabel
  let unlinked ← newLabel
  ldr x10 (method.at MethodRecord.nativeFunction)
  cbz x10 unlinked
  ldr scratch1 (method.at MethodRecord.signatureHandler)
  cbnz scratch1 linked
  bind unlinked
  callVm none .prepareNativeCall [method]
  loadMethod method
  ldr x10 (method.at MethodRecord.nativeFunction)
  bind linked

/-- Puts the arguments into registers. A static method gets a handle of the object of its class,
    in the frame. -/
def passNativeArguments : Emit Unit := do
  ldr scratch1 (method.at MethodRecord.signatureHandler)
  blr scratch1
  mov x19 x0
  let notStatic ← newLabel
  ldrw scratch1 (method.at MethodRecord.accessFlags)
  tst scratch1 Access.staticBit.toUInt64
  bIf .eq notStatic
  loadClassObject x1
  str x1 (frameSlot Frame.referenceTemp)
  add x1 frame Frame.referenceTemp
  bind notStatic
  add x0 thread ThreadBlock.environment

/-- Calls the function with the thread in the native state, and comes back by way of a transition in
    which safepoints and suspension are honoured. Both results stay on the operand stack. -/
def leaveMachine : Emit Unit := do
  sub scratch1 operands 32
  and sp scratch1 (.imm (-16))
  let resume ← newLabel
  setLastFrame operands resume
  setThreadState .inNative
  ldrw x16 (method.at MethodRecord.callFormat)
  callNative x10 x16
  bind resume
  push .double
  push .long
  setThreadState .inNativeTransition
  if (← settings).membar then dmb
  else
    movImm scratch2 Place.serializePage
    strw zero scratch2.at
  let slow ← newLabel
  let continuation ← newLabel
  movImm scratch2 Place.safepointState
  ldrw scratch2 scratch2.at
  cbnz scratch2 slow
  ldrw scratch2 (threadField ThreadBlock.suspendFlags)
  cbz scratch2 continuation
  bind slow
  callLeaf .checkNativeTransition [thread]
  loadMethod method
  bind continuation
  setThreadState .inGuest
  resetLastFrame
  add scratch1 thread ThreadBlock.handles
  str scratch1 (threadField ThreadBlock.activeHandles)

/-- Takes a reference out of its handle and keeps it in the frame. `objectHandler` tells a reference
    result from others. -/
def unboxResult (objectHandler : UInt64) : Emit Unit := do
  let other ← newLabel
  let keep ← newLabel
  movImm scratch1 objectHandler
  cmp x19 scratch1
  bIf .ne other
  pop .long
  cbz x0 keep
  ldr x0 x0.at
  bind keep
  str x0 (frameSlot Frame.referenceTemp)
  push .long
  bind other

/-- Arms the yellow zone again if it had been used up. -/
def reguard : Emit Unit := do
  let done ← newLabel
  ldrw scratch1 (threadField ThreadBlock.guardState)
  cmp scratch1 GuardState.yellowDisabled.code.toUInt64
  bIf .ne done
  callLeaf .reguardYellowZone []
  bind done

/-- Exceptions and monitors are reported at the first bytecode, which a native method does not
    have. -/
def pretendBytecode : Emit Unit := do
  loadMethod method
  ldr bytecode (method.at MethodRecord.constMethod)
  add bytecode bytecode ConstMethodRecord.code

def throwPending : Emit Unit := do
  let absent ← newLabel
  ldr scratch1 (threadField ThreadBlock.pendingException)
  cbz scratch1 absent
  callVm none .throwPendingException []
  unreachable
  bind absent

def unlockMethod : Emit Unit := do
  let unlock ← newLabel
  add x1 frame Frame.firstMonitor
  ldr scratch1 (x1.at Frame.monitorObject)
  cbnz scratch1 unlock
  callVm none .throwIllegalMonitorState []
  unreachable
  bind unlock
  unlockObject x1

def nativeEntry (synchronized : Bool) (objectHandler : UInt64) : Emit UInt64 := do
  let entry ← pc
  ldr x2 (method.at MethodRecord.constMethod)
  ldrh x2 (x2.at ConstMethodRecord.parameterWords)
  add locals operands (x2.lsl 3)
  sub locals locals 8
  and sp operands (.imm (-16))
  buildFrame sender true
  let overflow ← newLabel
  let continuation ← newLabel
  prologue true synchronized overflow continuation
  notifyEntry
  linkNative
  passNativeArguments
  leaveMachine
  unboxResult objectHandler
  reguard
  pretendBytecode
  throwPending
  if synchronized then unlockMethod
  notifyExit .none
  pop .long
  pop .double
  blr x19
  removeFrame
  ret link
  bind overflow
  if (← settings).countsInvocations then reportOverflow continuation
  pure entry

end TemplateVm.Emit
