import TemplateVm.Codegen.Stubs
import TemplateVm.Codegen.Unwinding
import TemplateVm.Memory.Heap

set_option autoImplicit false

/-!
# Parts of method entries

What entries of bytecoded and native methods have in common: counting invocations, checking and
touching the stack, and locking the receiver or the class.
-/
namespace TemplateVm.Emit

open Register

/-- Counts an invocation; branches when the count reaches the threshold. -/
def countInvocation (overflow : CodeLabel) : Emit Unit := do
  ldrw scratch1 (method.at MethodRecord.invocationCounter)
  add scratch1 scratch1 1
  strw scratch1 (method.at MethodRecord.invocationCounter)
  movImm scratch2 (← settings).compileThreshold.toUInt64
  cmp scratch1 scratch2
  bIf .eq overflow

def reportOverflow (continuation : CodeLabel) : Emit Unit := do
  callVm none .counterOverflow [zero]
  b continuation

/-- Throws a stack overflow if a frame of more than a page, with `x3` additional locals, would come
    near the guard pages. Smaller frames are left to `bangShadow`. -/
def checkStack (throwStackOverflow : UInt64) : Emit Unit := do
  let s ← settings
  let fits ← newLabel
  cmp x3 (.imm ((s.pageSize.toInt64 - Frame.overhead.toInt64) / 8).toUInt64)
  bIf .ls fits
  movImm x0 Frame.overhead
  add x0 x0 (x3.lsl 3)
  ldr scratch1 (threadField ThreadBlock.stackBase)
  ldr scratch2 (threadField ThreadBlock.stackSize)
  if s.debugChecks then
    let baseOk ← newLabel
    let sizeOk ← newLabel
    cbnz scratch1 baseOk
    stop "stack base is zero"
    bind baseOk
    cbnz scratch2 sizeOk
    stop "stack size is zero"
    bind sizeOk
  sub scratch1 scratch1 scratch2
  add x0 x0 scratch1
  movImm scratch2 (s.maxGuardPages * s.pageSize * 2)
  add x0 x0 scratch2
  cmp sp x0
  bIf .hi fits
  -- the exception is thrown in the context of the caller
  and sp sender (.imm (-16))
  bTo throwStackOverflow
  bind fits

/-- Touches every page that a callee may need, or the last one of them for a native method. -/
def bangShadow (native : Bool) : Emit Unit := do
  let s ← settings
  if s.stackBanging then
    let first := if native then s.shadowPages.toNat else 1
    (List.range' first (s.shadowPages.toNat + 1 - first)).forM fun page =>
      bangStack (page.toUInt64 * s.pageSize)

def loadClassObject (r : Register) : Emit Unit := do
  ldr r (method.at MethodRecord.constMethod)
  ldr r (r.at ConstMethodRecord.constants)
  ldr r (r.at PoolRecord.holder)
  ldr r (r.at ClassRecord.classObject)

/-- Makes a monitor record for the receiver, or for the object of the class, and locks it. -/
def lockMethod : Emit Unit := do
  let done ← newLabel
  ldrw x0 (method.at MethodRecord.accessFlags)
  tst x0 Access.staticBit.toUInt64
  ldr x0 locals.at
  bIf .eq done
  loadClassObject x0
  bind done
  if (← settings).debugChecks then
    let ok ← newLabel
    cbnz x0 ok
    stop "synchronization object is NULL"
    bind ok
  sub sp sp Frame.monitorSize
  sub operands operands Frame.monitorSize
  str operands (frameSlot Frame.monitorTop)
  str x0 (operands.at Frame.monitorObject)
  mov x1 operands
  lockObject x1

/-- Stops if the method is synchronized after all. -/
def checkUnsynchronized : Emit Unit := do
  if (← settings).debugChecks then
    let ok ← newLabel
    ldrw scratch1 (method.at MethodRecord.accessFlags)
    tst scratch1 Access.synchronizedBit.toUInt64
    bIf .eq ok
    stop "method needs synchronization"
    bind ok

/-- Counts the invocation, touches the stack and locks, in this order. Up to the lock, an exception
    must not unlock. -/
def prologue (native synchronized : Bool) (overflow continuation : CodeLabel) : Emit Unit := do
  movImm scratch2 1
  strb scratch2 (threadField ThreadBlock.doNotUnlock)
  if (← settings).countsInvocations then countInvocation overflow
  bind continuation
  bangShadow native
  strb zero (threadField ThreadBlock.doNotUnlock)
  if synchronized then lockMethod else checkUnsynchronized

end TemplateVm.Emit
