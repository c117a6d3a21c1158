import TemplateVm.Class.EntryKind
import TemplateVm.Codegen.Entry.Native
import TemplateVm.Codegen.Field

set_option autoImplicit false

/-!
# Method entries

One entry for each kind of method. An entry finds the arguments on the operand stack, the method
and the sender's stack pointer in their registers, and the return address in the link register.
-/
namespace TemplateVm

/-- Offset of the object of a reference, and of the method of a method handle: the first field. -/
def firstField : UInt64 := Memory.ObjectShape.fields

namespace Emit

open Register

/-- Sets up locals and frame of a bytecoded method and dispatches its first bytecode. -/
def normalEntry (synchronized : Bool) (throwStackOverflow : UInt64) : Emit UInt64 := do
  let entry ← pc
  ldr x3 (method.at MethodRecord.constMethod)
  ldrh x2 (x3.at ConstMethodRecord.parameterWords)
  ldrh x3 (x3.at ConstMethodRecord.maxLocals)
  sub x3 x3 x2
  checkStack throwStackOverflow
  add locals operands (x2.lsl 3)
  sub locals locals 8
  sub scratch1 operands (x3.lsl 3)
  and sp scratch1 (.imm (-16))
  let cleared ← newLabel
  let next ← newLabel
  cbz x3 cleared
  bind next
  mark (if synchronized then "zero_local_synchronized" else "zero_local")
  str zero (.post scratch1 8)
  sub x3 x3 1
  cbnz x3 next
  bind cleared
  loadDispatch
  buildFrame sender false
  let overflow ← newLabel
  let continuation ← newLabel
  prologue false synchronized overflow continuation
  verifyFrame
  notifyEntry
  dispatchNext .none 0
  bind overflow
  if (← settings).countsInvocations then reportOverflow continuation
  pure entry

/-- A short entry can be left for the normal one while a safepoint is requested. -/
def unlessSafepoint (slow : CodeLabel) : Emit Unit := do
  movImm scratch2 Place.safepointState
  ldrw scratch2 scratch2.at
  cbnz scratch2 slow

/-- Returns at once. -/
def emptyEntry (normal : UInt64) : Emit UInt64 := do
  if !(← settings).fastEmptyMethods then return normal
  let entry ← pc
  let slow ← newLabel
  unlessSafepoint slow
  mov sp sender
  ret link
  bind slow
  bTo normal
  pure entry

/-- Reads the field of the receiver if it is resolved already and the receiver is there. -/
def accessorEntry (normal : UInt64) : Emit UInt64 := do
  if !(← settings).fastAccessorMethods then return normal
  let entry ← pc
  let slow ← newLabel
  unlessSafepoint slow
  ldr x0 operands.at
  cbz x0 slow
  ldr x3 (method.at MethodRecord.constMethod)
  ldrh x2 (x3.at (ConstMethodRecord.code + 2))
  ldr x3 (x3.at ConstMethodRecord.constants)
  ldr x3 (x3.at PoolRecord.cache)
  add x3 x3 (x2.lsl CacheRecord.entryShift)
  ldrb scratch1 (cacheField x3 CacheRecord.opcode1)
  cmp scratch1 Opcode.getfield.byte.toUInt64
  bIf .ne slow
  ldr x1 (cacheField x3 CacheRecord.f2)
  ldr x2 (cacheField x3 CacheRecord.flags)
  lsr x2 x2 CacheRecord.tosShift
  loadField x2 false
  mov sp sender
  ret link
  bind slow
  bTo normal
  pure entry

def abstractEntry (throwAbstractMethod : UInt64) : Emit UInt64 := do
  let entry ← pc
  and sp sender (.imm (-16))
  bTo throwAbstractMethod
  pure entry

/-- Goes on to the method of the handle, with the arguments moved up over the handle. -/
def methodHandleEntry (throwNullPointer : UInt64) : Emit UInt64 := do
  let entry ← pc
  let noReceiver ← newLabel
  ldr x3 (method.at MethodRecord.constMethod)
  ldrh x2 (x3.at ConstMethodRecord.parameterWords)
  add x3 operands (x2.lsl 3)
  ldr x0 (x3.at (-8))
  cbz x0 noReceiver
  ldr method (x0.at firstField)
  let next ← newLabel
  let done ← newLabel
  sub x4 x3 8
  bind next
  cmp x4 operands
  bIf .eq done
  ldr x5 (x4.at (-8))
  str x5 x4.at
  sub x4 x4 8
  b next
  bind done
  add operands operands 8
  ldr scratch1 (method.at MethodRecord.fromInterpreted)
  br scratch1
  bind noReceiver
  and sp sender (.imm (-16))
  bTo throwNullPointer
  pure entry

/-- Applies one instruction to the argument. -/
def unaryMathEntry (op : FloatUnary) : Emit UInt64 := do
  let entry ← pc
  ldrd .v0 operands.at
  emit (.floatUnary op .double .v0 .v0)
  mov sp sender
  ret link
  pure entry

/-- Has a service compute the function, of two arguments for `pow`. -/
def mathEntry (service : Service) : Emit UInt64 := do
  let entry ← pc
  mov x19 link
  if service = .pow then
    ldrd .v0 (operands.at 16)
    ldrd .v1 operands.at
  else ldrd .v0 operands.at
  mov sp sender
  callLeaf service []
  ret x19
  pure entry

/-- Gives the object of a reference, which the marker hears of. -/
def referenceGetEntry (normal : UInt64) : Emit UInt64 := do
  let entry ← pc
  let slow ← newLabel
  ldr x0 operands.at
  cbz x0 slow
  ldr x0 (x0.at firstField)
  if (← settings).markBarrier then
    let done ← newLabel
    movImm scratch2 Place.markingActive
    ldrb scratch2 scratch2.at
    cbz scratch2 done
    cbz x0 done
    stp x0 link (.pre sp (-16))
    callLeaf .markBarrier [x0]
    ldp x0 link (.post sp 16)
    bind done
  mov sp sender
  ret link
  bind slow
  bTo normal
  pure entry

/-- The entry of a kind; `normal` is the one of ordinary methods, `objectHandler` the result handler
    of references. -/
def entryCode (stubs : Stubs) (objectHandler normal : UInt64) : EntryKind → Emit UInt64
  | .normal => normalEntry false stubs.throwStackOverflow
  | .normalSynchronized => normalEntry true stubs.throwStackOverflow
  | .native => nativeEntry false objectHandler
  | .nativeSynchronized => nativeEntry true objectHandler
  | .empty => emptyEntry normal
  | .accessor => accessorEntry normal
  | .abstract => abstractEntry stubs.throwAbstractMethod
  | .methodHandle => methodHandleEntry stubs.throwNullPointer
  | .mathSin => mathEntry .sin
  | .mathCos => mathEntry .cos
  | .mathTan => mathEntry .tan
  | .mathAbs => unaryMathEntry .abs
  | .mathSqrt => unaryMathEntry .sqrt
  | .mathLog => mathEntry .log
  | .mathLog10 => mathEntry .log10
  | .mathPow => mathEntry .pow
  | .mathExp => mathEntry .exp
  | .referenceGet => referenceGetEntry normal

def methodEntry (stubs : Stubs) (objectHandler normal : UInt64) (kind : EntryKind) :
    Emit UInt64 := do
  let (_, entry) ← stub s!"method entry point (kind = {kind.name})"
    (entryCode stubs objectHandler normal kind)
  pure entry

/-- The entries in the order of the kinds. -/
def methodEntries (stubs : Stubs) (objectHandler : UInt64) : Emit (List UInt64) := do
  let normal ← methodEntry stubs objectHandler 0 .normal
  let rest ← (EntryKind.all.drop 1).mapM (methodEntry stubs objectHandler normal)
  pure (normal :: rest)

end Emit
end TemplateVm
