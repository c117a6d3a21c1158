import TemplateVm.Codegen.Field
import TemplateVm.Codegen.Unwinding
import TemplateVm.Memory.Heap

set_option autoImplicit false

/-!
# Templates

The code of each bytecode. A template takes the topmost operand in one state and leaves it in
another; the code for going on with the next bytecode follows it, unless it goes on by itself.
-/
namespace TemplateVm

structure Template where
  tosIn : TopOfStack
  tosOut : TopOfStack
  /-- The code does not fall through to the next bytecode. -/
  dispatches : Bool
  code : Emit Unit

namespace Template

open Emit Register

/-! ## Constants -/

def intConstant (n : UInt64) : Emit Unit := if n = 0 then mov x0 zero else movImm x0 n

def floatConstant (p : Precision) (bits : UInt64) : Emit Unit := do
  movImm scratch1 bits
  emit (.floatOfBits .v0 scratch1 p)

/-- A signed operand of two bytes, high byte first. -/
def signedPair (r low : Register) : Emit Unit := do
  ldrsb r (bytecode.at 1)
  ldrb low (bytecode.at 2)
  lsl r r 8
  or r r low

/-! ## Locals -/

/-- The address of the local that the operand names, in `x1`. -/
def localAddress : Emit Unit := do
  ldrb x1 (bytecode.at 1)
  sub x1 locals (x1.lsl 3)

/-- The local with a fixed index. -/
abbrev fixedLocal (n : Nat) : Address := .base locals (0 - n.toUInt64 * 8)

def onLocal (access : Emit Unit) : Emit Unit := do
  localAddress
  access

def increment : Emit Unit := do
  ldrsb x2 (bytecode.at 2)
  localAddress
  ldrsw x3 x1.at
  add x3 x3 x2
  sxtw x3 x3
  str x3 x1.at

/-! ## Operands and arithmetic -/

/-- An operation on two ints, the deeper one first. -/
def intOperation (op : Emit Unit) : Emit Unit := do
  popInt x1
  op
  sxtw x0 x0

def divide (e : ExceptionEntries) : Emit Unit := do
  let ok ← newLabel
  popInt x1
  cbnz x0 ok
  bTo e.throwArithmetic
  bind ok
  -- the quotient of the least int and -1 is exact in 64 bits and wraps when it is narrowed
  sdiv x0 x1 x0
  sxtw x0 x0

/-! ## Branches -/

/-- Goes to the bytecode at the distance that the operand gives. -/
def takeBranch : Emit Unit := do
  signedPair x2 x3
  add bytecode bytecode x2
  ldrb scratch1 (bytecode.at 0)
  dispatchOn .none

def branchIf (c : Condition) : Emit Unit := do
  let notTaken ← newLabel
  bIf c.invert notTaken
  takeBranch
  bind notTaken

/-- Compares the held value with zero, or with null. -/
def branchZero (c : Condition) : Emit Unit := do
  cmp x0 0
  branchIf c

def branchInts (c : Condition) : Emit Unit := do
  popInt x1
  cmp x1 x0
  branchIf c

/-! ## Returns and calls -/

def returnValue (tos : TopOfStack) : Emit Unit := do
  if tos = .object then verifyReference x0
  removeActivation tos .throwing true
  ret link

/-- Enters the method of the cache entry. The link register gets the return entry of the table's row
    for the state of the result. -/
def invoke (o : Opcode) (row : UInt64) : Emit Unit := do
  resolveEntry o CacheRecord.opcode1 x2 x3
  ldr method (cacheField x2 CacheRecord.f1)
  ldr x4 (cacheField x2 CacheRecord.flags)
  lsr x4 x4 CacheRecord.tosShift
  saveBytecode
  movImm scratch1 (Place.returnTable + row * TopOfStack.count.toUInt64 * 8)
  ldr link (.index scratch1 x4 3)
  jumpToMethod

def invokeSite : Emit Unit := do
  if (← settings).invokeDynamic then invoke .invokedynamic 1
  else
    callVm none .throwIncompatibleClassChange []
    unreachable

/-! ## Objects and arrays -/

def getField : Emit Unit := do
  resolveEntry .getfield CacheRecord.opcode1 x2 x3
  loadFieldEntry x2 x2
  popWord x0
  loadField x2 true

def putField : Emit Unit := do
  resolveEntry .putfield CacheRecord.opcode2 x2 x3
  loadFieldEntry x2 x4
  storeField x4

def newObject : Emit Unit := do
  resolveEntry .newInstance CacheRecord.opcode1 x2 x3
  ldr x1 (cacheField x2 CacheRecord.f1)
  callVm x0 .newInstance [x1]

def newPrimitiveArray : Emit Unit := do
  ldrb x1 (bytecode.at 1)
  mov x2 x0
  callVm x0 .newArray [x1, x2]

/-- Goes on if the index is below the length; both are compared as unsigned words. -/
def checkIndex (e : ExceptionEntries) (array index : Register) : Emit Unit := do
  let ok ← newLabel
  ldrw scratch1 (array.at Memory.ObjectShape.arrayLength)
  cmp index scratch1
  bIf .lo ok
  if index ≠ x1 then mov x1 index
  bTo e.throwArrayIndex
  bind ok

def loadElement (e : ExceptionEntries) : Emit Unit := do
  popWord x1
  checkIndex e x1 x0
  add x1 x1 (x0.lsl 2)
  ldrsw x0 (x1.at Memory.ObjectShape.arrayBase)

def storeElement (e : ExceptionEntries) : Emit Unit := do
  popInt x2
  popWord x3
  checkIndex e x3 x2
  add x3 x3 (x2.lsl 2)
  strw x0 (x3.at Memory.ObjectShape.arrayBase)

def throwObject (e : ExceptionEntries) : Emit Unit := do
  let notNull ← newLabel
  cbnz x0 notNull
  bTo e.throwNullPointer
  bind notNull
  verifyReference x0
  bTo e.throwException

/-- Walks up the superclasses of the object. The object stays on the operand stack meanwhile,
    where the exception handler expects it. -/
def checkCast (e : ExceptionEntries) : Emit Unit := do
  let done ← newLabel
  let isSubtype ← newLabel
  let walk ← newLabel
  cbz x0 done
  pushWord x0
  resolveEntry .checkcast CacheRecord.opcode1 x2 x3
  ldr x1 (cacheField x2 CacheRecord.f1)
  ldr x0 operands.at
  ldr x2 (x0.at Memory.ObjectShape.classRecord)
  bind walk
  cmp x2 x1
  bIf .eq isSubtype
  ldr x2 (x2.at ClassRecord.super)
  cbnz x2 walk
  bTo e.throwClassCast
  bind isSubtype
  popWord x0
  bind done

/-! ## Monitors -/

def checkNull (e : ExceptionEntries) (r : Register) : Emit Unit := do
  let notNull ← newLabel
  cbnz r notNull
  bTo e.throwNullPointer
  bind notNull

/-- Leaves in `x1` a monitor record without an object, or zero. The search stops at a record of the
    object in `x0`. -/
def findFreeMonitor : Emit Unit := do
  let next ← newLabel
  let entry ← newLabel
  let found ← newLabel
  mov x1 zero
  ldr x3 (frameSlot Frame.monitorTop)
  add x2 frame Frame.monitorBottom
  b entry
  bind next
  ldr scratch1 (x3.at Frame.monitorObject)
  cmp scratch1 0
  csel x1 x3 x1 .eq
  cmp scratch1 x0
  bIf .eq found
  add x3 x3 Frame.monitorSize
  bind entry
  cmp x3 x2
  bIf .ne next
  bind found

/-- Makes room for a record between the monitors and the operands, by moving the operands down. -/
def growMonitors : Emit Unit := do
  let next ← newLabel
  let entry ← newLabel
  ldr x1 (frameSlot Frame.monitorTop)
  sub sp sp Frame.monitorSize
  sub operands operands Frame.monitorSize
  sub x1 x1 Frame.monitorSize
  str x1 (frameSlot Frame.monitorTop)
  mov x2 operands
  b entry
  bind next
  ldr scratch1 (x2.at Frame.monitorSize)
  str scratch1 x2.at
  add x2 x2 8
  bind entry
  cmp x2 x1
  bIf .ne next

/-- The bytecode is advanced before the object is locked, so that the lock is observed behind it. -/
def enterMonitor (e : ExceptionEntries) : Emit Unit := do
  checkNull e x0
  findFreeMonitor
  let allocated ← newLabel
  cbnz x1 allocated
  growMonitors
  bind allocated
  add bytecode bytecode 1
  str x0 (x1.at Frame.monitorObject)
  lockObject x1
  dispatchNext .none 0

def exitMonitor (e : ExceptionEntries) : Emit Unit := do
  checkNull e x0
  let found ← newLabel
  let next ← newLabel
  let entry ← newLabel
  ldr x1 (frameSlot Frame.monitorTop)
  add x2 frame Frame.monitorBottom
  b entry
  bind next
  ldr scratch1 (x1.at Frame.monitorObject)
  cmp scratch1 x0
  bIf .eq found
  add x1 x1 Frame.monitorSize
  bind entry
  cmp x1 x2
  bIf .ne next
  callVm none .throwIllegalMonitorState []
  unreachable
  bind found
  pushWord x0
  unlockObject x1
  popWord x0

/-! ## The table -/

def falling (tosIn tosOut : TopOfStack) (code : Emit Unit) : Template :=
  ⟨tosIn, tosOut, false, code⟩

def leaving (tosIn : TopOfStack) (code : Emit Unit) : Template := ⟨tosIn, .none, true, code⟩

def ofOpcode (e : ExceptionEntries) : Opcode → Template
  | .nop => falling .none .none (pure ())
  | .aconstNull => falling .none .object (mov x0 zero)
  | .iconstM1 => falling .none .int (intConstant (-1))
  | .iconst0 => falling .none .int (intConstant 0)
  | .iconst1 => falling .none .int (intConstant 1)
  | .iconst2 => falling .none .int (intConstant 2)
  | .iconst3 => falling .none .int (intConstant 3)
  | .iconst4 => falling .none .int (intConstant 4)
  | .iconst5 => falling .none .int (intConstant 5)
  | .lconst0 => falling .none .long (movImm x0 0)
  | .lconst1 => falling .none .long (movImm x0 1)
  | .fconst0 => falling .none .float (floatConstant .single 0)
  | .fconst1 => falling .none .float (floatConstant .single 0x3f800000)
  | .fconst2 => falling .none .float (floatConstant .single 0x40000000)
  | .dconst0 => falling .none .double (floatConstant .double 0)
  | .dconst1 => falling .none .double (floatConstant .double 0x3ff0000000000000)
  | .bipush => falling .none .int (ldrsb x0 (bytecode.at 1))
  | .sipush => falling .none .int (signedPair x0 x1)
  | .iload => falling .none .int (onLocal (ldrsw x0 x1.at))
  | .lload => falling .none .long (onLocal (ldr x0 (x1.at (-8))))
  | .fload => falling .none .float (onLocal (ldrs .v0 x1.at))
  | .dload => falling .none .double (onLocal (ldrd .v0 (x1.at (-8))))
  | .aload => falling .none .object (onLocal (ldr x0 x1.at))
  | .iload0 => falling .none .int (ldrsw x0 (fixedLocal 0))
  | .iload1 => falling .none .int (ldrsw x0 (fixedLocal 1))
  | .iload2 => falling .none .int (ldrsw x0 (fixedLocal 2))
  | .iload3 => falling .none .int (ldrsw x0 (fixedLocal 3))
  | .aload0 => falling .none .object (ldr x0 (fixedLocal 0))
  | .aload1 => falling .none .object (ldr x0 (fixedLocal 1))
  | .aload2 => falling .none .object (ldr x0 (fixedLocal 2))
  | .aload3 => falling .none .object (ldr x0 (fixedLocal 3))
  | .iaload => falling .int .int (loadElement e)
  | .istore => falling .int .none (onLocal (str x0 x1.at))
  | .lstore => falling .long .none (onLocal (str x0 (x1.at (-8))))
  | .fstore => falling .float .none (onLocal (strs .v0 x1.at))
  | .dstore => falling .double .none (onLocal (strd .v0 (x1.at (-8))))
  | .astore => falling .none .none do
    popWord x0
    onLocal (str x0 x1.at)
  | .istore0 => falling .int .none (str x0 (fixedLocal 0))
  | .istore1 => falling .int .none (str x0 (fixedLocal 1))
  | .istore2 => falling .int .none (str x0 (fixedLocal 2))
  | .istore3 => falling .int .none (str x0 (fixedLocal 3))
  | .astore0 => falling .none .none do popWord x0; str x0 (fixedLocal 0)
  | .astore1 => falling .none .none do popWord x0; str x0 (fixedLocal 1)
  | .astore2 => falling .none .none do popWord x0; str x0 (fixedLocal 2)
  | .astore3 => falling .none .none do popWord x0; str x0 (fixedLocal 3)
  | .iastore => falling .int .none (storeElement e)
  | .pop => falling .none .none (add operands operands 8)
  | .dup => falling .none .none do
    ldr x0 operands.at
    pushWord x0
  | .iadd => falling .int .int (intOperation (add x0 x1 x0))
  | .isub => falling .int .int (intOperation (sub x0 x1 x0))
  | .imul => falling .int .int (intOperation (mul x0 x1 x0))
  | .ladd => falling .long .long do
    popLong x1
    add x0 x1 x0
  | .fadd => falling .float .float do
    popFloat .v1
    emit (.floatBinary .add .single .v0 .v1 .v0)
  | .dadd => falling .double .double do
    popDouble .v1
    emit (.floatBinary .add .double .v0 .v1 .v0)
  | .idiv => falling .int .int (divide e)
  | .ineg => falling .int .int do
    neg x0 x0
    sxtw x0 x0
  | .iinc => falling .none .none increment
  | .i2l => falling .int .long (sxtw x0 x0)
  | .ifeq => falling .int .none (branchZero .eq)
  | .ifne => falling .int .none (branchZero .ne)
  | .iflt => falling .int .none (branchZero .lt)
  | .ifge => falling .int .none (branchZero .ge)
  | .ifgt => falling .int .none (branchZero .gt)
  | .ifle => falling .int .none (branchZero .le)
  | .ifIcmpeq => falling .int .none (branchInts .eq)
  | .ifIcmpne => falling .int .none (branchInts .ne)
  | .ifIcmplt => falling .int .none (branchInts .lt)
  | .ifIcmpge => falling .int .none (branchInts .ge)
  | .ifIcmpgt => falling .int .none (branchInts .gt)
  | .ifIcmple => falling .int .none (branchInts .le)
  | .ifnull => falling .object .none (branchZero .eq)
  | .ifnonnull => falling .object .none (branchZero .ne)
  | .goto => leaving .none takeBranch
  | .ireturn => leaving .int (returnValue .int)
  | .lreturn => leaving .long (returnValue .long)
  | .freturn => leaving .float (returnValue .float)
  | .dreturn => leaving .double (returnValue .double)
  | .areturn => leaving .object (returnValue .object)
  | .returnVoid => leaving .none (returnValue .none)
  | .getfield => falling .none .none getField
  | .putfield => falling .none .none putField
  | .invokestatic => leaving .none (invoke .invokestatic 0)
  | .invokedynamic => leaving .none invokeSite
  | .newInstance => falling .none .object newObject
  | .newarray => falling .int .object newPrimitiveArray
  | .arraylength => falling .object .int (ldrw x0 (x0.at Memory.ObjectShape.arrayLength))
  | .athrow => leaving .object (throwObject e)
  | .checkcast => falling .object .object (checkCast e)
  | .monitorenter => leaving .object (enterMonitor e)
  | .monitorexit => falling .object .none (exitMonitor e)

end Template
end TemplateVm
