import TemplateVm.Codegen.Sequence
import TemplateVm.Guest.Exception

set_option autoImplicit false

/-!
# Exception handling

Code that is reached when a bytecode fails or an exception arrives from a callee: it looks for a
handler in the current activation and leaves the activation if there is none. Frames that a
debugger pops leave by similar code, with the arguments kept for the call to be made again.
-/
namespace TemplateVm

open Register

/-- The message that a bytecode gives to an exception that it raises. -/
def exceptionMessage? (code : UInt64) : Option String :=
  if code = 1 then some "/ by zero" else none

structure ExceptionEntries where
  rethrow : UInt64
  throwException : UInt64
  removeActivation : UInt64
  popFrame : UInt64
  throwStackOverflow : UInt64
  throwArrayIndex : UInt64
  throwClassCast : UInt64
  throwArithmetic : UInt64
  throwNullPointer : UInt64
  deriving DecidableEq, Inhabited

namespace ExceptionEntries

open Emit

/-- Pops the current frame and has its caller execute the call again. A caller that is not
    interpreted gets the arguments from the thread. -/
def popFrameCode (here : CodeLabel) : Emit Unit := do
  bind here
  emptyOperands
  ldrw x3 (threadField ThreadBlock.framePop)
  or x3 x3 FramePop.processingBit.toUInt64
  strw x3 (threadField ThreadBlock.framePop)
  let interpreted ← newLabel
  ldr x0 (frameSlot Frame.returnAddress)
  callLeaf .interpreterContains [x0]
  cbnz x0 interpreted
  loadMethod x0
  ldr x0 (x0.at MethodRecord.constMethod)
  ldrh x0 (x0.at ConstMethodRecord.parameterWords)
  lsl x1 x0 3
  restoreLocals
  sub x2 locals x1
  add x2 x2 8
  callLeaf .popframePreserveArguments [thread, x1, x2]
  Emit.removeActivation .none .silent false
  movImm scratch1 FramePop.forceReexecutionBit.toUInt64
  strw scratch1 (threadField ThreadBlock.framePop)
  ret link
  bind interpreted
  Emit.removeActivation .none .silent false
  ldr x2 (frameSlot Frame.lastSp)
  callLeaf .popframeMoveArguments [thread, operands, x2]
  ldr operands (frameSlot Frame.lastSp)
  str zero (frameSlot Frame.lastSp)
  restoreBytecode
  restoreLocals
  restoreCache
  loadMethod method
  loadDispatch
  strw zero (threadField ThreadBlock.framePop)
  dispatchNext .none 0

/-- The addresses of `rethrow`, `throwException` and `removeActivation`, which follow one another.
    An exception from a callee arrives with the return address, one of this activation with the
    bytecode. -/
def handling : Emit (UInt64 × UInt64 × UInt64) := do
  let rethrow ← pc
  str zero (frameSlot Frame.lastSp)
  restoreBytecode
  restoreLocals
  restoreCache
  loadDispatch
  let throwException ← pc
  -- a callee without a receiver may have left itself in the method register
  loadMethod method
  verifyReference x0
  mov x1 x0
  emptyOperands
  callVm x3 .handlerForException [x1]
  restoreSp 4
  pushWord x3
  br x0
  let removeActivation ← pc
  popWord x0
  str x0 (threadField ThreadBlock.vmResult)
  Emit.removeActivation .none .installing false
  loadVmResult x0
  stp x0 link (.pre sp (-16))
  callLeaf .handlerForReturnAddress [thread, link]
  mov x1 x0
  ldp x0 link (.post sp 16)
  mov x3 link
  br x1
  pure (rethrow, throwException, removeActivation)

/-- Creates an exception with the message of the given code, and throws it. -/
def creating (e : BuiltinException) (message throwException : UInt64) : Emit Unit := do
  emptyOperands
  movImm x1 e.index.toUInt64
  movImm x2 message
  callVm x0 .createException [x1, x2]
  bTo throwException

def all (popFrame : CodeLabel) : Emit ExceptionEntries := do
  let (popFrame, _) ← stub "remove_activation_preserving_args entry" (popFrameCode popFrame)
  let (_, rethrow, throwException, removeActivation) ← stub "exception handling" handling
  let (throwStackOverflow, _) ← stub "StackOverflowError handler" do
    restoreBytecode
    emptyOperands
    callVm none .throwStackOverflow []
    unreachable
  let (throwArrayIndex, _) ← stub "ArrayIndexOutOfBoundsException handler" do
    emptyOperands
    callVm none .throwArrayIndexOutOfBounds [x1]
    unreachable
  let (throwClassCast, _) ← stub "ClassCastException handler" do
    popWord x2
    emptyOperands
    movImm x1 BuiltinException.classCast.index.toUInt64
    callVm x0 .createClassException [x1, x2]
    bTo throwException
  let (throwArithmetic, _) ← stub "ArithmeticException handler"
    (creating .arithmetic 1 throwException)
  let (throwNullPointer, _) ← stub "NullPointerException handler"
    (creating .nullPointer 0 throwException)
  pure { rethrow, throwException, removeActivation, popFrame, throwStackOverflow, throwArrayIndex
         throwClassCast, throwArithmetic, throwNullPointer }

end ExceptionEntries
end TemplateVm
