import TemplateVm.Codegen.Sequence

set_option autoImplicit false

/-!
# Stubs

Code outside of the interpreter: the way in from the host and back, and the ways on for exceptions
between activations.
-/
namespace TemplateVm

open Register

structure Stubs where
  callStub : UInt64
  callStubReturn : UInt64
  catchException : UInt64
  forwardException : UInt64
  throwStackOverflow : UInt64
  throwAbstractMethod : UInt64
  throwNullPointer : UInt64
  deriving DecidableEq, Inhabited

namespace Stubs

open Emit

/-- Registers that the callee may change and the caller relies on, and their places in the frame. -/
def savedPairs : List (Register × Register × UInt64) :=
  [(x19, x20, -32), (x21, x22, -48), (x23, x24, -64), (x25, x26, -80), (x27, x28, -96)]

def saveWords : UInt64 := 14

/-- Where the stack pointer at the call is kept to be checked. -/
def calleeSp : UInt64 := -104

/-- Calls a method with the given words. Arguments: where the results go, the method, its entry, the
    words, their number, and the thread. -/
def callCode : Emit Unit := do
  stp frame link (.pre sp (-16))
  mov frame sp
  sub sp sp (.imm (saveWords * 8))
  str x0 (frame.at (-8))
  str x5 (frame.at (-16))
  savedPairs.forM fun (a, b, offset) => stp a b (frame.at offset)
  mov thread x5
  mov method x1
  comment "pass parameters"
  mov operands sp
  sub scratch1 sp (x4.lsl 3)
  and sp scratch1 (.imm (-16))
  let done ← newLabel
  let next ← newLabel
  bind next
  cbz x4 done
  ldr scratch2 (.post x3 8)
  str scratch2 (.pre operands (-8))
  sub x4 x4 1
  b next
  bind done
  mov sender sp
  let checks := (← settings).debugChecks
  if checks then
    mov scratch1 sp
    str scratch1 (frame.at calleeSp)
  blr x2
  let leave ← newLabel
  mark "call_stub_return"
  bind leave
  if checks then
    let ok ← newLabel
    mov scratch1 sp
    ldr scratch2 (frame.at calleeSp)
    cmp scratch1 scratch2
    bIf .eq ok
    stop "call stub: activation removal did not restore sp"
    bind ok
  ldr scratch1 (frame.at (-8))
  str x0 scratch1.at
  strd .v0 (scratch1.at 8)
  savedPairs.forM fun (a, b, offset) => ldp a b (frame.at offset)
  mov sp frame
  ldp frame link (.post sp 16)
  ret link
  mark "catch_exception"
  verifyReference x0
  str x0 (threadField ThreadBlock.pendingException)
  mov x0 zero
  b leave

/-- Takes the pending exception to the handler that belongs to the return address. -/
def forward : Emit Unit := do
  if (← settings).debugChecks then
    let ok ← newLabel
    ldr scratch1 (threadField ThreadBlock.pendingException)
    cbnz scratch1 ok
    stop "StubRoutines::forward exception: no pending exception"
    bind ok
  -- the leaf call changes the link register
  mov x1 link
  mov x19 link
  callLeaf .handlerForReturnAddress [thread, x1]
  mov link x19
  mov x3 x19
  mov x19 x0
  ldr x0 (threadField ThreadBlock.pendingException)
  str zero (threadField ThreadBlock.pendingException)
  verifyReference x0
  br x19

/-- Has a service post an exception in the caller's context and forwards it. -/
def throwing (service : Service) (forwardException : UInt64) : Emit Unit := do
  stp frame link (.pre sp (-16))
  mov frame sp
  let resume ← newLabel
  setLastFrame sp resume
  mov x0 thread
  movImm scratch1 service.address
  blr scratch1
  bind resume
  resetLastFrame
  mov sp frame
  ldp frame link (.post sp 16)
  bTo forwardException

/-- All stubs; the two places inside of the call stub are found by their marks. -/
def all : Emit Stubs := do
  let (callStub, _) ← stub "call stub" callCode
  let (forwardException, _) ← stub "forward exception" forward
  let (throwStackOverflow, _) ←
    stub "throw StackOverflowError" (throwing .throwStackOverflow forwardException)
  let (throwAbstractMethod, _) ←
    stub "throw AbstractMethodError" (throwing .throwAbstractMethod forwardException)
  let (throwNullPointer, _) ←
    stub "throw NullPointerException" (throwing .throwNullPointer forwardException)
  let a ← get
  let marked (name : String) : UInt64 := ((a.marks.find? (·.1 == name)).map (·.2)).getD 0
  pure { callStub, callStubReturn := marked "call_stub_return"
         catchException := marked "catch_exception", forwardException, throwStackOverflow
         throwAbstractMethod, throwNullPointer }

end Stubs
end TemplateVm
