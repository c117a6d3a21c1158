import TemplateVm.Memory.Guarded

set_option autoImplicit false

/-!
# Frames of guest methods

A frame hangs on the frame pointer. Above it are the return address and what the sender left;
below it are eight words about the method, then monitor records, and then the operand stack.
-/
namespace TemplateVm

/-- A frame is known by its frame pointer. -/
structure Frame where
  fp : UInt64
  deriving DecidableEq, Inhabited

namespace Frame

/-- Only frames of native methods have it. -/
def referenceTemp : UInt64 := 24
def previousSp : UInt64 := 16
def returnAddress : UInt64 := 8
def link : UInt64 := 0
def senderSp : UInt64 := -8
def lastSp : UInt64 := -16
def method : UInt64 := -24
def cache : UInt64 := -40
def locals : UInt64 := -48
def bytecode : UInt64 := -56
def monitorTop : UInt64 := -64

/-- Monitor records end where the words about the method begin. -/
def monitorBottom : UInt64 := monitorTop

/-- A monitor record has a word for the lock and one for the object. -/
def monitorSize : UInt64 := 16
def monitorWords : UInt64 := 2
def monitorObject : UInt64 := 8

/-- The first record lies just below the bottom of the block. -/
def firstMonitor : UInt64 := monitorBottom - monitorSize

/-- Bytes of a frame without locals and operands. -/
def overhead : UInt64 := 80

/-- Words from the operand stack of the caller down to the machine's stack pointer after the
    entry. -/
def activationWords (maxLocals parameters maxStack : UInt16) (synchronized : Bool) : UInt64 :=
  let extra := maxLocals.toNat - parameters.toNat
  let monitors := if synchronized then 2 else 0
  (12 + extra + monitors + maxStack.toNat + 4).toUInt64

open Memory (Guarded)

/-- The word at an offset of the frame. -/
def read (f : Frame) (offset : UInt64) : Guarded.Action UInt64 := Guarded.readA (f.fp + offset) 8

def setBytecode (f : Frame) (a : UInt64) : Guarded.Action Unit :=
  Guarded.write (f.fp + bytecode) 8 a

/-- Locals lie one below the other. -/
def getLocal (f : Frame) (index : UInt64) : Guarded.Action UInt64 := do
  let base ← f.read locals
  Guarded.readA (base - index * 8) 8

/-- Addresses of the monitor records, from the lowest on. -/
def monitors (f : Frame) : Guarded.Action (List UInt64) := do
  let top ← f.read monitorTop
  let bottom := f.fp + monitorBottom
  let n := if top < bottom then ((bottom - top + 15) / monitorSize).toNat else 0
  pure ((List.range n).map fun i => top + i.toUInt64 * monitorSize)

end Frame
end TemplateVm
