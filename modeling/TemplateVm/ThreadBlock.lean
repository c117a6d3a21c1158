import TemplateVm.Memory.Guarded
import TemplateVm.MemoryMap

set_option autoImplicit false

/-!
# The block of the thread

What generated code and runtime services share about the running thread: its state, the pending
exception, the last frame of guest code, requests to it, and areas for handles and arguments.
-/
namespace TemplateVm

/-- What a thread is doing. -/
inductive ThreadState where
  | new | inNative | inNativeTransition | inRuntime | inGuest | blocked
  deriving DecidableEq, Inhabited

namespace ThreadState

def all : List ThreadState := [new, inNative, inNativeTransition, inRuntime, inGuest, blocked]

/-- The number that stands for the state in the block. -/
def code : ThreadState → UInt32
  | new => 2 | inNative => 4 | inNativeTransition => 5 | inRuntime => 6 | inGuest => 8
  | blocked => 10

def ofCode? (n : UInt32) : Option ThreadState := all.find? (·.code == n)

def name : ThreadState → String
  | new => "New" | inNative => "InNative" | inNativeTransition => "InNativeTrans"
  | inRuntime => "InVm" | inGuest => "InJava" | blocked => "Blocked"

end ThreadState

/-- Whether the guard zones of the stack are armed. -/
inductive GuardState where
  | unused | yellowDisabled | enabled
  deriving DecidableEq, Inhabited

namespace GuardState

def all : List GuardState := [unused, yellowDisabled, enabled]

def code : GuardState → UInt32
  | unused => 0 | yellowDisabled => 1 | enabled => 2

def ofCode? (n : UInt32) : Option GuardState := all.find? (·.code == n)

def name : GuardState → String
  | unused => "Unused" | yellowDisabled => "YellowDisabled" | enabled => "Enabled"

end GuardState

/-- A request to pop the top frame. The three bits are set one after the other, and the last one set
    decides. -/
structure FramePop where
  bits : UInt32
  deriving DecidableEq, Inhabited

inductive FramePopState where
  | inactive | pending | processing | forceReexecution
  deriving DecidableEq, Inhabited

namespace FramePop

def pendingBit : UInt32 := 1
def processingBit : UInt32 := 2
def forceReexecutionBit : UInt32 := 4

/-- Bits without a meaning are dropped. -/
def ofBits (bits : UInt32) : FramePop := ⟨bits &&& 7⟩

def none : FramePop := ⟨0⟩

def has (p : FramePop) (bit : UInt32) : Bool := p.bits &&& bit == bit

def state (p : FramePop) : FramePopState :=
  if p.has forceReexecutionBit then .forceReexecution
  else if p.has processingBit then .processing
  else if p.has pendingBit then .pending
  else .inactive

end FramePop

def FramePopState.name : FramePopState → String
  | inactive => "Inactive" | pending => "Pending" | processing => "Processing"
  | forceReexecution => "ForceDeoptReexecution"

/-- A thread is known by the address of its block. -/
structure ThreadBlock where
  base : UInt64
  deriving DecidableEq, Inhabited

namespace ThreadBlock

def pendingException : UInt64 := 0
def vmResult : UInt64 := 8
def lastSp : UInt64 := 16
def lastFp : UInt64 := 24
def lastPc : UInt64 := 32
def threadState : UInt64 := 40
def suspendFlags : UInt64 := 44
def framePop : UInt64 := 48
def doNotUnlock : UInt64 := 52
def interpretOnly : UInt64 := 56
def guardState : UInt64 := 60
def stackBase : UInt64 := 64
def stackSize : UInt64 := 72
def activeHandles : UInt64 := 80
def environment : UInt64 := 88
def handles : UInt64 := 0x200
def handleWords : UInt64 := 64
def arguments : UInt64 := 0x400

/-- Bit numbers of `FramePop.pendingBit` and `FramePop.processingBit`. -/
def framePopPending : UInt8 := 0
def framePopProcessing : UInt8 := 1

open Memory (Guarded)

abbrev Action := Guarded.Action

def write (t : ThreadBlock) (field width v : UInt64) : Action Unit :=
  Guarded.write (t.base + field) width v

def read (t : ThreadBlock) (field width : UInt64) : Action UInt64 :=
  Guarded.readA (t.base + field) width

def setState (t : ThreadBlock) (s : ThreadState) : Action Unit :=
  t.write threadState 4 s.code.toUInt64

def state (t : ThreadBlock) : Action ThreadState := do
  let raw := (← t.read threadState 4).toUInt32
  match ThreadState.ofCode? raw with
  | some s => pure s
  | none => throw (.internal s!"corrupt thread state {raw.toNat}")

def setGuard (t : ThreadBlock) (s : GuardState) : Action Unit :=
  t.write guardState 4 s.code.toUInt64

def guard (t : ThreadBlock) : Action GuardState := do
  let raw := (← t.read guardState 4).toUInt32
  match GuardState.ofCode? raw with
  | some s => pure s
  | none => throw (.internal s!"corrupt stack guard state {raw.toNat}")

/-- A cleared block of a thread that has its stack, with armed guard zones, and runs in the
    runtime. -/
def setUp (t : ThreadBlock) (base size : UInt64) : Action Unit := do
  Guarded.fill t.base Place.threadSize 0
  t.write stackBase 8 base
  t.write stackSize 8 size
  t.write activeHandles 8 (t.base + handles)
  t.write environment 8 (t.base + environment)
  t.setGuard .enabled
  t.setState .inRuntime

/-- The exception that is on its way, if there is one. -/
def pending? (t : ThreadBlock) : Action (Option UInt64) := do
  let e ← t.read pendingException 8
  pure (if e = 0 then none else some e)

def setPending (t : ThreadBlock) (e : UInt64) : Action Unit := t.write pendingException 8 e

def setVmResult (t : ThreadBlock) (v : UInt64) : Action Unit := t.write vmResult 8 v

/-- Stack pointer, frame pointer and return address of the last frame of guest code. -/
structure LastFrame where
  sp : UInt64
  fp : UInt64
  pc : UInt64
  deriving DecidableEq, Inhabited

def lastFrame (t : ThreadBlock) : Action LastFrame := do
  let sp ← t.read lastSp 8
  let fp ← t.read lastFp 8
  let pc ← t.read lastPc 8
  pure ⟨sp, fp, pc⟩

def pop (t : ThreadBlock) : Action FramePop := do
  let bits ← t.read framePop 4
  pure (.ofBits bits.toUInt32)

def setPop (t : ThreadBlock) (p : FramePop) : Action Unit := t.write framePop 4 p.bits.toUInt64

/-- The current method entry has not locked yet. -/
def hasNotLocked (t : ThreadBlock) : Action Bool := return (← t.read doNotUnlock 1) != 0

def suspend (t : ThreadBlock) : Action UInt32 := return (← t.read suspendFlags 4).toUInt32

def setSuspend (t : ThreadBlock) (flags : UInt32) : Action Unit :=
  t.write suspendFlags 4 flags.toUInt64

def setInterpretOnly (t : ThreadBlock) (on : Bool) : Action Unit :=
  t.write interpretOnly 4 on.toUInt64

def argumentSlot (t : ThreadBlock) (index : UInt64) : UInt64 := t.base + arguments + index * 8

def resetHandles (t : ThreadBlock) : Action UInt64 := do
  let first := t.base + handles
  t.write activeHandles 8 first
  pure first

def isHandle (t : ThreadBlock) (a : UInt64) : Bool :=
  let first := t.base + handles
  first ≤ a && a < first + handleWords * 8

end ThreadBlock
end TemplateVm
