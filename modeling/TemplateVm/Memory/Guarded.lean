import TemplateVm.Failure
import TemplateVm.Memory.Bytes

set_option autoImplicit false

/-!
# Guarded memory

A flat memory from address zero on, in which ranges can be guarded. An access either succeeds as a
whole or faults: on the guard that it touches, or at its address if it leaves the memory. `fault?`
decides which, and a write that faults has no effect.
-/
namespace TemplateVm.Memory

/-- The addresses from `start` up to, not including, `stop`. -/
structure GuardRange where
  start : UInt64
  stop : UInt64
  tag : UInt32
  deriving DecidableEq, Inhabited

/-- The end of an access, held at the top of the address space. -/
def accessEnd (a len : UInt64) : UInt64 := if a + len < a then 0xffffffffffffffff else a + len

def GuardRange.touches (g : GuardRange) (a len : UInt64) : Bool :=
  a < g.stop && g.start < accessEnd a len

structure Guarded where
  bytes : ByteArray
  guards : List GuardRange := []

instance : Inhabited Guarded := ⟨⟨.empty, []⟩⟩

namespace Guarded

def zeros (size : UInt64) : Guarded := { bytes := Memory.zeros size.toNat }

def size (m : Guarded) : UInt64 := m.bytes.size.toUInt64

def protect (m : Guarded) (start len : UInt64) (tag : UInt32) : Guarded :=
  { m with guards := m.guards ++ [⟨start, start + len, tag⟩] }

/-- Removes every guard that lies inside the given range. -/
def unprotect (m : Guarded) (start len : UInt64) : Guarded :=
  { m with guards := m.guards.filter fun g => !(start ≤ g.start && g.stop ≤ start + len) }

def guardOf? (m : Guarded) (a len : UInt64) : Option GuardRange :=
  m.guards.find? (·.touches a len)

/-- The tag of the guard at an address. -/
def guardAt? (m : Guarded) (a : UInt64) : Option UInt32 := (m.guardOf? a 1).map (·.tag)

/-- The fault of an access to `len` bytes at `a`. The oldest guard that is touched comes first; the
    fault address is the first guarded byte that it shows, not always the start of the access. -/
def fault? (m : Guarded) (a len : UInt64) (access : MemoryAccess) : Option MemoryFault :=
  match m.guardOf? a len with
  | some g => some ⟨if a < g.start then g.start else a, access, some g.tag⟩
  | none => if a.toNat + len.toNat ≤ m.bytes.size then none else some ⟨a, access, none⟩

/-- A little-endian number of `width` bytes. -/
def read (m : Guarded) (a width : UInt64) : Except MemoryFault UInt64 :=
  match m.fault? a width .read with
  | some fault => .error fault
  | none => .ok (load m.bytes a.toNat width.toNat)

def readBytes (m : Guarded) (a len : UInt64) : Except MemoryFault (List UInt8) :=
  match m.fault? a len .read with
  | some fault => .error fault
  | none => .ok (bytesFrom m.bytes a.toNat len.toNat)

/-- The memory after a write of `width` bytes at `a`, which must not fault. -/
def put (m : Guarded) (a width v : UInt64) : Guarded :=
  { m with bytes := store m.bytes a.toNat v width.toNat }

def putBytes (m : Guarded) (a : UInt64) (data : List UInt8) : Guarded :=
  { m with bytes := storeBytes m.bytes a.toNat data }

def putFill (m : Guarded) (a len : UInt64) (byte : UInt8) : Guarded :=
  { m with bytes := fill m.bytes a.toNat byte len.toNat }

/-- An effect on memory: a fault leaves the memory as it is. -/
abbrev Action := EStateM Failure Guarded

def orFault {α : Type} (r : Except MemoryFault α) : Except Failure α :=
  match r with
  | .ok v => .ok v
  | .error fault => .error (.memoryFault fault)

def readA (a width : UInt64) : Action UInt64 := fun m =>
  match m.read a width with
  | .ok v => .ok v m
  | .error fault => .error (.memoryFault fault) m

def readBytesA (a len : UInt64) : Action (List UInt8) := fun m =>
  match m.readBytes a len with
  | .ok v => .ok v m
  | .error fault => .error (.memoryFault fault) m

def write (a width v : UInt64) : Action Unit := fun m =>
  match m.fault? a width .write with
  | some fault => .error (.memoryFault fault) m
  | none => .ok () (m.put a width v)

def writeBytes (a : UInt64) (data : List UInt8) : Action Unit := fun m =>
  match m.fault? a data.length.toUInt64 .write with
  | some fault => .error (.memoryFault fault) m
  | none => .ok () (m.putBytes a data)

def fill (a len : UInt64) (byte : UInt8) : Action Unit := fun m =>
  match m.fault? a len .write with
  | some fault => .error (.memoryFault fault) m
  | none => .ok () (m.putFill a len byte)

end Guarded
end TemplateVm.Memory
