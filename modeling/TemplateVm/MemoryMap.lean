import TemplateVm.Guest.TopOfStack
import TemplateVm.Memory.Region
import TemplateVm.Settings

set_option autoImplicit false

/-!
# The memory map

Where everything lies: the guarded null page, global words and dispatch tables, the metaspace, the
heap, the block of the thread, and the stack with its red and yellow zones at the low end. Code and
runtime services have addresses far above, which are never read or written.
-/
namespace TemplateVm

namespace Place

def nullPageEnd : UInt64 := 0x1000
def safepointState : UInt64 := 0x1000
def bytecodeCounter : UInt64 := 0x1008
def markingActive : UInt64 := 0x1010
def serializePage : UInt64 := 0x1018
def returnTable : UInt64 := 0x1040
def histogram : UInt64 := 0x1100

/-- A word for each state and opcode. -/
def dispatchTableSize : UInt64 := 0x5000
def activeTable : UInt64 := 0x10000
def normalTable : UInt64 := activeTable + dispatchTableSize
def safepointTable : UInt64 := normalTable + dispatchTableSize

def metaspace : UInt64 := 0x20000
def threadSize : UInt64 := 0x1000
def codeBase : UInt64 := 0x40000000
def codeLimit : UInt64 := 0x50000000

def runtimeBase : UInt64 := 0x70000000
def runtimeStride : UInt64 := 16
def runtimeEnd : UInt64 := 0x70010000

/-- Where a call from outside returns to. -/
def hostReturn : UInt64 := 0x7fff0000

def dispatchSlot (table : UInt64) (tos : TopOfStack) (opcode : UInt8) : UInt64 :=
  table + (tos.index.toUInt64 * 256 + opcode.toUInt64) * 8

/-- Return entries have two rows: for calls of five bytes and for all others. -/
def returnSlot (length : Nat) (tos : TopOfStack) : UInt64 :=
  let row := if length = 5 then 1 else 0
  returnTable + (row * TopOfStack.count + tos.index).toUInt64 * 8

def isRuntime (a : UInt64) : Bool := runtimeBase ≤ a && a < runtimeEnd

end Place

namespace GuardTag

def nullPage : UInt32 := 1
def yellowZone : UInt32 := 2
def redZone : UInt32 := 3

end GuardTag

structure MemoryMap where
  metaspaceStart : UInt64
  metaspaceSize : UInt64
  heapStart : UInt64
  heapSize : UInt64
  thread : UInt64
  stackLimit : UInt64
  stackBase : UInt64
  pageSize : UInt64
  redPages : UInt64
  yellowPages : UInt64
  size : UInt64
  deriving DecidableEq, Inhabited

namespace MemoryMap

/-- Each part starts on a page after the one before; a spare page lies above the stack. -/
def ofSettings (s : Settings) : MemoryMap :=
  let up (a : UInt64) : UInt64 := Memory.Region.alignUp a s.pageSize
  let heapStart := up (Place.metaspace + s.metaspaceSize)
  let thread := up (heapStart + s.heapSize)
  let stackLimit := up (thread + Place.threadSize)
  let stackBase := stackLimit + s.stackSize
  { metaspaceStart := Place.metaspace, metaspaceSize := s.metaspaceSize
    heapStart, heapSize := s.heapSize, thread, stackLimit, stackBase
    pageSize := s.pageSize, redPages := s.redPages, yellowPages := s.yellowPages
    size := stackBase + s.pageSize }

def redEnd (m : MemoryMap) : UInt64 := m.stackLimit + m.redPages * m.pageSize
def yellowSize (m : MemoryMap) : UInt64 := m.yellowPages * m.pageSize
def yellowEnd (m : MemoryMap) : UInt64 := m.redEnd + m.yellowSize
def stackSize (m : MemoryMap) : UInt64 := m.stackBase - m.stackLimit

end MemoryMap
end TemplateVm
