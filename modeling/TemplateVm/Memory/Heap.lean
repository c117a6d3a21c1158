import Std.Data.HashSet
import TemplateVm.Memory.Guarded
import TemplateVm.Memory.Region
import TemplateVm.Zoom

set_option autoImplicit false

/-!
# The object heap

Objects are bump-allocated and live for ever. Every object starts with a mark word and the address
of its class; instances go on with one slot for each field, arrays with their length and elements.
-/
namespace TemplateVm.Memory

namespace ObjectShape

def mark : UInt64 := 0
def classRecord : UInt64 := 8
def fields : UInt64 := 16
def arrayLength : UInt64 := 16
def arrayBase : UInt64 := 24
def slot : UInt64 := 8

end ObjectShape

structure HeapStats where
  objects : UInt64 := 0
  arrays : UInt64 := 0
  bytes : UInt64 := 0
  deriving DecidableEq, Inhabited

structure Heap where
  region : Region
  starts : Std.HashSet UInt64 := ∅
  stats : HeapStats := {}
  deriving Inhabited

namespace Heap

def ofRange (start size : UInt64) : Heap := { region := .ofSize start size }

/-- An object starts at the address. -/
def isObject (h : Heap) (a : UInt64) : Bool := h.starts.contains a

def contains (h : Heap) (a : UInt64) : Bool := h.region.contains a

def exhausted (h : Heap) : Failure :=
  .internal s!"heap exhausted: {h.region.used.toNat} of {h.region.capacity.toNat} bytes used"

end Heap

/-- Memory with the heap in it. -/
structure Store where
  mem : Guarded
  heap : Heap

instance : Inhabited Store := ⟨⟨default, default⟩⟩

namespace Store

abbrev Action := EStateM Failure Store

@[inline] def onMemory {α : Type} (action : Guarded.Action α) : Action α :=
  zoom Store.mem (fun mem s => { s with mem }) action

/-- A cleared block for a new object of `size` bytes. -/
def allocate (size : UInt64) : Action UInt64 := do
  let s ← get
  match s.heap.region.allocate? size 8 with
  | none => throw s.heap.exhausted
  | some (a, region) =>
    modify fun s => { s with heap := { s.heap with region } }
    onMemory (Guarded.fill a size 0)
    modify fun s => { s with heap := { s.heap with
      starts := s.heap.starts.insert a
      stats := { s.heap.stats with bytes := s.heap.stats.bytes + size } } }
    pure a

def allocateInstance (classRecord slots : UInt64) : Action UInt64 := do
  let a ← allocate (ObjectShape.fields + slots * ObjectShape.slot)
  onMemory (Guarded.write (a + ObjectShape.classRecord) 8 classRecord)
  modify fun s => { s with heap := { s.heap with
    stats := { s.heap.stats with objects := s.heap.stats.objects + 1 } } }
  pure a

def allocateArray (classRecord elementSize : UInt64) (length : UInt32) : Action UInt64 := do
  let a ← allocate (ObjectShape.arrayBase + elementSize * length.toUInt64)
  onMemory do
    Guarded.write (a + ObjectShape.classRecord) 8 classRecord
    Guarded.write (a + ObjectShape.arrayLength) 4 length.toUInt64
  modify fun s => { s with heap := { s.heap with
    stats := { s.heap.stats with arrays := s.heap.stats.arrays + 1 } } }
  pure a

end Store
end TemplateVm.Memory
