set_option autoImplicit false

/-!
# The mark queue

While marking is active, references that are about to be overwritten are queued for the marker.
-/
namespace TemplateVm.Memory

structure MarkQueue where
  active : Bool := false
  /-- The latest reference first. -/
  entries : List UInt64 := []
  deriving DecidableEq, Inhabited

namespace MarkQueue

def setActive (q : MarkQueue) (active : Bool) : MarkQueue := { q with active }

/-- Null is never queued, nor anything outside of marking. -/
def enqueue (q : MarkQueue) (reference : UInt64) : MarkQueue :=
  if q.active ∧ reference ≠ 0 then { q with entries := reference :: q.entries } else q

/-- Everything queued, in the order of queueing. -/
def toList (q : MarkQueue) : List UInt64 := q.entries.reverse

def size (q : MarkQueue) : Nat := q.entries.length

def isEmpty (q : MarkQueue) : Bool := q.entries.isEmpty

def drain (q : MarkQueue) : List UInt64 × MarkQueue := (q.toList, { q with entries := [] })

end MarkQueue
end TemplateVm.Memory
