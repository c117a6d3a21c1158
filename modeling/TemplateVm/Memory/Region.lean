set_option autoImplicit false

/-!
# Bump regions

A range of addresses that is handed out from its start on and never taken back.
-/
namespace TemplateVm.Memory

/-- Addresses below `top` are handed out, those from `top` up to `stop` are free. -/
structure Region where
  start : UInt64
  top : UInt64
  stop : UInt64
  deriving DecidableEq, Inhabited

namespace Region

def ofSize (start size : UInt64) : Region := ⟨start, start, start + size⟩

/-- The next multiple of `align`, a power of two. -/
def alignUp (a align : UInt64) : UInt64 := (a + align - 1) &&& ~~~(align - 1)

/-- The aligned block of `size` bytes that comes next, with the region that is left; none if the
    block would not fit or would wrap around. -/
def allocate? (r : Region) (size align : UInt64) : Option (UInt64 × Region) :=
  let a := alignUp r.top align
  let top := a + size
  if top < a ∨ r.stop < top then none else some (a, { r with top })

def used (r : Region) : UInt64 := r.top - r.start
def capacity (r : Region) : UInt64 := r.stop - r.start
def contains (r : Region) (a : UInt64) : Bool := r.start ≤ a && a < r.top

end Region
end TemplateVm.Memory
