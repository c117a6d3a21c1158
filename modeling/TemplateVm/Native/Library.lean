import TemplateVm.Class.Definition
import TemplateVm.Failure

set_option autoImplicit false

/-!
# The native library

Which function belongs to which native method. Registering a function for a method again replaces
the one before.
-/
namespace TemplateVm.Native

structure LinkedFunction where
  method : MemberRef
  address : UInt64
  deriving DecidableEq, Inhabited

structure Library where
  functions : List LinkedFunction := []
  deriving DecidableEq, Inhabited

namespace Library

/-- Refuses a null function first, then a malformed descriptor. -/
def register (l : Library) (method : MemberRef) (address : UInt64) : Except Failure Library :=
  if address = 0 then .error (.linkage s!"{method.holder}.{method.name}: null native function")
  else
    match MethodDescriptor.ofText method.descriptor with
    | .error defect => .error (.invalidClass defect.message)
    | .ok _ => .ok ⟨⟨method, address⟩ :: l.functions.filter (·.method ≠ method)⟩

def find? (l : Library) (method : MemberRef) : Option LinkedFunction :=
  l.functions.find? (·.method = method)

def size (l : Library) : Nat := l.functions.length

end Library
end TemplateVm.Native
