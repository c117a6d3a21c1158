import TemplateVm.Text.Hex

set_option autoImplicit false

/-!
# Failures

Everything that ends an operation of the machine without being an exception of the guest program.
-/
namespace TemplateVm

inductive MemoryAccess where
  | read | write | execute
  deriving DecidableEq, Inhabited

def MemoryAccess.text : MemoryAccess → String
  | read => "read" | write => "write" | execute => "execute"

/-- An access that touched guarded memory, or none at all. `guard` is the tag of the guard. -/
structure MemoryFault where
  address : UInt64
  access : MemoryAccess
  guard : Option UInt32
  deriving DecidableEq, Inhabited

inductive Failure where
  | stop (reason : String) (pc : UInt64)
  | breakpoint (pc count : UInt64)
  | memoryFault (fault : MemoryFault)
  | stackOverflowFatal (address : UInt64)
  | unimplemented (what : String)
  | linkage (what : String)
  | invalidClass (what : String)
  | stepLimitExceeded (limit : UInt64)
  | codeGeneration (what : String)
  | nativeBridge (what : String)
  | config (what : String)
  | internal (what : String)
  deriving DecidableEq, Inhabited

def Failure.message : Failure → String
  | stop reason pc => s!"stop: {reason} (pc={Text.hex pc.toNat})"
  | breakpoint pc count => s!"breakpoint at pc={Text.hex pc.toNat} after {count.toNat} bytecodes"
  | memoryFault f => s!"memory fault: {f.access.text} at {Text.hex f.address.toNat}"
  | stackOverflowFatal address => s!"fatal stack overflow at {Text.hex address.toNat}"
  | unimplemented what => "unimplemented: " ++ what
  | linkage what => "linkage error: " ++ what
  | invalidClass what => "invalid class: " ++ what
  | stepLimitExceeded limit => s!"step limit of {limit.toNat} instructions exceeded"
  | codeGeneration what => "code generation failed: " ++ what
  | nativeBridge what => "native bridge: " ++ what
  | config what => "invalid configuration: " ++ what
  | internal what => "internal error: " ++ what

end TemplateVm
