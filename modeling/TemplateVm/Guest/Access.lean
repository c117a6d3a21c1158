set_option autoImplicit false

/-!
# Access flags

The modifiers of a method, one bit each; bits without a meaning here are kept.
-/
namespace TemplateVm

structure Access where
  bits : UInt32
  deriving DecidableEq, Inhabited

namespace Access

def publicBit : UInt32 := 0x1
def staticBit : UInt32 := 0x8
def finalBit : UInt32 := 0x10
def synchronizedBit : UInt32 := 0x20
def nativeBit : UInt32 := 0x100
def abstractBit : UInt32 := 0x400

def has (a : Access) (bit : UInt32) : Bool := a.bits &&& bit == bit

def isStatic (a : Access) : Bool := a.has staticBit
def isSynchronized (a : Access) : Bool := a.has synchronizedBit
def isNative (a : Access) : Bool := a.has nativeBit
def isAbstract (a : Access) : Bool := a.has abstractBit

def publicStatic : Access := ⟨publicBit ||| staticBit⟩

end Access
end TemplateVm
