import TemplateVm.Guest.TopOfStack

set_option autoImplicit false

/-!
# Records of the metaspace

Offsets, in bytes, of the fields through which generated code sees methods, constant pools and
classes.
-/
namespace TemplateVm

namespace MethodRecord

def constMethod : UInt64 := 0
def accessFlags : UInt64 := 8
def invocationCounter : UInt64 := 12
def fromInterpreted : UInt64 := 16
def nativeFunction : UInt64 := 24
def signatureHandler : UInt64 := 32
def callFormat : UInt64 := 40
def id : UInt64 := 44
def size : UInt64 := 48

end MethodRecord

/-! The constant part of a method, followed by its code. -/
namespace ConstMethodRecord

def constants : UInt64 := 0
def parameterWords : UInt64 := 8
def maxLocals : UInt64 := 10
def maxStack : UInt64 := 12
def codeSize : UInt64 := 14
def code : UInt64 := 16

end ConstMethodRecord

namespace PoolRecord

def holder : UInt64 := 0
def cache : UInt64 := 8
def length : UInt64 := 16
def size : UInt64 := 24

end PoolRecord

/-! The cache of a constant pool: a header of two words, and an entry for each constant. -/
namespace CacheRecord

def base : UInt64 := 16
def entrySize : UInt64 := 32
def entryShift : UInt8 := 5
def index : UInt64 := 0
def opcode1 : UInt64 := 2
def opcode2 : UInt64 := 3
def f1 : UInt64 := 8
def f2 : UInt64 := 16
def flags : UInt64 := 24
def parameterMask : UInt64 := 0xff
def tosShift : UInt8 := 28

/-- Offset of a field of an entry. -/
def entryField (index field : UInt64) : UInt64 := base + index * entrySize + field

end CacheRecord

namespace ClassRecord

def super : UInt64 := 0
def classObject : UInt64 := 8
def instanceSlots : UInt64 := 16
def id : UInt64 := 20
def size : UInt64 := 24

end ClassRecord

/-- The flags of a cache entry: the parameter words of a method, of which eight bits are kept, and
    the state of a result or field. -/
def packFlags (parameterWords : UInt64) (tos : TopOfStack) : UInt64 :=
  (parameterWords &&& CacheRecord.parameterMask) |||
    (tos.index.toUInt64 <<< CacheRecord.tosShift.toUInt64)

def unpackFlags (flags : UInt64) : UInt64 × Option TopOfStack :=
  (flags &&& CacheRecord.parameterMask,
    TopOfStack.ofIndex? ((flags >>> CacheRecord.tosShift.toUInt64) &&& 0xf).toNat)

end TemplateVm
