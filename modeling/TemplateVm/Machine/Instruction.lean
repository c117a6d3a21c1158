import TemplateVm.Machine.Register

set_option autoImplicit false

/-!
# Instructions

The instruction set of the machine. An instruction is a value, not an encoding; each takes four
bytes of the code's address range. `τ` is what a direct branch goes to: an address in finished
code, or an address or a label while code is being assembled.
-/
namespace TemplateVm

/-- A condition on the four flags. -/
inductive Condition where
  | eq | ne | hs | lo | mi | pl | vs | vc | hi | ls | ge | lt | gt | le | al
  deriving DecidableEq, Inhabited

/-- Negative, zero, carry and overflow. -/
structure Flags where
  n : Bool
  z : Bool
  c : Bool
  v : Bool
  deriving DecidableEq, Inhabited

namespace Condition

def all : List Condition := [eq, ne, hs, lo, mi, pl, vs, vc, hi, ls, ge, lt, gt, le, al]

/-- The condition that holds exactly when this one does not, except for `al`, which always holds. -/
def invert : Condition → Condition
  | eq => ne | ne => eq | hs => lo | lo => hs | mi => pl | pl => mi | vs => vc | vc => vs
  | hi => ls | ls => hi | ge => lt | lt => ge | gt => le | le => gt | al => al

def holds (f : Flags) : Condition → Bool
  | eq => f.z
  | ne => !f.z
  | hs => f.c
  | lo => !f.c
  | mi => f.n
  | pl => !f.n
  | vs => f.v
  | vc => !f.v
  | hi => f.c && !f.z
  | ls => !f.c || f.z
  | ge => f.n == f.v
  | lt => f.n != f.v
  | gt => !f.z && f.n == f.v
  | le => f.z || f.n != f.v
  | al => true

def name : Condition → String
  | eq => "eq" | ne => "ne" | hs => "hs" | lo => "lo" | mi => "mi" | pl => "pl" | vs => "vs"
  | vc => "vc" | hi => "hi" | ls => "ls" | ge => "ge" | lt => "lt" | gt => "gt" | le => "le"
  | al => "al"

end Condition

/-- The last operand of an arithmetic instruction. -/
inductive Operand where
  | imm (n : UInt64)
  | reg (r : Register)
  | shifted (r : Register) (amount : UInt8)
  deriving DecidableEq, Inhabited

/-- Where a load or store goes, and what it leaves in the base register. -/
inductive Address where
  /-- Base plus offset. -/
  | base (b : Register) (offset : UInt64)
  /-- Base plus offset, which becomes the new base. -/
  | pre (b : Register) (offset : UInt64)
  /-- The base alone; the new base is base plus offset. -/
  | post (b : Register) (offset : UInt64)
  /-- Base plus shifted index. -/
  | index (b i : Register) (amount : UInt8)
  deriving DecidableEq, Inhabited

inductive Width where
  | byte | half | word | double
  deriving DecidableEq, Inhabited

def Width.bytes : Width → UInt64
  | byte => 1 | half => 2 | word => 4 | double => 8

/-- Widening of the low bits of a register, with zeros or with the sign. -/
inductive Extension where
  | zeroByte | zeroHalf | zeroWord | signByte | signHalf | signWord
  deriving DecidableEq, Inhabited

namespace Extension

def apply (v : UInt64) : Extension → UInt64
  | zeroByte => v.toUInt8.toUInt64
  | zeroHalf => v.toUInt16.toUInt64
  | zeroWord => v.toUInt32.toUInt64
  | signByte => v.toUInt8.toInt8.toInt64.toUInt64
  | signHalf => v.toUInt16.toInt16.toInt64.toUInt64
  | signWord => v.toUInt32.toInt32.toInt64.toUInt64

def name : Extension → String
  | zeroByte => "uxtb" | zeroHalf => "uxth" | zeroWord => "uxtw"
  | signByte => "sxtb" | signHalf => "sxth" | signWord => "sxtw"

end Extension

inductive Precision where
  | single | double
  deriving DecidableEq, Inhabited

def Precision.bytes : Precision → UInt64
  | single => 4 | double => 8

def Precision.suffix : Precision → String
  | single => "s" | double => "d"

inductive FloatBinary where
  | add | sub | mul | div
  deriving DecidableEq, Inhabited

inductive FloatUnary where
  | sqrt | abs | neg | mov
  deriving DecidableEq, Inhabited

/-- Two-operand arithmetic and logic. -/
inductive Binary where
  | add | sub | and | or | xor
  deriving DecidableEq, Inhabited

inductive Instruction (τ : Type) where
  | nop
  | movImm (rd : Register) (n : UInt64)
  | mov (rd rn : Register)
  | binary (op : Binary) (rd rn : Register) (operand : Operand)
  | shiftLeft (rd rn : Register) (amount : UInt8)
  | shiftRight (rd rn : Register) (amount : UInt8)
  | mul (rd rn rm : Register)
  /-- Signed division toward zero; division by zero gives zero. -/
  | div (rd rn rm : Register)
  | neg (rd rn : Register)
  | extend (kind : Extension) (rd rn : Register)
  | compare (rn : Register) (operand : Operand)
  | test (rn : Register) (operand : Operand)
  | select (rd rn rm : Register) (cond : Condition)
  | load (rt : Register) (addr : Address) (width : Width) (signed : Bool)
  | store (rt : Register) (addr : Address) (width : Width)
  | loadPair (r1 r2 : Register) (addr : Address)
  | storePair (r1 r2 : Register) (addr : Address)
  | loadFloat (vt : FloatRegister) (addr : Address) (precision : Precision)
  | storeFloat (vt : FloatRegister) (addr : Address) (precision : Precision)
  | floatOfBits (vd : FloatRegister) (rn : Register) (precision : Precision)
  | bitsOfFloat (rd : Register) (vn : FloatRegister) (precision : Precision)
  | floatBinary (op : FloatBinary) (precision : Precision) (vd vn vm : FloatRegister)
  | floatUnary (op : FloatUnary) (precision : Precision) (vd vn : FloatRegister)
  /-- Adds `rs` to memory and gives the old value, in one step. -/
  | fetchAdd (rs rt rn : Register) (width : Width)
  | adr (rd : Register) (target : τ)
  | branch (target : τ)
  | branchIf (cond : Condition) (target : τ)
  | branchZero (rt : Register) (target : τ)
  | branchNonzero (rt : Register) (target : τ)
  | branchBitClear (rt : Register) (bit : UInt8) (target : τ)
  | branchBitSet (rt : Register) (bit : UInt8) (target : τ)
  | call (target : τ)
  | branchTo (rn : Register)
  | callTo (rn : Register)
  | ret (rn : Register)
  /-- Leaves the machine for a function of the host; `format` describes its arguments. -/
  | callNative (target format : Register)
  | barrier
  | breakpoint (tag : UInt16)
  | stop (reason : String)
  deriving DecidableEq, Inhabited

namespace Instruction

/-- Bytes of an instruction. -/
def size : UInt64 := 4

/-- Replaces the target, if there is one. -/
def mapTarget {τ υ ε : Type} (f : τ → Except ε υ) : Instruction τ → Except ε (Instruction υ)
  | nop => .ok nop
  | movImm rd n => .ok (movImm rd n)
  | mov rd rn => .ok (mov rd rn)
  | binary op rd rn operand => .ok (binary op rd rn operand)
  | shiftLeft rd rn amount => .ok (shiftLeft rd rn amount)
  | shiftRight rd rn amount => .ok (shiftRight rd rn amount)
  | mul rd rn rm => .ok (mul rd rn rm)
  | div rd rn rm => .ok (div rd rn rm)
  | neg rd rn => .ok (neg rd rn)
  | extend kind rd rn => .ok (extend kind rd rn)
  | compare rn operand => .ok (compare rn operand)
  | test rn operand => .ok (test rn operand)
  | select rd rn rm cond => .ok (select rd rn rm cond)
  | load rt addr width signed => .ok (load rt addr width signed)
  | store rt addr width => .ok (store rt addr width)
  | loadPair r1 r2 addr => .ok (loadPair r1 r2 addr)
  | storePair r1 r2 addr => .ok (storePair r1 r2 addr)
  | loadFloat vt addr precision => .ok (loadFloat vt addr precision)
  | storeFloat vt addr precision => .ok (storeFloat vt addr precision)
  | floatOfBits vd rn precision => .ok (floatOfBits vd rn precision)
  | bitsOfFloat rd vn precision => .ok (bitsOfFloat rd vn precision)
  | floatBinary op precision vd vn vm => .ok (floatBinary op precision vd vn vm)
  | floatUnary op precision vd vn => .ok (floatUnary op precision vd vn)
  | fetchAdd rs rt rn width => .ok (fetchAdd rs rt rn width)
  | adr rd target => (f target).map (adr rd)
  | branch target => (f target).map branch
  | branchIf cond target => (f target).map (branchIf cond)
  | branchZero rt target => (f target).map (branchZero rt)
  | branchNonzero rt target => (f target).map (branchNonzero rt)
  | branchBitClear rt bit target => (f target).map (branchBitClear rt bit)
  | branchBitSet rt bit target => (f target).map (branchBitSet rt bit)
  | call target => (f target).map call
  | branchTo rn => .ok (branchTo rn)
  | callTo rn => .ok (callTo rn)
  | ret rn => .ok (ret rn)
  | callNative target format => .ok (callNative target format)
  | barrier => .ok barrier
  | breakpoint tag => .ok (breakpoint tag)
  | stop reason => .ok (stop reason)

abbrev target? {τ : Type} : Instruction τ → Option τ
  | adr _ target | branch target | branchIf _ target | branchZero _ target
  | branchNonzero _ target | branchBitClear _ _ target | branchBitSet _ _ target | call target =>
    some target
  | _ => none

end Instruction
end TemplateVm
