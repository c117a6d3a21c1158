import TemplateVm.Native.CallFormat

set_option autoImplicit false

/-!
# Functions of the host

The functions that native methods can be linked to. Each takes the environment, a handle of the
receiver or class, and then its parameters; integers and floating numbers are counted apart.
-/
namespace TemplateVm.Native

inductive HostFunction where
  | vNop | iSeven | iId | iAdd | iMix6 | jId | jMix | fHalf | dScale | dPoly | iTrunc | pArg
  | pClass | pNull | pLow | pWild | iPresent | vSink | iMul
  deriving DecidableEq, Inhabited

/-- The argument registers at a call. -/
structure Arguments where
  words : List UInt64
  floats : List UInt64

namespace Arguments

def word (a : Arguments) (i : Nat) : UInt64 := a.words.getD i 0
def int (a : Arguments) (i : Nat) : UInt32 := (a.word i).toUInt32
def single (a : Arguments) (i : Nat) : Float32 := .ofBits (a.floats.getD i 0).toUInt32
def double (a : Arguments) (i : Nat) : Float := .ofBits (a.floats.getD i 0)

end Arguments

/-- What a function gives back. -/
inductive Outcome where
  | void
  | int (n : UInt32)
  | word (n : UInt64)
  | float (bits : UInt32)
  | double (bits : UInt64)
  deriving DecidableEq, Inhabited

/-- The signed int nearest to a number in the direction of zero; the ends of the range stand for all
    beyond them, and zero for what is no number. -/
def truncateToInt (x : Float) : UInt32 := x.toInt32.toUInt32

namespace HostFunction

def all : List HostFunction :=
  [vNop, iSeven, iId, iAdd, iMix6, jId, jMix, fHalf, dScale, dPoly, iTrunc, pArg, pClass, pNull,
    pLow, pWild, iPresent, vSink, iMul]

def name : HostFunction → String
  | vNop => "v_nop" | iSeven => "i_seven" | iId => "i_id" | iAdd => "i_add" | iMix6 => "i_mix6"
  | jId => "j_id" | jMix => "j_mix" | fHalf => "f_half" | dScale => "d_scale" | dPoly => "d_poly"
  | iTrunc => "i_trunc" | pArg => "p_arg" | pClass => "p_class" | pNull => "p_null"
  | pLow => "p_low" | pWild => "p_wild" | iPresent => "i_present" | vSink => "v_sink"
  | iMul => "i_mul"

/-- The parameters and the result, as a method with this function declares them. -/
def descriptor : HostFunction → String
  | vNop => "()V" | iSeven => "()I" | iId => "(I)I" | iAdd => "(II)I" | iMix6 => "(IIIIII)I"
  | jId => "(J)J" | jMix => "(JIJ)J" | fHalf => "(F)F" | dScale => "(DF)D" | dPoly => "(DIDJ)D"
  | iTrunc => "(D)I" | pArg => "(Lx;)Lx;" | pClass => "()Lx;" | pNull => "()Lx;"
  | pLow => "()Lx;" | pWild => "()Lx;" | iPresent => "(Lx;)I" | vSink => "(IJFD)V"
  | iMul => "(II)I"

/-- A distinct address that is not zero. -/
def address (f : HostFunction) : UInt64 := 0x600000000000 + f.ctorIdx.toUInt64 * 16

def ofAddress? (a : UInt64) : Option HostFunction := all.find? (·.address == a)
def ofName? (s : String) : Option HostFunction := all.find? (·.name == s)

/-- The format in which the function is called. -/
def format (f : HostFunction) : CallFormat :=
  match MethodDescriptor.ofText? f.descriptor with
  | some d => ⟨.word :: .word :: d.parameters.map ArgumentKind.ofType, .ofType d.result⟩
  | none => ⟨[], .void⟩

/-- The first two words are the environment and the handle. -/
def call (a : Arguments) : HostFunction → Outcome
  | vNop | vSink => .void
  | iSeven => .int 7
  | iId => .int (a.int 2)
  | iAdd => .int (a.int 2 + a.int 3)
  | iMul => .int (a.int 2 * a.int 3)
  | iMix6 => .int ((List.range 6).foldl (fun h i => h * 31 + a.int (2 + i)) 17)
  | jId => .word (a.word 2)
  | jMix => .word (a.word 2 * 100 + (a.int 3).toInt32.toInt64.toUInt64 * 10 + a.word 4)
  | fHalf => .float (a.single 0 / 2).toBits
  | dScale => .double (a.double 0 * (a.single 1).toFloat).toBits
  | dPoly =>
    .double (a.double 0 * Float.ofInt (a.int 2).toInt32.toInt +
      a.double 1 * (a.word 3).toInt64.toFloat).toBits
  | iTrunc => .int (truncateToInt (a.double 0))
  | pArg => .word (a.word 2)
  | pClass => .word (a.word 1)
  | pNull => .word 0
  | pLow => .word 0x10
  | pWild => .word 0x7f000000
  | iPresent => .int (if a.word 2 = 0 then 0 else 1)

end HostFunction
end TemplateVm.Native
