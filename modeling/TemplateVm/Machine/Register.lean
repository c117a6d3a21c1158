set_option autoImplicit false

/-!
# Registers

Thirty-one general registers, the stack pointer, a register that is always zero, and eight floating
registers. The names below `x30` give the roles that generated code assigns to them.
-/
namespace TemplateVm

/-- General registers are numbered from 0 to 30, the stack pointer is 31 and zero is 32. -/
structure Register where
  number : Fin 33
  deriving DecidableEq, Inhabited

namespace Register

def x (n : Fin 31) : Register := ⟨⟨n.val, by omega⟩⟩
def sp : Register := ⟨31⟩
def zero : Register := ⟨32⟩

def x0 : Register := ⟨0⟩
def x1 : Register := ⟨1⟩
def x2 : Register := ⟨2⟩
def x3 : Register := ⟨3⟩
def x4 : Register := ⟨4⟩
def x5 : Register := ⟨5⟩
def x6 : Register := ⟨6⟩
def x7 : Register := ⟨7⟩
def x8 : Register := ⟨8⟩
def x9 : Register := ⟨9⟩
def x10 : Register := ⟨10⟩
def x11 : Register := ⟨11⟩
def x12 : Register := ⟨12⟩
def x13 : Register := ⟨13⟩
def x14 : Register := ⟨14⟩
def x15 : Register := ⟨15⟩
def x16 : Register := ⟨16⟩
def x17 : Register := ⟨17⟩
def x18 : Register := ⟨18⟩
def x19 : Register := ⟨19⟩
def x20 : Register := ⟨20⟩
def x21 : Register := ⟨21⟩
def x22 : Register := ⟨22⟩
def x23 : Register := ⟨23⟩
def x24 : Register := ⟨24⟩
def x25 : Register := ⟨25⟩
def x26 : Register := ⟨26⟩
def x27 : Register := ⟨27⟩
def x28 : Register := ⟨28⟩
def x29 : Register := ⟨29⟩
def x30 : Register := ⟨30⟩

/-- Scratch registers, free between any two instructions of a template. -/
def scratch1 : Register := x8
def scratch2 : Register := x9

/-- The method that is being entered. -/
def method : Register := x12

/-- The stack pointer of the sender while a method is being entered. -/
def sender : Register := x13

/-- The top of the operand stack. -/
def operands : Register := x20

/-- The active dispatch table. -/
def dispatch : Register := x21

/-- The address of the current bytecode. -/
def bytecode : Register := x22

/-- The first local variable; the others lie below it. -/
def locals : Register := x24

/-- The cache of the constant pool. -/
def cache : Register := x26

/-- The block of the thread. -/
def thread : Register := x28

def frame : Register := x29
def link : Register := x30

/-- The registers that take the first eight arguments of a call. -/
def arguments : List Register := [x0, x1, x2, x3, x4, x5, x6, x7]

def text (r : Register) : String :=
  match r.number.val with
  | 29 => "fp"
  | 30 => "lr"
  | 31 => "sp"
  | 32 => "xzr"
  | n => s!"x{n}"

end Register

structure FloatRegister where
  number : Fin 8
  deriving DecidableEq, Inhabited

namespace FloatRegister

def v0 : FloatRegister := ⟨0⟩
def v1 : FloatRegister := ⟨1⟩
def v2 : FloatRegister := ⟨2⟩
def v3 : FloatRegister := ⟨3⟩

def all : List FloatRegister := (List.finRange 8).map FloatRegister.mk

def text (v : FloatRegister) : String := s!"v{v.number.val}"

end FloatRegister
end TemplateVm
