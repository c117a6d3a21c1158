import TemplateVm.Guest.TypeTag

set_option autoImplicit false

/-!
# Top of stack

Between two bytecodes the topmost operand may be held in a register. The state says which kind of
value is held; in `none` the operand stack in memory is complete.
-/
namespace TemplateVm

inductive TopOfStack where
  | byte | boolean | char | short | int | long | float | double | object | none
  deriving DecidableEq, Inhabited

namespace TopOfStack

def all : List TopOfStack :=
  [byte, boolean, char, short, int, long, float, double, object, none]

/-- Position in tables that have one column for each state. -/
def index (t : TopOfStack) : Nat := t.ctorIdx

def ofIndex? (n : Nat) : Option TopOfStack := all[n]?

def count : Nat := 10

/-- The state in which a value of the type is held. -/
def ofType : TypeTag → TopOfStack
  | .byte => byte | .boolean => boolean | .char => char | .short => short | .int => int
  | .long => long | .float => float | .double => double
  | .object | .array => object
  | .void => none

/-- Operand stack words of a value in this state, once it is pushed. -/
def words : TopOfStack → Nat
  | long | double => 2
  | none => 0
  | _ => 1

/-- The value is a sign-extended integer in the integer result register. -/
def isIntLike : TopOfStack → Bool
  | byte | boolean | char | short | int => true
  | _ => false

/-- The value is in the floating result register. -/
def isFloatLike : TopOfStack → Bool
  | float | double => true
  | _ => false

/-- A call delivers every integer narrower than a word as an `int`. -/
def ofResult : TopOfStack → TopOfStack
  | byte | boolean | char | short => int
  | t => t

def name : TopOfStack → String
  | byte => "btos" | boolean => "ztos" | char => "ctos" | short => "stos" | int => "itos"
  | long => "ltos" | float => "ftos" | double => "dtos" | object => "atos" | none => "vtos"

end TopOfStack
end TemplateVm
