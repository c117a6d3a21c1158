import TemplateVm.Decimal.Shortest
import TemplateVm.Guest.TypeTag
import TemplateVm.Text.Hex

set_option autoImplicit false

/-!
# Guest values

Arguments and results of a call. Floating numbers are kept as their bits, so that two values are
equal exactly when the machine cannot tell them apart.
-/
namespace TemplateVm

inductive Value where
  | void
  | boolean (b : Bool)
  | byte (n : Int8)
  | char (unit : UInt16)
  | short (n : Int16)
  | int (n : Int32)
  | long (n : Int64)
  | float (bits : UInt32)
  | double (bits : UInt64)
  | object (reference : UInt64)
  deriving DecidableEq, Inhabited

namespace Value

def null : Value := object 0

def type : Value → TypeTag
  | void => .void | boolean _ => .boolean | byte _ => .byte | char _ => .char | short _ => .short
  | int _ => .int | long _ => .long | float _ => .float | double _ => .double
  | object _ => .object

/-- Words in push order. A value of two words pushes an unused word first, so that its payload
    comes to lie at the lower address. -/
def stackWords : Value → List UInt64
  | void => []
  | boolean b => [b.toUInt64]
  | byte n => [n.toInt64.toUInt64]
  | char unit => [unit.toUInt64]
  | short n => [n.toInt64.toUInt64]
  | int n => [n.toInt64.toUInt64]
  | long n => [0, n.toUInt64]
  | float bits => [bits.toUInt64]
  | double bits => [0, bits]
  | object reference => [reference]

/-- The result of the given type that a call leaves in the two result registers. -/
def ofRegisters (t : TypeTag) (x0 v0 : UInt64) : Value :=
  match t with
  | .void => void
  | .boolean => boolean (x0 &&& 0xff != 0)
  | .byte => byte x0.toUInt8.toInt8
  | .char => char x0.toUInt16
  | .short => short x0.toUInt16.toInt16
  | .int => int x0.toUInt32.toInt32
  | .long => long x0.toInt64
  | .float => float v0.toUInt32
  | .double => double v0
  | .object | .array => object x0

def asInt? : Value → Option Int32
  | int n => some n
  | _ => none

def asReference? : Value → Option UInt64
  | object reference => some reference
  | _ => none

def isNaN : Value → Bool
  | float bits => Decimal.text .single bits.toNat == "NaN"
  | double bits => Decimal.text .double bits.toNat == "NaN"
  | _ => false

def text : Value → String
  | void => "void"
  | boolean b => if b then "true" else "false"
  | byte n => toString n.toInt
  | char unit =>
    if h : unit.toUInt32.isValidChar then "'" ++ String.singleton ⟨unit.toUInt32, h⟩ ++ "'"
    else "\\u" ++ Text.padLeft 4 '0' (Text.hexDigits unit.toNat)
  | short n => toString n.toInt
  | int n => toString n.toInt
  | long n => toString n.toInt ++ "L"
  | float bits => Decimal.text .single bits.toNat ++ "f"
  | double bits => Decimal.text .double bits.toNat
  | object reference => if reference = 0 then "null" else "@" ++ Text.hex reference.toNat

end Value
end TemplateVm
