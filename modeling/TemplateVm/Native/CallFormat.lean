import TemplateVm.Class.Descriptor
import TemplateVm.Text.Hex

set_option autoImplicit false

/-!
# Call formats

How a function of the host takes its arguments and gives its result. A format is packed into half
a word, which the machine passes along with the address of the function.
-/
namespace TemplateVm.Native

inductive ArgumentKind where
  | word | int | float | double
  deriving DecidableEq, Inhabited

inductive ResultKind where
  | void | int | word | float | double
  deriving DecidableEq, Inhabited

namespace ArgumentKind

def all : List ArgumentKind := [word, int, float, double]

def code (k : ArgumentKind) : UInt32 := k.ctorIdx.toUInt32

/-- Two bits tell the kind. -/
def ofCode (bits : UInt32) : ArgumentKind := all.getD (bits &&& 3).toNat word

def isFloating : ArgumentKind → Bool
  | float | double => true
  | _ => false

def name : ArgumentKind → String
  | word => "Word" | int => "Int32" | float => "Float" | double => "Double"

/-- Narrow integers are passed as `int`. -/
def ofType : TypeTag → ArgumentKind
  | .float => float
  | .double => double
  | .long | .object | .array => word
  | _ => int

end ArgumentKind

namespace ResultKind

def all : List ResultKind := [void, int, word, float, double]

def code (k : ResultKind) : UInt32 := k.ctorIdx.toUInt32

def ofCode? (n : UInt32) : Option ResultKind := all[n.toNat]?

def name : ResultKind → String
  | void => "Void" | int => "Int32" | word => "Word" | float => "Float" | double => "Double"

def ofType : TypeTag → ResultKind
  | .void => void
  | .float => float
  | .double => double
  | .long | .object | .array => word
  | _ => int

end ResultKind

/-- Arguments beyond the registers are not supported. -/
def maxArguments : Nat := 8

structure CallFormat where
  arguments : List ArgumentKind
  result : ResultKind
  deriving DecidableEq, Inhabited

/-- Why a format is refused. -/
inductive FormatDefect where
  | tooMany (count : Nat)
  | badCount (bits : UInt32) (count : Nat)
  | badResult (bits : UInt32)
  deriving DecidableEq

def FormatDefect.message : FormatDefect → String
  | tooMany count =>
    s!"{count} arguments exceed the {maxArguments} register arguments supported"
  | badCount bits count => s!"bad call format {Text.hex bits.toNat}: {count} arguments"
  | badResult bits => s!"bad call format {Text.hex bits.toNat}: result kind"

namespace CallFormat

def ofKinds (arguments : List ArgumentKind) (result : ResultKind) :
    Except FormatDefect CallFormat :=
  if maxArguments < arguments.length then .error (.tooMany arguments.length)
  else .ok ⟨arguments, result⟩

/-- Four bits of count, two bits for each argument, and the result from bit 24 on. -/
def pack (f : CallFormat) : UInt32 :=
  let kinds := f.arguments.zipIdx.foldl
    (fun bits (k, i) => bits ||| (k.code <<< (4 + 2 * i).toUInt32)) f.arguments.length.toUInt32
  kinds ||| (f.result.code <<< 24)

def unpack (bits : UInt32) : Except FormatDefect CallFormat :=
  let count := (bits &&& 0xf).toNat
  if maxArguments < count then .error (.badCount bits count)
  else
    match ResultKind.ofCode? ((bits >>> 24) &&& 0xf) with
    | none => .error (.badResult bits)
    | some result =>
      let kind (i : Nat) : ArgumentKind := .ofCode (bits >>> (4 + 2 * i).toUInt32)
      .ok ⟨(List.range count).map kind, result⟩

/-- A native method gets the environment and a handle of its receiver or class before its
    parameters. -/
def ofDescriptor (d : MethodDescriptor) : Except FormatDefect CallFormat :=
  ofKinds (.word :: .word :: d.parameters.map ArgumentKind.ofType) (.ofType d.result)

end CallFormat
end TemplateVm.Native
