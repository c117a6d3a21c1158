import TemplateVm.Failure
import TemplateVm.Native.HostFunction

set_option autoImplicit false

/-!
# Calling the host

A call goes through a trampoline for its format, which is made when the format is used for the first
time. It takes the arguments from the two kinds of argument registers and puts the result into the
result register of its kind; the other one is cleared.
-/
namespace TemplateVm.Native

/-- The formats that have a trampoline. -/
structure Bridge where
  formats : List UInt32 := []
  deriving DecidableEq, Inhabited

/-- The two result registers after a call. -/
structure Results where
  x0 : UInt64
  v0 : UInt64
  deriving DecidableEq, Inhabited

inductive BridgeDefect where
  | null
  | unknown (target : UInt64)
  deriving DecidableEq

def BridgeDefect.message : BridgeDefect → String
  | null => "native call to null"
  | unknown target => "no native function at " ++ Text.hex target.toNat

/-- The registers as the trampoline passes them: only the low half of a word that holds an `int`
    or a `float`. -/
def Arguments.passed (f : CallFormat) (gpr fpr : List UInt64) : Arguments :=
  let narrow (k : ArgumentKind) (n : UInt64) : UInt64 :=
    match k with
    | .int | .float => n.toUInt32.toUInt64
    | _ => n
  { words := (f.arguments.filter (!·.isFloating)).zipWith narrow gpr
    floats := (f.arguments.filter (·.isFloating)).zipWith narrow fpr }

/-- The registers after a result; an `int` is sign-extended, a `float` fills the low half. -/
def Results.ofOutcome : Outcome → Results
  | .void => ⟨0, 0⟩
  | .int n => ⟨n.toInt32.toInt64.toUInt64, 0⟩
  | .word n => ⟨n, 0⟩
  | .float bits => ⟨0, bits.toUInt64⟩
  | .double bits => ⟨0, bits⟩

namespace Bridge

def count (b : Bridge) : Nat := b.formats.length

def invoke (b : Bridge) (target : UInt64) (f : CallFormat) (gpr fpr : List UInt64) :
    Except BridgeDefect (Results × Bridge) :=
  if target = 0 then .error .null
  else
    match HostFunction.ofAddress? target with
    | none => .error (.unknown target)
    | some function =>
      let b := if f.pack ∈ b.formats then b else { b with formats := f.pack :: b.formats }
      .ok (.ofOutcome (function.call (.passed f gpr fpr)), b)

end Bridge
end TemplateVm.Native
