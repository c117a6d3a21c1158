import TemplateVm.Codegen.Sequence
import TemplateVm.Native.CallFormat

set_option autoImplicit false

/-!
# Signature handlers

A signature handler moves the arguments of a native method from its locals into registers. Methods
whose parameters have the same shape share one.
-/
namespace TemplateVm

/-- All that a signature handler depends on; arrays count as objects. -/
structure Signature where
  isStatic : Bool
  parameters : List TypeTag
  result : TypeTag
  deriving DecidableEq, Inhabited

namespace Signature

def shape : TypeTag → TypeTag
  | .array => .object
  | t => t

/-- Parameters besides the environment and the handle. -/
def maxParameters : Nat := Native.maxArguments - 2

def ofDescriptor (d : MethodDescriptor) (isStatic : Bool) : Except Failure Signature :=
  if maxParameters < d.parameters.length then
    .error (.nativeBridge s!"{d.text}: native methods take at most {maxParameters} parameters")
  else .ok ⟨isStatic, d.parameters.map shape, shape d.result⟩

def text (s : Signature) : String :=
  "(" ++ String.ofList (s.parameters.map TypeTag.letter) ++ ")" ++
    String.singleton s.result.letter ++ (if s.isStatic then " static" else "")

open Emit Register

/-- The local with an index. -/
def parameter (index : UInt64) : Address := .base locals (0 - index * 8)

/-- Passes the address of the local as a handle, or null for null. -/
def passObject (index : UInt64) (r : Register) : Emit Unit := do
  sub scratch1 locals (.imm (index * 8))
  ldr scratch2 scratch1.at
  cmp scratch2 0
  csel r scratch1 zero .ne

/-- Passes parameters from the local `index` on into the registers that are left. -/
def passParameters (index : UInt64) (words : List Register) (floats : List FloatRegister) :
    List TypeTag → Emit Unit
  | [] => pure ()
  | t :: rest =>
    let next := index + t.words.toUInt64
    match t, words, floats with
    | .float, _, v :: floats => do
      ldrs v (parameter index)
      passParameters next words floats rest
    | .double, _, v :: floats => do
      ldrd v (parameter (index + 1))
      passParameters next words floats rest
    | .long, r :: words, _ => do
      ldr r (parameter (index + 1))
      passParameters next words floats rest
    | .object, r :: words, _ | .array, r :: words, _ => do
      passObject index r
      passParameters next words floats rest
    | _, r :: words, _ => do
      ldr r (parameter index)
      passParameters next words floats rest
    | _, [], _ => passParameters next [] floats rest

/-- The handler ends with the result handler in `x0`. -/
def code (s : Signature) (resultHandler : UInt64) : Emit Unit := do
  if !s.isStatic then passObject 0 x1
  passParameters (if s.isStatic then 0 else 1) (arguments.drop 2) FloatRegister.all s.parameters
  movImm x0 resultHandler
  ret link

def blobName (s : Signature) : String := "signature handler " ++ s.text

/-- The handler as a blob of its own. -/
def blob (s : Signature) (base : UInt64) (settings : Settings) (resultHandler : UInt64) :
    Except AssemblyDefect Blob :=
  (toBlob s.blobName base { settings } (stub s.blobName (s.code resultHandler))).map (·.1)

end Signature
end TemplateVm
