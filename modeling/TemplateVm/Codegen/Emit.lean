import TemplateVm.Machine.Assembly
import TemplateVm.Machine.Service
import TemplateVm.Settings

set_option autoImplicit false

/-!
# Emitting code

Code is emitted into an assembly, under settings that decide which checks and counters it contains.
The instructions go by their mnemonics, so that emitting code reads like a listing.
-/
namespace TemplateVm

/-- What emitted code depends on. -/
structure CodeContext where
  settings : Settings
  /-- Where a pending exception is taken after a service. -/
  forwardException : UInt64 := 0
  /-- Where a frame is popped after a service, once there is such code. -/
  popFrame : Option CodeLabel := none

abbrev Emit := ReaderT CodeContext (EStateM AssemblyDefect Assembly)

instance : Coe Register Operand := ⟨.reg⟩
instance : Coe UInt64 Operand := ⟨.imm⟩
instance (n : Nat) : OfNat Operand n := ⟨.imm (OfNat.ofNat n)⟩

/-- The memory at a register plus an offset. -/
abbrev Register.at (b : Register) (offset : UInt64 := 0) : Address := .base b offset

/-- The register shifted left. -/
abbrev Register.lsl (r : Register) (amount : UInt8) : Operand := .shifted r amount

namespace Emit

def settings : Emit Settings := return (← read).settings

def pc : Emit UInt64 := return (← get).pc

def emit (i : Instruction Target) : Emit Unit := modify (·.emit i)

def emitTo (l : CodeLabel) (i : Target → Instruction Target) : Emit Unit := modify (·.emitTo l i)

def newLabel : Emit CodeLabel := modifyGet (·.newLabel)

def bind (l : CodeLabel) : Emit Unit := modify (·.bind l)

def mark (name : String) : Emit Unit := modify (·.mark name)

def comment (text : String) : Emit Unit := modify (·.comment text)

/-- Runs the body as a stub of its own. Gives the start of the stub with the result of the body. -/
def stub {α : Type} (name : String) (body : Emit α) : Emit (UInt64 × α) := do
  let start ← pc
  let a ← get
  match a.beginStub name with
  | .error e => throw e
  | .ok a =>
    set a
    let result ← body
    let a ← get
    match a.endStub with
    | .error e => throw e
    | .ok a =>
      set a
      pure (start, result)

def whenM (b : Bool) (body : Emit Unit) : Emit Unit := if b then body else pure ()

/-- Runs the code and finishes it as a blob. -/
def toBlob {α : Type} (name : String) (base : UInt64) (context : CodeContext) (code : Emit α) :
    Except AssemblyDefect (Blob × α) :=
  match (code.run context).run { base } with
  | .error e _ => .error e
  | .ok result a => (a.finish name).map (·, result)

abbrev nop : Emit Unit := emit .nop
abbrev mov (rd rn : Register) : Emit Unit := emit (.mov rd rn)
abbrev movImm (rd : Register) (n : UInt64) : Emit Unit := emit (.movImm rd n)
abbrev add (rd rn : Register) (o : Operand) : Emit Unit := emit (.binary .add rd rn o)
abbrev sub (rd rn : Register) (o : Operand) : Emit Unit := emit (.binary .sub rd rn o)
abbrev and (rd rn : Register) (o : Operand) : Emit Unit := emit (.binary .and rd rn o)
abbrev or (rd rn : Register) (o : Operand) : Emit Unit := emit (.binary .or rd rn o)
abbrev lsl (rd rn : Register) (amount : UInt8) : Emit Unit := emit (.shiftLeft rd rn amount)
abbrev lsr (rd rn : Register) (amount : UInt8) : Emit Unit := emit (.shiftRight rd rn amount)
abbrev mul (rd rn rm : Register) : Emit Unit := emit (.mul rd rn rm)
abbrev sdiv (rd rn rm : Register) : Emit Unit := emit (.div rd rn rm)
abbrev neg (rd rn : Register) : Emit Unit := emit (.neg rd rn)
abbrev extend (kind : Extension) (rd rn : Register) : Emit Unit := emit (.extend kind rd rn)
abbrev sxtw (rd rn : Register) : Emit Unit := extend .signWord rd rn
abbrev cmp (rn : Register) (o : Operand) : Emit Unit := emit (.compare rn o)
abbrev tst (rn : Register) (o : Operand) : Emit Unit := emit (.test rn o)
abbrev csel (rd rn rm : Register) (c : Condition) : Emit Unit := emit (.select rd rn rm c)
abbrev ldr (rt : Register) (a : Address) : Emit Unit := emit (.load rt a .double false)
abbrev ldrw (rt : Register) (a : Address) : Emit Unit := emit (.load rt a .word false)
abbrev ldrsw (rt : Register) (a : Address) : Emit Unit := emit (.load rt a .word true)
abbrev ldrh (rt : Register) (a : Address) : Emit Unit := emit (.load rt a .half false)
abbrev ldrsh (rt : Register) (a : Address) : Emit Unit := emit (.load rt a .half true)
abbrev ldrb (rt : Register) (a : Address) : Emit Unit := emit (.load rt a .byte false)
abbrev ldrsb (rt : Register) (a : Address) : Emit Unit := emit (.load rt a .byte true)
abbrev str (rt : Register) (a : Address) : Emit Unit := emit (.store rt a .double)
abbrev strw (rt : Register) (a : Address) : Emit Unit := emit (.store rt a .word)
abbrev strh (rt : Register) (a : Address) : Emit Unit := emit (.store rt a .half)
abbrev strb (rt : Register) (a : Address) : Emit Unit := emit (.store rt a .byte)
abbrev ldp (r1 r2 : Register) (a : Address) : Emit Unit := emit (.loadPair r1 r2 a)
abbrev stp (r1 r2 : Register) (a : Address) : Emit Unit := emit (.storePair r1 r2 a)
abbrev ldrs (vt : FloatRegister) (a : Address) : Emit Unit := emit (.loadFloat vt a .single)
abbrev ldrd (vt : FloatRegister) (a : Address) : Emit Unit := emit (.loadFloat vt a .double)
abbrev strs (vt : FloatRegister) (a : Address) : Emit Unit := emit (.storeFloat vt a .single)
abbrev strd (vt : FloatRegister) (a : Address) : Emit Unit := emit (.storeFloat vt a .double)
abbrev ldadd (rs rt rn : Register) : Emit Unit := emit (.fetchAdd rs rt rn .double)
abbrev adr (rd : Register) (l : CodeLabel) : Emit Unit := emitTo l (.adr rd)
abbrev b (l : CodeLabel) : Emit Unit := emitTo l .branch
abbrev bTo (a : UInt64) : Emit Unit := emit (.branch (.address a))
abbrev bIf (c : Condition) (l : CodeLabel) : Emit Unit := emitTo l (.branchIf c)
abbrev cbz (rt : Register) (l : CodeLabel) : Emit Unit := emitTo l (.branchZero rt)
abbrev cbnz (rt : Register) (l : CodeLabel) : Emit Unit := emitTo l (.branchNonzero rt)
abbrev tbz (rt : Register) (bit : UInt8) (l : CodeLabel) : Emit Unit :=
  emitTo l (.branchBitClear rt bit)
abbrev tbnz (rt : Register) (bit : UInt8) (l : CodeLabel) : Emit Unit :=
  emitTo l (.branchBitSet rt bit)
abbrev blTo (a : UInt64) : Emit Unit := emit (.call (.address a))
abbrev br (rn : Register) : Emit Unit := emit (.branchTo rn)
abbrev blr (rn : Register) : Emit Unit := emit (.callTo rn)
abbrev ret (rn : Register) : Emit Unit := emit (.ret rn)
abbrev callNative (target format : Register) : Emit Unit := emit (.callNative target format)
abbrev dmb : Emit Unit := emit .barrier
abbrev brk (tag : UInt16) : Emit Unit := emit (.breakpoint tag)
abbrev stop (reason : String) : Emit Unit := emit (.stop reason)

end Emit
end TemplateVm
