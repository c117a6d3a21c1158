import TemplateVm.Machine.CodeCache

set_option autoImplicit false

/-!
# Assembling code

An assembly collects instructions from a base address on. A branch may go to a label before the
label is bound; `finish` puts in the addresses. Stubs, marks and comments name places of the code
and do not change it.
-/
namespace TemplateVm

/-- A place in code under assembly; labels are numbered in the order of their creation. -/
structure CodeLabel where
  id : Nat
  deriving DecidableEq, Inhabited

/-- What a branch goes to while code is assembled. -/
inductive Target where
  | address (a : UInt64)
  | pending (l : CodeLabel)
  deriving DecidableEq, Inhabited

structure Assembly where
  base : UInt64
  code : Array (Instruction Target) := #[]
  labels : Array (Option UInt64) := #[]
  stubs : Array Stub := #[]
  openStub : Option (String × UInt64) := none
  marks : Array (String × UInt64) := #[]
  comments : Array (UInt64 × String) := #[]
  deriving Inhabited

namespace Assembly

def pc (a : Assembly) : UInt64 := a.base + a.code.size.toUInt64 * Instruction.size

def labelAddress? (a : Assembly) (l : CodeLabel) : Option UInt64 := a.labels[l.id]?.join

/-- A bound label stands for its address from now on; an unbound one is filled in at the end. -/
def target (a : Assembly) (l : CodeLabel) : Target :=
  match a.labelAddress? l with
  | some address => .address address
  | none => .pending l

def emit (a : Assembly) (i : Instruction Target) : Assembly := { a with code := a.code.push i }

/-- Emits an instruction that goes to the label. -/
def emitTo (a : Assembly) (l : CodeLabel) (i : Target → Instruction Target) : Assembly :=
  a.emit (i (a.target l))

def newLabel (a : Assembly) : CodeLabel × Assembly :=
  (⟨a.labels.size⟩, { a with labels := a.labels.push none })

/-- Binds the label to the current address; a later binding replaces an earlier one. -/
def bind (a : Assembly) (l : CodeLabel) : Assembly :=
  { a with labels := a.labels.setIfInBounds l.id (some a.pc) }

/-- Opens a stub at the current address; stubs do not nest. -/
def beginStub (a : Assembly) (name : String) : Except AssemblyDefect Assembly :=
  match a.openStub with
  | some (other, _) => .error (.stubMismatch s!"{name} opened while {other} is open")
  | none => .ok { a with openStub := some (name, a.pc) }

def endStub (a : Assembly) : Except AssemblyDefect Assembly :=
  match a.openStub with
  | none => .error (.stubMismatch "no open stub")
  | some (name, start) =>
    .ok { a with openStub := none, stubs := a.stubs.push ⟨name, start, a.pc⟩ }

def mark (a : Assembly) (name : String) : Assembly :=
  { a with marks := a.marks.push (name, a.pc) }

def comment (a : Assembly) (text : String) : Assembly :=
  { a with comments := a.comments.push (a.pc, text) }

def resolve (a : Assembly) : Target → Except AssemblyDefect UInt64
  | .address address => .ok address
  | .pending l =>
    match a.labelAddress? l with
    | some address => .ok address
    | none => .error (.unboundLabel l.id)

/-- The finished code. A stub that is still open is reported before the first branch, in code order,
    whose label was never bound. -/
def finish (a : Assembly) (name : String) : Except AssemblyDefect Blob :=
  match a.openStub with
  | some (stub, _) => .error (.stubMismatch (stub ++ " never closed"))
  | none => do
    let code ← a.code.mapM (·.mapTarget a.resolve)
    pure { name, start := a.base, code, stubs := a.stubs, marks := a.marks, comments := a.comments }

end Assembly
end TemplateVm
