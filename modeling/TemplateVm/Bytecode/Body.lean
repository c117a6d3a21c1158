import TemplateVm.Bytecode.Opcode

set_option autoImplicit false

/-!
# Writing a method body

A `Body` is a body under construction: bytes, and branches whose targets are labels that may be
bound later. `finish` fills in the distances.
-/
namespace TemplateVm.Bytecode

/-- A branch target; labels are numbered in the order of their creation. -/
structure Label where
  id : Nat
  deriving DecidableEq, Inhabited

/-- The bytes so far, the positions of the labels, and each branch with its label. -/
structure Body where
  bytes : Array UInt8 := #[]
  labels : Array (Option Nat) := #[]
  branches : Array (Nat × Label) := #[]

inductive BodyDefect where
  | unboundLabel (bci : Nat)
  | branchOutOfRange (bci : Nat)
  deriving DecidableEq

def BodyDefect.message : BodyDefect → String
  | unboundLabel bci => s!"unbound label at bci {bci}"
  | branchOutOfRange bci => s!"branch at bci {bci} out of range"

namespace Body

def pc (b : Body) : Nat := b.bytes.size

def raw (b : Body) (byte : UInt8) : Body := { b with bytes := b.bytes.push byte }

def op (b : Body) (o : Opcode) : Body := b.raw o.byte

def op1 (b : Body) (o : Opcode) (operand : UInt8) : Body := (b.op o).raw operand

/-- A two-byte operand is written high byte first. -/
def op2 (b : Body) (o : Opcode) (operand : UInt16) : Body :=
  ((b.op o).raw (operand >>> 8).toUInt8).raw operand.toUInt8

/-- The opcode `n` places after `first`, if there is one. -/
def shifted (first : Opcode) (n : UInt8) (otherwise : Opcode) : Opcode :=
  (Opcode.ofByte? (first.byte + n)).getD otherwise

/-- Pushes an int constant by the shortest encoding. -/
def iconst (b : Body) (n : Int16) : Body :=
  if -1 ≤ n ∧ n ≤ 5 then b.op (shifted .iconst0 n.toUInt16.toUInt8 .iconst0)
  else if -128 ≤ n ∧ n ≤ 127 then b.op1 .bipush n.toUInt16.toUInt8
  else b.op2 .sipush n.toUInt16

/-- Loads or stores a local with an explicit index. -/
def localOp (b : Body) (o : Opcode) (index : UInt8) : Body := b.op1 o index

/-- The first four locals have opcodes of their own. -/
def shortLocal (b : Body) (long first : Opcode) (index : UInt8) : Body :=
  if index < 4 then b.op (shifted first index long) else b.op1 long index

def iload (b : Body) (index : UInt8) : Body := b.shortLocal .iload .iload0 index
def aload (b : Body) (index : UInt8) : Body := b.shortLocal .aload .aload0 index
def istore (b : Body) (index : UInt8) : Body := b.shortLocal .istore .istore0 index
def astore (b : Body) (index : UInt8) : Body := b.shortLocal .astore .astore0 index

def iinc (b : Body) (index : UInt8) (delta : Int8) : Body :=
  ((b.op .iinc).raw index).raw delta.toUInt8

/-- A linked operation with its pool index; that of a call site has four bytes. -/
def linked (b : Body) (o : Opcode) (index : UInt16) : Body :=
  if o = .invokedynamic then
    ((((b.op o).raw 0).raw 0).raw (index >>> 8).toUInt8).raw index.toUInt8
  else b.op2 o index

def newLabel (b : Body) : Label × Body :=
  (⟨b.labels.size⟩, { b with labels := b.labels.push none })

/-- Binds the label to the current position, which replaces an earlier one. -/
def bind (b : Body) (l : Label) : Body :=
  { b with labels := b.labels.setIfInBounds l.id (some b.pc) }

def branch (b : Body) (o : Opcode) (target : Label) : Body :=
  { b with branches := b.branches.push (b.pc, target) }.op2 o 0

/-- The distance that a branch at `bci` needs. -/
def distance (b : Body) (bci : Nat) (l : Label) : Except BodyDefect Int16 :=
  match b.labels[l.id]?.join with
  | none => .error (.unboundLabel bci)
  | some target =>
    let d : Int := target - bci
    if -32768 ≤ d ∧ d ≤ 32767 then .ok (Int16.ofInt d) else .error (.branchOutOfRange bci)

/-- The finished bytes; the first branch, in the order of writing, that cannot be filled in is
    reported. -/
def finish (b : Body) : Except BodyDefect (Array UInt8) :=
  b.branches.foldlM (fun code (bci, l) => do
    let d ← b.distance bci l
    let u := d.toUInt16
    pure ((code.setIfInBounds (bci + 1) (u >>> 8).toUInt8).setIfInBounds (bci + 2) u.toUInt8))
    b.bytes

end Body
end TemplateVm.Bytecode
