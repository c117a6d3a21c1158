import TemplateVm.Bytecode.Opcode
import TemplateVm.Failure
import TemplateVm.Text.Hex

set_option autoImplicit false

/-!
# Reading a method body

`decode` lists the operations of a body up to the first byte that is no opcode. `toNativeOrder`
turns the big-endian pool indices of linked operations into native order, which is what the
templates read.
-/
namespace TemplateVm.Bytecode

/-- One operation of a body, with its operand as the number it denotes. -/
structure Operation where
  bci : Nat
  opcode : Opcode
  operand : Int
  deriving DecidableEq, Inhabited

def Operation.text (op : Operation) : String :=
  let head := Text.padLeft 4 ' ' (toString op.bci) ++ ": " ++ op.opcode.name
  if op.opcode.length = 1 then head
  else if op.opcode.isBranch then head ++ " " ++ toString (op.bci + op.operand)
  else head ++ " " ++ toString op.operand

/-- The number whose digits to the base 256 are the bytes, the first one highest. -/
def bigEndian (bytes : List UInt8) : Nat := bytes.foldl (fun n b => 256 * n + b.toNat) 0

def signed8 (b : UInt8) : Int := b.toInt8.toInt

/-- The operand of an opcode. Branches and `sipush` have a signed one, and so has `bipush`; of
    `iinc` it is the increment. -/
def operandOf (o : Opcode) (bytes : List UInt8) : Int :=
  match bytes with
  | [] => 0
  | [b] => if o = .bipush then signed8 b else b.toNat
  | [_, delta] =>
    if o = .iinc then signed8 delta
    else
      let n := bigEndian bytes
      if o.isBranch ∨ o = .sipush then Int.bmod n 65536 else n
  | bytes => bigEndian bytes

/-- The operations from `bci` on, of a body of which `code` is left. Each has at least one byte, so
    `code.length` bounds their number. -/
def decodeFrom (bci : Nat) (code : List UInt8) : Nat → List Operation
  | 0 => []
  | fuel + 1 =>
    match code with
    | [] => []
    | byte :: rest =>
      match Opcode.ofByte? byte with
      | none => []
      | some o =>
        let operands := rest.take (o.length - 1)
        if operands.length + 1 < o.length then []
        else
          ⟨bci, o, operandOf o operands⟩
            :: decodeFrom (bci + o.length) (rest.drop (o.length - 1)) fuel

def decode (code : List UInt8) : List Operation := decodeFrom 0 code code.length

/-- An operation whose operands are cut off by the end of the body. -/
structure Truncated where
  opcode : Opcode
  bci : Nat
  deriving DecidableEq

def Truncated.message (t : Truncated) : String :=
  s!"{t.opcode.name} at bci {t.bci} runs past the end of the code"

def toNativeOrderFrom (bci : Nat) (code : List UInt8) : Nat → Except Truncated (List UInt8)
  | 0 => .ok code
  | fuel + 1 =>
    match code with
    | [] => .ok []
    | byte :: rest =>
      match Opcode.ofByte? byte with
      | none => .ok code
      | some o =>
        let operands := rest.take (o.length - 1)
        if operands.length + 1 < o.length then .error ⟨o, bci⟩
        else do
          let tail ← toNativeOrderFrom (bci + o.length) (rest.drop (o.length - 1)) fuel
          pure (byte :: (if o.isLinked then operands.reverse else operands) ++ tail)

def toNativeOrder (code : List UInt8) : Except Truncated (List UInt8) :=
  toNativeOrderFrom 0 code code.length

end TemplateVm.Bytecode
