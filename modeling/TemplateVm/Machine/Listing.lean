import TemplateVm.Machine.Instruction
import TemplateVm.Text.Hex

set_option autoImplicit false

/-!
# Instructions as text

Mnemonic and operands, in the order destination first. Immediate operands are signed decimals,
branch targets are addresses.
-/
namespace TemplateVm

def Operand.text : Operand → String
  | imm n => s!"#{n.toInt64.toInt}"
  | reg r => r.text
  | shifted r amount => s!"{r.text}, lsl #{amount.toNat}"

def Address.text : Address → String
  | base b offset =>
    if offset = 0 then "[" ++ b.text ++ "]" else s!"[{b.text}, #{offset.toInt64.toInt}]"
  | pre b offset => s!"[{b.text}, #{offset.toInt64.toInt}]!"
  | post b offset => s!"[{b.text}], #{offset.toInt64.toInt}"
  | index b i amount =>
    if amount = 0 then s!"[{b.text}, {i.text}]"
    else s!"[{b.text}, {i.text}, lsl #{amount.toNat}]"

def Binary.name : Binary → String
  | add => "add" | sub => "sub" | and => "and" | or => "orr" | xor => "eor"

def FloatBinary.name : FloatBinary → String
  | add => "fadd" | sub => "fsub" | mul => "fmul" | div => "fdiv"

def FloatUnary.name : FloatUnary → String
  | sqrt => "fsqrt" | abs => "fabs" | neg => "fneg" | mov => "fmov"

namespace Instruction

def loadName : Width → Bool → String
  | .byte, false => "ldrb"
  | .byte, true => "ldrsb"
  | .half, false => "ldrh"
  | .half, true => "ldrsh"
  | .word, false => "ldrw"
  | .word, true => "ldrsw"
  | .double, _ => "ldr"

def storeName : Width → String
  | .byte => "strb" | .half => "strh" | .word => "strw" | .double => "str"

/-- A mnemonic followed by its operands. -/
def line (name : String) (operands : List String) : String :=
  name ++ " " ++ String.intercalate ", " operands

def text : Instruction UInt64 → String
  | nop => "nop"
  | movImm rd n => line "mov" [rd.text, "#" ++ Text.hex n.toNat]
  | mov rd rn => line "mov" [rd.text, rn.text]
  | binary op rd rn operand => line op.name [rd.text, rn.text, operand.text]
  | shiftLeft rd rn amount => line "lsl" [rd.text, rn.text, s!"#{amount.toNat}"]
  | shiftRight rd rn amount => line "lsr" [rd.text, rn.text, s!"#{amount.toNat}"]
  | mul rd rn rm => line "mul" [rd.text, rn.text, rm.text]
  | div rd rn rm => line "sdiv" [rd.text, rn.text, rm.text]
  | neg rd rn => line "neg" [rd.text, rn.text]
  | extend kind rd rn => line kind.name [rd.text, rn.text]
  | compare rn operand => line "cmp" [rn.text, operand.text]
  | test rn operand => line "tst" [rn.text, operand.text]
  | select rd rn rm cond => line "csel" [rd.text, rn.text, rm.text, cond.name]
  | load rt addr width signed => line (loadName width signed) [rt.text, addr.text]
  | store rt addr width => line (storeName width) [rt.text, addr.text]
  | loadPair r1 r2 addr => line "ldp" [r1.text, r2.text, addr.text]
  | storePair r1 r2 addr => line "stp" [r1.text, r2.text, addr.text]
  | loadFloat vt addr precision => line ("ldr" ++ precision.suffix) [vt.text, addr.text]
  | storeFloat vt addr precision => line ("str" ++ precision.suffix) [vt.text, addr.text]
  | floatOfBits vd rn precision => line ("fmov" ++ precision.suffix) [vd.text, rn.text]
  | bitsOfFloat rd vn precision => line ("fmov" ++ precision.suffix) [rd.text, vn.text]
  | floatBinary op precision vd vn vm =>
    line (op.name ++ precision.suffix) [vd.text, vn.text, vm.text]
  | floatUnary op precision vd vn => line (op.name ++ precision.suffix) [vd.text, vn.text]
  | fetchAdd rs rt rn width =>
    line (if width = .word then "ldaddw" else "ldadd") [rs.text, rt.text, "[" ++ rn.text ++ "]"]
  | adr rd target => line "adr" [rd.text, Text.hex target.toNat]
  | branch target => line "b" [Text.hex target.toNat]
  | branchIf cond target => line ("b." ++ cond.name) [Text.hex target.toNat]
  | branchZero rt target => line "cbz" [rt.text, Text.hex target.toNat]
  | branchNonzero rt target => line "cbnz" [rt.text, Text.hex target.toNat]
  | branchBitClear rt bit target =>
    line "tbz" [rt.text, s!"#{bit.toNat}", Text.hex target.toNat]
  | branchBitSet rt bit target => line "tbnz" [rt.text, s!"#{bit.toNat}", Text.hex target.toNat]
  | call target => line "bl" [Text.hex target.toNat]
  | branchTo rn => line "br" [rn.text]
  | callTo rn => line "blr" [rn.text]
  | ret rn => line "ret" [rn.text]
  | callNative target format => line "call_native" [target.text, format.text]
  | barrier => "dmb ish"
  | breakpoint tag => s!"brk #{tag.toNat}"
  | stop reason => "stop \"" ++ reason ++ "\""

end Instruction
end TemplateVm
