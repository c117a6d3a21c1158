import TemplateVm.Machine.Assembly
import TemplateVm.Text.Query

set_option autoImplicit false

/-!
# Assembly source

Source code is a list of statements, and a statement a list of a mnemonic and its operands. A
label is known by its name, from the first statement on that mentions it.
-/
namespace TemplateVm.Source

open Text (Json)

/-- Why source cannot be assembled. -/
inductive Defect where
  | unreadable (statement : String)
  | assembly (defect : AssemblyDefect)
  deriving DecidableEq

def Defect.message : Defect → String
  | unreadable statement => "unreadable statement " ++ statement
  | assembly defect => defect.message

/-- Registers go by number, some of them by their role. -/
def register? (j : Json) : Option Register :=
  match j.asText.toList with
  | ['f', 'p'] => some .frame
  | ['l', 'r'] => some .link
  | ['s', 'p'] => some .sp
  | ['x', 'z', 'r'] => some .zero
  | ['r', '1', '3'] => some .sender
  | 'x' :: digits =>
    (String.ofList digits).toNat?.bind fun n => if h : n < 31 then some (.x ⟨n, h⟩) else none
  | _ => none

def floatRegister? (j : Json) : Option FloatRegister :=
  match j.asText.toList with
  | 'v' :: digits =>
    (String.ofList digits).toNat?.bind fun n => if h : n < 8 then some ⟨⟨n, h⟩⟩ else none
  | _ => none

/-- A number, a register, or a register with a shift. -/
def operand? (j : Json) : Option Operand :=
  match j with
  | .array [r, amount] => do return .shifted (← register? r) (← amount.word?).toUInt8
  | j =>
    match j.word? with
    | some n => some (.imm n)
    | none => (register? j).map .reg

def address? (j : Json) : Option Address := do
  let base ← register? (j.item 1)
  match (j.item 0).asText with
  | "base" => return .base base (← (j.item 2).word?)
  | "pre" => return .pre base (← (j.item 2).word?)
  | "post" => return .post base (← (j.item 2).word?)
  | "index" => return .index base (← register? (j.item 2)) (← (j.item 3).word?).toUInt8
  | _ => none

def condition? (j : Json) : Option Condition := Condition.all.find? (·.name == j.asText)

def extension? (j : Json) : Option Extension :=
  [.zeroByte, .zeroHalf, .zeroWord, .signByte, .signHalf, .signWord].find? fun (e : Extension) =>
    e.name == j.asText

def precision? (j : Json) : Option Precision :=
  [.single, .double].find? fun (p : Precision) => p.suffix == j.asText

/-- Loads with their widths and signs. -/
def loads : List (String × Width × Bool) :=
  [("ldr", .double, false), ("ldrw", .word, false), ("ldrsw", .word, true), ("ldrh", .half, false),
    ("ldrsh", .half, true), ("ldrb", .byte, false), ("ldrsb", .byte, true)]

def stores : List (String × Width) :=
  [("str", .double), ("strw", .word), ("strh", .half), ("strb", .byte)]

def widths : List (String × Width) := [("b", .byte), ("h", .half), ("w", .word), ("x", .double)]

def binaries : List (String × Binary) :=
  [("add", .add), ("sub", .sub), ("and", .and), ("orr", .or), ("eor", .xor)]

def floatBinaries : List (String × FloatBinary) :=
  [("fadd", .add), ("fsub", .sub), ("fmul", .mul), ("fdiv", .div)]

def floatUnaries : List (String × FloatUnary) :=
  [("fsqrt", .sqrt), ("fabs", .abs), ("fneg", .neg), ("fmov", .mov)]

/-- Instructions of a family, of which the mnemonic gives the member. -/
def ofFamily? (j : Json) : Option (Instruction Target) :=
  let mnemonic := (j.item 0).asText
  let r (i : Nat) := register? (j.item i)
  let v (i : Nat) := floatRegister? (j.item i)
  (do
    let (width, signed) ← loads.lookup mnemonic
    return .load (← r 1) (← address? (j.item 2)) width signed) <|>
  (do
    let width ← stores.lookup mnemonic
    return .store (← r 1) (← address? (j.item 2)) width) <|>
  (do
    let op ← binaries.lookup mnemonic
    return .binary op (← r 1) (← r 2) (← operand? (j.item 3))) <|>
  (do
    let op ← floatBinaries.lookup mnemonic
    return .floatBinary op (← precision? (j.item 1)) (← v 2) (← v 3) (← v 4)) <|>
  do
    let op ← floatUnaries.lookup mnemonic
    return .floatUnary op (← precision? (j.item 1)) (← v 2) (← v 3)

/-- Instructions without a label. -/
def instruction? (j : Json) : Option (Instruction Target) :=
  let r (i : Nat) := register? (j.item i)
  let v (i : Nat) := floatRegister? (j.item i)
  let word (i : Nat) := (j.item i).word?
  let place (i : Nat) := address? (j.item i)
  match (j.item 0).asText with
  | "nop" => some .nop
  | "dmb" => some .barrier
  | "mov_imm" => return .movImm (← r 1) (← word 2)
  | "mov" => return .mov (← r 1) (← r 2)
  | "lsl" => return .shiftLeft (← r 1) (← r 2) (← word 3).toUInt8
  | "lsr" => return .shiftRight (← r 1) (← r 2) (← word 3).toUInt8
  | "mul" => return .mul (← r 1) (← r 2) (← r 3)
  | "sdiv" => return .div (← r 1) (← r 2) (← r 3)
  | "neg" => return .neg (← r 1) (← r 2)
  | "extend" => return .extend (← extension? (j.item 1)) (← r 2) (← r 3)
  | "sxtw" => return .extend .signWord (← r 1) (← r 2)
  | "cmp" => return .compare (← r 1) (← operand? (j.item 2))
  | "tst" => return .test (← r 1) (← operand? (j.item 2))
  | "csel" => return .select (← r 1) (← r 2) (← r 3) (← condition? (j.item 4))
  | "str_zero" => return .store .zero (← place 1) .double
  | "ldp" => return .loadPair (← r 1) (← r 2) (← place 3)
  | "stp" => return .storePair (← r 1) (← r 2) (← place 3)
  | "ldrs" => return .loadFloat (← v 1) (← place 2) .single
  | "ldrd" => return .loadFloat (← v 1) (← place 2) .double
  | "strs" => return .storeFloat (← v 1) (← place 2) .single
  | "strd" => return .storeFloat (← v 1) (← place 2) .double
  | "fmov_from_gp" => return .floatOfBits (← v 1) (← r 2) (← precision? (j.item 3))
  | "fmov_to_gp" => return .bitsOfFloat (← r 1) (← v 2) (← precision? (j.item 3))
  | "ldadd" => return .fetchAdd (← r 2) (← r 3) (← r 4) (← widths.lookup (j.item 1).asText)
  | "b_to" => return .branch (.address (← word 1))
  | "br_cond_to" => return .branchIf (← condition? (j.item 1)) (.address (← word 2))
  | "cbnz_to" => return .branchNonzero (← r 1) (.address (← word 2))
  | "bl_to" => return .call (.address (← word 1))
  | "br" => return .branchTo (← r 1)
  | "blr" => return .callTo (← r 1)
  | "ret" => return .ret (← r 1)
  | "call_native" => return .callNative (← r 1) (← r 2)
  | "brk" => return .breakpoint (← word 1).toUInt16
  | "stop" => return .stop (← (j.item 1).text?)
  | _ => ofFamily? j

/-- Instructions that go to a label, which is the last operand. -/
def branch? (j : Json) : Option (Target → Instruction Target) :=
  let r := register? (j.item 1)
  match (j.item 0).asText with
  | "adr" => r.map .adr
  | "b" => some .branch
  | "br_cond" => (condition? (j.item 1)).map .branchIf
  | "cbz" => r.map .branchZero
  | "cbnz" => r.map .branchNonzero
  | "tbz" => return .branchBitClear (← r) (← (j.item 2).word?).toUInt8
  | "tbnz" => return .branchBitSet (← r) (← (j.item 2).word?).toUInt8
  | _ => none

/-- Code under assembly with the names of its labels. -/
structure Draft where
  assembly : Assembly
  labels : List (String × CodeLabel) := []
  deriving Inhabited

namespace Draft

/-- The label with the name, which is new if it has not been mentioned. -/
def label (d : Draft) (name : String) : CodeLabel × Draft :=
  match d.labels.lookup name with
  | some l => (l, d)
  | none =>
    let (l, assembly) := d.assembly.newLabel
    (l, { assembly, labels := (name, l) :: d.labels })

def map (d : Draft) (f : Assembly → Assembly) : Draft := { d with assembly := f d.assembly }

def mapM (d : Draft) (f : Assembly → Except AssemblyDefect Assembly) : Except Defect Draft :=
  match f d.assembly with
  | .ok assembly => .ok { d with assembly }
  | .error defect => .error (.assembly defect)

/-- Statements that are no instruction, or depend on where they stand. -/
def directive (d : Draft) (j : Json) : Except Defect Draft :=
  let name := (j.item 1).asText
  match (j.item 0).asText, register? (j.item 1) with
  | "adr_here", some r => .ok (d.map fun a => a.emit (.adr r (.address a.pc)))
  | "bind", _ =>
    let (l, d) := d.label name
    .ok (d.map (·.bind l))
  | "begin_stub", _ => d.mapM (·.beginStub name)
  | "end_stub", _ => d.mapM (·.endStub)
  | "mark", _ => .ok (d.map (·.mark name))
  | "comment", _ => .ok (d.map (·.comment name))
  | _, _ => .error (.unreadable j.compact)

def statement (d : Draft) (j : Json) : Except Defect Draft :=
  match instruction? j with
  | some i => .ok (d.map (·.emit i))
  | none =>
    match branch? j with
    | some i =>
      let (l, d) := d.label (j.items.getLast?.getD .null).asText
      .ok (d.map (·.emitTo l i))
    | none => d.directive j

/-- The statements from the base address on, not finished yet. -/
def ofSource (base : UInt64) (source : Json) : Except Defect Draft :=
  source.items.foldlM statement { assembly := { base } }

end Draft
end TemplateVm.Source
