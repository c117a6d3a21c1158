import TemplateVm.Machine.CodeCache
import TemplateVm.Machine.Service
import TemplateVm.Memory.Guarded

set_option autoImplicit false

/-!
# Executing instructions

`effect` says what an instruction does in a given state, or how it fails; it changes nothing.
`step` fetches the next instruction and applies its effect. An instruction that fails has
therefore no effect at all, and can be tried again once the reason is gone.
-/
namespace TemplateVm

structure Cpu where
  x : Vector UInt64 33
  v : Vector UInt64 8
  pc : UInt64
  flags : Flags
  deriving Inhabited

namespace Cpu

def zero : Cpu := ⟨.replicate 33 0, .replicate 8 0, 0, ⟨false, false, false, false⟩⟩

def reg (c : Cpu) (r : Register) : UInt64 := if r = .zero then 0 else c.x[r.number]

def setReg (c : Cpu) (r : Register) (n : UInt64) : Cpu :=
  if r = .zero then c else { c with x := c.x.set r.number n }

def float (c : Cpu) (r : FloatRegister) : UInt64 := c.v[r.number]

def setFloat (c : Cpu) (r : FloatRegister) (bits : UInt64) : Cpu :=
  { c with v := c.v.set r.number bits }

def operand (c : Cpu) : Operand → UInt64
  | .imm n => n
  | .reg r => c.reg r
  | .shifted r amount => c.reg r <<< amount.toUInt64

/-- The address of an access and the update of its base register. -/
def address (c : Cpu) : Address → UInt64 × List (Register × UInt64)
  | .base b offset => (c.reg b + offset, [])
  | .pre b offset => (c.reg b + offset, [(b, c.reg b + offset)])
  | .post b offset => (c.reg b, [(b, c.reg b + offset)])
  | .index b i amount => (c.reg b + (c.reg i <<< amount.toUInt64), [])

end Cpu

/-- The flags of the comparison of two words: those of their difference. -/
def Flags.ofCompare (a b : UInt64) : Flags :=
  let d := a - b
  { n := d.toInt64 < 0, z := d == 0, c := b ≤ a
    v := ((a ^^^ b) &&& (a ^^^ d)) >>> 63 == 1 }

/-- The flags of the test of a word: its sign, and whether it is zero. -/
def Flags.ofTest (n : UInt64) : Flags := ⟨n.toInt64 < 0, n == 0, false, false⟩

def Binary.apply (a b : UInt64) : Binary → UInt64
  | add => a + b
  | sub => a - b
  | and => a &&& b
  | or => a ||| b
  | xor => a ^^^ b

/-- A loaded number of the given width, with its sign carried on. -/
def Width.signExtend (n : UInt64) : Width → UInt64
  | byte => Extension.signByte.apply n
  | half => Extension.signHalf.apply n
  | word => Extension.signWord.apply n
  | double => n

/-- A number of single precision fills the low half of a register. -/
def Precision.truncate (n : UInt64) : Precision → UInt64
  | single => n.toUInt32.toUInt64
  | double => n

def FloatBinary.apply (op : FloatBinary) (p : Precision) (a b : UInt64) : UInt64 :=
  match p with
  | .single =>
    let a := Float32.ofBits a.toUInt32
    let b := Float32.ofBits b.toUInt32
    (match op with
      | add => a + b
      | sub => a - b
      | mul => a * b
      | div => a / b).toBits.toUInt64
  | .double =>
    let a := Float.ofBits a
    let b := Float.ofBits b
    (match op with
      | add => a + b
      | sub => a - b
      | mul => a * b
      | div => a / b).toBits

def FloatUnary.apply (op : FloatUnary) (p : Precision) (a : UInt64) : UInt64 :=
  match p, op with
  | .single, sqrt => (Float32.ofBits a.toUInt32).sqrt.toBits.toUInt64
  | .single, abs => a &&& 0x7fffffff
  | .single, neg => (a ^^^ 0x80000000) &&& 0xffffffff
  | .single, mov => a &&& 0xffffffff
  | .double, sqrt => (Float.ofBits a).sqrt.toBits
  | .double, abs => a &&& 0x7fffffffffffffff
  | .double, neg => a ^^^ 0x8000000000000000
  | .double, mov => a

/-- Why the machine stops executing instructions. -/
inductive Event where
  | next
  | service (s : Service)
  | native (target : UInt64) (format : UInt32)
  | hostReturn
  deriving DecidableEq, Inhabited

/-- A number written to memory. -/
structure Write where
  address : UInt64
  width : UInt64
  value : UInt64
  deriving DecidableEq, Inhabited

/-- What an instruction changes: registers in the given order, flags, memory, the next address. -/
structure Effect where
  next : UInt64
  registers : List (Register × UInt64) := []
  floats : List (FloatRegister × UInt64) := []
  flags : Option Flags := none
  writes : List Write := []
  event : Event := .next
  deriving DecidableEq, Inhabited

namespace Cpu

def applyEffect (c : Cpu) (e : Effect) : Cpu :=
  let c := e.registers.foldl (fun c (r, n) => c.setReg r n) c
  let c := e.floats.foldl (fun c (r, n) => c.setFloat r n) c
  { c with pc := e.next, flags := e.flags.getD c.flags }

end Cpu

open Memory (Guarded)

/-- The fault of a write, unless it succeeds. -/
def checkWrite (m : Guarded) (a width : UInt64) : Except Failure Unit :=
  match m.fault? a width .write with
  | some fault => .error (.memoryFault fault)
  | none => .ok ()

def readOr (m : Guarded) (a width : UInt64) : Except Failure UInt64 :=
  Guarded.orFault (m.read a width)

namespace Instruction

/-- The effect of an instruction. A pair is stored only if both of its words can be. -/
def effect (c : Cpu) (m : Guarded) (i : Instruction UInt64) : Except Failure Effect :=
  let next := c.pc + Instruction.size
  let set (r : Register) (n : UInt64) : Except Failure Effect :=
    .ok { next, registers := [(r, n)] }
  let setFloat (r : FloatRegister) (n : UInt64) : Except Failure Effect :=
    .ok { next, floats := [(r, n)] }
  let goIf (b : Bool) (target : UInt64) : Except Failure Effect :=
    .ok { next := if b then target else next }
  match i with
  | nop | barrier => .ok { next }
  | movImm rd n => set rd n
  | mov rd rn => set rd (c.reg rn)
  | binary op rd rn operand => set rd (op.apply (c.reg rn) (c.operand operand))
  | shiftLeft rd rn amount => set rd (c.reg rn <<< amount.toUInt64)
  | shiftRight rd rn amount => set rd (c.reg rn >>> amount.toUInt64)
  | mul rd rn rm => set rd (c.reg rn * c.reg rm)
  | div rd rn rm => set rd ((c.reg rn).toInt64 / (c.reg rm).toInt64).toUInt64
  | neg rd rn => set rd (0 - c.reg rn)
  | extend kind rd rn => set rd (kind.apply (c.reg rn))
  | compare rn operand => .ok { next, flags := some (.ofCompare (c.reg rn) (c.operand operand)) }
  | test rn operand => .ok { next, flags := some (.ofTest (c.reg rn &&& c.operand operand)) }
  | select rd rn rm cond => set rd (if cond.holds c.flags then c.reg rn else c.reg rm)
  | load rt addr width signed => do
    let (a, base) := c.address addr
    let n ← readOr m a width.bytes
    pure { next, registers := base ++ [(rt, if signed then width.signExtend n else n)] }
  | store rt addr width => do
    let (a, base) := c.address addr
    checkWrite m a width.bytes
    pure { next, registers := base, writes := [⟨a, width.bytes, c.reg rt⟩] }
  | loadPair r1 r2 addr => do
    let (a, base) := c.address addr
    let n1 ← readOr m a 8
    let n2 ← readOr m (a + 8) 8
    pure { next, registers := base ++ [(r1, n1), (r2, n2)] }
  | storePair r1 r2 addr => do
    let (a, base) := c.address addr
    let _ ← readOr m (a + 8) 8
    checkWrite m a 8
    pure { next, registers := base, writes := [⟨a, 8, c.reg r1⟩, ⟨a + 8, 8, c.reg r2⟩] }
  | loadFloat vt addr precision => do
    let (a, base) := c.address addr
    let n ← readOr m a precision.bytes
    pure { next, registers := base, floats := [(vt, n)] }
  | storeFloat vt addr precision => do
    let (a, base) := c.address addr
    checkWrite m a precision.bytes
    pure { next, registers := base, writes := [⟨a, precision.bytes, c.float vt⟩] }
  | floatOfBits vd rn precision => setFloat vd (precision.truncate (c.reg rn))
  | bitsOfFloat rd vn precision => set rd (precision.truncate (c.float vn))
  | floatBinary op precision vd vn vm =>
    setFloat vd (op.apply precision (c.float vn) (c.float vm))
  | floatUnary op precision vd vn => setFloat vd (op.apply precision (c.float vn))
  | fetchAdd rs rt rn width => do
    let a := c.reg rn
    let old ← readOr m a width.bytes
    checkWrite m a width.bytes
    pure { next, registers := [(rt, old)], writes := [⟨a, width.bytes, old + c.reg rs⟩] }
  | adr rd target => set rd target
  | branch target => .ok { next := target }
  | branchIf cond target => goIf (cond.holds c.flags) target
  | branchZero rt target => goIf (c.reg rt == 0) target
  | branchNonzero rt target => goIf (c.reg rt != 0) target
  | branchBitClear rt bit target => goIf ((c.reg rt >>> bit.toUInt64) &&& 1 == 0) target
  | branchBitSet rt bit target => goIf ((c.reg rt >>> bit.toUInt64) &&& 1 != 0) target
  | call target => .ok { next := target, registers := [(.link, next)] }
  | branchTo rn | ret rn => .ok { next := c.reg rn }
  | callTo rn => .ok { next := c.reg rn, registers := [(.link, next)] }
  | callNative target format =>
    .ok { next, event := .native (c.reg target) (c.reg format).toUInt32 }
  | breakpoint _ => do
    let count ← readOr m Place.bytecodeCounter 8
    .error (.breakpoint c.pc count)
  | stop reason => .error (.stop reason c.pc)

end Instruction

/-- The processor with its count of executed instructions, their limit, and the number of times that
    each watched address was executed. -/
structure Processor where
  cpu : Cpu := .zero
  steps : UInt64 := 0
  maxSteps : UInt64
  watched : List (UInt64 × UInt64) := []
  deriving Inhabited

namespace Processor

/-- Counts the executions of an address from now on. -/
def watch (p : Processor) (pc : UInt64) : Processor :=
  { p with watched := (pc, 0) :: p.watched.filter (·.1 ≠ pc) }

def hits? (p : Processor) (pc : UInt64) : Option UInt64 :=
  (p.watched.find? (·.1 = pc)).map (·.2)

/-- An instruction at `pc` is being executed. -/
def count (p : Processor) (pc : UInt64) : Processor :=
  { p with
    steps := p.steps + 1
    watched := if p.watched.isEmpty then p.watched
      else p.watched.map fun (a, n) => if a = pc then (a, n + 1) else (a, n) }

end Processor

/-- A processor at work on a memory. -/
structure Machine where
  processor : Processor
  mem : Guarded
  deriving Inhabited

namespace Machine

def executeFault (pc : UInt64) : Failure := .memoryFault ⟨pc, .execute, none⟩

def write (m : Guarded) (w : Write) : Guarded := m.put w.address w.width w.value

/-- One instruction, or the event that waits at the current address. -/
def step (code : CodeCache) : EStateM Failure Machine Event := fun s =>
  let pc := s.processor.cpu.pc
  if pc = Place.hostReturn then .ok .hostReturn s
  else if Place.isRuntime pc then
    match Service.ofAddress? pc with
    | some service => .ok (.service service) s
    | none => .error (executeFault pc) s
  else if s.processor.maxSteps ≤ s.processor.steps then
    .error (.stepLimitExceeded s.processor.maxSteps) s
  else
    match code.instruction? pc with
    | none => .error (executeFault pc) s
    | some i =>
      let s := { s with processor := s.processor.count pc }
      match i.effect s.processor.cpu s.mem with
      | .error failure => .error failure s
      | .ok e =>
        .ok e.event
          { s with
            processor := { s.processor with cpu := s.processor.cpu.applyEffect e }
            mem := e.writes.foldl write s.mem }

/-- Up to `n` steps, until there is an event to be handled or a step fails. Gives the number of
    steps left; a step that fails is not counted. -/
def run (code : CodeCache) : Nat → Machine → (Nat × Except Failure Event) × Machine
  | 0, s => ((0, .ok .next), s)
  | n + 1, s =>
    match step code s with
    | .ok .next s => run code n s
    | .ok event s => ((n, .ok event), s)
    | .error failure s => ((n + 1, .error failure), s)

end Machine
end TemplateVm
