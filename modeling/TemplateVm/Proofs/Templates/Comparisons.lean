import TemplateVm.Proofs.Layout.Entries
import TemplateVm.Proofs.Machine.Paths
import TemplateVm.Proofs.Templates.Branches

set_option autoImplicit false

/-!
# Comparing and branching

A comparison sets flags, a condition reads them, and a template branches if its condition holds.
`IntComparison.compares_and_branches` puts the three together: conditions say of two words what
`Relates` says, and the templates that compare ints branch exactly where the relation of their
opcode holds.
-/
namespace TemplateVm

open Memory (Guarded)
open Emit Template

/-! ## Branches -/

/-- The bytecode pointer is at a branch to the target, and the opcode there has the entry in the
    table that is active. The distance is a signed number of two bytes, the high one first. -/
structure BranchesTo (c : Cpu) (m : Guarded) (target entry : UInt64) : Prop where
  distance : ∃ high low : UInt8,
    readOr m (c.reg .bytecode + 1) 1 = .ok high.toUInt64 ∧
    readOr m (c.reg .bytecode + 2) 1 = .ok low.toUInt64 ∧
    target = c.reg .bytecode +
      (Int64.ofInt (Int.bmod (Bytecode.bigEndian [high, low]) 65536)).toUInt64
  opcode : ∃ opcode : UInt8, readOr m target 1 = .ok opcode.toUInt64 ∧
    readOr m (Place.dispatchSlot (c.reg .dispatch) .none opcode) 8 = .ok entry

/-- From `q` on, within `n` instructions, the machine goes to the entry of the target if the branch
    is taken, and comes to `q'` with the bytecode as it is if not. -/
structure BranchesIf (taken : Prop) (code : CodeCache) (n : Nat) (operands q q' : UInt64) (c : Cpu)
    (m : Guarded) : Prop where
  yes : taken → ∀ target entry, BranchesTo c m target entry →
    Machine.Comes code (fun c' m' => c'.pc = entry ∧ c'.reg .bytecode = target ∧
      c'.reg .operands = operands ∧ m' = m) n q c m
  no : ¬ taken → Machine.Comes code (fun c' m' => c'.pc = q' ∧
    c'.reg .bytecode = c.reg .bytecode ∧ c'.reg .operands = operands ∧ m' = m) n q c m

section
variable {code : CodeCache} {place : CodeLabel → UInt64} {ctx : CodeContext} {inStub : Bool}
  {K S : List CodeLabel} {q q' target entry : UInt64} {c : Cpu} {m : Guarded} {taken : Prop}
  {P : Cpu → Guarded → Prop} {n : Nat}

/-- The signed operand of two bytes comes into the first register. -/
theorem Machine.Comes.signedPair {r low : Register} {x y : UInt8}
    (lay : Lays ⟨code, place⟩ ctx inStub K S (signedPair r low) q q' ())
    (first : readOr m (c.reg .bytecode + 1) 1 = .ok x.toUInt64)
    (second : readOr m (c.reg .bytecode + 2) 1 = .ok y.toUInt64)
    (apart : low ≠ r ∧ .bytecode ≠ r) (some : r ≠ .zero ∧ low ≠ .zero)
    (next : ∀ c', c'.reg r = (Int64.ofInt (Int.bmod (Bytecode.bigEndian [x, y]) 65536)).toUInt64 →
      (∀ s, s ≠ r → s ≠ low → c'.reg s = c.reg s) → Machine.Comes code P n q' c' m) :
    Machine.Comes code P (n + 4) q c m := by
  have number : (Bytecode.bigEndian [x, y] : Int) = 256 * x.toNat + y.toNat := by
    simp [Bytecode.bigEndian]
  unfold Template.signedPair at lay
  obtain ⟨i₁, lay⟩ := lay.emit_bind
  obtain ⟨i₂, lay⟩ := lay.emit_bind
  obtain ⟨i₃, lay⟩ := lay.emit_bind
  obtain ⟨i₄, rfl⟩ := lay.emit
  refine .load i₁ first <| .load i₂ (w := y.toUInt64) ?_ <| .shiftLeft i₃ <| .binary i₄ <|
    next _ ?_ fun s other other' => ?_
  · rw [Cpu.target_base, Cpu.reg_setReg_ne _ _ apart.2]
    exact second
  · rw [Cpu.reg_setReg_self _ _ some.1, Cpu.reg_setReg_self _ _ some.1,
      Cpu.reg_setReg_ne _ _ apart.1.symm]
    change (Cpu.setReg _ r _).reg r <<< 8 ||| (Cpu.setReg _ r _).reg low = _
    rw [Cpu.reg_setReg_self _ _ some.1, Cpu.reg_setReg_ne _ _ apart.1,
      Cpu.reg_setReg_self _ _ some.2, number, ← signed_pair]
    rfl
  · rw [Cpu.reg_setReg_ne _ _ other, Cpu.reg_setReg_ne _ _ other, Cpu.reg_setReg_ne _ _ other']
    exact Cpu.reg_setReg_ne _ _ other

theorem dispatchSlot_none (table : UInt64) (opcode : UInt8) :
    table + ((opcode.toUInt64 + (TopOfStack.none.index * 256).toUInt64) <<< 3) =
      Place.dispatchSlot table .none opcode := by
  have bound : opcode.toNat < 256 := opcode.toNat_lt
  have column : (TopOfStack.none.index * 256).toUInt64 = 2304 := rfl
  have index : TopOfStack.none.index.toUInt64 * 256 = 2304 := rfl
  have eight : 2 ^ (3 % 64) = 8 := rfl
  rw [Place.dispatchSlot, column, index]
  refine congrArg (table + ·) (UInt64.toNat_inj.mp ?_)
  simp only [UInt64.toNat_shiftLeft, UInt64.toNat_add, UInt64.toNat_mul, UInt8.toNat_toUInt64,
    UInt64.reduceToNat, Nat.shiftLeft_eq, eight]
  omega

/-- The opcode in the scratch register has its entry in the row for no held operand. -/
theorem Machine.Comes.dispatchOn {opcode : UInt8}
    (lay : Lays ⟨code, place⟩ ctx inStub K S (Emit.dispatchOn .none) q q' ())
    (byte : c.reg .scratch1 = opcode.toUInt64)
    (slot : readOr m (Place.dispatchSlot (c.reg .dispatch) .none opcode) 8 = .ok entry)
    (next : ∀ c', (∀ s, s ≠ .scratch1 → s ≠ .scratch2 → c'.reg s = c.reg s) →
      Machine.Comes code P n entry c' m) : Machine.Comes code P (n + 3) q c m := by
  unfold Emit.dispatchOn at lay
  replace lay := lay.ite_pos (by decide)
  obtain ⟨i₁, lay⟩ := lay.emit_bind
  obtain ⟨i₂, lay⟩ := lay.emit_bind
  obtain ⟨i₃, rfl⟩ := lay.emit
  refine .binary i₁ <| .load i₂ (w := entry) ?_ <| .branchTo i₃ ?_
  · rw [Cpu.target_index, Cpu.reg_setReg_ne _ _ (by decide), Cpu.reg_setReg_self _ _ (by decide),
      byte]
    exact (congrArg (readOr m · 8) (dispatchSlot_none _ opcode)).trans slot
  · rw [Cpu.reg_setReg_self _ _ (by decide)]
    refine next _ fun s other other' => ?_
    rw [Cpu.reg_setReg_ne _ _ other']
    exact Cpu.reg_setReg_ne _ _ other

/-- A branch that is taken. -/
theorem Machine.Comes.takeBranch (lay : Lays ⟨code, place⟩ ctx inStub K S takeBranch q q' ())
    (aim : BranchesTo c m target entry) :
    Machine.Comes code (fun c' m' => c'.pc = entry ∧ c'.reg .bytecode = target ∧
      c'.reg .operands = c.reg .operands ∧ m' = m) 9 q c m := by
  obtain ⟨⟨high, low, first, second, rfl⟩, opcode, byte, slot⟩ := aim
  unfold Template.takeBranch at lay
  obtain ⟨⟨⟩, r, lay₁, lay⟩ := lay.split
  obtain ⟨i₁, lay⟩ := lay.emit_bind
  obtain ⟨i₂, lay⟩ := lay.emit_bind
  refine .signedPair lay₁ first second (by decide) (by decide) fun c₁ x2 kept => ?_
  have moved : Binary.apply (c₁.reg .bytecode) (c₁.operand (.reg .x2)) .add = c.reg .bytecode +
      (Int64.ofInt (Int.bmod (Bytecode.bigEndian [high, low]) 65536)).toUInt64 := by
    change c₁.reg .bytecode + c₁.reg .x2 = _
    rw [x2, kept _ (by decide) (by decide)]
  refine .binary i₁ <| .load i₂ (w := opcode.toUInt64) ?_ <|
    .dispatchOn lay (Cpu.reg_setReg_self _ _ (by decide)) ?_ fun c₂ kept' =>
      .here ⟨rfl, ?_, ?_, rfl⟩
  · rw [Cpu.target_base, Cpu.reg_setReg_self _ _ (by decide), moved, UInt64.add_zero]
    exact byte
  · rw [Cpu.reg_setReg_ne _ _ (by decide), Cpu.rebase_base, Cpu.reg_setReg_ne _ _ (by decide),
      kept _ (by decide) (by decide)]
    exact slot
  · change c₂.reg .bytecode = _
    rw [kept' _ (by decide) (by decide), Cpu.reg_setReg_ne _ _ (by decide), Cpu.rebase_base,
      Cpu.reg_setReg_self _ _ (by decide), moved]
  · change c₂.reg .operands = _
    rw [kept' _ (by decide) (by decide), Cpu.reg_setReg_ne _ _ (by decide), Cpu.rebase_base,
      Cpu.reg_setReg_ne _ _ (by decide), kept _ (by decide) (by decide)]

namespace BranchesIf

variable {operands : UInt64}

/-- The code branches if its condition holds for the flags. -/
theorem of_flags {k : Condition} (real : k ≠ .al) (holds : k.holds c.flags = true ↔ taken)
    (popped : c.reg .operands = operands)
    (lay : Lays ⟨code, place⟩ ctx inStub K S (branchIf k) q q' ()) :
    BranchesIf taken code 10 operands q q' c m := by
  subst popped
  unfold Template.branchIf at lay
  obtain ⟨notTaken, lay⟩ := lay.newLabel_bind
  obtain ⟨i, lay⟩ := lay.emitTo_bind
  obtain ⟨⟨⟩, r, go, lay⟩ := lay.split
  obtain ⟨here, rfl⟩ := lay.bind
  rw [here] at i
  -- the code skips the branch on the opposite condition, so its two ways are swapped
  have inverted := Condition.holds_invert c.flags real
  refine ⟨fun yes target entry aim => .branchIf i (fun no => ?_) fun _ => .takeBranch go aim,
    fun no => .branchIf i (fun _ => ?_) fun yes => ?_⟩
  · rw [inverted, holds.mpr yes] at no
    cases no
  · exact .mono (.here ⟨rfl, rfl, rfl, rfl⟩) (Nat.zero_le _)
  · rw [inverted, Bool.not_eq_false'] at yes
    exact absurd (holds.mp yes) no

/-- An instruction before that leaves the bytecode alone. -/
theorem before {q₁ : UInt64} {c₁ : Cpu}
    (step : ∀ P, Machine.Comes code P n q₁ c₁ m → Machine.Comes code P (n + 1) q c m)
    (bytecode : c₁.reg .bytecode = c.reg .bytecode) (dispatch : c₁.reg .dispatch = c.reg .dispatch)
    (h : BranchesIf taken code n operands q₁ q' c₁ m) :
    BranchesIf taken code (n + 1) operands q q' c m where
  yes yes target entry aim := by
    refine step _ (h.yes yes target entry ⟨?_, ?_⟩)
    · rw [bytecode]
      exact aim.distance
    · rw [dispatch]
      exact aim.opcode
  no no := by
    have behind := h.no no
    rw [bytecode] at behind
    exact step _ behind

end BranchesIf

end

/-! ## Comparisons of ints -/

/-- The relations between two ints that branches ask for. -/
inductive IntComparison where
  | eq | ne | lt | ge | gt | le
  deriving DecidableEq

namespace IntComparison

def Holds (i j : Int) : IntComparison → Prop
  | eq => i = j
  | ne => i ≠ j
  | lt => i < j
  | ge => i ≥ j
  | gt => i > j
  | le => i ≤ j

instance (i j : Int) (r : IntComparison) : Decidable (r.Holds i j) :=
  match r with
  | eq => inferInstanceAs (Decidable (i = j))
  | ne => inferInstanceAs (Decidable (i ≠ j))
  | lt => inferInstanceAs (Decidable (i < j))
  | ge => inferInstanceAs (Decidable (i ≥ j))
  | gt => inferInstanceAs (Decidable (i > j))
  | le => inferInstanceAs (Decidable (i ≤ j))

def condition : IntComparison → Condition
  | eq => .eq | ne => .ne | lt => .lt | ge => .ge | gt => .gt | le => .le

/-- The branch that compares an int with zero. -/
def withZero : IntComparison → Opcode
  | eq => .ifeq | ne => .ifne | lt => .iflt | ge => .ifge | gt => .ifgt | le => .ifle

/-- The branch that compares two ints. -/
def ofTwo : IntComparison → Opcode
  | eq => .ifIcmpeq | ne => .ifIcmpne | lt => .ifIcmplt | ge => .ifIcmpge | gt => .ifIcmpgt
  | le => .ifIcmple

theorem code_withZero (r : IntComparison) (e : ExceptionEntries) :
    (ofOpcode e r.withZero).code = branchZero r.condition := by
  cases r <;> rfl

theorem code_ofTwo (r : IntComparison) (e : ExceptionEntries) :
    (ofOpcode e r.ofTwo).code = branchInts r.condition := by
  cases r <;> rfl

/-- The relation of the words of two ints is that of the ints. -/
theorem relates_iff (r : IntComparison) (i j : Int32) :
    r.condition.Relates i.toInt64.toUInt64 j.toInt64.toUInt64 ↔ r.Holds i.toInt j.toInt := by
  cases r with
  | eq | ne => simp [condition, Condition.Relates, Holds, eq_iff_toInt]
  | _ => simp [condition, Condition.Relates, Holds]

theorem condition_ne_al (r : IntComparison) : r.condition ≠ .al := by cases r <;> nofun

section
variable {code : CodeCache} {place : CodeLabel → UInt64} {ctx : CodeContext} {inStub : Bool}
  {K S : List CodeLabel} {q q' : UInt64} {c : Cpu} {m : Guarded} {e : ExceptionEntries}
  {i j : Int32}

theorem branches_withZero (r : IntComparison)
    (lay : Lays ⟨code, place⟩ ctx inStub K S (ofOpcode e r.withZero).code q q' ())
    (held : c.reg .x0 = i.toInt64.toUInt64) :
    BranchesIf (r.Holds i.toInt 0) code 11 (c.reg .operands) q q' c m := by
  rw [code_withZero] at lay
  unfold Template.branchZero at lay
  obtain ⟨i₁, lay⟩ := lay.emit_bind
  refine .before (fun P => .compare i₁) rfl rfl (.of_flags r.condition_ne_al ?_ rfl lay)
  rw [Cpu.flags_setFlags, Condition.holds_ofCompare, held]
  exact r.relates_iff i 0

theorem branches_ofTwo (r : IntComparison)
    (lay : Lays ⟨code, place⟩ ctx inStub K S (ofOpcode e r.ofTwo).code q q' ())
    (below : readOr m (c.reg .operands) 4 = .ok i.toUInt32.toUInt64)
    (held : c.reg .x0 = j.toInt64.toUInt64) :
    BranchesIf (r.Holds i.toInt j.toInt) code 12 (c.reg .operands + 8) q q' c m := by
  rw [code_ofTwo] at lay
  unfold Template.branchInts Emit.popInt at lay
  obtain ⟨⟨⟩, p, lay₁, lay⟩ := lay.split
  obtain ⟨i₁, rfl⟩ := lay₁.emit
  obtain ⟨i₂, lay⟩ := lay.emit_bind
  let c₁ := (c.setReg .operands (c.reg .operands + 8)).setReg .x1 i.toInt64.toUInt64
  have kept {s : Register} (other : s ≠ .x1) (other' : s ≠ .operands) : c₁.reg s = c.reg s :=
    (Cpu.reg_setReg_ne _ _ other).trans (Cpu.reg_setReg_ne _ _ other')
  have popped : c₁.reg .operands = c.reg .operands + 8 :=
    (Cpu.reg_setReg_ne _ _ (by decide)).trans (Cpu.reg_setReg_self _ _ (by decide))
  have x1 : c₁.reg .x1 = i.toInt64.toUInt64 := Cpu.reg_setReg_self _ _ (by decide)
  have x0 : c₁.reg .x0 = j.toInt64.toUInt64 := (kept (by decide) (by decide)).trans held
  have step (P : Cpu → Guarded → Prop) (h : Machine.Comes code P 11 (q + 4) c₁ m) :
      Machine.Comes code P 12 q c m := by
    refine .load i₁ below ?_
    -- the load writes the pointer back before the register, as `c₁` does
    change Machine.Comes code P 11 _ (Cpu.setReg _ _ (Width.word.signExtend _)) m
    rw [signExtend_word]
    exact h
  refine .before step (kept (by decide) (by decide)) (kept (by decide) (by decide))
    (.before (fun P => .compare i₂) rfl rfl (.of_flags r.condition_ne_al ?_ popped lay))
  rw [Cpu.flags_setFlags, Condition.holds_ofCompare, x1]
  change r.condition.Relates _ (c₁.reg .x0) ↔ _
  rw [x0]
  exact r.relates_iff i j

end

/-! ## All together -/

/-- After a comparison every condition is the relation between the words that it stands for, after
    a test four of them describe the word under test, and a condition with an opposite holds where
    the opposite does not. So the templates that compare ints branch exactly where the relation of
    their opcode holds, and go on behind themselves otherwise. -/
theorem compares_and_branches :
    (∀ (c : Cpu) (m : Guarded) (rn : Register) (o : Operand), ∃ effect,
      (Instruction.compare rn o).effect c m = .ok effect ∧ ∀ k : Condition,
        k.holds (c.applyEffect effect).flags = true ↔ k.Relates (c.reg rn) (c.operand o)) ∧
    (∀ (c : Cpu) (m : Guarded) (rn : Register) (o : Operand), ∃ effect,
      (Instruction.test rn o).effect c m = .ok effect ∧
        (c.applyEffect effect).flags.Describes (c.reg rn &&& c.operand o)) ∧
    (∀ (k : Condition) (f : Flags), k ≠ .al → (k.invert.holds f = true ↔ ¬ k.holds f = true)) ∧
    (∀ (r : IntComparison) (i : Int32) (code : CodeCache) (place : CodeLabel → UInt64)
      (ctx : CodeContext) (inStub : Bool) (K S : List CodeLabel) (e : ExceptionEntries)
      (q q' : UInt64) (c : Cpu) (m : Guarded),
      Lays ⟨code, place⟩ ctx inStub K S (ofOpcode e r.withZero).code q q' () →
      c.reg .x0 = i.toInt64.toUInt64 →
      BranchesIf (r.Holds i.toInt 0) code 11 (c.reg .operands) q q' c m) ∧
    (∀ (r : IntComparison) (i j : Int32) (code : CodeCache) (place : CodeLabel → UInt64)
      (ctx : CodeContext) (inStub : Bool) (K S : List CodeLabel) (e : ExceptionEntries)
      (q q' : UInt64) (c : Cpu) (m : Guarded),
      Lays ⟨code, place⟩ ctx inStub K S (ofOpcode e r.ofTwo).code q q' () →
      readOr m (c.reg .operands) 4 = .ok i.toUInt32.toUInt64 →
      c.reg .x0 = j.toInt64.toUInt64 →
      BranchesIf (r.Holds i.toInt j.toInt) code 12 (c.reg .operands + 8) q q' c m) := by
  refine ⟨fun c m rn o => ⟨_, rfl, fun k => k.holds_ofCompare _ _⟩,
    fun c m rn o => ⟨_, rfl, Flags.describes_ofTest _⟩, fun k f real => ?_,
    fun r i code place ctx inStub K S e q q' c m lay held => r.branches_withZero lay held,
    fun r i j code place ctx inStub K S e q q' c m lay below held =>
      r.branches_ofTwo lay below held⟩
  rw [Condition.holds_invert f real, Bool.not_eq_true', Bool.not_eq_true]

def blank : Guarded := ⟨⟨Array.replicate 0x32000 0⟩, []⟩

/-- A branch back by eight, the bytecode there with its entry, and the least int on the operands. -/
def memory : Guarded :=
  ((((blank.put 0x20011 1 0xff).put 0x20012 1 0xf8).put 0x20008 1 0x05).put 0x14828 8
    0x40001000).put 0x31010 4 0x80000000

/-- The machine at the branch, with an int held. -/
def cpu (held : Int32) : Cpu :=
  (((Cpu.zero.setReg .bytecode 0x20010).setReg .dispatch Place.activeTable).setReg .operands
    0x31010).setReg .x0 held.toInt64.toUInt64

theorem open_blank {a w : UInt64} (inside : a.toNat + w.toNat ≤ 0x32000) : blank.Open a w := by
  have size : blank.bytes.size = 0x32000 := by
    simp only [blank, ByteArray.size, Array.size_replicate]
  have clear : blank.Clear 0 0x32000 := ⟨Nat.le_of_eq size.symm, nofun⟩
  exact clear.open (Nat.zero_le _) inside

theorem load_memory : Memory.load memory.bytes 0x20011 1 = 0xff ∧
    Memory.load memory.bytes 0x20012 1 = 0xf8 ∧ Memory.load memory.bytes 0x20008 1 = 0x05 ∧
    Memory.load memory.bytes 0x14828 8 = 0x40001000 ∧
    Memory.load memory.bytes 0x31010 4 = 0x80000000 := by
  have skip {m : Guarded} {a w v : UInt64} {j k : Nat} {n : UInt64}
      (h : Memory.load m.bytes j k = n) (apart : j + k ≤ a.toNat ∨ a.toNat + w.toNat ≤ j) :
      Memory.load (m.put a w v).bytes j k = n := (Guarded.load_put_of_disjoint apart).trans h
  refine ⟨?_, ?_, ?_, ?_, ?_⟩
  · refine skip (skip (skip (skip ?_ (by decide)) (by decide)) (by decide)) (by decide)
    exact Guarded.load_put_byte (a := 0x20011) (v := 0xff) (open_blank (by decide))
  · refine skip (skip (skip ?_ (by decide)) (by decide)) (by decide)
    exact Guarded.load_put_byte (a := 0x20012) (v := 0xf8) (open_blank (by decide)).put
  · refine skip (skip ?_ (by decide)) (by decide)
    exact Guarded.load_put_byte (a := 0x20008) (v := 0x05) (open_blank (by decide)).put.put
  · refine skip ?_ (by decide)
    exact Guarded.load_put (a := 0x14828) (open_blank (by decide)).put.put.put
  · exact Guarded.load_put_word (a := 0x31010) (v := 0x80000000)
      (open_blank (by decide)).put.put.put.put

theorem readOr_memory {a w n : UInt64} (inside : a.toNat + w.toNat ≤ 0x32000)
    (there : Memory.load memory.bytes a.toNat w.toNat = n) : readOr memory a w = .ok n :=
  (open_blank inside).put.put.put.put.put.readOr.trans (congrArg Except.ok there)

theorem branchesTo (held : Int32) : BranchesTo (cpu held) memory 0x20008 0x40001000 := by
  obtain ⟨high, low, opcode, entry, -⟩ := load_memory
  have bytecode : (cpu held).reg .bytecode = 0x20010 := rfl
  have dispatch : (cpu held).reg .dispatch = Place.activeTable := rfl
  constructor
  · refine ⟨0xff, 0xf8, ?_, ?_, ?_⟩
    · rw [bytecode]
      exact readOr_memory (by decide) high
    · rw [bytecode]
      exact readOr_memory (by decide) low
    · rw [bytecode]
      rfl
  · refine ⟨0x05, readOr_memory (by decide) opcode, ?_⟩
    rw [dispatch]
    exact readOr_memory (by decide) entry

/-- The machine about to run a template, with an int held. -/
def start (q : UInt64) (held : Int32) : Machine :=
  ⟨⟨{ cpu held with pc := q }, 0, 100, []⟩, memory⟩

/-- In the image for the default settings: the least int is less than the greatest, and `-1` less
    than zero, so these branches are taken. `-1` is not greater than zero, so that one is not. -/
theorem compares_and_branches_least : ∃ i, Image.generate {} = .ok i ∧
    (Condition.lt ≠ .al ∧ (Condition.ge.holds (.ofCompare 1 2) = true ↔
      ¬ Condition.lt.holds (.ofCompare 1 2) = true)) ∧
    (∃ place ctx K q q', Lays ⟨i.code, place⟩ ctx true K []
        (ofOpcode i.exceptions lt.ofTwo).code q q' () ∧
      readOr memory 0x31010 4 = .ok Int32.minValue.toUInt32.toUInt64 ∧
      ∃ k t, Machine.Runs i.code (start q Int32.maxValue) k t ∧ t.processor.cpu.pc = 0x40001000 ∧
        t.processor.cpu.reg .bytecode = 0x20008 ∧ t.processor.cpu.reg .operands = 0x31018) ∧
    (∃ place ctx K q q', Lays ⟨i.code, place⟩ ctx true K []
        (ofOpcode i.exceptions lt.withZero).code q q' () ∧
      ∃ k t, Machine.Runs i.code (start q (-1)) k t ∧ t.processor.cpu.pc = 0x40001000 ∧
        t.processor.cpu.reg .bytecode = 0x20008 ∧ t.processor.cpu.reg .operands = 0x31010) ∧
    ∃ place ctx K q q', Lays ⟨i.code, place⟩ ctx true K []
        (ofOpcode i.exceptions gt.withZero).code q q' () ∧
      ∃ k t, Machine.Runs i.code (start q (-1)) k t ∧ t.processor.cpu.pc = q' ∧
        t.processor.cpu.reg .bytecode = 0x20010 ∧ t.processor.cpu.reg .operands = 0x31010 := by
  obtain ⟨i, hi⟩ := Image.generate_ok (s := {}) (by decide)
  have generated := Image.generated_of_generate hi (by decide)
  obtain ⟨-, -, inverts, zero, two⟩ := compares_and_branches
  have least : readOr memory 0x31010 4 = .ok Int32.minValue.toUInt32.toUInt64 :=
    readOr_memory (by decide) load_memory.2.2.2.2
  have left : (0 : UInt64).toNat + 12 ≤ (100 : UInt64).toNat := by decide
  have left' := Nat.le_of_succ_le left
  refine ⟨i, hi, ⟨by decide, inverts .lt _ (by decide)⟩, ?_, ?_, ?_⟩
  · obtain ⟨place, ctx, K, q, q', _, -, lay, -⟩ := generated.template lt.ofTwo
    obtain ⟨k, t, runs, pc, bytecode, operands, -⟩ :=
      (two lt .minValue .maxValue _ _ _ _ _ _ _ _ _ (cpu .maxValue) memory lay least rfl).yes
        (by decide) _ _ (branchesTo .maxValue) (start q .maxValue) rfl rfl left
    exact ⟨place, ctx, K, q, q', lay, least, k, t, runs, pc, bytecode, operands⟩
  · obtain ⟨place, ctx, K, q, q', _, -, lay, -⟩ := generated.template lt.withZero
    obtain ⟨k, t, runs, pc, bytecode, operands, -⟩ :=
      (zero lt (-1) _ _ _ _ _ _ _ _ _ (cpu (-1)) memory lay rfl).yes
        (by decide) _ _ (branchesTo (-1)) (start q (-1)) rfl rfl left'
    exact ⟨place, ctx, K, q, q', lay, k, t, runs, pc, bytecode, operands⟩
  · obtain ⟨place, ctx, K, q, q', _, -, lay, -⟩ := generated.template gt.withZero
    obtain ⟨k, t, runs, pc, bytecode, operands, -⟩ :=
      (zero gt (-1) _ _ _ _ _ _ _ _ _ (cpu (-1)) memory lay rfl).no
        (by decide) (start q (-1)) rfl rfl left'
    exact ⟨place, ctx, K, q, q', lay, k, t, runs, pc, bytecode, operands⟩

end IntComparison
end TemplateVm
