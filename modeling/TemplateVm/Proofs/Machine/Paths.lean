import TemplateVm.Proofs.Machine.Atomic
import TemplateVm.Proofs.Machine.Steps

set_option autoImplicit false

/-!
# Paths of the processor

`Comes` says that a run gets from an address to registers and a memory with a property: no event
comes between, and the number of instructions is bounded. One rule for each instruction takes it
over it. Other than for `Arrives` no limit may come first, so as many steps have to be left.
-/
namespace TemplateVm.Machine

open Memory (Guarded)

/-- The processor comes to registers and a memory with the property, with no event before and after
    `n` instructions at most, if as many are left. -/
def Comes (code : CodeCache) (P : Cpu → Guarded → Prop) (n : Nat) (p : UInt64) (c : Cpu)
    (m : Guarded) : Prop :=
  ∀ s : Machine, s.processor.cpu = { c with pc := p } → s.mem = m →
    s.processor.steps.toNat + n ≤ s.processor.maxSteps.toNat →
    ∃ k t, Runs code s k t ∧ P t.processor.cpu t.mem

section
variable {code : CodeCache} {P : Cpu → Guarded → Prop} {n : Nat} {p q w : UInt64} {c : Cpu}
  {m : Guarded} {rd rn : Register}

theorem Comes.here (h : P { c with pc := p } m) : Comes code P 0 p c m :=
  fun s cpu mem _ => ⟨0, s, .refl s, by rwa [cpu, mem]⟩

theorem Comes.instruction {i : Instruction UInt64} {e : Effect} (fetch : code.Fetches p i)
    (effect : i.effect { c with pc := p } m = .ok e) (goes : e.event = .next)
    (h : Comes code P n e.next (c.applyEffect e) (e.writes.foldl write m)) :
    Comes code P (n + 1) p c m := by
  rintro ⟨⟨_, steps, maxSteps, watched⟩, m⟩ rfl (rfl : m = _)
    (left : steps.toNat + (n + 1) ≤ maxSteps.toNat)
  obtain ⟨host, runtime⟩ := Vm.below_codeLimit fetch.2
  have more : ¬ maxSteps ≤ steps := by
    rw [UInt64.le_iff_toNat_le]
    omega
  let counts : Processor := Processor.count ⟨{ c with pc := p }, steps, maxSteps, watched⟩ p
  have cpu : counts.cpu = { c with pc := p } := rfl
  have counted : counts.steps.toNat = steps.toNat + 1 := by
    have limit := maxSteps.toNat_lt
    exact toNat_add_of_lt (by change steps.toNat + 1 < _; omega)
  let next : Machine := ⟨{ counts with cpu := { c.applyEffect e with pc := e.next } },
    e.writes.foldl write m⟩
  have step : step code ⟨⟨{ c with pc := p }, steps, maxSteps, watched⟩, m⟩ = .ok .next next := by
    simp only [Machine.step, host, runtime, more, fetch.1, ↓reduceIte, Bool.false_eq_true]
    rw [show (Processor.count ⟨{ c with pc := p }, steps, maxSteps, watched⟩ p).cpu = _ from cpu,
      effect]
    dsimp only
    rw [goes, Cpu.applyEffect_pc]
  obtain ⟨k, t, runs, holds⟩ := h next rfl rfl (by
    change counts.steps.toNat + n ≤ maxSteps.toNat
    omega)
  exact ⟨k + 1, t, .next step runs, holds⟩

theorem Comes.mono {k : Nat} (h : Comes code P n p c m) (le : n ≤ k) : Comes code P k p c m :=
  fun s cpu mem left => h s cpu mem (Nat.le_trans (Nat.add_le_add_left le _) left)

theorem Comes.movImm (fetch : code.Fetches p (.movImm rd w))
    (h : Comes code P n (p + 4) (c.setReg rd w) m) : Comes code P (n + 1) p c m :=
  .instruction fetch rfl rfl h

theorem Comes.mov (fetch : code.Fetches p (.mov rd rn))
    (h : Comes code P n (p + 4) (c.setReg rd (c.reg rn)) m) : Comes code P (n + 1) p c m :=
  .instruction fetch rfl rfl h

theorem Comes.adr (fetch : code.Fetches p (.adr rd q))
    (h : Comes code P n (p + 4) (c.setReg rd q) m) : Comes code P (n + 1) p c m :=
  .instruction fetch rfl rfl h

theorem Comes.callTo (fetch : code.Fetches p (.callTo rn))
    (h : Comes code P n (c.reg rn) (c.setReg .link (p + 4)) m) : Comes code P (n + 1) p c m :=
  .instruction fetch rfl rfl h

theorem Comes.store (fetch : code.Fetches p (.store rd (.base rn w) .double))
    (ok : m.Open (c.reg rn + w) 8)
    (h : Comes code P n (p + 4) c (m.put (c.reg rn + w) 8 (c.reg rd))) :
    Comes code P (n + 1) p c m :=
  .instruction (e := { next := p + 4, writes := [⟨c.reg rn + w, 8, c.reg rd⟩] }) fetch
    (Vm.except_bind_ok ok.checkWrite rfl) rfl h

theorem Comes.binary {op : Binary} {o : Operand} (fetch : code.Fetches p (.binary op rd rn o))
    (h : Comes code P n (p + 4) (c.setReg rd (op.apply (c.reg rn) (c.operand o))) m) :
    Comes code P (n + 1) p c m :=
  .instruction fetch rfl rfl h

theorem Comes.shiftLeft {k : UInt8} (fetch : code.Fetches p (.shiftLeft rd rn k))
    (h : Comes code P n (p + 4) (c.setReg rd (c.reg rn <<< k.toUInt64)) m) :
    Comes code P (n + 1) p c m :=
  .instruction fetch rfl rfl h

theorem Comes.compare {o : Operand} (fetch : code.Fetches p (.compare rn o))
    (h : Comes code P n (p + 4) (c.setFlags (.ofCompare (c.reg rn) (c.operand o))) m) :
    Comes code P (n + 1) p c m :=
  .instruction fetch rfl rfl h

theorem Comes.load {addr : Address} {k : Width} {signed : Bool}
    (fetch : code.Fetches p (.load rd addr k signed))
    (read : readOr m (c.target addr) k.bytes = .ok w)
    (h : Comes code P n (p + 4)
      ((c.rebase addr).setReg rd (if signed then k.signExtend w else w)) m) :
    Comes code P (n + 1) p c m := by
  have ok := Guarded.Open.of_readOr read
  obtain rfl : _ = w := Except.ok.inj (ok.readOr.symm.trans read)
  refine .instruction fetch (Vm.effect_load ok) rfl ?_
  rw [Cpu.applyEffect_append]
  exact h

theorem Comes.branchTo (fetch : code.Fetches p (.branchTo rn))
    (h : Comes code P n (c.reg rn) c m) : Comes code P (n + 1) p c m :=
  .instruction fetch rfl rfl h

theorem Comes.branchIf {k : Condition} (fetch : code.Fetches p (.branchIf k q))
    (yes : k.holds c.flags = true → Comes code P n q c m)
    (no : k.holds c.flags = false → Comes code P n (p + 4) c m) : Comes code P (n + 1) p c m := by
  refine .instruction (e := { next := if k.holds c.flags then q else p + 4 }) fetch rfl rfl ?_
  cases holds : k.holds c.flags with
  | true => exact yes holds
  | false => exact no holds

end
end TemplateVm.Machine
