import TemplateVm.Proofs.Layout.Placement
import TemplateVm.Proofs.Machine.Conditions
import TemplateVm.Proofs.Machine.Turns
import TemplateVm.Proofs.Memory.Access

set_option autoImplicit false

/-!
# Steps of the processor

`Arrives P turns v` is `Leads` for all values of the counters that say how far a run has come. One
rule for each instruction takes the processor over it, and counts a turn; states are written
`v.moved p c m`, with the address, the registers and the memory that change from step to step. The
turns of a piece of code are added to those of the code behind it, so that a sum of turns is in the
order of the code if it is read from right to left.
-/
namespace TemplateVm

/-! ## Registers -/

namespace Cpu

theorem setReg_pc (c : Cpu) (r : Register) (n p : UInt64) :
    ({ c with pc := p } : Cpu).setReg r n = { c.setReg r n with pc := p } := by
  unfold setReg
  split <;> rfl

/-- Where an access goes. -/
def target (c : Cpu) (a : Address) : UInt64 := (c.address a).1

/-- The registers after an access, but for what is loaded. -/
def rebase (c : Cpu) (a : Address) : Cpu :=
  (c.address a).2.foldl (fun c (r, n) => c.setReg r n) c

theorem applyEffect_append (c : Cpu) (next : UInt64) (l l' : List (Register × UInt64)) :
    c.applyEffect { next, registers := l ++ l' } =
      (l.foldl (fun c (r, n) => c.setReg r n) c).applyEffect { next, registers := l' } := by
  simp only [applyEffect, List.foldl_append]

section
variable (c : Cpu) (b i : Register) (offset : UInt64) (k : UInt8)

@[simp] theorem target_base : c.target (.base b offset) = c.reg b + offset := rfl
@[simp] theorem target_pre : c.target (.pre b offset) = c.reg b + offset := rfl
@[simp] theorem target_post : c.target (.post b offset) = c.reg b := rfl
@[simp] theorem target_index :
    c.target (.index b i k) = c.reg b + (c.reg i <<< k.toUInt64) := rfl
@[simp] theorem rebase_base : c.rebase (.base b offset) = c := rfl
@[simp] theorem rebase_pre :
    c.rebase (.pre b offset) = c.setReg b (c.reg b + offset) := rfl
@[simp] theorem rebase_post :
    c.rebase (.post b offset) = c.setReg b (c.reg b + offset) := rfl
@[simp] theorem rebase_index : c.rebase (.index b i k) = c := rfl

end

theorem foldl_pc {γ : Type} {f : Cpu → γ → Cpu} {p : UInt64}
    (hf : ∀ c x, f { c with pc := p } x = { f c x with pc := p }) (l : List γ) (c : Cpu) :
    l.foldl f { c with pc := p } = { l.foldl f c with pc := p } := by
  induction l generalizing c with
  | nil => rfl
  | cons x l ih => rw [List.foldl_cons, hf, ih, List.foldl_cons]

/-- The address of an instruction has no part in its effect but for the next one. -/
theorem applyEffect_pc (c : Cpu) (e : Effect) (p : UInt64) :
    ({ c with pc := p } : Cpu).applyEffect e = { c.applyEffect e with pc := e.next } := by
  have registers := foldl_pc (f := fun c (x : Register × UInt64) => c.setReg x.1 x.2)
    fun c x => setReg_pc c x.1 x.2 p
  have floats := foldl_pc (p := p) (f := fun c (x : FloatRegister × UInt64) => c.setFloat x.1 x.2)
    fun _ _ => rfl
  simp only [applyEffect, registers, floats]

def setFlags (c : Cpu) (f : Flags) : Cpu := { c with flags := f }

theorem reg_setReg (c : Cpu) (r s : Register) (n : UInt64) :
    (c.setReg r n).reg s = if s = .zero then 0 else if s = r then n else c.reg s := by
  unfold reg
  by_cases zero : s = .zero
  · simp only [zero, ↓reduceIte]
  · simp only [zero, ↓reduceIte]
    unfold setReg
    by_cases hr : r = .zero
    · rw [if_pos hr, if_neg fun e => zero (e.trans hr)]
    · rw [if_neg hr]
      by_cases same : s = r
      · subst same
        simp
      · have other : r.number.val ≠ s.number.val := fun e => same <| by
          cases r; cases s; simp only [Register.mk.injEq]; exact Fin.ext e.symm
        simp [same, Vector.getElem_set_ne _ _ other]

@[simp] theorem reg_zero (c : Cpu) : c.reg .zero = 0 := if_pos rfl

theorem reg_setReg_self (c : Cpu) {r : Register} (n : UInt64) (h : r ≠ .zero) :
    (c.setReg r n).reg r = n := by
  rw [reg_setReg, if_neg h, if_pos rfl]

theorem reg_setReg_ne (c : Cpu) {r s : Register} (n : UInt64) (h : s ≠ r) :
    (c.setReg r n).reg s = c.reg s := by
  rw [reg_setReg, if_neg h]
  split
  · next zero => rw [zero, reg_zero]
  · rfl

theorem setReg_setReg (c : Cpu) (r : Register) (n k : UInt64) :
    (c.setReg r n).setReg r k = c.setReg r k := by
  unfold setReg
  split <;> simp

theorem setReg_reg (c : Cpu) (r : Register) : c.setReg r (c.reg r) = c := by
  unfold setReg reg
  split <;> simp

@[simp] theorem setReg_zero (c : Cpu) (n : UInt64) : c.setReg .zero n = c := if_pos rfl

@[simp] theorem reg_setFloat (c : Cpu) (v : FloatRegister) (n : UInt64) (r : Register) :
    (c.setFloat v n).reg r = c.reg r := rfl

@[simp] theorem reg_setFlags (c : Cpu) (f : Flags) (r : Register) :
    (c.setFlags f).reg r = c.reg r := rfl

@[simp] theorem float_setFlags (c : Cpu) (f : Flags) (v : FloatRegister) :
    (c.setFlags f).float v = c.float v := rfl

@[simp] theorem float_setReg (c : Cpu) (r : Register) (n : UInt64) (v : FloatRegister) :
    (c.setReg r n).float v = c.float v := by
  unfold setReg
  split <;> rfl

theorem float_setFloat (c : Cpu) (v u : FloatRegister) (n : UInt64) :
    (c.setFloat v n).float u = if u = v then n else c.float u := by
  unfold float setFloat
  by_cases same : u = v
  · subst same
    simp
  · have other : v.number.val ≠ u.number.val := fun e => same <| by
      cases v; cases u; simp only [FloatRegister.mk.injEq]; exact Fin.ext e.symm
    simp [same, Vector.getElem_set_ne _ _ other]

@[simp] theorem flags_setFlags (c : Cpu) (f : Flags) : (c.setFlags f).flags = f := rfl

@[simp] theorem flags_setFloat (c : Cpu) (v : FloatRegister) (n : UInt64) :
    (c.setFloat v n).flags = c.flags := rfl

@[simp] theorem flags_setReg (c : Cpu) (r : Register) (n : UInt64) :
    (c.setReg r n).flags = c.flags := by
  unfold setReg
  split <;> rfl

/-- Registers that are not in the list are kept, and so are those for floats. -/
structure Spares (c c' : Cpu) (rs : List Register) : Prop where
  regs : ∀ r, r ∉ rs → c'.reg r = c.reg r
  floats : ∀ f, c'.float f = c.float f

namespace Spares

variable {c c' c'' : Cpu} {rs rs' : List Register} {r : Register}

theorem refl (c : Cpu) (rs : List Register) : c.Spares c rs := ⟨fun _ _ => rfl, fun _ => rfl⟩

theorem trans (h : c.Spares c' rs) (h' : c'.Spares c'' rs) : c.Spares c'' rs :=
  ⟨fun r hr => (h'.regs r hr).trans (h.regs r hr), fun f => (h'.floats f).trans (h.floats f)⟩

theorem mono (h : c.Spares c' rs) (sub : rs ⊆ rs') : c.Spares c' rs' :=
  ⟨fun r hr => h.regs r fun mem => hr (sub mem), h.floats⟩

theorem setReg (h : c.Spares c' rs) (mem : r ∈ rs) (n : UInt64) : c.Spares (c'.setReg r n) rs :=
  ⟨fun s hs => (c'.reg_setReg_ne n fun e : s = r => hs (e ▸ mem)).trans (h.regs s hs),
    fun f => (c'.float_setReg r n f).trans (h.floats f)⟩

theorem setFlags (h : c.Spares c' rs) (f : Flags) : c.Spares (c'.setFlags f) rs :=
  ⟨h.regs, h.floats⟩

end Spares

end Cpu

namespace Vm

open Memory (Guarded)

/-! ## States of a run -/

/-- The processor is at the address, with the registers and the memory as given. -/
def moved (v : Vm) (p : UInt64) (c : Cpu) (m : Guarded) : Vm :=
  { v with
    processor := { v.processor with cpu := { c with pc := p } }
    world := { v.world with store := { v.world.store with mem := m } } }

/-- The state with other counts of executed instructions. -/
def counted (v : Vm) (steps : UInt64) (watched : List (UInt64 × UInt64)) : Vm :=
  { v with processor := { v.processor with steps, watched } }

/-- Whatever has been counted so far, the machine comes within so many turns to a state with the
    property or to a limit. -/
def Arrives (P : Vm → Prop) (turns : Nat) (v : Vm) : Prop :=
  v.Quiet → ∀ steps watched, Leads (fun w => ∃ w' steps' watched', P w' ∧ w'.Quiet ∧
    w = w'.counted steps' watched') turns (v.counted steps watched)

variable {P Q : Vm → Prop} {turns others : Nat} {v w : Vm} {p : UInt64} {c : Cpu} {m : Guarded}

theorem Abides.of_moved (h : v.Abides w) : (v.moved p c m).Abides w :=
  ⟨h.quiet, h.maxSteps, h.stopAt⟩

theorem Abides.moved (h : v.Abides w) : v.Abides (w.moved p c m) :=
  ⟨h.quiet, h.maxSteps, h.stopAt⟩

namespace Arrives

theorem here (h : P v) : Arrives P turns v := fun quiet steps watched =>
  .here ⟨v, steps, watched, h, quiet, rfl⟩

theorem le (h : Arrives P others v) (le : others ≤ turns) : Arrives P turns v :=
  fun quiet steps watched => (h quiet steps watched).le le

theorem mono (h : Arrives P turns v) (hpq : ∀ w, P w → Q w) : Arrives Q turns v :=
  fun quiet steps watched => (h quiet steps watched).mono fun _ ⟨w', s, t, hp, rest⟩ =>
    ⟨w', s, t, hpq w' hp, rest⟩

theorem trans (h : Arrives P others v) (hpq : ∀ w, P w → Arrives Q turns w) :
    Arrives Q (turns + others) v :=
  fun quiet steps watched => (h quiet steps watched).trans fun _ ⟨w', s, t, hp, quiet', e⟩ =>
    e ▸ hpq w' hp quiet' s t

/-- The counts do not matter for a property that says nothing about them. -/
theorem leads (h : Arrives P turns v) (quiet : v.Quiet)
    (counted : ∀ w steps watched, P w → P (w.counted steps watched)) : Leads P turns v := by
  refine (h quiet v.processor.steps v.processor.watched).mono ?_
  rintro - ⟨w, steps, watched, hp, -, rfl⟩
  exact counted w steps watched hp

/-- A turn that is the same for all counts. -/
theorem turn (hv : ∀ steps watched, (∃ steps' watched', steps'.toNat ≤ steps.toNat + 1 ∧
      (v.counted steps watched).turn = .ok true (w.counted steps' watched')) ∨
      ∃ failure w', (v.counted steps watched).turn = .error failure w' ∧
        (v.counted steps watched).Cut failure)
    (abides : v.Abides w) (h : Arrives P turns w) : Arrives P (turns + 1) v :=
  fun hq steps watched => by
    obtain ⟨steps', watched', spent, step⟩ | ⟨failure, w', step, cut⟩ := hv steps watched
    · exact .turn step (abides.quiet hq) ⟨spent, abides.maxSteps, abides.stopAt⟩
        (h (abides.quiet hq) steps' watched')
    · exact .cut step cut

end Arrives

theorem below_codeLimit (h : p < Place.codeLimit) :
    p ≠ Place.hostReturn ∧ Place.isRuntime p = false := by
  have h : p.toNat < 0x50000000 := UInt64.lt_iff_toNat_lt.mp h
  constructor
  · rintro rfl
    exact absurd h (by decide)
  · have base : Place.runtimeBase.toNat = 0x70000000 := rfl
    have : ¬ Place.runtimeBase ≤ p := by
      rw [UInt64.le_iff_toNat_le]
      omega
    simp [Place.isRuntime, this]

/-- A step at an address with an instruction has the effect of the instruction, if steps are left. -/
theorem step_effect {i : Instruction UInt64} (fetch : v.image.code.Fetches p i) {steps : UInt64}
    (left : steps < v.processor.maxSteps) (watched : List (UInt64 × UInt64)) :
    ∃ watched', Machine.step v.image.code ((v.moved p c m).counted steps watched).machine =
      match i.effect { c with pc := p } m with
      | .error failure => .error failure ((v.moved p c m).counted (steps + 1) watched').machine
      | .ok e => .ok e.event ((v.moved e.next (c.applyEffect e)
          (e.writes.foldl Machine.write m)).counted (steps + 1) watched').machine := by
  obtain ⟨host, runtime⟩ := below_codeLimit fetch.2
  have limit : ¬ v.processor.maxSteps ≤ steps := UInt64.not_le.mpr left
  let counts : Processor :=
    Processor.count { v.processor with steps, watched, cpu := { c with pc := p } } p
  refine ⟨counts.watched, ?_⟩
  have cpu : counts.cpu = { c with pc := p } := rfl
  simp only [Machine.step, machine, counted, Vm.moved, host, runtime, limit, fetch.1, ↓reduceIte,
    Bool.false_eq_true]
  simp only [counts] at cpu
  rw [cpu]
  cases i.effect { c with pc := p } m with
  | error failure => rfl
  | ok e =>
    dsimp only
    rw [Cpu.applyEffect_pc]
    rfl

/-- Where no steps are left, the turn of an instruction meets the limit. -/
theorem turn_spent {i : Instruction UInt64} (fetch : v.image.code.Fetches p i) {steps : UInt64}
    (spent : v.processor.maxSteps ≤ steps) (watched : List (UInt64 × UInt64)) :
    ∃ failure w, ((v.moved p c m).counted steps watched).turn = .error failure w ∧
      ((v.moved p c m).counted steps watched).Cut failure := by
  obtain ⟨host, runtime⟩ := below_codeLimit fetch.2
  have step : Machine.step v.image.code ((v.moved p c m).counted steps watched).machine =
      .error (.stepLimitExceeded v.processor.maxSteps)
        ((v.moved p c m).counted steps watched).machine := by
    simp [Machine.step, machine, counted, Vm.moved, host, runtime, spent]
  exact ⟨_, _, turn_of_failure step nofun, .steps v.processor.maxSteps spent⟩

/-- The turn at an address with an instruction meets the limit, or the step has the effect of the
    instruction. -/
theorem step_fetched {i : Instruction UInt64} (fetch : v.image.code.Fetches p i)
    (steps : UInt64) (watched : List (UInt64 × UInt64)) :
    (∃ failure w, ((v.moved p c m).counted steps watched).turn = .error failure w ∧
      ((v.moved p c m).counted steps watched).Cut failure) ∨
    ∃ steps' watched', steps'.toNat ≤ steps.toNat + 1 ∧
      Machine.step v.image.code ((v.moved p c m).counted steps watched).machine =
        match i.effect { c with pc := p } m with
        | .error failure => .error failure ((v.moved p c m).counted steps' watched').machine
        | .ok e => .ok e.event ((v.moved e.next (c.applyEffect e)
            (e.writes.foldl Machine.write m)).counted steps' watched').machine := by
  by_cases spent : v.processor.maxSteps ≤ steps
  · exact .inl (turn_spent fetch spent watched)
  · obtain ⟨watched', step⟩ := step_effect (c := c) (m := m) fetch (UInt64.not_le.mp spent) watched
    exact .inr ⟨steps + 1, watched', by rw [UInt64.toNat_add]; exact Nat.mod_le _ _, step⟩

section
variable {steps : UInt64} {i : Instruction UInt64}

/-- The turn of an instruction with an effect, if steps are left. -/
theorem turn_effect {e : Effect} (fetch : v.image.code.Fetches p i)
    (effect : i.effect { c with pc := p } m = .ok e) (goes : e.event = .next)
    (left : steps < v.processor.maxSteps) (watched : List (UInt64 × UInt64)) :
    ∃ watched', ((v.moved p c m).counted steps watched).turn = .ok true ((v.moved e.next
      (c.applyEffect e) (e.writes.foldl Machine.write m)).counted (steps + 1) watched') := by
  obtain ⟨watched', step⟩ := step_effect (c := c) (m := m) fetch left watched
  rw [effect] at step
  dsimp only at step
  rw [goes] at step
  exact ⟨watched', turn_of_next step⟩

/-- A fault that no guard has caused is not handled. -/
theorem handleFault_of_none {fault : MemoryFault} (none : fault.guard = none) (v : Vm) :
    handleFault fault v = .error (.memoryFault fault) v := by
  refine (bind_ok (m := (get : Action Vm)) (s := v) rfl).trans ?_
  simp only [none, reduceCtorEq, false_and, ↓reduceIte]
  rfl

/-- The turn of an instruction that faults without a guard, if steps are left. -/
theorem turn_fault {fault : MemoryFault} (fetch : v.image.code.Fetches p i)
    (effect : i.effect { c with pc := p } m = .error (.memoryFault fault))
    (none : fault.guard = none) (left : steps < v.processor.maxSteps)
    (watched : List (UInt64 × UInt64)) :
    ∃ w, ((v.moved p c m).counted steps watched).turn = .error (.memoryFault fault) w := by
  obtain ⟨watched', step⟩ := step_effect (c := c) (m := m) fetch left watched
  rw [effect] at step
  exact ⟨_, (turn_of_fault step).trans (bind_error (handleFault_of_none none _))⟩

end

/-- One instruction that is fetched and does not fail. -/
theorem Arrives.instruction {i : Instruction UInt64} {e : Effect}
    (fetch : v.image.code.Fetches p i) (effect : i.effect { c with pc := p } m = .ok e)
    (goes : e.event = .next)
    (h : Arrives P turns (v.moved e.next (c.applyEffect e) (e.writes.foldl Machine.write m))) :
    Arrives P (turns + 1) (v.moved p c m) := by
  refine .turn (w := v.moved e.next (c.applyEffect e) (e.writes.foldl Machine.write m))
    (fun steps watched => ?_) ⟨fun quiet => quiet, rfl, rfl⟩ h
  rcases step_fetched (c := c) (m := m) fetch steps watched with
    cut | ⟨steps', watched', spent, step⟩
  · exact .inr cut
  · rw [effect] at step
    dsimp only at step
    rw [goes] at step
    exact .inl ⟨steps', watched', spent, turn_of_next step⟩

/-! ## Instructions on registers -/

section
variable {rd rn rm rt : Register} {vd vn vm : FloatRegister} {q n : UInt64}

theorem Arrives.movImm (fetch : v.image.code.Fetches p (.movImm rd n))
    (h : Arrives P turns (v.moved (p + 4) (c.setReg rd n) m)) :
    Arrives P (turns + 1) (v.moved p c m) :=
  .instruction fetch rfl rfl h

theorem Arrives.mov (fetch : v.image.code.Fetches p (.mov rd rn))
    (h : Arrives P turns (v.moved (p + 4) (c.setReg rd (c.reg rn)) m)) :
    Arrives P (turns + 1) (v.moved p c m) :=
  .instruction fetch rfl rfl h

theorem Arrives.binary {op : Binary} {o : Operand}
    (fetch : v.image.code.Fetches p (.binary op rd rn o))
    (h : Arrives P turns (v.moved (p + 4) (c.setReg rd (op.apply (c.reg rn) (c.operand o))) m)) :
    Arrives P (turns + 1) (v.moved p c m) :=
  .instruction fetch rfl rfl h

theorem Arrives.shiftLeft {k : UInt8} (fetch : v.image.code.Fetches p (.shiftLeft rd rn k))
    (h : Arrives P turns (v.moved (p + 4) (c.setReg rd (c.reg rn <<< k.toUInt64)) m)) :
    Arrives P (turns + 1) (v.moved p c m) :=
  .instruction fetch rfl rfl h

theorem Arrives.shiftRight {k : UInt8} (fetch : v.image.code.Fetches p (.shiftRight rd rn k))
    (h : Arrives P turns (v.moved (p + 4) (c.setReg rd (c.reg rn >>> k.toUInt64)) m)) :
    Arrives P (turns + 1) (v.moved p c m) :=
  .instruction fetch rfl rfl h

theorem Arrives.mul (fetch : v.image.code.Fetches p (.mul rd rn rm))
    (h : Arrives P turns (v.moved (p + 4) (c.setReg rd (c.reg rn * c.reg rm)) m)) :
    Arrives P (turns + 1) (v.moved p c m) :=
  .instruction fetch rfl rfl h

theorem Arrives.div (fetch : v.image.code.Fetches p (.div rd rn rm))
    (h : Arrives P turns (v.moved (p + 4)
      (c.setReg rd ((c.reg rn).toInt64 / (c.reg rm).toInt64).toUInt64) m)) :
    Arrives P (turns + 1) (v.moved p c m) :=
  .instruction fetch rfl rfl h

theorem Arrives.neg (fetch : v.image.code.Fetches p (.neg rd rn))
    (h : Arrives P turns (v.moved (p + 4) (c.setReg rd (0 - c.reg rn)) m)) :
    Arrives P (turns + 1) (v.moved p c m) :=
  .instruction fetch rfl rfl h

theorem Arrives.extend {k : Extension} (fetch : v.image.code.Fetches p (.extend k rd rn))
    (h : Arrives P turns (v.moved (p + 4) (c.setReg rd (k.apply (c.reg rn))) m)) :
    Arrives P (turns + 1) (v.moved p c m) :=
  .instruction fetch rfl rfl h

theorem Arrives.compare {o : Operand} (fetch : v.image.code.Fetches p (.compare rn o))
    (h : Arrives P turns (v.moved (p + 4) (c.setFlags (.ofCompare (c.reg rn) (c.operand o))) m)) :
    Arrives P (turns + 1) (v.moved p c m) :=
  .instruction fetch rfl rfl h

theorem Arrives.test {o : Operand} (fetch : v.image.code.Fetches p (.test rn o))
    (h : Arrives P turns (v.moved (p + 4) (c.setFlags (.ofTest (c.reg rn &&& c.operand o))) m)) :
    Arrives P (turns + 1) (v.moved p c m) :=
  .instruction fetch rfl rfl h

theorem Arrives.floatOfBits {k : Precision} (fetch : v.image.code.Fetches p (.floatOfBits vd rn k))
    (h : Arrives P turns (v.moved (p + 4) (c.setFloat vd (k.truncate (c.reg rn))) m)) :
    Arrives P (turns + 1) (v.moved p c m) :=
  .instruction fetch rfl rfl h

theorem Arrives.bitsOfFloat {k : Precision} (fetch : v.image.code.Fetches p (.bitsOfFloat rd vn k))
    (h : Arrives P turns (v.moved (p + 4) (c.setReg rd (k.truncate (c.float vn))) m)) :
    Arrives P (turns + 1) (v.moved p c m) :=
  .instruction fetch rfl rfl h

theorem Arrives.floatBinary {op : FloatBinary} {k : Precision}
    (fetch : v.image.code.Fetches p (.floatBinary op k vd vn vm))
    (h : Arrives P turns
      (v.moved (p + 4) (c.setFloat vd (op.apply k (c.float vn) (c.float vm))) m)) :
    Arrives P (turns + 1) (v.moved p c m) :=
  .instruction fetch rfl rfl h

theorem Arrives.barrier (fetch : v.image.code.Fetches p .barrier)
    (h : Arrives P turns (v.moved (p + 4) c m)) : Arrives P (turns + 1) (v.moved p c m) :=
  .instruction fetch rfl rfl h

theorem Arrives.select {k : Condition} (fetch : v.image.code.Fetches p (.select rd rn rm k))
    (h : Arrives P turns (v.moved (p + 4)
      (c.setReg rd (if k.holds c.flags then c.reg rn else c.reg rm)) m)) :
    Arrives P (turns + 1) (v.moved p c m) :=
  .instruction fetch rfl rfl h

/-! ## Branches -/

theorem Arrives.adr (fetch : v.image.code.Fetches p (.adr rd q))
    (h : Arrives P turns (v.moved (p + 4) (c.setReg rd q) m)) :
    Arrives P (turns + 1) (v.moved p c m) :=
  .instruction fetch rfl rfl h

theorem Arrives.branch (fetch : v.image.code.Fetches p (.branch q))
    (h : Arrives P turns (v.moved q c m)) : Arrives P (turns + 1) (v.moved p c m) :=
  .instruction fetch rfl rfl h

theorem Arrives.goIf {i : Instruction UInt64} {t : Bool} (fetch : v.image.code.Fetches p i)
    (effect : i.effect { c with pc := p } m = .ok { next := if t then q else p + 4 })
    (yes : t = true → Arrives P turns (v.moved q c m))
    (no : t = false → Arrives P turns (v.moved (p + 4) c m)) :
    Arrives P (turns + 1) (v.moved p c m) := by
  refine .instruction fetch effect rfl ?_
  cases t with
  | true => exact yes rfl
  | false => exact no rfl

theorem Arrives.branchIf {k : Condition} (fetch : v.image.code.Fetches p (.branchIf k q))
    (yes : k.holds c.flags = true → Arrives P turns (v.moved q c m))
    (no : k.holds c.flags = false → Arrives P turns (v.moved (p + 4) c m)) :
    Arrives P (turns + 1) (v.moved p c m) :=
  .goIf fetch rfl yes no

theorem Arrives.branchZero (fetch : v.image.code.Fetches p (.branchZero rt q))
    (yes : c.reg rt = 0 → Arrives P turns (v.moved q c m))
    (no : c.reg rt ≠ 0 → Arrives P turns (v.moved (p + 4) c m)) :
    Arrives P (turns + 1) (v.moved p c m) :=
  .goIf (t := c.reg rt == 0) fetch rfl (fun h => yes (by simpa using h))
    fun h => no (by simpa using h)

theorem Arrives.branchNonzero (fetch : v.image.code.Fetches p (.branchNonzero rt q))
    (yes : c.reg rt ≠ 0 → Arrives P turns (v.moved q c m))
    (no : c.reg rt = 0 → Arrives P turns (v.moved (p + 4) c m)) :
    Arrives P (turns + 1) (v.moved p c m) :=
  .goIf (t := c.reg rt != 0) fetch rfl (fun h => yes (by simpa using h))
    fun h => no (by simpa using h)

theorem Arrives.branchBitClear {k : UInt8} (fetch : v.image.code.Fetches p (.branchBitClear rt k q))
    (yes : (c.reg rt >>> k.toUInt64) &&& 1 = 0 → Arrives P turns (v.moved q c m))
    (no : (c.reg rt >>> k.toUInt64) &&& 1 ≠ 0 → Arrives P turns (v.moved (p + 4) c m)) :
    Arrives P (turns + 1) (v.moved p c m) :=
  .goIf (t := (c.reg rt >>> k.toUInt64) &&& 1 == 0) fetch rfl (fun h => yes (by simpa using h))
    fun h => no (by simpa using h)

theorem Arrives.branchBitSet {k : UInt8} (fetch : v.image.code.Fetches p (.branchBitSet rt k q))
    (yes : (c.reg rt >>> k.toUInt64) &&& 1 ≠ 0 → Arrives P turns (v.moved q c m))
    (no : (c.reg rt >>> k.toUInt64) &&& 1 = 0 → Arrives P turns (v.moved (p + 4) c m)) :
    Arrives P (turns + 1) (v.moved p c m) :=
  .goIf (t := (c.reg rt >>> k.toUInt64) &&& 1 != 0) fetch rfl (fun h => yes (by simpa using h))
    fun h => no (by simpa using h)

theorem Arrives.call (fetch : v.image.code.Fetches p (.call q))
    (h : Arrives P turns (v.moved q (c.setReg .link (p + 4)) m)) :
    Arrives P (turns + 1) (v.moved p c m) :=
  .instruction fetch rfl rfl h

theorem Arrives.branchTo (fetch : v.image.code.Fetches p (.branchTo rn))
    (h : Arrives P turns (v.moved (c.reg rn) c m)) : Arrives P (turns + 1) (v.moved p c m) :=
  .instruction fetch rfl rfl h

theorem Arrives.ret (fetch : v.image.code.Fetches p (.ret rn))
    (h : Arrives P turns (v.moved (c.reg rn) c m)) : Arrives P (turns + 1) (v.moved p c m) :=
  .instruction fetch rfl rfl h

theorem Arrives.callTo (fetch : v.image.code.Fetches p (.callTo rn))
    (h : Arrives P turns (v.moved (c.reg rn) (c.setReg .link (p + 4)) m)) :
    Arrives P (turns + 1) (v.moved p c m) :=
  .instruction fetch rfl rfl h

end
/-! ## Loads and stores -/

section
variable {rt r1 r2 rs rn : Register} {vt : FloatRegister} {addr : Address} {k : Width}
  {f : Precision}

/-- The effect of an instruction is found access by access. -/
theorem except_bind_ok {α β : Type} {x : Except Failure α} {f : α → Except Failure β} {a : α}
    {r : Except Failure β} (h : x = .ok a) (hr : f a = r) : (x >>= f) = r := by
  rw [h]
  exact hr

theorem except_bind_error {α β : Type} {x : Except Failure α} {f : α → Except Failure β} {e : Failure}
    (h : x = .error e) : (x >>= f) = .error e := by
  rw [h]
  rfl

theorem effect_load {signed : Bool} (ok : m.Open (c.target addr) k.bytes) :
    (Instruction.load rt addr k signed).effect { c with pc := p } m = .ok
      { next := p + 4
        registers := (c.address addr).2 ++ [(rt,
          if signed then k.signExtend (Memory.load m.bytes (c.target addr).toNat k.bytes.toNat)
          else Memory.load m.bytes (c.target addr).toNat k.bytes.toNat)] } := by
  have read := ok.readOr
  cases addr <;> exact except_bind_ok read rfl

theorem effect_load_fault {signed : Bool} {fault : MemoryFault}
    (h : m.fault? (c.target addr) k.bytes .read = some fault) :
    (Instruction.load rt addr k signed).effect { c with pc := p } m =
      .error (.memoryFault fault) := by
  have read : readOr m (c.target addr) k.bytes = .error (.memoryFault fault) := by
    rw [readOr, Guarded.read, h]
    rfl
  cases addr <;> exact except_bind_error read

theorem effect_store_fault {fault : MemoryFault}
    (h : m.fault? (c.target addr) k.bytes .write = some fault) :
    (Instruction.store rt addr k).effect { c with pc := p } m = .error (.memoryFault fault) := by
  have check : checkWrite m (c.target addr) k.bytes = .error (.memoryFault fault) := by
    rw [checkWrite, h]
  cases addr <;> exact except_bind_error check

theorem effect_loadFloat_fault {fault : MemoryFault}
    (h : m.fault? (c.target addr) f.bytes .read = some fault) :
    (Instruction.loadFloat vt addr f).effect { c with pc := p } m =
      .error (.memoryFault fault) := by
  have read : readOr m (c.target addr) f.bytes = .error (.memoryFault fault) := by
    rw [readOr, Guarded.read, h]
    rfl
  cases addr <;> exact except_bind_error read

theorem effect_storeFloat_fault {fault : MemoryFault}
    (h : m.fault? (c.target addr) f.bytes .write = some fault) :
    (Instruction.storeFloat vt addr f).effect { c with pc := p } m =
      .error (.memoryFault fault) := by
  have check : checkWrite m (c.target addr) f.bytes = .error (.memoryFault fault) := by
    rw [checkWrite, h]
  cases addr <;> exact except_bind_error check

theorem Arrives.load (fetch : v.image.code.Fetches p (.load rt addr k false))
    (ok : m.Open (c.target addr) k.bytes)
    (h : Arrives P turns (v.moved (p + 4) ((c.rebase addr).setReg rt
      (Memory.load m.bytes (c.target addr).toNat k.bytes.toNat)) m)) :
    Arrives P (turns + 1) (v.moved p c m) := by
  refine .instruction fetch (effect_load ok) rfl ?_
  rw [Cpu.applyEffect_append]
  exact h

theorem Arrives.loadSigned (fetch : v.image.code.Fetches p (.load rt addr k true))
    (ok : m.Open (c.target addr) k.bytes)
    (h : Arrives P turns (v.moved (p + 4) ((c.rebase addr).setReg rt
      (k.signExtend (Memory.load m.bytes (c.target addr).toNat k.bytes.toNat))) m)) :
    Arrives P (turns + 1) (v.moved p c m) := by
  refine .instruction fetch (effect_load ok) rfl ?_
  rw [Cpu.applyEffect_append]
  exact h

theorem Arrives.store (fetch : v.image.code.Fetches p (.store rt addr k))
    (ok : m.Open (c.target addr) k.bytes)
    (h : Arrives P turns
      (v.moved (p + 4) (c.rebase addr) (m.put (c.target addr) k.bytes (c.reg rt)))) :
    Arrives P (turns + 1) (v.moved p c m) := by
  have check := ok.checkWrite
  refine .instruction (e := { next := p + 4, registers := (c.address addr).2
                              writes := [⟨c.target addr, k.bytes, c.reg rt⟩] }) fetch ?_ rfl ?_
  · cases addr <;> exact except_bind_ok check rfl
  · exact h

/-- What lies at an offset from a register is loaded. -/
theorem Arrives.loadAt {b : Register} {s d x : UInt64} {j : Nat} (own : c.reg b = s)
    (fetch : v.image.code.Fetches p (.load rt (.base b d) k false)) (address : (s + d).toNat = j)
    (ok : m.Open (s + d) k.bytes) (holds : Memory.load m.bytes j k.bytes.toNat = x)
    (h : Arrives P turns (v.moved (p + 4) (c.setReg rt x) m)) :
    Arrives P (turns + 1) (v.moved p c m) := by
  refine .load fetch ?_ ?_
  · rw [Cpu.target_base, own]
    exact ok
  · rw [Cpu.target_base, Cpu.rebase_base, own, address, holds]
    exact h

/-- A register is stored at an offset from another one. -/
theorem Arrives.storeAt {b : Register} {s d : UInt64} (own : c.reg b = s)
    (fetch : v.image.code.Fetches p (.store rt (.base b d) k)) (ok : m.Open (s + d) k.bytes)
    (h : Arrives P turns (v.moved (p + 4) c (m.put (s + d) k.bytes (c.reg rt)))) :
    Arrives P (turns + 1) (v.moved p c m) := by
  refine .store fetch ?_ ?_
  · rw [Cpu.target_base, own]
    exact ok
  · rw [Cpu.target_base, Cpu.rebase_base, own]
    exact h

theorem Arrives.loadFloat (fetch : v.image.code.Fetches p (.loadFloat vt addr f))
    (ok : m.Open (c.target addr) f.bytes)
    (h : Arrives P turns (v.moved (p + 4) ((c.rebase addr).setFloat vt
      (Memory.load m.bytes (c.target addr).toNat f.bytes.toNat)) m)) :
    Arrives P (turns + 1) (v.moved p c m) := by
  have read := ok.readOr
  refine .instruction (e := { next := p + 4, registers := (c.address addr).2, floats := [(vt,
    Memory.load m.bytes (c.target addr).toNat f.bytes.toNat)] }) fetch ?_ rfl ?_
  · cases addr <;> exact except_bind_ok read rfl
  · exact h

theorem Arrives.storeFloat (fetch : v.image.code.Fetches p (.storeFloat vt addr f))
    (ok : m.Open (c.target addr) f.bytes)
    (h : Arrives P turns
      (v.moved (p + 4) (c.rebase addr) (m.put (c.target addr) f.bytes (c.float vt)))) :
    Arrives P (turns + 1) (v.moved p c m) := by
  have check := ok.checkWrite
  refine .instruction (e := { next := p + 4, registers := (c.address addr).2
                              writes := [⟨c.target addr, f.bytes, c.float vt⟩] }) fetch ?_ rfl ?_
  · cases addr <;> exact except_bind_ok check rfl
  · exact h

theorem Arrives.loadPair (fetch : v.image.code.Fetches p (.loadPair r1 r2 addr))
    (ok₁ : m.Open (c.target addr) 8) (ok₂ : m.Open (c.target addr + 8) 8)
    (h : Arrives P turns (v.moved (p + 4) (((c.rebase addr).setReg r1
      (Memory.load m.bytes (c.target addr).toNat 8)).setReg r2
        (Memory.load m.bytes (c.target addr + 8).toNat 8)) m)) :
    Arrives P (turns + 1) (v.moved p c m) := by
  have read₁ := ok₁.readOr
  have read₂ := ok₂.readOr
  refine .instruction (e := { next := p + 4, registers := (c.address addr).2 ++
    [(r1, Memory.load m.bytes (c.target addr).toNat 8),
      (r2, Memory.load m.bytes (c.target addr + 8).toNat 8)] }) fetch ?_ rfl ?_
  · cases addr <;> exact except_bind_ok read₁ (except_bind_ok read₂ rfl)
  · rw [Cpu.applyEffect_append]
    exact h

theorem Arrives.storePair (fetch : v.image.code.Fetches p (.storePair r1 r2 addr))
    (ok₁ : m.Open (c.target addr) 8) (ok₂ : m.Open (c.target addr + 8) 8)
    (h : Arrives P turns (v.moved (p + 4) (c.rebase addr)
      ((m.put (c.target addr) 8 (c.reg r1)).put (c.target addr + 8) 8 (c.reg r2)))) :
    Arrives P (turns + 1) (v.moved p c m) := by
  have check := ok₁.checkWrite
  have read := ok₂.readOr
  refine .instruction (e := { next := p + 4, registers := (c.address addr).2, writes :=
    [⟨c.target addr, 8, c.reg r1⟩, ⟨c.target addr + 8, 8, c.reg r2⟩] }) fetch ?_ rfl ?_
  · cases addr <;> exact except_bind_ok read (except_bind_ok check rfl)
  · exact h

/-- Two words are pushed on the stack of the machine. -/
theorem Arrives.pushPair {n : UInt64} {lo hi : Nat} (fetch : v.image.code.Fetches p
      (.storePair r1 r2 (.pre .sp (-16)))) (sp : c.reg .sp = n + 16)
    (clear : m.Clear lo hi) (low : lo ≤ n.toNat) (high : n.toNat + 16 ≤ hi)
    (bound : n.toNat + 16 ≤ 2 ^ 64)
    (h : ∀ m', m.Changed m' n.toNat (n.toNat + 16) → Memory.load m'.bytes n.toNat 8 = c.reg r1 →
      Memory.load m'.bytes (n.toNat + 8) 8 = c.reg r2 →
      Arrives P turns (v.moved (p + 4) (c.setReg .sp n) m')) :
    Arrives P (turns + 1) (v.moved p c m) := by
  have eight : (8 : UInt64).toNat = 8 := rfl
  have first : c.reg .sp + -16 = n := by
    rw [sp, UInt64.add_assoc]
    exact UInt64.add_zero n
  have second : (n + 8).toNat = n.toNat + 8 := toNat_add_of_lt (by omega)
  have open₁ : m.Open n 8 := clear.open (by omega) (by omega)
  have open₂ : m.Open (n + 8) 8 := clear.open (by omega) (by omega)
  refine .storePair fetch ?_ ?_ ?_
  · rw [Cpu.target_pre, first]
    exact open₁
  · rw [Cpu.target_pre, first]
    exact open₂
  rw [Cpu.target_pre, Cpu.rebase_pre, first]
  refine h _ ?_ ?_ ?_
  · exact ((Guarded.Changed.refl m _ _).put (by omega) (by omega)).put (by omega) (by omega)
  · rw [Guarded.load_put_of_disjoint (by omega), Guarded.load_put open₁]
  · rw [← second, Guarded.load_put open₂.put]

theorem Arrives.fetchAdd (fetch : v.image.code.Fetches p (.fetchAdd rs rt rn k))
    (ok : m.Open (c.reg rn) k.bytes)
    (h : Arrives P turns (v.moved (p + 4)
      (c.setReg rt (Memory.load m.bytes (c.reg rn).toNat k.bytes.toNat))
      (m.put (c.reg rn) k.bytes
        (Memory.load m.bytes (c.reg rn).toNat k.bytes.toNat + c.reg rs)))) :
    Arrives P (turns + 1) (v.moved p c m) := by
  have check := ok.checkWrite
  have read := ok.readOr
  refine .instruction (e := {
    next := p + 4
    registers := [(rt, Memory.load m.bytes (c.reg rn).toNat k.bytes.toNat)]
    writes := [⟨c.reg rn, k.bytes,
      Memory.load m.bytes (c.reg rn).toNat k.bytes.toNat + c.reg rs⟩] }) fetch ?_ rfl ?_
  · exact except_bind_ok read (except_bind_ok check rfl)
  · exact h

end

/-! ## Leaving the code -/

/-- A breakpoint that the settings ask for ends the run. -/
theorem Arrives.breakpoint {tag : UInt16} (fetch : v.image.code.Fetches p (.breakpoint tag))
    (ok : m.Open Place.bytecodeCounter 8) (asked : v.image.settings.stopAt ≠ 0) :
    Arrives P (turns + 1) (v.moved p c m) := by
  refine fun _ steps watched => ?_
  rcases step_fetched (c := c) (m := m) fetch steps watched with
    ⟨failure, w, failed, cut⟩ | ⟨steps', watched', -, step⟩
  · exact .cut failed cut
  · have effect : (Instruction.breakpoint tag).effect { c with pc := p } m = .error (.breakpoint p
        (Memory.load m.bytes Place.bytecodeCounter.toNat 8)) := by
      exact except_bind_ok ok.readOr rfl
    rw [effect] at step
    exact .cut (turn_of_failure step nofun) (.breakpoint _ _ asked)

/-- The turn at a call of the host is the call. -/
theorem turn_callNative {target format : Register}
    (fetch : v.image.code.Fetches p (.callNative target format)) (steps : UInt64)
    (watched : List (UInt64 × UInt64)) :
    (∃ failure w, ((v.moved p c m).counted steps watched).turn = .error failure w ∧
      ((v.moved p c m).counted steps watched).Cut failure) ∨
      ∃ steps' watched', steps'.toNat ≤ steps.toNat + 1 ∧
        ((v.moved p c m).counted steps watched).turn =
          (callNative (c.reg target) (c.reg format).toUInt32 >>= fun _ => pure true)
            ((v.moved (p + 4) c m).counted steps' watched') := by
  rcases step_fetched (c := c) (m := m) fetch steps watched with
    cut | ⟨steps', watched', spent, step⟩
  · exact .inl cut
  · exact .inr ⟨steps', watched', spent, turn_of_native step⟩

theorem ofAddress?_address (s : Service) : Place.isRuntime s.address = true ∧
    s.address ≠ Place.hostReturn ∧ Service.ofAddress? s.address = some s := by
  cases s <;> decide

/-- At the address of a service the turn is the service. -/
theorem turn_service (s : Service) (steps : UInt64) (watched : List (UInt64 × UInt64)) :
    ((v.moved s.address c m).counted steps watched).turn =
      (serve s >>= fun _ => pure true) ((v.moved s.address c m).counted steps watched) := by
  obtain ⟨runtime, host, found⟩ := ofAddress?_address s
  have step : Machine.step v.image.code ((v.moved s.address c m).counted steps watched).machine =
      .ok (.service s) ((v.moved s.address c m).counted steps watched).machine := by
    simp only [Machine.step, machine, counted, Vm.moved, host, runtime, ↓reduceIte, found]
  exact turn_of_service step

/-- A service that does the same for all counts. -/
theorem Arrives.service {s : Service}
    (served : ∀ steps watched, serve s ((v.moved s.address c m).counted steps watched) =
      .ok () (w.counted steps watched))
    (abides : v.Abides w) (h : Arrives P turns w) :
    Arrives P (turns + 1) (v.moved s.address c m) := by
  refine .turn (w := w) (fun steps watched => .inl ⟨steps, watched, Nat.le_succ _, ?_⟩)
    abides.of_moved h
  rw [turn_service]
  exact (bind_ok (served steps watched)).trans rfl

/-- An instruction that faults has no effect but what is done about the fault. -/
theorem Arrives.fault {i : Instruction UInt64} {fault : MemoryFault}
    (fetch : v.image.code.Fetches p i)
    (effect : i.effect { c with pc := p } m = .error (.memoryFault fault))
    (handled : ∀ steps watched, handleFault fault ((v.moved p c m).counted steps watched) =
      .ok () (w.counted steps watched))
    (abides : v.Abides w) (h : Arrives P turns w) : Arrives P (turns + 1) (v.moved p c m) := by
  refine .turn (w := w) (fun steps watched => ?_) abides.of_moved h
  rcases step_fetched (c := c) (m := m) fetch steps watched with
    cut | ⟨steps', watched', spent, step⟩
  · exact .inr cut
  · rw [effect] at step
    exact .inl ⟨steps', watched', spent,
      (turn_of_fault step).trans (bind_ok (handled steps' watched'))⟩

end Vm
end TemplateVm
