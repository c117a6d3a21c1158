import TemplateVm.Proofs.Machine.Steps
import TemplateVm.Proofs.Results

set_option autoImplicit false

/-!
# How often an instruction is executed

A watched address counts how often the instruction there was executed. `Counts k i Q turns v` says
that within so many turns the machine comes to a state with `Q n` while the instruction `i` at the
address `k` is executed `n` times, unless it gets stuck on the way: what becomes of a failure is not
followed.
There is a rule for each instruction, as for `Arrives`, but that loads and stores may fault. Only
the counted instruction itself adds to the count.
-/
namespace TemplateVm

open Memory (Guarded load)

/-! ## Counts of a processor -/

/-- The count of an address, if it is watched. -/
def hits (watched : List (UInt64 × UInt64)) (k : UInt64) : Option UInt64 :=
  (watched.find? (·.1 = k)).map (·.2)

/-- The watched addresses with their counts after an instruction at `pc`. -/
def tally (pc : UInt64) (watched : List (UInt64 × UInt64)) : List (UInt64 × UInt64) :=
  watched.map fun (a, n) => if a = pc then (a, n + 1) else (a, n)

theorem Processor.count_eq (p : Processor) (pc : UInt64) :
    p.count pc = { p with steps := p.steps + 1, watched := tally pc p.watched } := by
  unfold count tally
  cases p.watched <;> rfl

theorem hits_cons (a n k : UInt64) (watched : List (UInt64 × UInt64)) :
    hits ((a, n) :: watched) k = if a = k then some n else hits watched k := by
  unfold hits
  by_cases same : a = k <;> simp [same]

theorem hits_tally (pc k : UInt64) (watched : List (UInt64 × UInt64)) :
    hits (tally pc watched) k =
      if pc = k then (hits watched k).map (· + 1) else hits watched k := by
  induction watched with
  | nil => simp [hits, tally]
  | cons x watched ih =>
    obtain ⟨a, n⟩ := x
    have first : tally pc ((a, n) :: watched) =
        (a, if a = pc then n + 1 else n) :: tally pc watched := by
      by_cases here : a = pc <;> simp [tally, here]
    rw [first, hits_cons, hits_cons, ih]
    by_cases same : a = k
    · subst same
      by_cases here : a = pc
      · simp [here]
      · simp [here, Ne.symm here]
    · simp [same]

namespace Vm

/-! ## Runs with a count -/

/-- The machine cannot take its next turn without a failure: the next instruction faults, or the
    service that is called gives up. -/
inductive Stuck (v : Vm) : Prop
  | instruction {i : Instruction UInt64} {e : Failure}
    (fetch : v.image.code.Fetches v.processor.cpu.pc i)
    (fails : i.effect v.processor.cpu v.world.store.mem = .error e) : v.Stuck
  | service {s : Service} {e : Failure} {w : Vm} (here : v.processor.cpu.pc = s.address)
    (fails : serve s v = .error e w) : v.Stuck

/-- The state has the property of a number by which the count of the address has grown. -/
def Counted (k : UInt64) (before : Option UInt64) (Q : Nat → Vm → Prop) (w : Vm) : Prop :=
  ∃ n w' steps watched, Q n w' ∧ w = w'.counted steps watched ∧
    hits watched k = before.map (· + n.toUInt64)

/-- Whatever has been counted so far, within so many turns the machine gets stuck, or it comes to a
    state with the property of the number of times that the instruction at the address is executed,
    or to a limit. -/
def Counts (k : UInt64) (i : Instruction UInt64) (Q : Nat → Vm → Prop) (turns : Nat) (v : Vm) :
    Prop :=
  v.image.code.Fetches k i → v.Quiet → ∀ steps watched,
    Leads (fun w => w.Stuck ∨ Counted k (hits watched k) Q w) turns (v.counted steps watched)

variable {turns others : Nat} {k : UInt64} {j : Instruction UInt64} {Q R : Nat → Vm → Prop}
  {v w : Vm} {p q n : UInt64} {c : Cpu} {m : Guarded}

theorem Counted.add {before : Option UInt64} {t : Nat}
    (h : Counted k (before.map (· + t.toUInt64)) (fun n => Q (n + t)) w) : Counted k before Q w := by
  obtain ⟨n, w', steps, watched, holds, same, grown⟩ := h
  refine ⟨n + t, w', steps, watched, holds, same, grown.trans ?_⟩
  have sum : (n + t).toUInt64 = t.toUInt64 + n.toUInt64 := by
    rw [UInt64.add_comm]
    exact UInt64.ofNat_add n t
  cases before with
  | none => rfl
  | some x => simp [sum, UInt64.add_assoc]

namespace Counts

theorem here (h : Q 0 v) : Counts k j Q turns v := fun _ _ steps watched =>
  .here (.inr ⟨0, v, steps, watched, h, rfl, by cases hits watched k <;> simp⟩)

theorem le (h : Counts k j Q others v) (le : others ≤ turns) : Counts k j Q turns v :=
  fun fetch quiet steps watched => (h fetch quiet steps watched).le le

theorem mono (h : Counts k j Q turns v) (hqr : ∀ n w, Q n w → R n w) : Counts k j R turns v :=
  fun fetch quiet steps watched => (h fetch quiet steps watched).mono fun _ =>
    Or.imp_right fun ⟨n, w', s, t, hq, rest⟩ => ⟨n, w', s, t, hqr n w' hq, rest⟩

/-- A turn that adds to the count is followed by the rest. -/
theorem turn {t : Nat} (step : ∀ steps watched,
      (∃ failure w, (v.counted steps watched).turn = .error failure w ∧
        (v.counted steps watched).Cut failure) ∨
      (v.counted steps watched).Stuck ∨
      ∃ w steps' watched', steps'.toNat ≤ steps.toNat + 1 ∧
        (v.counted steps watched).turn = .ok true (w.counted steps' watched') ∧
        hits watched' k = (hits watched k).map (· + t.toUInt64) ∧ v.Abides w ∧
        w.image = v.image ∧ Counts k j (fun n => Q (n + t)) turns w) :
    Counts k j Q (turns + 1) v :=
  fun fetch quiet steps watched => by
    rcases step steps watched with ⟨failure, w, failed, cut⟩ | stuck |
      ⟨w, steps', watched', spent, goes, grown, abides, image, next⟩
    · exact .cut failed cut
    · exact .here (.inl stuck)
    · refine .turn goes (abides.quiet quiet) ⟨spent, abides.maxSteps, abides.stopAt⟩
        ((next (image ▸ fetch) (abides.quiet quiet) steps' watched').mono ?_)
      exact fun w => Or.imp_right fun counted => .add (grown ▸ counted)

end Counts

/-- A step at an address with an instruction counts it, unless the turn meets the limit. -/
theorem step_tallied {i : Instruction UInt64} (fetch : v.image.code.Fetches p i)
    (steps : UInt64) (watched : List (UInt64 × UInt64)) :
    (∃ failure w, ((v.moved p c m).counted steps watched).turn = .error failure w ∧
      ((v.moved p c m).counted steps watched).Cut failure) ∨
      Machine.step v.image.code ((v.moved p c m).counted steps watched).machine =
        match i.effect { c with pc := p } m with
        | .error failure => .error failure
            ((v.moved p c m).counted (steps + 1) (tally p watched)).machine
        | .ok e => .ok e.event ((v.moved e.next (c.applyEffect e)
            (e.writes.foldl Machine.write m)).counted (steps + 1) (tally p watched)).machine := by
  obtain ⟨host, runtime⟩ := below_codeLimit fetch.2
  by_cases limit : v.processor.maxSteps ≤ steps
  · exact .inl (turn_spent fetch limit watched)
  · refine .inr ?_
    simp only [Machine.step, machine, counted, Vm.moved, host, runtime, limit, fetch.1, ↓reduceIte,
      Bool.false_eq_true, Processor.count_eq]
    cases i.effect { c with pc := p } m with
    | error failure => rfl
    | ok e =>
      dsimp only
      rw [Cpu.applyEffect_pc]

/-- One instruction, which either adds to the count or is another one. -/
theorem Counts.step {i : Instruction UInt64} {t : Nat} (fetch : v.image.code.Fetches p i)
    (counted : ∀ watched : List (UInt64 × UInt64),
      hits (tally p watched) k = (hits watched k).map (· + t.toUInt64))
    (goes : ∀ e, i.effect { c with pc := p } m = .ok e → e.event = .next ∧
      Counts k j (fun n => Q (n + t)) turns
        (v.moved e.next (c.applyEffect e) (e.writes.foldl Machine.write m))) :
    Counts k j Q (turns + 1) (v.moved p c m) := by
  refine .turn (t := t) fun steps watched => ?_
  rcases step_tallied (c := c) (m := m) fetch steps watched with cut | step
  · exact .inl cut
  cases effect : i.effect { c with pc := p } m with
  | error failure => exact .inr (.inl (.instruction fetch effect))
  | ok e =>
    obtain ⟨next, rest⟩ := goes e effect
    refine .inr (.inr ⟨v.moved e.next (c.applyEffect e) (e.writes.foldl Machine.write m), steps + 1,
      tally p watched, ?_, ?_, counted watched, ⟨fun h => h, rfl, rfl⟩, rfl, rest⟩)
    · rw [UInt64.toNat_add]
      exact Nat.mod_le _ _
    rw [effect] at step
    dsimp only at step
    rw [next] at step
    exact turn_of_next step

/-- An instruction that is not the counted one. -/
theorem Counts.instruction {i : Instruction UInt64} (other : i ≠ j)
    (fetch : v.image.code.Fetches p i)
    (goes : ∀ e, i.effect { c with pc := p } m = .ok e → e.event = .next ∧
      Counts k j Q turns (v.moved e.next (c.applyEffect e) (e.writes.foldl Machine.write m))) :
    Counts k j Q (turns + 1) (v.moved p c m) := by
  intro fetched
  refine Counts.step (t := 0) fetch (fun watched => ?_) goes fetched
  have apart : p ≠ k := fun same => other (Option.some.inj
    ((fetch.1.symm.trans (congrArg v.image.code.instruction? same)).trans fetched.1))
  rw [hits_tally, if_neg apart]
  cases hits watched k <;> simp

/-- The counted instruction. -/
theorem Counts.once (fetch : v.image.code.Fetches k j)
    (goes : ∀ e, j.effect { c with pc := k } m = .ok e → e.event = .next ∧
      Counts k j (fun n => Q (n + 1)) turns
        (v.moved e.next (c.applyEffect e) (e.writes.foldl Machine.write m))) :
    Counts k j Q (turns + 1) (v.moved k c m) :=
  .step (t := 1) fetch (fun watched => by rw [hits_tally, if_pos rfl]; rfl) goes

/-- One instruction that cannot fail. -/
theorem Counts.plain {i : Instruction UInt64} {e : Effect} (other : i ≠ j)
    (fetch : v.image.code.Fetches p i) (effect : i.effect { c with pc := p } m = .ok e)
    (event : e.event = .next)
    (h : Counts k j Q turns (v.moved e.next (c.applyEffect e) (e.writes.foldl Machine.write m))) :
    Counts k j Q (turns + 1) (v.moved p c m) :=
  .instruction other fetch fun e' he => by
    cases effect.symm.trans he
    exact ⟨event, h⟩

/-- A service that, where it is done, goes on at the link register. -/
theorem Counts.service {s : Service} (served : ∀ steps watched u,
      serve s ((v.moved s.address c m).counted steps watched) = .ok () u →
      ∃ w, u = w.counted steps watched ∧ v.Abides w ∧ w.image = v.image ∧
        Counts k j Q turns w) : Counts k j Q (turns + 1) (v.moved s.address c m) := by
  refine .turn (t := 0) fun steps watched => .inr ?_
  cases ran : serve s ((v.moved s.address c m).counted steps watched) with
  | error e u => exact .inl (.service rfl ran)
  | ok x u =>
    obtain ⟨w, rfl, abides, image, rest⟩ := served steps watched u ran
    refine .inr ⟨w, steps, watched, Nat.le_succ _, ?_, by cases hits watched k <;> simp,
      abides.of_moved, image, rest⟩
    rw [turn_service]
    exact (bind_ok ran).trans rfl

/-! ## Rules -/

namespace Counts

section
variable {rd rn rt r1 r2 : Register} {addr : Address} {width : Width} {o : Operand}

theorem movImm (fetch : v.image.code.Fetches p (.movImm rd n)) (other : .movImm rd n ≠ j)
    (h : Counts k j Q turns (v.moved (p + 4) (c.setReg rd n) m)) :
    Counts k j Q (turns + 1) (v.moved p c m) :=
  .plain other fetch rfl rfl h

theorem mov (fetch : v.image.code.Fetches p (.mov rd rn)) (other : .mov rd rn ≠ j)
    (h : Counts k j Q turns (v.moved (p + 4) (c.setReg rd (c.reg rn)) m)) :
    Counts k j Q (turns + 1) (v.moved p c m) :=
  .plain other fetch rfl rfl h

theorem binary {op : Binary} (fetch : v.image.code.Fetches p (.binary op rd rn o))
    (other : .binary op rd rn o ≠ j)
    (h : Counts k j Q turns (v.moved (p + 4) (c.setReg rd (op.apply (c.reg rn) (c.operand o))) m)) :
    Counts k j Q (turns + 1) (v.moved p c m) :=
  .plain other fetch rfl rfl h

theorem compare (fetch : v.image.code.Fetches p (.compare rn o)) (other : .compare rn o ≠ j)
    (h : Counts k j Q turns
      (v.moved (p + 4) (c.setFlags (.ofCompare (c.reg rn) (c.operand o))) m)) :
    Counts k j Q (turns + 1) (v.moved p c m) :=
  .plain other fetch rfl rfl h

theorem test (fetch : v.image.code.Fetches p (.test rn o)) (other : .test rn o ≠ j)
    (h : Counts k j Q turns (v.moved (p + 4) (c.setFlags (.ofTest (c.reg rn &&& c.operand o))) m)) :
    Counts k j Q (turns + 1) (v.moved p c m) :=
  .plain other fetch rfl rfl h

theorem adr (fetch : v.image.code.Fetches p (.adr rd q)) (other : .adr rd q ≠ j)
    (h : Counts k j Q turns (v.moved (p + 4) (c.setReg rd q) m)) :
    Counts k j Q (turns + 1) (v.moved p c m) :=
  .plain other fetch rfl rfl h

theorem branch (fetch : v.image.code.Fetches p (.branch q)) (other : .branch q ≠ j)
    (h : Counts k j Q turns (v.moved q c m)) : Counts k j Q (turns + 1) (v.moved p c m) :=
  .plain other fetch rfl rfl h

theorem branchTo (fetch : v.image.code.Fetches p (.branchTo rn)) (other : .branchTo rn ≠ j)
    (h : Counts k j Q turns (v.moved (c.reg rn) c m)) : Counts k j Q (turns + 1) (v.moved p c m) :=
  .plain other fetch rfl rfl h

theorem callTo (fetch : v.image.code.Fetches p (.callTo rn)) (other : .callTo rn ≠ j)
    (h : Counts k j Q turns (v.moved (c.reg rn) (c.setReg .link (p + 4)) m)) :
    Counts k j Q (turns + 1) (v.moved p c m) :=
  .plain other fetch rfl rfl h

/-- The machine does not go on. -/
theorem stop {reason : String} (fetch : v.image.code.Fetches p (.stop reason))
    (other : .stop reason ≠ j) : Counts k j Q (turns + 1) (v.moved p c m) :=
  .instruction other fetch fun _ failed => nomatch failed

theorem goIf {i : Instruction UInt64} {t : Bool} (other : i ≠ j)
    (fetch : v.image.code.Fetches p i)
    (effect : i.effect { c with pc := p } m = .ok { next := if t then q else p + 4 })
    (yes : t = true → Counts k j Q turns (v.moved q c m))
    (no : t = false → Counts k j Q turns (v.moved (p + 4) c m)) :
    Counts k j Q (turns + 1) (v.moved p c m) := by
  refine .plain other fetch effect rfl ?_
  cases t with
  | true => exact yes rfl
  | false => exact no rfl

theorem branchIf {cond : Condition} (fetch : v.image.code.Fetches p (.branchIf cond q))
    (other : .branchIf cond q ≠ j) (yes : cond.holds c.flags = true →
      Counts k j Q turns (v.moved q c m))
    (no : cond.holds c.flags = false → Counts k j Q turns (v.moved (p + 4) c m)) :
    Counts k j Q (turns + 1) (v.moved p c m) :=
  .goIf other fetch rfl yes no

theorem branchZero (fetch : v.image.code.Fetches p (.branchZero rt q))
    (other : .branchZero rt q ≠ j) (yes : c.reg rt = 0 → Counts k j Q turns (v.moved q c m))
    (no : c.reg rt ≠ 0 → Counts k j Q turns (v.moved (p + 4) c m)) :
    Counts k j Q (turns + 1) (v.moved p c m) :=
  .goIf (t := c.reg rt == 0) other fetch rfl (fun h => yes (by simpa using h))
    fun h => no (by simpa using h)

theorem branchNonzero (fetch : v.image.code.Fetches p (.branchNonzero rt q))
    (other : .branchNonzero rt q ≠ j) (yes : c.reg rt ≠ 0 → Counts k j Q turns (v.moved q c m))
    (no : c.reg rt = 0 → Counts k j Q turns (v.moved (p + 4) c m)) :
    Counts k j Q (turns + 1) (v.moved p c m) :=
  .goIf (t := c.reg rt != 0) other fetch rfl (fun h => yes (by simpa using h))
    fun h => no (by simpa using h)

theorem branchBitClear {bit : UInt8} (fetch : v.image.code.Fetches p (.branchBitClear rt bit q))
    (other : .branchBitClear rt bit q ≠ j)
    (yes : (c.reg rt >>> bit.toUInt64) &&& 1 = 0 → Counts k j Q turns (v.moved q c m))
    (no : (c.reg rt >>> bit.toUInt64) &&& 1 ≠ 0 → Counts k j Q turns (v.moved (p + 4) c m)) :
    Counts k j Q (turns + 1) (v.moved p c m) :=
  .goIf (t := (c.reg rt >>> bit.toUInt64) &&& 1 == 0) other fetch rfl
    (fun h => yes (by simpa using h)) fun h => no (by simpa using h)

theorem branchBitSet {bit : UInt8} (fetch : v.image.code.Fetches p (.branchBitSet rt bit q))
    (other : .branchBitSet rt bit q ≠ j)
    (yes : (c.reg rt >>> bit.toUInt64) &&& 1 ≠ 0 → Counts k j Q turns (v.moved q c m))
    (no : (c.reg rt >>> bit.toUInt64) &&& 1 = 0 → Counts k j Q turns (v.moved (p + 4) c m)) :
    Counts k j Q (turns + 1) (v.moved p c m) :=
  .goIf (t := (c.reg rt >>> bit.toUInt64) &&& 1 != 0) other fetch rfl
    (fun h => yes (by simpa using h)) fun h => no (by simpa using h)

end
end Counts

/-! ## Loads and stores -/

section
variable {rt r1 r2 : Register} {addr : Address} {width : Width} {e : Effect}

/-- What a load does that does not fault. -/
theorem of_effect_load
    (h : (Instruction.load rt addr width false).effect { c with pc := p } m = .ok e) :
    m.Open (c.target addr) width.bytes ∧ e =
      { next := p + 4
        registers := (c.address addr).2 ++
          [(rt, load m.bytes (c.target addr).toNat width.bytes.toNat)] } := by
  cases faults : m.fault? (c.target addr) width.bytes .read with
  | some fault =>
    rw [effect_load_fault faults] at h
    cases h
  | none =>
    have ok : m.Open (c.target addr) width.bytes := .of_fault? faults
    exact ⟨ok, (Except.ok.inj ((effect_load ok).symm.trans h)).symm⟩

/-- What a store does that does not fault. -/
theorem of_effect_store
    (h : (Instruction.store rt addr width).effect { c with pc := p } m = .ok e) :
    m.Open (c.target addr) width.bytes ∧ e =
      { next := p + 4
        registers := (c.address addr).2
        writes := [⟨c.target addr, width.bytes, c.reg rt⟩] } := by
  cases faults : m.fault? (c.target addr) width.bytes .write with
  | some fault =>
    rw [effect_store_fault faults] at h
    cases h
  | none =>
    have ok : m.Open (c.target addr) width.bytes := .of_fault? faults
    have check := ok.checkWrite
    refine ⟨ok, ?_⟩
    have effect : (Instruction.store rt addr width).effect { c with pc := p } m = .ok
        { next := p + 4, registers := (c.address addr).2
          writes := [⟨c.target addr, width.bytes, c.reg rt⟩] } := by
      cases addr <;> exact except_bind_ok check rfl
    exact (Except.ok.inj (effect.symm.trans h)).symm

/-- What a store of two words does that does not fault. -/
theorem of_effect_storePair
    (h : (Instruction.storePair r1 r2 addr).effect { c with pc := p } m = .ok e) :
    m.Open (c.target addr) 8 ∧ m.Open (c.target addr + 8) 8 ∧ e =
      { next := p + 4
        registers := (c.address addr).2
        writes := [⟨c.target addr, 8, c.reg r1⟩, ⟨c.target addr + 8, 8, c.reg r2⟩] } := by
  have run : (readOr m (c.target addr + 8) 8 >>= fun _ => checkWrite m (c.target addr) 8 >>=
      fun _ => (pure { next := p + 4
                       registers := (c.address addr).2
                       writes := [⟨c.target addr, 8, c.reg r1⟩,
                         ⟨c.target addr + 8, 8, c.reg r2⟩] } : Except Failure Effect)) = .ok e := by
    rw [← h]
    cases addr <;> rfl
  obtain ⟨_, read, run⟩ := TemplateVm.ok_of_bind run
  obtain ⟨_, check, run⟩ := TemplateVm.ok_of_bind run
  refine ⟨?_, .of_readOr read, (Except.ok.inj run).symm⟩
  cases faults : m.fault? (c.target addr) 8 .write with
  | some fault =>
    rw [checkWrite, faults] at check
    cases check
  | none => exact .of_fault? faults

namespace Counts

theorem load (fetch : v.image.code.Fetches p (.load rt addr width false))
    (other : .load rt addr width false ≠ j)
    (h : m.Open (c.target addr) width.bytes → Counts k j Q turns (v.moved (p + 4)
      ((c.rebase addr).setReg rt
        (Memory.load m.bytes (c.target addr).toNat width.bytes.toNat)) m)) :
    Counts k j Q (turns + 1) (v.moved p c m) :=
  .instruction other fetch fun e effect => by
    obtain ⟨ok, rfl⟩ := of_effect_load effect
    refine ⟨rfl, ?_⟩
    rw [Cpu.applyEffect_append]
    exact h ok

theorem store (fetch : v.image.code.Fetches p (.store rt addr width))
    (other : .store rt addr width ≠ j)
    (h : m.Open (c.target addr) width.bytes → Counts k j Q turns (v.moved (p + 4) (c.rebase addr)
      (m.put (c.target addr) width.bytes (c.reg rt)))) : Counts k j Q (turns + 1) (v.moved p c m) :=
  .instruction other fetch fun e effect => by
    obtain ⟨ok, rfl⟩ := of_effect_store effect
    exact ⟨rfl, h ok⟩

/-- The counted instruction is a store. -/
theorem storeOnce (fetch : v.image.code.Fetches k (.store rt addr width))
    (h : m.Open (c.target addr) width.bytes →
      Counts k (.store rt addr width) (fun n => Q (n + 1)) turns (v.moved (k + 4) (c.rebase addr)
        (m.put (c.target addr) width.bytes (c.reg rt)))) :
    Counts k (.store rt addr width) Q (turns + 1) (v.moved k c m) :=
  .once fetch fun e effect => by
    obtain ⟨ok, rfl⟩ := of_effect_store effect
    exact ⟨rfl, h ok⟩

theorem storePair (fetch : v.image.code.Fetches p (.storePair r1 r2 addr))
    (other : .storePair r1 r2 addr ≠ j)
    (h : m.Open (c.target addr) 8 → m.Open (c.target addr + 8) 8 →
      Counts k j Q turns (v.moved (p + 4) (c.rebase addr)
        ((m.put (c.target addr) 8 (c.reg r1)).put (c.target addr + 8) 8 (c.reg r2)))) :
    Counts k j Q (turns + 1) (v.moved p c m) :=
  .instruction other fetch fun e effect => by
    obtain ⟨ok₁, ok₂, rfl⟩ := of_effect_storePair effect
    exact ⟨rfl, h ok₁ ok₂⟩

end Counts
end
end Vm
end TemplateVm
