import TemplateVm.Proofs.Calls.GuardZones
import TemplateVm.Proofs.Layout.NormalEntries
import TemplateVm.Proofs.Machine.Hits

set_option autoImplicit false
set_option synthInstance.maxSize 100000

/-!
# Room for locals

A bytecoded method finds its arguments on the operand stack of its caller and makes room for its
other locals below them. The check of the stack comes before anything is written. The words are
cleared from the lowest up, and since the red zone is at least a page, no word can be below it if
all of them can be written.
-/
namespace TemplateVm

open Memory (Guarded GuardRange load byteAt)

/-! ## Comparisons -/

theorem Condition.holds_ls (n k : UInt64) :
    Condition.ls.holds (.ofCompare n k) = decide (n ≤ k) := by
  have equal : (n - k == 0) = decide (n = k) := by
    rw [Bool.eq_iff_iff, beq_iff_eq, decide_eq_true_iff, UInt64.sub_eq_iff_eq_add, UInt64.zero_add]
  rw [Bool.eq_iff_iff]
  simp only [holds, Flags.ofCompare, equal, Bool.or_eq_true, Bool.not_eq_true', decide_eq_true_eq,
    decide_eq_false_iff_not, UInt64.le_iff_toNat_le, ← UInt64.toNat_inj]
  omega

theorem Condition.holds_hi (n k : UInt64) :
    Condition.hi.holds (.ofCompare n k) = decide (k < n) := by
  have equal : (n - k == 0) = decide (n = k) := by
    rw [Bool.eq_iff_iff, beq_iff_eq, decide_eq_true_iff, UInt64.sub_eq_iff_eq_add, UInt64.zero_add]
  rw [Bool.eq_iff_iff]
  simp only [holds, Flags.ofCompare, equal, Bool.and_eq_true, Bool.not_eq_true', decide_eq_true_eq,
    decide_eq_false_iff_not, UInt64.le_iff_toNat_le, UInt64.lt_iff_toNat_lt, ← UInt64.toNat_inj]
  omega

theorem shiftLeft_three (n : UInt64) : n <<< 3 = n * 8 := by
  refine UInt64.toNat_inj.mp ?_
  rw [UInt64.toNat_shiftLeft, UInt64.toNat_mul, Nat.shiftLeft_eq]
  rfl

/-! ## Accesses above the red zone -/

namespace Memory.Guarded

variable {m : Guarded} {a w : UInt64} {g : GuardRange}

/-- Nothing that can be accessed starts in a guard. -/
theorem Open.outside (ok : m.Open a w) (mem : g ∈ m.guards) (some : 0 < w.toNat) :
    a.toNat < g.start.toNat ∨ g.stop.toNat ≤ a.toNat := by
  refine Classical.byContradiction fun inside => ?_
  have touched : g.touches a w = true := touches_of_start (by omega) (by omega) some
  have free := ok .read
  cases found : m.guardOf? a w with
  | some g' => simp [fault?, found] at free
  | none => exact absurd touched (List.find?_eq_none.mp found g mem)

end Memory.Guarded

namespace Vm

variable {v : Vm} {x d w n : UInt64}

theorem Fenced.red (h : v.Fenced) :
    ⟨v.map.stackLimit, v.map.redEnd, GuardTag.redZone⟩ ∈ v.world.store.mem.guards ∧
      v.map.stackLimit.toNat + 1024 ≤ v.map.redEnd.toNat := by
  obtain ⟨n, guards⟩ := h.guards
  refine ⟨by rw [guards]; simp [MemoryMap.lasting], ?_⟩
  have page := Nat.mul_le_mul h.zoned.redPages h.zoned.page
  have red := h.zoned.red
  omega

/-- What lies less than a page below a place above the red zone is above the red zone, too, if it
    can be accessed. -/
theorem Fenced.above (h : v.Fenced) (place : v.map.redEnd.toNat ≤ x.toNat) (near : d.toNat ≤ 1024)
    (some : 0 < w.toNat) (ok : v.world.store.mem.Open (x - d) w) :
    (x - d).toNat = x.toNat - d.toNat ∧ v.map.redEnd.toNat + d.toNat ≤ x.toNat := by
  obtain ⟨mem, red⟩ := h.red
  have less : (x - d).toNat = x.toNat - d.toNat :=
    UInt64.toNat_sub_of_le _ _ (UInt64.le_iff_toNat_le.mpr (by omega))
  have outside := ok.outside mem some
  dsimp only at outside
  omega

/-- Words that lie one below the other are above the red zone if all of them can be accessed. -/
theorem Fenced.words_above (h : v.Fenced) (place : v.map.redEnd.toNat ≤ x.toNat) {k : Nat}
    (few : k < 2 ^ 60)
    (ok : ∀ i, 0 < i → i ≤ k → v.world.store.mem.Open (x - i.toUInt64 * 8) 8) :
    (x - k.toUInt64 * 8).toNat = x.toNat - 8 * k ∧ v.map.redEnd.toNat + 8 * k ≤ x.toNat := by
  induction k with
  | zero => exact ⟨congrArg UInt64.toNat (by simp), by omega⟩
  | succ k ih =>
    obtain ⟨address, above⟩ := ih (by omega) fun i pos le => ok i pos (by omega)
    have next : x - (k + 1).toUInt64 * 8 = x - k.toUInt64 * 8 - 8 := by
      have sum : (k + 1).toUInt64 = k.toUInt64 + 1 := UInt64.ofNat_add k 1
      rw [sum]
      grind
    have last := ok (k + 1) (by omega) (by omega)
    rw [next] at last ⊢
    obtain ⟨address', above'⟩ := h.above (x := x - k.toUInt64 * 8) (by omega) (by decide)
      (by decide) last
    have eight : (8 : UInt64).toNat = 8 := rfl
    omega

end Vm

/-! ## Clearing words -/

namespace Memory.Guarded

/-- So many words from the address up are cleared. -/
def clearWords : Nat → Guarded → UInt64 → Guarded
  | 0, m, _ => m
  | n + 1, m, a => clearWords n (m.put a 8 0) (a + 8)

theorem clearWords_succ (n : Nat) (m : Guarded) (a : UInt64) :
    clearWords (n + 1) m a = clearWords n (m.put a 8 0) (a + 8) := by
  rw [clearWords]

/-- Only these words change, and they are zero then. -/
theorem clearWords_zero (m : Guarded) {a : UInt64} {n : Nat}
    (inside : a.toNat + 8 * n ≤ m.bytes.size) (size : m.bytes.size < 2 ^ 64) :
    m.Changed (clearWords n m a) a.toNat (a.toNat + 8 * n) ∧
      ∀ i < n, load (clearWords n m a).bytes (a.toNat + 8 * i) 8 = 0 := by
  induction n generalizing m a with
  | zero => exact ⟨.refl .., nofun⟩
  | succ n ih =>
    have put := changed_put m a 8 0
    have eight : (8 : UInt64).toNat = 8 := rfl
    have next : (a + 8).toNat = a.toNat + 8 := toNat_add_of_lt (by omega)
    obtain ⟨changed, zero⟩ := ih (m.put a 8 0) (a := a + 8) (by rw [put.size]; omega)
      (by rw [put.size]; exact size)
    rw [clearWords_succ]
    refine ⟨(put.mono (Nat.le_refl _) (by omega)).trans (changed.mono (by omega) (by omega)),
      fun i lt => ?_⟩
    cases i with
    | zero =>
      have kept := changed.agrees (s := a.toNat) (t := a.toNat + 8) (by omega)
      have stored : load (m.put a 8 0).bytes a.toNat 8 = 0 := by
        rw [bytes_put, eight]
        exact Memory.load_store_double (Nat.le_trans (by omega) inside)
      exact (kept.load (Nat.le_refl _) (Nat.le_refl _)).trans stored
    | succ i =>
      have cleared := zero i (by omega)
      rw [next] at cleared
      rw [show a.toNat + 8 * (i + 1) = a.toNat + 8 + 8 * i by omega]
      exact cleared

end Memory.Guarded

/-- The instruction that clears a local and goes on to the next one. -/
@[simp] def Instruction.clearing : Instruction UInt64 := .store .zero (.post .scratch1 8) .double

namespace Vm

variable {v : Vm} {c : Cpu} {m : Guarded} {p k q : UInt64} {place : CodeLabel → UInt64}
  {Q : Nat → Vm → Prop} {turns : Nat}

/-- One turn of the loop. -/
theorem Counts.clearsOne (lay : Clears ⟨v.image.code, place⟩ p k q) {a : UInt64}
    (start : c.reg .scratch1 = a)
    (next : ∀ c', (∀ r, r ≠ .x3 → r ≠ .scratch1 → c'.reg r = c.reg r) →
      c'.reg .x3 = c.reg .x3 - 1 → c'.reg .scratch1 = a + 8 → m.Open a 8 →
      Counts k .clearing (fun j => Q (j + 1)) turns
        (v.moved (if c.reg .x3 - 1 = 0 then q else k) c' (m.put a 8 0))) :
    Counts k .clearing Q (turns + 3) (v.moved k c m) := by
  refine .storeOnce lay.store fun ok => .binary lay.count (by simp) ?_
  rw [Cpu.target_post, start] at ok
  rw [Cpu.target_post, Cpu.rebase_post, start, Cpu.reg_zero]
  have left : Binary.apply ((c.setReg .scratch1 (a + 8)).reg .x3)
      ((c.setReg .scratch1 (a + 8)).operand (.imm 1)) .sub = c.reg .x3 - 1 := by
    change Cpu.reg _ .x3 - 1 = _
    rw [Cpu.reg_setReg_ne _ _ (by decide)]
  rw [left]
  have counter := (c.setReg .scratch1 (a + 8)).reg_setReg_self (c.reg .x3 - 1)
    (r := .x3) (by decide)
  have rest := next ((c.setReg .scratch1 (a + 8)).setReg .x3 (c.reg .x3 - 1))
    (fun r h h' => by rw [Cpu.reg_setReg_ne _ _ h, Cpu.reg_setReg_ne _ _ h']) counter
    (by rw [Cpu.reg_setReg_ne _ _ (by decide), Cpu.reg_setReg_self _ _ (by decide)]) ok
  refine .branchNonzero lay.again (by simp) (fun more => ?_) fun done => ?_
  · rw [counter] at more
    rwa [if_neg more] at rest
  · rw [counter] at done
    rwa [if_pos done, lay.last] at rest

/-- The loop stores as many zeros as the register says. -/
theorem Counts.clears (lay : Clears ⟨v.image.code, place⟩ p k q) {n : Nat} {a : UInt64}
    (few : n + 1 < 2 ^ 64) (count : c.reg .x3 = (n + 1).toUInt64) (start : c.reg .scratch1 = a)
    (next : ∀ c', (∀ r, r ≠ .x3 → r ≠ .scratch1 → c'.reg r = c.reg r) →
      (∀ i ≤ n, m.Open (a + i.toUInt64 * 8) 8) →
      Counts k .clearing (fun j => Q (j + (n + 1))) turns
        (v.moved q c' (Guarded.clearWords (n + 1) m a))) :
    Counts k .clearing Q (turns + 3 * (n + 1)) (v.moved k c m) := by
  have less (n : Nat) : (n + 1).toUInt64 - 1 = n.toUInt64 := by
    have sum : (n + 1).toUInt64 = n.toUInt64 + 1 := UInt64.ofNat_add n 1
    grind
  induction n generalizing c m a Q with
  | zero =>
    refine .clearsOne lay start fun c₁ same _ _ ok => ?_
    have none : Nat.toUInt64 0 = 0 := rfl
    rw [count, less, if_pos none]
    refine next c₁ same fun i le => ?_
    obtain rfl : i = 0 := by omega
    simpa using ok
  | succ n ih =>
    change Counts k .clearing Q (turns + 3 * (n + 1) + 3) _
    refine .clearsOne lay start fun c₁ same count₁ start₁ ok => ?_
    rw [count, less] at count₁ ⊢
    have more : (n + 1).toUInt64 ≠ 0 := by
      rw [← UInt64.toNat_inj.ne, UInt64.toNat_ofNat', Nat.mod_eq_of_lt (by omega)]
      exact Nat.succ_ne_zero n
    rw [if_neg more]
    refine ih (by omega) count₁ start₁ fun c₂ same₂ oks => ?_
    refine next c₂ (fun r h h' => (same₂ r h h').trans (same r h h')) fun i le => ?_
    cases i with
    | zero => simpa using ok
    | succ i =>
      have above : a + (i + 1).toUInt64 * 8 = a + 8 + i.toUInt64 * 8 := by
        have sum : (i + 1).toUInt64 = i.toUInt64 + 1 := UInt64.ofNat_add i 1
        grind
      rw [above]
      exact fun access =>
        ((Guarded.changed_put m a 8 0).fault?_eq access).symm.trans (oks i (by omega) access)

end Vm

/-! ## The method that is called -/

/-- A bytecoded method that is called: its records, what it asks for, and the caller's operands. -/
structure GuestCall where
  method : UInt64
  constMethod : UInt64
  /-- The last argument is on top of the operands of the caller. -/
  operands : UInt64
  parameters : UInt16
  maxLocals : UInt16
  maxStack : UInt16
  /-- What is locked if the method is synchronized. -/
  object : UInt64

namespace GuestCall

/-- Words of all locals: parameters are locals even if there are to be fewer. -/
def words (a : GuestCall) : Nat := max a.maxLocals.toNat a.parameters.toNat

/-- Words of the locals that are no parameters. -/
def extra (a : GuestCall) : Nat := a.maxLocals.toNat - a.parameters.toNat

/-- The first local; the others lie below it. -/
def locals (a : GuestCall) : UInt64 := a.operands + a.parameters.toUInt64 * 8 - 8

/-- The last local. -/
def base (a : GuestCall) : UInt64 := a.operands - a.extra.toUInt64 * 8

/-- Behind the word where the frame's link goes. -/
def frame (a : GuestCall) : UInt64 := (a.base &&& (-16)) - 32

/-- The record of the method may count its invocations; what is read of the other words is so. -/
structure Recorded (a : GuestCall) (map : MemoryMap) (m : Guarded) : Prop where
  method : a.method.toNat + 48 ≤ map.thread.toNat
  constMethod : a.constMethod.toNat + 16 ≤ map.thread.toNat
  apart : a.constMethod.toNat + 16 ≤ a.method.toNat ∨ a.method.toNat + 48 ≤ a.constMethod.toNat
  code : load m.bytes a.method.toNat 8 = a.constMethod
  parameterWords : load m.bytes (a.constMethod.toNat + 8) 2 = a.parameters.toUInt64
  maxLocals : load m.bytes (a.constMethod.toNat + 10) 2 = a.words.toUInt64
  maxStack : load m.bytes (a.constMethod.toNat + 12) 2 = a.maxStack.toUInt64

/-- The method is called with its arguments on the stack of the thread. -/
structure Called (a : GuestCall) (v : Vm) (c : Cpu) (m : Guarded) : Prop where
  fenced : (v.withMemory m).Fenced
  thread : c.reg .thread = v.map.thread
  method : c.reg .method = a.method
  operands : c.reg .operands = a.operands
  low : v.map.redEnd.toNat ≤ a.operands.toNat
  high : a.operands.toNat + 8 * a.parameters.toNat ≤ v.map.stackBase.toNat
  recorded : a.Recorded v.map m

/-- The check of the stack fails: locals that take more than a page would come near the guards. -/
def Refused (a : GuestCall) (s : Settings) (map : MemoryMap) (c : Cpu) (m : Guarded) : Prop :=
  ((s.pageSize.toInt64 - Frame.overhead.toInt64) / 8).toUInt64 < a.extra.toUInt64 ∧
    c.reg .sp ≤ Frame.overhead + a.extra.toUInt64 * 8 +
      (load m.bytes (map.thread + ThreadBlock.stackBase).toNat 8 -
        load m.bytes (map.thread + ThreadBlock.stackSize).toNat 8) +
      s.maxGuardPages * s.pageSize * 2

/-- The locals have their place, and those that are no parameters are about to be cleared. -/
structure Opens (a : GuestCall) (map : MemoryMap) (c : Cpu) : Prop where
  thread : c.reg .thread = map.thread
  method : c.reg .method = a.method
  operands : c.reg .operands = a.operands
  locals : c.reg .locals = a.locals
  sp : c.reg .sp = a.base &&& (-16)
  count : c.reg .x3 = a.extra.toUInt64
  start : c.reg .scratch1 = a.base

variable {a : GuestCall} {v : Vm} {c : Cpu} {m : Guarded} {p q k t entry : UInt64}
  {place : CodeLabel → UInt64} {ctx : CodeContext} {K S : List CodeLabel} {Q : Nat → Vm → Prop}
  {turns : Nat} {j : Instruction UInt64}

theorem words_sub (a : GuestCall) :
    a.words.toUInt64 - a.parameters.toUInt64 = a.extra.toUInt64 := by
  have few := a.maxLocals.toNat_lt
  have args := a.parameters.toNat_lt
  have whole : a.words.toUInt64 = a.extra.toUInt64 + a.parameters.toUInt64 := by
    refine UInt64.toNat_inj.mp ?_
    rw [UInt64.toNat_add, UInt64.toNat_ofNat', UInt64.toNat_ofNat', UInt16.toNat_toUInt64]
    unfold words extra
    omega
  rw [whole, UInt64.add_sub_cancel]

/-- The end of the check: from the space that the locals take to the stub or on. -/
theorem countsRoom {fits : CodeLabel} {T : List CodeLabel} {guards : UInt64} [Known fits K]
    [Taken fits S T]
    (lay : Lays ⟨v.image.code, place⟩ ctx true K S (do
      Emit.sub .scratch1 .scratch1 Register.scratch2
      Emit.add .x0 .x0 Register.scratch1
      Emit.movImm .scratch2 guards
      Emit.add .x0 .x0 Register.scratch2
      Emit.cmp .sp Register.x0
      Emit.bIf .hi fits
      Emit.and .sp .sender (.imm (-16))
      Emit.bTo t
      Emit.bind fits) p q ()) : place fits = q ∧ ∀ c,
    (∀ c', c.reg .sp ≤ c.reg .x0 + (c.reg .scratch1 - c.reg .scratch2) + guards →
      Vm.Counts k .clearing Q turns (v.moved t c' m)) →
    (∀ c', ¬ c.reg .sp ≤ c.reg .x0 + (c.reg .scratch1 - c.reg .scratch2) + guards →
      (∀ r, r ≠ .x0 → r ≠ .scratch1 → r ≠ .scratch2 → c'.reg r = c.reg r) →
      Vm.Counts k .clearing Q turns (v.moved q c' m)) →
    Vm.Counts k .clearing Q (turns + 8) (v.moved p c m) := by
  obtain ⟨i₁, lay⟩ := lay.emit_bind
  obtain ⟨i₂, lay⟩ := lay.emit_bind
  obtain ⟨i₃, lay⟩ := lay.emit_bind
  obtain ⟨i₄, lay⟩ := lay.emit_bind
  obtain ⟨i₅, lay⟩ := lay.emit_bind
  obtain ⟨i₆, lay⟩ := lay.emitTo_bind
  obtain ⟨i₇, lay⟩ := lay.emit_bind
  obtain ⟨i₈, lay⟩ := lay.emit_bind
  obtain ⟨here, rfl⟩ := lay.bind
  rw [here] at i₆
  refine ⟨here, fun c refused next => ?_⟩
  refine .binary i₁ (by simp) (.binary i₂ (by simp) (.movImm i₃ (by simp) (.binary i₄ (by simp)
    (.compare i₅ (by simp) ?_))))
  simp +decide only [Cpu.operand, Cpu.reg_setReg, ↓reduceIte]
  change Vm.Counts k .clearing Q _ (v.moved _ (Cpu.setFlags _ (.ofCompare (c.reg .sp)
    (c.reg .x0 + (c.reg .scratch1 - c.reg .scratch2) + guards))) m)
  refine .branchIf i₆ (by simp)
    (fun high => (next _ ?_ fun r h₁ h₂ h₃ => ?_).le (by omega)) fun low => ?_
  · have high := (Condition.holds_hi ..).symm.trans high
    exact UInt64.not_le.mpr (of_decide_eq_true high)
  · rw [Cpu.reg_setFlags, Cpu.reg_setReg_ne _ _ h₁, Cpu.reg_setReg_ne _ _ h₃,
      Cpu.reg_setReg_ne _ _ h₁, Cpu.reg_setReg_ne _ _ h₂]
  · have low := (Condition.holds_hi ..).symm.trans low
    exact .binary i₇ (by simp) (.branch i₈ (by simp)
      (refused _ (UInt64.not_lt.mp (of_decide_eq_false low))))

/-- The check of the stack leads to the stub with memory as it was, or on. -/
theorem Called.countsCheck (h : a.Called v c m) {c₁ : Cpu}
    (same : ∀ r, r ≠ .x2 → r ≠ .x3 → c₁.reg r = c.reg r) (extra : c₁.reg .x3 = a.extra.toUInt64)
    (lay : Lays ⟨v.image.code, place⟩ ctx true K S (Emit.checkStack t) p q ())
    (refused : ∀ c', a.Refused ctx.settings v.map c m →
      Vm.Counts k .clearing Q turns (v.moved t c' m))
    (next : ∀ c', ¬ a.Refused ctx.settings v.map c m →
      (∀ r, r ≠ .x0 → r ≠ .scratch1 → r ≠ .scratch2 → c'.reg r = c₁.reg r) →
      Vm.Counts k .clearing Q turns (v.moved q c' m)) :
    Vm.Counts k .clearing Q (turns + 16) (v.moved p c₁ m) := by
  unfold Emit.checkStack at lay
  replace lay := lay.settings_bind
  obtain ⟨fits, lay⟩ := lay.newLabel_bind
  obtain ⟨i₁, lay⟩ := lay.emit_bind
  obtain ⟨i₂, lay⟩ := lay.emitTo_bind
  obtain ⟨i₃, lay⟩ := lay.emit_bind
  obtain ⟨i₄, lay⟩ := lay.emit_bind
  obtain ⟨i₅, lay⟩ := lay.emit_bind
  obtain ⟨i₆, lay⟩ := lay.emit_bind
  -- the stack of the thread is checked only if the settings say so
  obtain ⟨here, rest⟩ : place fits = q ∧ ∀ c₂,
      (∀ c', c₂.reg .sp ≤ c₂.reg .x0 + (c₂.reg .scratch1 - c₂.reg .scratch2) +
        ctx.settings.maxGuardPages * ctx.settings.pageSize * 2 →
        Vm.Counts k .clearing Q turns (v.moved t c' m)) →
      (∀ c', ¬ c₂.reg .sp ≤ c₂.reg .x0 + (c₂.reg .scratch1 - c₂.reg .scratch2) +
        ctx.settings.maxGuardPages * ctx.settings.pageSize * 2 →
        (∀ r, r ≠ .x0 → r ≠ .scratch1 → r ≠ .scratch2 → c'.reg r = c₂.reg r) →
        Vm.Counts k .clearing Q turns (v.moved q c' m)) →
      Vm.Counts k .clearing Q (turns + 10) (v.moved (p + 4 + 4 + 4 + 4 + 4 + 4) c₂ m) := by
    by_cases on : ctx.settings.debugChecks = true
    · simp only [on, ↓reduceIte] at lay
      obtain ⟨base, lay⟩ := lay.newLabel_bind
      obtain ⟨size, lay⟩ := lay.newLabel_bind
      obtain ⟨i₁, lay⟩ := lay.emitTo_bind
      obtain ⟨i₂, lay⟩ := lay.emit_bind
      obtain ⟨here₁, lay⟩ := lay.bind_bind
      obtain ⟨i₃, lay⟩ := lay.emitTo_bind
      obtain ⟨i₄, lay⟩ := lay.emit_bind
      obtain ⟨here₂, lay⟩ := lay.bind_bind
      rw [here₁] at i₁
      rw [here₂] at i₃
      obtain ⟨here, rest⟩ := countsRoom lay
      refine ⟨here, fun c₂ refused next => ?_⟩
      exact .branchNonzero i₁ (by simp)
        (fun _ => .branchNonzero i₃ (by simp) (fun _ => rest _ refused next)
          fun _ => .stop i₄ (by simp))
        fun _ => .stop i₂ (by simp)
    · obtain ⟨here, rest⟩ := countsRoom (lay.ite_neg on)
      exact ⟨here, fun c₂ refused next => (rest c₂ refused next).le (by omega)⟩
  have thread : c₁.reg .thread = v.map.thread := (same _ (by decide) (by decide)).trans h.thread
  have sp : c₁.reg .sp = c.reg .sp := same _ (by decide) (by decide)
  replace i₂ : v.image.code.Fetches (p + 4) (.branchIf .ls q) := here ▸ i₂
  refine .compare i₁ (by simp) (.branchIf i₂ (by simp) (fun small => ?_) fun large => ?_)
  · refine .le (next _ ?_ fun _ _ _ _ => rfl) (Nat.le_add_right turns 14)
    have small := (Condition.holds_ls ..).symm.trans small
    rw [extra] at small
    exact fun beyond => UInt64.not_le.mpr beyond.1 (of_decide_eq_true small)
  · have large := (Condition.holds_ls ..).symm.trans large
    rw [extra] at large
    replace large := UInt64.not_le.mp (of_decide_eq_false large)
    refine .movImm i₃ (by simp) (.binary i₄ (by simp) (.load i₅ (by simp) fun _ =>
      .load i₆ (by simp) fun _ => ?_))
    simp +decide only [Cpu.operand, Cpu.reg_setReg, Cpu.reg_setFlags, Cpu.target_base,
      Cpu.rebase_base, ↓reduceIte, extra, thread]
    have space (n : UInt64) : Binary.apply Frame.overhead (n <<< (3 : UInt8).toUInt64) .add =
        Frame.overhead + n * 8 := congrArg (Frame.overhead + ·) (shiftLeft_three n)
    refine rest _ (fun c' low => refused c' ⟨large, ?_⟩) fun c' high same' =>
      next c' (fun beyond => high ?_) fun r h₁ h₂ h₃ => ?_
    · simp +decide only [Cpu.reg_setReg, Cpu.reg_setFlags, ↓reduceIte, sp, space] at low
      exact low
    · simp +decide only [Cpu.reg_setReg, Cpu.reg_setFlags, ↓reduceIte, sp, space]
      exact beyond.2
    · rw [same' r h₁ h₂ h₃, Cpu.reg_setReg_ne _ _ h₃, Cpu.reg_setReg_ne _ _ h₂,
        Cpu.reg_setReg_ne _ _ h₁, Cpu.reg_setReg_ne _ _ h₁, Cpu.reg_setFlags]

/-- The locals are found, and the stack pointer is put below them. -/
theorem Called.countsOpen (h : a.Called v c m)
    (lay : Lays ⟨v.image.code, place⟩ ctx true K S (Emit.openLocals t) p q entry)
    (refused : ∀ c', a.Refused ctx.settings v.map c m →
      Vm.Counts k .clearing Q turns (v.moved t c' m))
    (next : ∀ c', ¬ a.Refused ctx.settings v.map c m → a.Opens v.map c' →
      Vm.Counts k .clearing Q turns (v.moved q c' m)) :
    Vm.Counts k .clearing Q (turns + 24) (v.moved p c m) := by
  unfold Emit.openLocals at lay
  replace lay := lay.pc_bind
  obtain ⟨i₁, lay⟩ := lay.emit_bind
  obtain ⟨i₂, lay⟩ := lay.emit_bind
  obtain ⟨i₃, lay⟩ := lay.emit_bind
  obtain ⟨i₄, lay⟩ := lay.emit_bind
  obtain ⟨⟨⟩, q₁, check, lay⟩ := lay.split
  obtain ⟨i₅, lay⟩ := lay.emit_bind
  obtain ⟨i₆, lay⟩ := lay.emit_bind
  obtain ⟨i₇, lay⟩ := lay.emit_bind
  obtain ⟨i₈, lay⟩ := lay.emit_bind
  obtain ⟨rfl, -⟩ := lay.ended
  have r := h.recorded
  have thread := h.fenced.mapped.block_lt
  change v.map.thread.toNat + 0x1000 < 2 ^ 64 at thread
  have first := r.method
  have second := r.constMethod
  have at₀ : (a.method + MethodRecord.constMethod).toNat = a.method.toNat := by
    exact congrArg UInt64.toNat (UInt64.add_zero _)
  have at₁ : (a.constMethod + ConstMethodRecord.parameterWords).toNat = a.constMethod.toNat + 8 :=
    toNat_add_of_lt (by change _ + 8 < _; omega)
  have at₂ : (a.constMethod + ConstMethodRecord.maxLocals).toNat = a.constMethod.toNat + 10 :=
    toNat_add_of_lt (by change _ + 10 < _; omega)
  have half : Width.half.bytes.toNat = 2 := rfl
  have double : Width.double.bytes.toNat = 8 := rfl
  refine .load i₁ (by simp) fun _ => .load i₂ (by simp) fun _ => .load i₃ (by simp) fun _ =>
    .binary i₄ (by simp) ?_
  simp +decide only [Cpu.target_base, Cpu.rebase_base, Cpu.operand, Cpu.reg_setReg, ↓reduceIte,
    h.method, at₀, at₁, at₂, half, double, r.code, r.parameterWords, r.maxLocals]
  have left : Binary.apply a.words.toUInt64 a.parameters.toUInt64 .sub = a.extra.toUInt64 :=
    a.words_sub
  rw [left]
  generalize hc : Cpu.setReg _ .x3 a.extra.toUInt64 = c₁
  have same (r : Register) (h₁ : r ≠ .x2) (h₂ : r ≠ .x3) : c₁.reg r = c.reg r := by
    rw [← hc, Cpu.reg_setReg_ne _ _ h₂, Cpu.reg_setReg_ne _ _ h₂, Cpu.reg_setReg_ne _ _ h₁,
      Cpu.reg_setReg_ne _ _ h₂]
  have extra : c₁.reg .x3 = a.extra.toUInt64 := by rw [← hc, Cpu.reg_setReg_self _ _ (by decide)]
  have parameters : c₁.reg .x2 = a.parameters.toUInt64 := by
    rw [← hc]
    simp +decide only [Cpu.reg_setReg, ↓reduceIte]
  refine h.countsCheck same extra check (fun c₂ no => (refused c₂ no).le (by omega))
    fun c₂ fits same₂ => ?_
  have kept (r : Register) (hr : r ≠ .x0 ∧ r ≠ .x2 ∧ r ≠ .x3 ∧ r ≠ .scratch1 ∧ r ≠ .scratch2) :
      c₂.reg r = c.reg r := (same₂ r hr.1 hr.2.2.2.1 hr.2.2.2.2).trans (same r hr.2.1 hr.2.2.1)
  have extra₂ : c₂.reg .x3 = a.extra.toUInt64 :=
    (same₂ _ (by decide) (by decide) (by decide)).trans extra
  have parameters₂ : c₂.reg .x2 = a.parameters.toUInt64 :=
    (same₂ _ (by decide) (by decide) (by decide)).trans parameters
  have operands₂ : c₂.reg .operands = a.operands := (kept _ (by decide)).trans h.operands
  have above : Binary.apply a.operands (a.parameters.toUInt64 <<< (3 : UInt8).toUInt64) .add =
      a.operands + a.parameters.toUInt64 * 8 := congrArg (a.operands + ·) (shiftLeft_three _)
  have below : Binary.apply a.operands (a.extra.toUInt64 <<< (3 : UInt8).toUInt64) .sub = a.base :=
    congrArg (a.operands - ·) (shiftLeft_three _)
  refine .binary i₅ (by simp) (.binary i₆ (by simp) (.binary i₇ (by simp)
    (.binary i₈ (by simp) (next _ fits ?_))))
  constructor <;> simp +decide only [Cpu.operand, Cpu.reg_setReg, ↓reduceIte, extra₂, parameters₂,
    operands₂, above, below]
  · exact (kept _ (by decide)).trans h.thread
  · exact (kept _ (by decide)).trans h.method
  · rfl
  · rfl

/-- The locals that are no parameters are zero, and nothing else has changed. -/
structure Cleared (a : GuestCall) (map : MemoryMap) (m m' : Guarded) : Prop where
  low : map.redEnd.toNat ≤ a.base.toNat
  base : a.base.toNat + 8 * a.extra = a.operands.toNat
  changed : m.Changed m' a.base.toNat a.operands.toNat
  zero : ∀ i < a.extra, load m'.bytes (a.base.toNat + 8 * i) 8 = 0

/-- The words are cleared, from the last local up. -/
theorem Called.countsClear (h : a.Called v c m) {c₁ : Cpu} (opens : a.Opens v.map c₁)
    (lay : Clears ⟨v.image.code, place⟩ p k q)
    (next : ∀ c' m', (∀ r, r ≠ .x3 → r ≠ .scratch1 → c'.reg r = c₁.reg r) →
      a.Cleared v.map m m' →
      Vm.Counts k .clearing (fun n => Q (n + a.extra)) turns (v.moved q c' m')) :
    Vm.Counts k .clearing Q (turns + 3 * a.extra + 1) (v.moved p c₁ m) := by
  have few := a.maxLocals.toNat_lt
  have most : a.extra < 65536 := by
    unfold extra
    omega
  have size : m.bytes.size = v.map.size.toNat := h.fenced.size
  have end_ : v.map.stackBase.toNat + v.map.pageSize.toNat = v.map.size.toNat :=
    h.fenced.zoned.base
  have limit := v.map.size.toNat_lt
  have high := h.high
  -- if all words can be written, they are above the red zone
  have cleared (ok : ∀ i < a.extra, m.Open (a.base + i.toUInt64 * 8) 8) :
      a.Cleared v.map m (Guarded.clearWords a.extra m a.base) := by
    have words := h.fenced.words_above (x := a.operands) (k := a.extra) h.low (by omega)
      fun i pos le => ?_
    · have address : a.base.toNat = a.operands.toNat - 8 * a.extra := words.1
      have above : v.map.redEnd.toNat + 8 * a.extra ≤ a.operands.toNat := words.2
      have sum : a.base.toNat + 8 * a.extra = a.operands.toNat := by omega
      obtain ⟨changed, zero⟩ := m.clearWords_zero (a := a.base) (n := a.extra) (by omega) (by omega)
      rw [sum] at changed
      exact ⟨by omega, sum, changed, zero⟩
    · have place : a.operands - i.toUInt64 * 8 = a.base + (a.extra - i).toUInt64 * 8 := by
        have sum : a.extra.toUInt64 = (a.extra - i).toUInt64 + i.toUInt64 := by
          rw [← UInt64.ofNat_add, Nat.sub_add_cancel le]
        unfold base
        grind
      rw [place]
      exact ok (a.extra - i) (by omega)
  have number : a.extra.toUInt64.toNat = a.extra := UInt64.toNat_ofNat_of_lt' (by
    change a.extra < 2 ^ 64
    omega)
  refine .branchZero lay.none (by simp) (fun none => ?_) fun more => ?_
  · have zero : a.extra = 0 := by
      rw [← number, ← opens.count, none]
      rfl
    have done := next c₁ _ (fun _ _ _ => rfl) (cleared fun i lt => absurd lt (by omega))
    rw [zero] at done ⊢
    exact done
  · obtain ⟨n, extra⟩ : ∃ n, a.extra = n + 1 := Nat.exists_eq_succ_of_ne_zero fun zero => by
      rw [opens.count, zero] at more
      exact more rfl
    rw [extra] at cleared next ⊢
    rw [← lay.first]
    exact .clears lay (by omega) (by rw [opens.count, extra]) opens.start fun c' same ok =>
      next c' _ same (cleared fun i lt => ok i (by omega))

end GuestCall
end TemplateVm
