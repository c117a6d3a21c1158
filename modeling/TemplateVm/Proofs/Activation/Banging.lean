import TemplateVm.Proofs.Activation.Services
import TemplateVm.Proofs.Layout.Code

set_option autoImplicit false
set_option synthInstance.maxSize 100000

/-!
# Touching the stack ahead

Before a method works, its entry touches the pages below the stack pointer one after the other. If
the pointer is still a page above the red zone, the yellow zone is met first. Nothing makes sure of
that for a method with a large operand stack: `checkStack` looks at its additional locals only.
-/
namespace TemplateVm

open Memory (Guarded)

/-- All three guards stand, and the zones of the stack lie between the null page and free memory. -/
structure Armed (map : MemoryMap) (m : Guarded) : Prop where
  guards : m.guards = (Vm.guarded { bytes := m.bytes } map).guards
  low : Place.nullPageEnd.toNat ≤ map.redEnd.toNat
  page : 8 ≤ map.pageSize.toNat
  yellow : map.redEnd.toNat + map.pageSize.toNat ≤ map.yellowEnd.toNat
  inside : map.stackBase.toNat ≤ m.bytes.size

namespace Armed

variable {map : MemoryMap} {m : Guarded} {a : UInt64}

theorem guards_eq (h : Armed map m) : m.guards =
    [⟨0, Place.nullPageEnd, GuardTag.nullPage⟩, ⟨map.stackLimit, map.redEnd, GuardTag.redZone⟩,
      ⟨map.redEnd, map.yellowEnd, GuardTag.yellowZone⟩] := by
  have red : map.stackLimit + (map.redEnd - map.stackLimit) = map.redEnd := by
    rw [UInt64.add_comm, UInt64.sub_add_cancel]
  rw [h.guards]
  simp only [Vm.guarded, Guarded.protect, List.nil_append, List.cons_append, red]
  rfl

theorem clear (h : Armed map m) : m.Clear map.yellowEnd.toNat map.stackBase.toNat where
  inside := h.inside
  unguarded g hg := by
    have low := h.low
    have yellow := h.yellow
    rw [h.guards_eq] at hg
    simp only [List.mem_cons, List.not_mem_nil, or_false] at hg
    rcases hg with rfl | rfl | rfl <;> dsimp only <;> omega

/-- The default settings lay the zones out so. -/
theorem default (unguarded : m.guards = [])
    (inside : (MemoryMap.ofSettings {}).stackBase.toNat ≤ m.bytes.size) :
    Armed (.ofSettings {}) (Vm.guarded m (.ofSettings {})) where
  guards := by simp [Vm.guarded, Guarded.protect, unguarded]
  low := by decide
  page := by decide
  yellow := by decide
  inside := inside

/-- A touch of the yellow zone that starts there is told from one of the red zone. -/
theorem fault?_yellow (h : Armed map m) (access : MemoryAccess)
    (lo : map.redEnd.toNat ≤ a.toNat) (hi : a.toNat < map.yellowEnd.toNat) :
    m.fault? a 8 access = some ⟨a, access, some GuardTag.yellowZone⟩ := by
  have low := h.low
  have null : ¬ a < Place.nullPageEnd := by rw [UInt64.lt_iff_toNat_lt]; omega
  have red : ¬ a < map.redEnd := by rw [UInt64.lt_iff_toNat_lt]; omega
  have yellow : (⟨map.redEnd, map.yellowEnd, GuardTag.yellowZone⟩ : Memory.GuardRange).touches a 8 =
    true := Guarded.touches_of_start lo hi (by decide)
  have others : (⟨0, Place.nullPageEnd, GuardTag.nullPage⟩ : Memory.GuardRange).touches a 8 = false ∧
      (⟨map.stackLimit, map.redEnd, GuardTag.redZone⟩ : Memory.GuardRange).touches a 8 = false := by
    simp [Memory.GuardRange.touches, null, red]
  simp [Guarded.fault?, Guarded.guardOf?, h.guards_eq, yellow, others, red]

end Armed

/-- Code ends long before addresses do. -/
theorem CodeCache.Fetches.next {code : CodeCache} {p : UInt64} {i : Instruction UInt64}
    (h : code.Fetches p i) : (p + 4).toNat = p.toNat + 4 := by
  have low : p.toNat < 0x50000000 := UInt64.lt_iff_toNat_lt.mp h.2
  exact toNat_add_of_lt (by change _ + 4 < _; omega)

namespace Vm

variable {P : Vm → Prop} {turns : Nat} {v : Vm} {p q : UInt64} {c : Cpu} {m : Guarded}
  {ctx : CodeContext} {inStub : Bool} {K S : List CodeLabel} {place : CodeLabel → UInt64}

/-- The memory once the yellow zone is given up. -/
def yellowDisabled (v : Vm) (m : Guarded) : Guarded :=
  (m.unprotect v.map.redEnd v.map.yellowSize).put (v.map.thread + ThreadBlock.guardState) 4
    GuardState.yellowDisabled.code.toUInt64

theorem handleFault_yellow {fault : MemoryFault} (yellow : fault.guard = some GuardTag.yellowZone)
    (inside : v.image.contains p = true) (thread : m.Open (v.map.thread + ThreadBlock.guardState) 4)
    (steps : UInt64) (watched : List (UInt64 × UInt64)) :
    handleFault fault ((v.moved p c m).counted steps watched) =
      .ok () ((v.moved v.image.exceptions.throwStackOverflow c (v.yellowDisabled m)).counted steps
        watched) := by
  have null : ¬ (fault.guard = some GuardTag.nullPage ∧ v.image.contains p = true) := by
    rw [yellow]
    rintro ⟨other, -⟩
    cases other
  unfold handleFault
  refine (bind_ok (m := (get : Action Vm)) rfl).trans ?_
  refine (congrFun (if_neg null) _).trans ?_
  refine (congrFun (if_pos ⟨yellow, inside⟩) _).trans ?_
  have disarmed : (modify (·.unprotect v.map.redEnd v.map.yellowSize) : Guarded.Action Unit) m =
    .ok () (m.unprotect v.map.redEnd v.map.yellowSize) := rfl
  refine (bind_ok (onMemory_ok disarmed)).trans ?_
  refine (bind_ok (onThread_ok (thread.unprotect.write))).trans ?_
  rfl

/-- A touch comes to its load with the address below the stack pointer. -/
theorem Arrives.toTouch {e : UInt64}
    (lay : Lays ⟨v.image.code, place⟩ ctx inStub K S (Emit.bangStack e) p q ())
    (next : v.image.code.Fetches (p + 4 + 4) (.load .zero (.base .scratch2 0) .double false) →
      q = p + 4 + 4 + 4 →
      Arrives P turns (v.moved (p + 4 + 4) (c.setReg .scratch2 (c.reg .sp - e)) m)) :
    Arrives P (turns + 2) (v.moved p c m) := by
  unfold Emit.bangStack at lay
  obtain ⟨i₁, lay⟩ := lay.emit_bind
  obtain ⟨i₂, lay⟩ := lay.emit_bind
  obtain ⟨i₃, stop⟩ := lay.emit
  refine .movImm i₁ (.binary i₂ ?_)
  have address : Binary.apply ((c.setReg .scratch2 e).reg .sp)
      ((c.setReg .scratch2 e).operand (.reg .scratch2)) .sub = c.reg .sp - e := by
    change Cpu.reg _ .sp - Cpu.reg _ .scratch2 = _
    rw [Cpu.reg_setReg_ne _ _ (by decide), Cpu.reg_setReg_self _ _ (by decide)]
  rw [address, Cpu.setReg_setReg]
  exact next i₃ stop

theorem target_touch (c : Cpu) (e : UInt64) :
    (c.setReg .scratch2 (c.reg .sp - e)).target (.base .scratch2 0) = c.reg .sp - e := by
  rw [Cpu.target_base, Cpu.reg_setReg_self _ _ (by decide), UInt64.add_zero]

/-- One touch of free memory. -/
theorem Arrives.touchStack {e : UInt64} (ok : m.Open (c.reg .sp - e) 8)
    (lay : Lays ⟨v.image.code, place⟩ ctx inStub K S (Emit.bangStack e) p q ())
    (free : ∀ n, Arrives P turns (v.moved q (c.setReg .scratch2 n) m)) :
    Arrives P (turns + 3) (v.moved p c m) := by
  refine .toTouch lay fun fetch stop => .load fetch (by rw [target_touch]; exact ok) ?_
  rw [Cpu.rebase_base, Cpu.setReg_zero, ← stop]
  exact free _

theorem bangStack_end {e : UInt64}
    (lay : Lays ⟨v.image.code, place⟩ ctx inStub K S (Emit.bangStack e) p q ()) :
    q.toNat = p.toNat + 12 := by
  unfold Emit.bangStack at lay
  obtain ⟨i₁, lay⟩ := lay.emit_bind
  obtain ⟨i₂, lay⟩ := lay.emit_bind
  obtain ⟨i₃, rfl⟩ := lay.emit
  rw [i₃.next, i₂.next, i₁.next]

/-- One touch finds free memory or the yellow zone, if the one before it was above the red zone by a
    page. -/
theorem Arrives.bangStack (h : Armed v.map m)
    (thread : m.Open (v.map.thread + ThreadBlock.guardState) 4) {e : UInt64}
    (room : v.map.redEnd.toNat + e.toNat ≤ (c.reg .sp).toNat) (far : 8 ≤ e.toNat)
    (base : (c.reg .sp).toNat ≤ v.map.stackBase.toNat)
    (lay : Lays ⟨v.image.code, place⟩ ctx inStub K S (Emit.bangStack e) p q ())
    (inside : ∀ a, p.toNat ≤ a.toNat → a.toNat < q.toNat → v.image.contains a = true)
    (free : v.map.yellowEnd.toNat + e.toNat ≤ (c.reg .sp).toNat →
      ∀ n, Arrives P turns (v.moved q (c.setReg .scratch2 n) m))
    (overflow : ∀ n, Arrives P turns (v.moved v.image.exceptions.throwStackOverflow
      (c.setReg .scratch2 n) (v.yellowDisabled m))) : Arrives P (turns + 3) (v.moved p c m) := by
  have touched : (c.reg .sp - e).toNat = (c.reg .sp).toNat - e.toNat :=
    UInt64.toNat_sub_of_le _ _ (UInt64.le_iff_toNat_le.mpr (by omega))
  by_cases above : v.map.yellowEnd.toNat + e.toNat ≤ (c.reg .sp).toNat
  · refine .touchStack (h.clear.open (by omega) ?_) lay (free above)
    change _ + 8 ≤ _
    omega
  · refine .toTouch lay fun fetch stop => ?_
    have fault := h.fault?_yellow (a := c.reg .sp - e) .read (by omega) (by omega)
    refine .fault fetch (effect_load_fault ((congrArg (m.fault? · 8 .read)
      (target_touch c e)).trans fault)) (handleFault_yellow rfl ?_ thread)
      ⟨fun quiet => quiet, rfl, rfl⟩
      (overflow _)
    have last := fetch.next
    have finish := bangStack_end lay
    rw [← stop] at last
    exact inside _ (by omega) (by omega)

theorem bangs_le {pages : List Nat} {f : Nat → UInt64}
    (lay : Lays ⟨v.image.code, place⟩ ctx inStub K S
      (pages.forM fun page => Emit.bangStack (f page)) p q ()) : p.toNat ≤ q.toNat := by
  induction pages generalizing p with
  | nil =>
    obtain ⟨rfl, -⟩ := lay.ended
    exact Nat.le_refl _
  | cons page pages ih =>
    obtain ⟨r, first, rest⟩ := lay.forM_cons
    have := bangStack_end first
    have := ih rest
    omega

/-- The touches from page `k` on. The one before, if any, was in free memory, which is above the
    yellow zone, so that the next one cannot miss that zone. -/
theorem Arrives.bangs (h : Armed v.map m)
    (thread : m.Open (v.map.thread + ThreadBlock.guardState) 4)
    (base : (c.reg .sp).toNat ≤ v.map.stackBase.toNat) {n k : Nat} (positive : 0 < k)
    (room : v.map.redEnd.toNat + k * v.map.pageSize.toNat ≤ (c.reg .sp).toNat)
    (lay : Lays ⟨v.image.code, place⟩ ctx inStub K S ((List.range' k n).forM fun page =>
      Emit.bangStack (page.toUInt64 * v.map.pageSize)) p q ())
    (inside : ∀ a, p.toNat ≤ a.toNat → a.toNat < q.toNat → v.image.contains a = true)
    (free : ∀ n, Arrives P turns (v.moved q (c.setReg .scratch2 n) m))
    (overflow : ∀ n, Arrives P turns (v.moved v.image.exceptions.throwStackOverflow
      (c.setReg .scratch2 n) (v.yellowDisabled m))) :
    Arrives P (turns + 3 * n) (v.moved p c m) := by
  induction n generalizing k p c with
  | zero =>
    obtain ⟨rfl, -⟩ := lay.ended
    rw [← c.setReg_reg .scratch2]
    exact free _
  | succ n ih =>
    obtain ⟨r, first, rest⟩ := Lays.forM_cons lay
    have page := h.page
    have start := bangStack_end first
    have finish := bangs_le rest
    have sp := (c.reg .sp).toNat_lt
    have small : k ≤ k * v.map.pageSize.toNat := Nat.le_mul_of_pos_right k (by omega)
    have distance : (k.toUInt64 * v.map.pageSize).toNat = k * v.map.pageSize.toNat := by
      rw [UInt64.toNat_mul, UInt64.toNat_ofNat_of_lt' (by change k < 2 ^ 64; omega)]
      exact Nat.mod_eq_of_lt (by omega)
    have far : 8 ≤ k * v.map.pageSize.toNat := Nat.le_trans page (Nat.le_mul_of_pos_left _ positive)
    refine .bangStack h thread (by rw [distance]; exact room) (by rw [distance]; exact far) base
      first (fun a ha hb => inside a ha (by omega)) (fun above n => ?_)
      fun n => (overflow n).le (Nat.le_add_right ..)
    have yellow := h.yellow
    have frame : (c.setReg .scratch2 n).reg .sp = c.reg .sp := Cpu.reg_setReg_ne _ _ (by decide)
    rw [distance] at above
    refine ih (by rw [frame]; exact base) k.succ_pos (by rw [frame, Nat.succ_mul]; omega) rest
      (fun a ha hb => inside a (by omega) hb) (fun n => ?_) fun n => ?_
    · rw [Cpu.setReg_setReg]
      exact free n
    · rw [Cpu.setReg_setReg]
      exact overflow n

/-- A method that is entered with its stack pointer a page above the red zone finds memory for the
    pages below it, or has a stack overflow thrown and the yellow zone disabled. It never comes to
    touch the red zone, which would be fatal. -/
theorem Arrives.bangShadow (h : Armed v.map m)
    (thread : m.Open (v.map.thread + ThreadBlock.guardState) 4)
    (settings : ctx.settings.pageSize = v.map.pageSize)
    (base : (c.reg .sp).toNat ≤ v.map.stackBase.toNat)
    (room : v.map.redEnd.toNat + v.map.pageSize.toNat ≤ (c.reg .sp).toNat)
    (lay : Lays ⟨v.image.code, place⟩ ctx inStub K S (Emit.bangShadow false) p q ())
    (inside : ∀ a, p.toNat ≤ a.toNat → a.toNat < q.toNat → v.image.contains a = true)
    (free : ∀ n, Arrives P turns (v.moved q (c.setReg .scratch2 n) m))
    (overflow : ∀ n, Arrives P turns (v.moved v.image.exceptions.throwStackOverflow
      (c.setReg .scratch2 n) (v.yellowDisabled m))) :
    Arrives P (turns + 3 * ctx.settings.shadowPages.toNat) (v.moved p c m) := by
  unfold Emit.bangShadow at lay
  have lay := lay.settings_bind
  by_cases on : ctx.settings.stackBanging = true
  · have lay := lay.ite_pos on
    rw [settings] at lay
    exact .bangs h thread base Nat.one_pos (by rw [Nat.one_mul]; exact room) lay inside free overflow
  · obtain ⟨rfl, -⟩ := (lay.ite_neg on).ended
    rw [← c.setReg_reg .scratch2]
    exact (free _).le (by omega)

end Vm
end TemplateVm
