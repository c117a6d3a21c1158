import Mathlib.Algebra.BigOperators.Group.List.Basic
import TemplateVm.Proofs.Safepoints.Detour
import TemplateVm.Vm.Host

set_option autoImplicit false

/-!
# What the counters say

The host reads one counter for all bytecodes and one for each opcode. A run adds to them what it
executes and nothing else, whether a safepoint is entered on the way to its first bytecode or not.
In a new machine all of them are zero, and as long as only runs change them the counter for all is
the sum of the others, modulo 2^64.
-/
namespace TemplateVm

open Memory (Guarded load)
open Guest

/-! ## Sums over the opcodes -/

/-- Every byte that is executed has one counter that the host reads. -/
theorem Opcode.sum_countP_byte (ran : List Opcode) :
    (Opcode.all.toList.map fun o => ran.countP (·.byte = o.byte)).sum = ran.length := by
  have once : ∀ r ∈ Opcode.all.toList,
      (Opcode.all.toList.map fun o => if r.byte = o.byte then 1 else 0).sum = 1 := by decide +kernel
  induction ran with
  | nil => exact List.sum_eq_zero fun n hn => by simp_all
  | cons r ran ih =>
    simp only [List.countP_cons, decide_eq_true_eq, List.sum_map_add, ih, once r r.mem_all,
      List.length_cons]

/-- Sums of numbers that are the same modulo another are. -/
theorem sum_mod_congr {α : Type} {l : List α} {f g : α → Nat} {n : Nat}
    (same : ∀ x ∈ l, f x % n = g x % n) : (l.map f).sum % n = (l.map g).sum % n := by
  rw [List.sum_nat_mod, List.sum_nat_mod (l.map g), List.map_map, List.map_map]
  exact congrArg (fun l : List Nat => l.sum % n) (List.map_congr_left same)

/-- Nothing is lost when zeros are left out. -/
theorem sum_filter_pos {α : Type} (l : List (α × UInt64)) :
    ((l.filter (·.2 > 0)).map (·.2.toNat)).sum = (l.map (·.2.toNat)).sum := by
  induction l with
  | nil => rfl
  | cons x l ih =>
    by_cases pos : x.2 > 0
    · rw [List.filter_cons_of_pos (by simpa using pos), List.map_cons, List.map_cons,
        List.sum_cons, List.sum_cons, ih]
    · have zero : x.2.toNat = 0 := Nat.eq_zero_of_not_pos pos
      rw [List.filter_cons_of_neg (by simpa using pos), List.map_cons, List.sum_cons, ih, zero,
        Nat.zero_add]

namespace Vm

variable {s : Settings} {v w : Vm} {ran : List Opcode}

/-- The counter for all bytecodes. -/
def executions (v : Vm) : UInt64 := load v.world.store.mem.bytes 0x1008 8

/-- The counter for a byte. -/
def executionsOf (v : Vm) (k : UInt8) : UInt64 :=
  load v.world.store.mem.bytes (0x1100 + 8 * k.toNat) 8

/-- The counter for all bytecodes is the sum of those for each of them. -/
def Balanced (v : Vm) : Prop :=
  v.executions.toNat =
    (Opcode.all.toList.map fun o => (v.executionsOf o.byte).toNat).sum % 2 ^ 64

/-- Counting keeps the sum. -/
theorem Balanced.counts (h : v.Balanced)
    (counts : v.world.store.mem.Counts s ran w.world.store.mem)
    (total : s.needsBytecodeCounter = true) (each : s.histogram = true) : w.Balanced := by
  have all : w.executions = v.executions + ran.length.toUInt64 := by
    have grown := counts.total
    rwa [if_pos total] at grown
  have one (o : Opcode) : (w.executionsOf o.byte).toNat % 2 ^ 64 =
      ((v.executionsOf o.byte).toNat + ran.countP (·.byte = o.byte)) % 2 ^ 64 := by
    have grown := counts.each o.byte
    rw [if_pos each] at grown
    rw [executionsOf, grown, UInt64.toNat_add, Nat.mod_mod]
    exact Nat.add_mod_mod ..
  unfold Balanced at h ⊢
  rw [sum_mod_congr fun o _ => one o, List.sum_map_add, Opcode.sum_countP_byte, all,
    UInt64.toNat_add, h, Nat.mod_add_mod]
  exact Nat.add_mod_mod ..

/-! ## What the host reads -/

theorem bytecodeCount_ok (ok : v.world.store.mem.Open Place.bytecodeCounter 8) :
    bytecodeCount v = .ok v.executions v := onMemory_ok ok.readA

/-- The host sees the opcodes that were counted, each with its counter. -/
theorem histogram_ok (clear : v.world.store.mem.Clear 0x1000 0x1f000) :
    ∃ l, histogram v = .ok l v ∧
      (∀ o n, (o, n) ∈ l ↔ n = v.executionsOf o.byte ∧ 0 < n) ∧
      (l.map (·.2.toNat)).sum =
        (Opcode.all.toList.map fun o => (v.executionsOf o.byte).toNat).sum := by
  let counts := Opcode.all.toList.map fun o => (o, v.executionsOf o.byte)
  have read (o : Opcode) : (do
      let count ← Guarded.readA (Place.histogram + o.byte.toUInt64 * 8) 8
      pure (o, count) : Guarded.Action (Opcode × UInt64)) v.world.store.mem =
      .ok (o, v.executionsOf o.byte) v.world.store.mem := by
    have slot := Place.histogram_toNat o.byte
    have bound := o.byte.toNat_lt
    have ok : v.world.store.mem.Open (Place.histogram + o.byte.toUInt64 * 8) 8 := clear.open
      (by omega) (by change _ + 8 ≤ _; omega)
    have readA := ok.readA
    rw [slot] at readA
    exact bind_ok readA
  have perm := List.mergeSort_perm (counts.filter (·.2 > 0)) fun a b =>
    a.2 > b.2 || (a.2 == b.2 && a.1.byte ≤ b.1.byte)
  refine ⟨_, bind_ok (onMemory_ok (mapM_reads fun o _ => read o)), fun o n => ?_, ?_⟩
  · rw [perm.mem_iff, List.mem_filter, List.mem_map]
    constructor
    · rintro ⟨⟨o', -, same⟩, pos⟩
      cases same
      exact ⟨rfl, of_decide_eq_true pos⟩
    · rintro ⟨rfl, pos⟩
      exact ⟨⟨o, o.mem_all, rfl⟩, decide_eq_true pos⟩
  · rw [(perm.map _).sum_nat, sum_filter_pos, List.map_map]
    rfl

end Vm

variable {a : Activation} {b : Program} {s : Settings} {i : Image} {tos : TopOfStack}
  {t t' : State} {w : Vm} {n : Nat}

/-! ## Runs -/

/-- What the host reads now says that so many bytecodes have been executed since, those of the list. -/
def Vm.Tallied (n : Nat) (ran : List Opcode) (v w : Vm) : Prop :=
  ∃ total l, Vm.bytecodeCount w = .ok total w ∧ Vm.histogram w = .ok l w ∧
    total = v.executions + n.toUInt64 ∧
    (∀ o k, (o, k) ∈ l ↔ k = v.executionsOf o.byte + (ran.count o).toUInt64 ∧ 0 < k) ∧
    (v.Balanced → w.Balanced ∧ total.toNat = (l.map (·.2.toNat)).sum % 2 ^ 64)

section
variable (total : s.needsBytecodeCounter = true) (each : s.histogram = true)
include total each

/-- Counters that have grown by what a run executes say so. -/
theorem Enters.tallied {v : Vm} {tos : TopOfStack} (h : Enters a b i tos t' w)
    (run : Guest.steps b n t = some t')
    (counts : v.world.store.mem.Counts s (executedIn b n t) w.world.store.mem) :
    v.Tallied n (executedIn b n t) w := by
  have clear : w.world.store.mem.Clear 0x1000 0x1f000 := by
    obtain ⟨op, v, c, m, -, rfl, -, -, rest, p, -, stands⟩ := h
    have records := stands.fits.records
    have heap := stands.fits.heap
    exact stands.fits.clear.mono (by decide) (by omega)
  obtain ⟨l, read, listed, sum⟩ := Vm.histogram_ok clear
  have all := counts.total
  rw [if_pos total, length_executedIn run] at all
  have one (o : Opcode) : w.executionsOf o.byte =
      v.executionsOf o.byte + ((executedIn b n t).count o).toUInt64 := by
    have grown := counts.each o.byte
    rw [if_pos each] at grown
    refine grown.trans (congrArg (fun n : Nat => v.executionsOf o.byte + n.toUInt64) ?_)
    refine List.countP_congr fun o' _ => ?_
    rw [decide_eq_true_eq, beq_iff_eq]
    exact ⟨Opcode.byte_inj, congrArg _⟩
  refine ⟨_, l, Vm.bytecodeCount_ok (clear.open (by decide) (by decide)), read, all, fun o k => ?_,
    fun balanced => ?_⟩
  · rw [listed, one]
  · have still := balanced.counts counts total each
    refine ⟨still, ?_⟩
    rw [sum]
    exact still

variable (closed : t.Closed) (roomy : a.Roomy s b.maxStack)
  (wide : tos.ofResult = tos ∨ ∀ op, b.operation? t.bci = some op → op.opcode.takes = .none)
  (run : Guest.steps b n t = some t')
include closed roomy wide run

/-- Each bytecode of a run is counted once, and nothing else is. -/
theorem Enters.tallies (h : Enters a b i tos t w) (generated : Image.Generated s i) :
    Vm.Arrives (fun w' => (∃ tos', Enters a b i tos' t' w') ∧
      w.Tallied n (executedIn b n t) w') (n * b.stepTurns) w := by
  refine (h.continues generated closed roomy wide run).mono ?_
  rintro w' ⟨⟨tos', enters⟩, continues⟩
  exact ⟨⟨tos', enters⟩, enters.tallied total each run continues.counts⟩

/-- So it is when a safepoint is entered instead of the first of them. -/
theorem Dispatched.tallies (h : Dispatched a b i tos t w) (armable : Image.Armable s i) :
    Vm.Arrives (fun w' => (∃ tos', Enters a b i tos' t' w') ∧
      w.Tallied n (executedIn b n t) w') (n * b.stepTurns + 35) w := by
  refine (h.runs armable closed roomy wide run).mono ?_
  rintro w' ⟨⟨tos', enters⟩, continues⟩
  exact ⟨⟨tos', enters⟩, enters.tallied total each run continues.counts⟩

end

/-! ## A new machine -/

/-- Nothing is counted before a method is called, whatever classes were loaded. -/
theorem Vm.create_balanced {settings : Settings} {vm : Vm} {world : World}
    (ordered : (MemoryMap.ofSettings settings).Ordered)
    (pages : settings.shadowPages.toNat < 2 ^ 54) (created : create settings = .ok vm)
    (loads : vm.world.Loads world) :
    ({ vm with world } : Vm).executions = 0 ∧ (∀ k, ({ vm with world } : Vm).executionsOf k = 0) ∧
      ({ vm with world } : Vm).Balanced := by
  obtain ⟨m, generated, installed, ⟨booted, spares, -⟩, -⟩ := create_ends ordered created
  have metaspace := ordered.metaspace
  have heap := ordered.heap
  have thread := ordered.thread
  have start : (MemoryMap.ofSettings settings).metaspaceStart.toNat = 0x20000 := rfl
  have blank : (bare settings vm.image).world.store.mem.Clear 0x1000 0x1f000 :=
    guarded_clear ordered (by decide) (by omega)
  obtain ⟨m', run, changed, between, -⟩ := Image.writeTables_ok generated pages blank
  rw [installed] at run
  cases run
  obtain ⟨extended, -⟩ := loads.extends booted
  have later : m.Agrees world.store.mem 0 0x20000 :=
    (spares.trans (extended.spares booted.sound)).agrees
  have zero {j : Nat} (inside : j + 8 ≤ 0x20000)
      (same : (bare settings vm.image).world.store.mem.Agrees m j (j + 8)) :
      load world.store.mem.bytes j 8 = 0 := by
    rw [later.load (Nat.zero_le _) inside, same.load (Nat.le_refl _) (Nat.le_refl _)]
    exact Memory.load_zeros ..
  have none : ({ vm with world } : Vm).executions = 0 :=
    zero (by decide) (changed.agrees (.inl (by decide)))
  have never (k : UInt8) : ({ vm with world } : Vm).executionsOf k = 0 := by
    have byte := k.toNat_lt
    exact zero (by omega) (between.mono (by omega) (by omega))
  refine ⟨none, never, ?_⟩
  unfold Balanced
  rw [none, List.sum_eq_zero fun n hn => ?_]
  · rfl
  · obtain ⟨o, -, rfl⟩ := List.mem_map.mp hn
    rw [never]
    rfl

end TemplateVm
