import TemplateVm.Proofs.Activation.Banging
import TemplateVm.Proofs.Activation.Fields

set_option autoImplicit false
set_option synthInstance.maxSize 100000

/-!
# Fields of null

The first page of memory is guarded. A field of null lies there if its offset is small, so that
loading or storing one faults, and a fault of the interpreter there is a null pointer. The marker is
told nothing, for the barrier has to load the field before it can tell.
-/
namespace TemplateVm

open Memory (Guarded)
open Emit

namespace Memory.Guarded

variable {m m' : Guarded}

/-- The guard of the null page is the oldest. -/
def NullFirst (m : Guarded) : Prop :=
  ∃ later, m.guards = ⟨0, Place.nullPageEnd, GuardTag.nullPage⟩ :: later

theorem NullFirst.congr (h : m.NullFirst) (same : m'.guards = m.guards) : m'.NullFirst :=
  h.imp fun _ first => same.trans first

end Memory.Guarded

namespace Vm

variable {P : Vm → Prop} {turns : Nat} {v : Vm} {p q q' n : UInt64} {c : Cpu} {m : Guarded}
  {ctx : CodeContext} {inStub : Bool} {K S : List CodeLabel} {F : Finished}

theorem handleFault_null {fault : MemoryFault} (null : fault.guard = some GuardTag.nullPage)
    (inside : v.image.contains p = true) (steps : UInt64) (watched : List (UInt64 × UInt64)) :
    handleFault fault ((v.moved p c m).counted steps watched) =
      .ok () ((v.moved v.image.exceptions.throwNullPointer c m).counted steps watched) := by
  unfold handleFault
  refine (bind_ok (m := (get : Action Vm)) rfl).trans ?_
  exact (congrFun (if_pos ⟨null, inside⟩) _).trans rfl

/-- The code is part of the image, and all of it belongs to the interpreter. -/
def Interprets (v : Vm) (code : CodeCache) : Prop :=
  ∀ p j, code.Fetches p j → v.image.code.Fetches p j ∧ v.image.contains p = true

/-- An instruction of the interpreter that touches the null page leads to the null pointer entry. -/
theorem Arrives.nullFault {i : Instruction UInt64} {a : UInt64} {access : MemoryAccess}
    (inside : v.Interprets F.code) (fetch : F.code.Fetches p i)
    (effect : i.effect { c with pc := p } m =
      .error (.memoryFault ⟨a, access, some GuardTag.nullPage⟩))
    (next : Arrives P turns (v.moved v.image.exceptions.throwNullPointer c m)) :
    Arrives P (turns + 1) (v.moved p c m) := by
  obtain ⟨fetched, within⟩ := inside p i fetch
  exact .fault fetched effect (handleFault_null rfl within) ⟨fun quiet => quiet, rfl, rfl⟩ next

/-- A field of null that is near enough to be in the null page. -/
theorem fault?_nullField {r : Register} (null : m.NullFirst) (base : c.reg r = 0)
    (small : (c.reg .x1).toNat < 0x1000) (positive : 0 < n)
    (access : MemoryAccess) : m.fault? (c.target (.index r .x1 0)) n access =
      some ⟨c.reg .x1, access, some GuardTag.nullPage⟩ := by
  have target : c.target (.index r .x1 0) = c.reg .x1 := by
    rw [Cpu.target_index, base, UInt64.zero_add]
    exact UInt64.shiftLeft_zero
  obtain ⟨later, first⟩ := null
  rw [target]
  exact Guarded.fault?_of_first first rfl access (UInt64.lt_iff_toNat_lt.mpr small) positive

section
variable (null : m.NullFirst) (inside : v.Interprets F.code)
include null inside

/-- A field of null is never loaded. -/
theorem Arrives.readField_null (base : c.reg .x0 = 0) (small : (c.reg .x1).toNat < 0x1000)
    {state : TopOfStack} (lay : Lays F ctx inStub K S (Emit.readField state) q q' ())
    (next : Arrives P turns (v.moved v.image.exceptions.throwNullPointer c m)) :
    Arrives P (turns + 1) (v.moved q c m) := by
  have load {k : Width} {signed : Bool} (lay : Lays F ctx inStub K S
      (Emit.emit (.load .x0 (.index .x0 .x1 0) k signed)) q q' ()) :
      Arrives P (turns + 1) (v.moved q c m) := by
    refine .nullFault (i := .load .x0 (.index .x0 .x1 0) k signed) inside lay.emit.1
      (effect_load_fault (fault?_nullField null base small ?_ .read)) next
    cases k <;> decide
  have loadFloat {k : Precision} (lay : Lays F ctx inStub K S
      (Emit.emit (.loadFloat .v0 (.index .x0 .x1 0) k)) q q' ()) :
      Arrives P (turns + 1) (v.moved q c m) := by
    refine .nullFault (i := .loadFloat .v0 (.index .x0 .x1 0) k) inside lay.emit.1
      (effect_loadFloat_fault (fault?_nullField null base small ?_ .read)) next
    cases k <;> decide
  cases state with
  | byte | boolean | char | short | int | long | object | none => exact load lay
  | float | double => exact loadFloat lay

/-- The barrier comes past its test of the flag at most. -/
theorem Arrives.markBarrier_null (ok : m.Open Place.markingActive 1) (base : c.reg .x3 = 0)
    (small : (c.reg .x1).toNat < 0x1000)
    (lay : Lays F ctx inStub K S (Emit.markBarrier .x3 .x1) q q' ())
    (fault : ∀ n,
      Arrives P turns (v.moved v.image.exceptions.throwNullPointer (c.setReg .scratch1 n) m))
    (next : ∀ n, Arrives P turns (v.moved q' (c.setReg .scratch1 n) m)) :
    Arrives P (turns + 4) (v.moved q c m) := by
  by_cases on : ctx.settings.markBarrier = true
  · obtain ⟨r, laid⟩ := lay.barrier on
    refine .movImm (inside _ _ laid.flag).1 <| .loadAt (Cpu.reg_setReg_self _ _ (by decide))
      (inside _ _ laid.active).1 rfl ok rfl ?_
    rw [Cpu.setReg_setReg]
    refine .branchZero (inside _ _ laid.off).1 (fun _ => (next _).le (by omega)) fun _ => ?_
    refine .nullFault (i := .load .x5 (.index .x3 .x1 0) .double false) inside laid.old
      (effect_load_fault (fault?_nullField null ?_ ?_ (by decide) .read)) (fault _)
    · rw [Cpu.reg_setReg_ne _ _ (by decide)]
      exact base
    · rw [Cpu.reg_setReg_ne _ _ (by decide)]
      exact small
  · obtain rfl := lay.barrier_off on
    rw [← c.setReg_reg .scratch1]
    exact (next _).le (by omega)

/-- A field of null is never written. -/
theorem Arrives.writeField_null (ok : m.Open Place.markingActive 1) (base : c.reg .x3 = 0)
    (small : (c.reg .x1).toNat < 0x1000) {state : TopOfStack}
    (lay : Lays F ctx inStub K S (Emit.writeField state) q q' ())
    (next : ∀ n,
      Arrives P turns (v.moved v.image.exceptions.throwNullPointer (c.setReg .scratch1 n) m)) :
    Arrives P (turns + 5) (v.moved q c m) := by
  have store {k : Width} {q : UInt64} {n : UInt64}
      (i : F.code.Fetches q (.store .x0 (.index .x3 .x1 0) k)) :
      Arrives P (turns + 1) (v.moved q (c.setReg .scratch1 n) m) := by
    refine .nullFault (i := .store .x0 (.index .x3 .x1 0) k) inside i
      (effect_store_fault (fault?_nullField null ?_ ?_ ?_ .write)) (next n)
    · rw [Cpu.reg_setReg_ne _ _ (by decide)]
      exact base
    · rw [Cpu.reg_setReg_ne _ _ (by decide)]
      exact small
    · cases k <;> decide
  have storeFloat {k : Precision} (i : F.code.Fetches q (.storeFloat .v0 (.index .x3 .x1 0) k)) :
      Arrives P (turns + 1) (v.moved q c m) := by
    refine .nullFault (i := .storeFloat .v0 (.index .x3 .x1 0) k) inside i
      (effect_storeFloat_fault (fault?_nullField null base small ?_ .write)) ?_
    · cases k <;> decide
    · rw [← c.setReg_reg .scratch1]
      exact next _
  have marked (lay : Lays F ctx inStub K S (do
      Emit.markBarrier .x3 .x1
      str .x0 (.index .x3 .x1 0)) q q' ()) : Arrives P (turns + 5) (v.moved q c m) := by
    obtain ⟨⟨⟩, r, barrier, lay⟩ := lay.split
    obtain ⟨i, -⟩ := lay.emit
    exact .markBarrier_null null inside ok base small barrier (fun n => (next n).le (by omega))
      fun n => store i
  have plain {k : Width} (lay : Lays F ctx inStub K S
      (Emit.emit (.store .x0 (.index .x3 .x1 0) k)) q q' ()) :
      Arrives P (turns + 1) (v.moved q c m) := by
    rw [← c.setReg_reg .scratch1]
    exact store lay.emit.1
  cases state with
  | byte | boolean | char | short | int | long => exact (plain lay).le (by omega)
  | float | double => exact (storeFloat lay.emit.1).le (by omega)
  | object | none => exact marked lay

end
end Vm
end TemplateVm
