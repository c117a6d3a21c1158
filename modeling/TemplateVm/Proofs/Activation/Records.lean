import TemplateVm.Proofs.Activation.Leaving
import TemplateVm.Proofs.Activation.Locks

set_option autoImplicit false
set_option synthInstance.maxSize 100000

/-!
# Monitor records

Entering a monitor searches the records for a free one, from the lowest on and not past a record of
the same object. If there is none, the operands are moved down by a record and the new record names
whatever was there. Leaving a monitor searches for the lowest record of the object.
-/
namespace TemplateVm

open Memory (Guarded load load_word_of_double)
open Guest Emit Template

/-! ## Lists of records -/

section

variable {r s : UInt64} {objects : List UInt64} {k : Nat}

/-- The free record that an object gets: the last one ahead of its own first record. -/
def freeMonitor? (r : UInt64) : List UInt64 → Option Nat
  | [] => none
  | s :: objects =>
    if s = r then none
    else ((freeMonitor? r objects).map (· + 1)).or (if s = 0 then some 0 else none)

/-- The records with one more for the object, which is a new one if no free one is found. -/
def takeMonitor (r : UInt64) (objects : List UInt64) : List UInt64 :=
  match freeMonitor? r objects with
  | some k => objects.set k r
  | none => r :: objects

theorem getElem?_freeMonitor? (found : freeMonitor? r objects = some k) :
    objects[k]? = some 0 := by
  induction objects generalizing k with
  | nil => cases found
  | cons s objects ih =>
    unfold freeMonitor? at found
    split at found
    · cases found
    · cases later : freeMonitor? r objects with
      | some j =>
        rw [later] at found
        cases found
        exact ih later
      | none =>
        rw [later] at found
        by_cases free : s = 0
        · simp [free] at found
          subst found free
          rfl
        · simp [free] at found

/-- Of the records that name an object, there is one more for that object. -/
theorem count_takeMonitor (r : UInt64) (objects : List UInt64) (some : s ≠ 0) :
    (takeMonitor r objects).count s = (r :: objects).count s := by
  unfold takeMonitor
  split
  · next k found =>
    obtain ⟨inside, free⟩ := List.getElem?_eq_some_iff.mp (getElem?_freeMonitor? found)
    rw [List.count_set inside, free, List.count_cons]
    simp [some.symm]
  · rfl

/-- Of the records that name an object, there is one less for the object whose record is freed. -/
theorem count_set_zero (named : objects[k]? = some r) (some : s ≠ 0) :
    (objects.set k 0).count s = (objects.erase r).count s := by
  obtain ⟨inside, name⟩ := List.getElem?_eq_some_iff.mp named
  rw [List.count_set inside, name, List.count_erase]
  simp [some.symm]

end

/-! ## The search -/

variable {P : Vm → Prop} {turns : Nat} {v : Vm} {q q' r s : UInt64} {c : Cpu} {m m' : Guarded}
  {a : Activation} {b : Program} {bcp p : UInt64} {x : Contents} {place : CodeLabel → UInt64}
  {ctx : CodeContext} {inStub : Bool} {K S : List CodeLabel} {objects : List UInt64} {k l n : Nat}

namespace Activation

/-- The next record follows at once. -/
theorem record_succ (a : Activation) (k : Nat) : a.record k + 16 = a.record (k + 1) := by
  rw [record, record, UInt64.add_assoc, Nat.mul_succ]
  exact congrArg (a.top + ·) (UInt64.ofNat_add _ _).symm

namespace Placed

/-- The object of a record is loaded. -/
theorem runRecordLoad {base : Register} (h : a.Placed l n c m) (monitors : a.Monitors objects m)
    (named : objects[k]? = some s)
    (i : v.image.code.Fetches q (.load .scratch1 (.base base 8) .double false))
    (here : c.reg base = a.record k)
    (next : Vm.Arrives P turns (v.moved (q + 4) (c.setReg .scratch1 s) m)) :
    Vm.Arrives P (turns + 1) (v.moved q c m) := by
  have inside := (List.getElem?_eq_some_iff.mp named).1
  have extent := monitors.records
  have bound := a.frame.toNat_lt
  have operands := h.fits.operands
  have frame := h.fits.frame
  have start := monitors.toNat_record (k := k) (by omega)
  have eight : (8 : UInt64).toNat = 8 := rfl
  have name : (a.record k + 8).toNat = a.top.toNat + 16 * k + 8 := by
    rw [toNat_add_of_lt (by omega), start, eight]
  have bytes : Width.double.bytes.toNat = 8 := rfl
  exact .loadAt here i name (h.fits.clearStack.open (by omega) (by omega))
    (monitors.names k s named) next

/-- A record is looked at. If it is free, it is the one that has been found. -/
theorem runLookAt (h : a.Placed l n c m) (monitors : a.Monitors objects m)
    (named : objects[k]? = some s)
    (i₁ : v.image.code.Fetches q (.load .scratch1 (.base .x3 8) .double false))
    (i₂ : v.image.code.Fetches (q + 4) (.compare .scratch1 (.imm 0)))
    (i₃ : v.image.code.Fetches (q + 4 + 4) (.select .x1 .x3 .x1 .eq))
    (here : c.reg .x3 = a.record k)
    (next : ∀ c', c.Spares c' [.x1, .scratch1] → c'.reg .scratch1 = s →
      c'.reg .x1 = (if s = 0 then a.record k else c.reg .x1) →
      Vm.Arrives P turns (v.moved (q + 4 + 4 + 4) c' m)) :
    Vm.Arrives P (turns + 3) (v.moved q c m) := by
  refine h.runRecordLoad monitors named i₁ here (.compare i₂ (.select i₃ ?_))
  have free : Condition.eq.holds ((c.setReg .scratch1 s).setFlags (.ofCompare s 0)).flags =
      (s == 0) := Condition.holds_eq s 0
  rw [Cpu.reg_setReg_self _ _ (by decide)]
  change Vm.Arrives P turns (v.moved _ (((c.setReg .scratch1 s).setFlags
    (.ofCompare s 0)).setReg .x1 (if Condition.eq.holds ((c.setReg .scratch1 s).setFlags
      (.ofCompare s 0)).flags then _ else _)) m)
  rw [free, Cpu.reg_setFlags, Cpu.reg_setFlags, Cpu.reg_setReg_ne _ _ (by decide),
    Cpu.reg_setReg_ne _ _ (by decide), here]
  refine next _ ((((Cpu.Spares.refl c _).setReg (by simp) _).setFlags _).setReg (by simp) _) ?_ ?_
  · rw [Cpu.reg_setReg_ne _ _ (by decide), Cpu.reg_setFlags, Cpu.reg_setReg_self _ _ (by decide)]
  · rw [Cpu.reg_setReg_self _ _ (by decide)]
    simp

/-- The record ahead of which the search has come is the end of the block only behind the last. -/
theorem record_eq_bottom (monitors : a.Monitors objects m) (inside : k ≤ objects.length) :
    a.record k = a.frame + -64 ↔ k = objects.length := by
  have extent := monitors.records
  have start := monitors.toNat_record inside
  have sixtyFour : (64 : UInt64).toNat = 64 := rfl
  have stop : (a.frame + -64).toNat = a.frame.toNat - 64 := toNat_add_neg (by omega)
  rw [← UInt64.toNat_inj, start, stop]
  omega

/-- Where the search has come to a record. It leaves the free record that the rest of the block has for
    the object, or else the one that it has found before. -/
theorem runSearch {r₀ : UInt64} {j : Nat} (h : a.Placed l n c m) (monitors : a.Monitors objects m)
    (some : r ≠ 0)
    (i₁ : v.image.code.Fetches r₀ (.load .scratch1 (.base .x3 8) .double false))
    (i₂ : v.image.code.Fetches (r₀ + 4) (.compare .scratch1 (.imm 0)))
    (i₃ : v.image.code.Fetches (r₀ + 4 + 4) (.select .x1 .x3 .x1 .eq))
    (i₄ : v.image.code.Fetches (r₀ + 4 + 4 + 4) (.compare .scratch1 (.reg .x0)))
    (i₅ : v.image.code.Fetches (r₀ + 4 + 4 + 4 + 4) (.branchIf .eq q'))
    (i₆ : v.image.code.Fetches (r₀ + 4 + 4 + 4 + 4 + 4) (.binary .add .x3 .x3 (.imm 16)))
    (i₇ : v.image.code.Fetches (r₀ + 4 + 4 + 4 + 4 + 4 + 4) (.compare .x3 (.reg .x2)))
    (i₈ : v.image.code.Fetches (r₀ + 4 + 4 + 4 + 4 + 4 + 4 + 4) (.branchIf .ne r₀))
    (found : q' = r₀ + 4 + 4 + 4 + 4 + 4 + 4 + 4 + 4) (object : c.reg .x0 = r)
    (bottom : c.reg .x2 = a.frame + -64) (here : c.reg .x3 = a.record k)
    (left : k + j = objects.length)
    (next : ∀ c', c.Spares c' [.x1, .x3, .scratch1] →
      c'.reg .x1 = (freeMonitor? r (objects.drop k)).elim (c.reg .x1) (fun j => a.record (k + j)) →
      Vm.Arrives P turns (v.moved q' c' m)) :
    Vm.Arrives P (turns + (8 * j + 2)) (v.moved (r₀ + 4 + 4 + 4 + 4 + 4 + 4) c m) := by
  induction j generalizing c k with
  | zero =>
    obtain rfl : k = objects.length := left
    have ends : Condition.ne.holds (.ofCompare (c.reg .x3) (c.reg .x2)) = false := by
      rw [Condition.holds_ne, here, bottom, (record_eq_bottom monitors (Nat.le_refl _)).mpr rfl,
        bne_self_eq_false]
    refine .compare i₇ (.branchIf i₈ (fun on => absurd (ends.symm.trans on) Bool.false_ne_true)
      fun _ => ?_)
    rw [← found]
    refine next _ ((Cpu.Spares.refl c _).setFlags _) ?_
    rw [List.drop_length]
    rfl
  | succ j ih =>
    have inside : k < objects.length := by omega
    have again : Condition.ne.holds (.ofCompare (c.reg .x3) (c.reg .x2)) = true := by
      rw [Condition.holds_ne, bne_iff_ne, here, bottom, Ne,
        record_eq_bottom monitors (Nat.le_of_lt inside)]
      omega
    have named := List.getElem?_eq_getElem inside
    rw [List.drop_eq_getElem_cons inside] at next
    generalize objects[k] = s at named next
    refine .compare i₇ (.branchIf i₈ (fun _ => ?_) fun off =>
      absurd (off.symm.trans again) Bool.false_ne_true)
    generalize hc₀ : c.setFlags (.ofCompare (c.reg .x3) (c.operand (.reg .x2))) = c₀
    have spares₀ : c.Spares c₀ [.x1, .x3, .scratch1] := hc₀ ▸ (Cpu.Spares.refl c _).setFlags _
    have x1 : c₀.reg .x1 = c.reg .x1 := hc₀ ▸ rfl
    have x3 : c₀.reg .x3 = a.record k := hc₀ ▸ here
    refine (h.spares spares₀ (by decide) (by decide)).runLookAt monitors named i₁ i₂ i₃ x3
      fun c₁ spares₁ scratch₁ x1' => .compare i₄ ?_
    have spares : c.Spares c₁ [.x1, .x3, .scratch1] := spares₀.trans (spares₁.mono (by simp))
    have x0 : c₁.reg .x0 = r := (spares.regs _ (by decide)).trans object
    have flags : Condition.eq.holds (.ofCompare (c₁.reg .scratch1) (c₁.reg .x0)) = (s == r) := by
      rw [Condition.holds_eq, scratch₁, x0]
    rw [x1] at x1'
    refine .branchIf i₅ (fun same => ?_) fun other => .binary i₆ ?_
    · obtain rfl : s = r := beq_iff_eq.mp (flags.symm.trans same)
      refine (next _ (spares.setFlags _) ?_).le (Nat.le_add_right ..)
      rw [Cpu.reg_setFlags, x1', if_neg some, freeMonitor?, if_pos rfl]
      rfl
    · have differ : s ≠ r := beq_eq_false_iff_ne.mp (flags.symm.trans other)
      generalize hc₂ : (c₁.setFlags _).setReg .x3 _ = c₂
      have spares₂ : c.Spares c₂ [.x1, .x3, .scratch1] :=
        hc₂ ▸ (spares.setFlags _).setReg (by simp) _
      have x3' : c₂.reg .x3 = a.record (k + 1) := by
        rw [← hc₂, Cpu.reg_setReg_self _ _ (by decide), Cpu.reg_setFlags,
          spares₁.regs _ (by decide), x3]
        exact a.record_succ k
      have x1₂ : c₂.reg .x1 = if s = 0 then a.record k else c.reg .x1 := by
        rw [← hc₂, Cpu.reg_setReg_ne _ _ (by decide), Cpu.reg_setFlags, x1']
      refine ih (h.spares spares₂ (by decide) (by decide))
        ((spares₂.regs _ (by decide)).trans object) ((spares₂.regs _ (by decide)).trans bottom) x3'
        (by omega) fun c' spares' result => next c' (spares₂.trans spares') ?_
      rw [result, freeMonitor?, if_neg differ, x1₂]
      cases freeMonitor? r (objects.drop (k + 1)) with
      | some j =>
        change a.record (k + 1 + j) = a.record (k + (j + 1))
        exact congrArg a.record (by omega)
      | none =>
        by_cases free : s = 0
        · simp [free]
        · simp [free]

/-- The search leaves the free record that the object gets, or zero. -/
theorem runFindFree (h : a.Placed l n c m) (monitors : a.Monitors objects m)
    (top : load m.bytes (a.frame.toNat - 64) 8 = a.top) (some : r ≠ 0) (object : c.reg .x0 = r)
    (lay : Lays ⟨v.image.code, place⟩ ctx inStub K S findFreeMonitor q q' ())
    (next : ∀ c', c.Spares c' [.x1, .x2, .x3, .scratch1] →
      c'.reg .x1 = (freeMonitor? r objects).elim 0 a.record →
        Vm.Arrives P turns (v.moved q' c' m)) :
    Vm.Arrives P (turns + (8 * objects.length + 6)) (v.moved q c m) := by
  unfold findFreeMonitor at lay
  obtain ⟨again, lay⟩ := lay.newLabel_bind
  obtain ⟨entry, lay⟩ := lay.newLabel_bind
  obtain ⟨found, lay⟩ := lay.newLabel_bind
  obtain ⟨i₁, lay⟩ := lay.emit_bind
  obtain ⟨i₂, lay⟩ := lay.emit_bind
  obtain ⟨i₃, lay⟩ := lay.emit_bind
  obtain ⟨i₄, lay⟩ := lay.emitTo_bind
  obtain ⟨start, lay⟩ := lay.bind_bind
  obtain ⟨j₁, lay⟩ := lay.emit_bind
  obtain ⟨j₂, lay⟩ := lay.emit_bind
  obtain ⟨j₃, lay⟩ := lay.emit_bind
  obtain ⟨j₄, lay⟩ := lay.emit_bind
  obtain ⟨j₅, lay⟩ := lay.emitTo_bind
  obtain ⟨j₆, lay⟩ := lay.emit_bind
  obtain ⟨inside, lay⟩ := lay.bind_bind
  obtain ⟨j₇, lay⟩ := lay.emit_bind
  obtain ⟨j₈, lay⟩ := lay.emitTo_bind
  obtain ⟨behind, rfl⟩ := lay.bind
  rw [inside] at i₄
  rw [start] at j₈
  rw [behind] at j₅
  have first : a.record 0 = a.top := UInt64.add_zero a.top
  refine .mov i₁ ?_
  have zero : (c.setReg .x1 (c.reg .zero)).reg .x1 = 0 := by
    rw [Cpu.reg_setReg_self _ _ (by decide), Cpu.reg_zero]
  have spares₁ := (Cpu.Spares.refl c [.x1, .x2, .x3, .scratch1]).setReg (r := .x1) (by simp)
    (c.reg .zero)
  refine (h.spares spares₁ (by decide) (by decide)).runFrameLoad i₂ (by decide) (by decide) top
    (.binary i₃ (.branch i₄ ?_))
  generalize hc₂ : ((c.setReg .x1 (c.reg .zero)).setReg .x3 a.top).setReg .x2 _ = c₂
  have spares₂ : c.Spares c₂ [.x1, .x2, .x3, .scratch1] :=
    hc₂ ▸ (spares₁.setReg (by simp) _).setReg (by simp) _
  have x1 : c₂.reg .x1 = 0 := by
    rw [← hc₂, Cpu.reg_setReg_ne _ _ (by decide), Cpu.reg_setReg_ne _ _ (by decide), zero]
  have x2 : c₂.reg .x2 = a.frame + -64 := by
    rw [← hc₂, Cpu.reg_setReg_self _ _ (by decide), Cpu.reg_setReg_ne _ _ (by decide),
      Cpu.reg_setReg_ne _ _ (by decide), h.frame]
    rfl
  have x3 : c₂.reg .x3 = a.record 0 := by
    rw [← hc₂, Cpu.reg_setReg_ne _ _ (by decide), Cpu.reg_setReg_self _ _ (by decide), first]
  refine (h.spares spares₂ (by decide) (by decide)).runSearch monitors some j₁ j₂ j₃ j₄ j₅ j₆ j₇ j₈
    rfl ((spares₂.regs _ (by decide)).trans object) x2 x3 (Nat.zero_add _) fun c' spares result =>
      next c' (spares₂.trans (spares.mono (by simp))) ?_
  rw [result, x1, List.drop_zero]
  simp only [Nat.zero_add]

/-- Where the search for a record of the object has come to a record, `j` of them are left. It ends at
    the first record of the object, or behind the last one. -/
theorem runFindNamed {r₀ : UInt64} {j : Nat} (h : a.Placed l n c m)
    (monitors : a.Monitors objects m)
    (i₁ : v.image.code.Fetches r₀ (.load .scratch1 (.base .x1 8) .double false))
    (i₂ : v.image.code.Fetches (r₀ + 4) (.compare .scratch1 (.reg .x0)))
    (i₃ : v.image.code.Fetches (r₀ + 4 + 4) (.branchIf .eq q'))
    (i₄ : v.image.code.Fetches (r₀ + 4 + 4 + 4) (.binary .add .x1 .x1 (.imm 16)))
    (i₅ : v.image.code.Fetches (r₀ + 4 + 4 + 4 + 4) (.compare .x1 (.reg .x2)))
    (i₆ : v.image.code.Fetches (r₀ + 4 + 4 + 4 + 4 + 4) (.branchIf .ne r₀))
    (object : c.reg .x0 = r) (bottom : c.reg .x2 = a.frame + -64) (here : c.reg .x1 = a.record k)
    (left : k + j = objects.length)
    (missing : r ∉ objects.drop k → ∀ c', c.Spares c' [.x1, .scratch1] →
      Vm.Arrives P turns (v.moved (r₀ + 4 + 4 + 4 + 4 + 4 + 4) c' m))
    (next : r ∈ objects.drop k → ∀ c', c.Spares c' [.x1, .scratch1] →
      c'.reg .x1 = a.record (k + (objects.drop k).idxOf r) → Vm.Arrives P turns (v.moved q' c' m)) :
    Vm.Arrives P (turns + (6 * j + 2)) (v.moved (r₀ + 4 + 4 + 4 + 4) c m) := by
  induction j generalizing c k with
  | zero =>
    obtain rfl : k = objects.length := left
    have ends : Condition.ne.holds (.ofCompare (c.reg .x1) (c.reg .x2)) = false := by
      rw [Condition.holds_ne, here, bottom, (record_eq_bottom monitors (Nat.le_refl _)).mpr rfl,
        bne_self_eq_false]
    refine .compare i₅ (.branchIf i₆ (fun on => absurd (ends.symm.trans on) Bool.false_ne_true)
      fun _ => missing (by simp) _ ((Cpu.Spares.refl c _).setFlags _))
  | succ j ih =>
    have inside : k < objects.length := by omega
    have again : Condition.ne.holds (.ofCompare (c.reg .x1) (c.reg .x2)) = true := by
      rw [Condition.holds_ne, bne_iff_ne, here, bottom, Ne,
        record_eq_bottom monitors (Nat.le_of_lt inside)]
      omega
    have named := List.getElem?_eq_getElem inside
    rw [List.drop_eq_getElem_cons inside] at missing next
    generalize objects[k] = s at named missing next
    refine .compare i₅ (.branchIf i₆ (fun _ => ?_) fun off =>
      absurd (off.symm.trans again) Bool.false_ne_true)
    generalize hc₀ : c.setFlags (.ofCompare (c.reg .x1) (c.operand (.reg .x2))) = c₀
    have spares₀ : c.Spares c₀ [.x1, .scratch1] := hc₀ ▸ (Cpu.Spares.refl c _).setFlags _
    have x1 : c₀.reg .x1 = a.record k := hc₀ ▸ here
    refine (h.spares spares₀ (by decide) (by decide)).runRecordLoad monitors named i₁ x1
      (.compare i₂ ?_)
    have spares₁ := spares₀.setReg (r := .scratch1) (by simp) s
    have flags : Condition.eq.holds (.ofCompare ((c₀.setReg .scratch1 s).reg .scratch1)
        ((c₀.setReg .scratch1 s).reg .x0)) = (s == r) := by
      rw [Condition.holds_eq, Cpu.reg_setReg_self _ _ (by decide),
        (spares₁.regs .x0 (by decide)).trans object]
    have x1' : (c₀.setReg .scratch1 s).reg .x1 = a.record k :=
      (Cpu.reg_setReg_ne _ _ (by decide)).trans x1
    refine .branchIf i₃ (fun same => ?_) fun other => .binary i₄ ?_
    · obtain rfl : s = r := beq_iff_eq.mp (flags.symm.trans same)
      refine (next List.mem_cons_self _ (spares₁.setFlags _) ?_).le (Nat.le_add_right ..)
      rw [Cpu.reg_setFlags, x1', List.idxOf_cons_self]
      rfl
    · have differ : s ≠ r := beq_eq_false_iff_ne.mp (flags.symm.trans other)
      generalize hc₂ : (Cpu.setFlags _ _).setReg .x1 _ = c₂
      have spares₂ : c.Spares c₂ [.x1, .scratch1] :=
        hc₂ ▸ (spares₁.setFlags _).setReg (by simp) _
      have x1₂ : c₂.reg .x1 = a.record (k + 1) := by
        rw [← hc₂, Cpu.reg_setReg_self _ _ (by decide), Cpu.reg_setFlags, x1']
        exact a.record_succ k
      refine ih (h.spares spares₂ (by decide) (by decide))
        ((spares₂.regs _ (by decide)).trans object) ((spares₂.regs _ (by decide)).trans bottom) x1₂
        (by omega) (fun out c' spares' => missing ?_ c' (spares₂.trans spares'))
        fun mem c' spares' result => next (List.mem_cons_of_mem _ mem) c' (spares₂.trans spares') ?_
      · exact List.not_mem_cons_of_ne_of_not_mem differ.symm out
      · rw [result, List.idxOf_cons, beq_false_of_ne differ, cond_false]
        exact congrArg a.record (by omega)

end Placed
end Activation

/-! ## A new record -/

/-- The operands are where their words are. -/
theorem Value.In.moved {k k' : Nat} {w : Value} (h : w.In m k)
    (same : load m'.bytes k' 8 = load m.bytes k 8) : w.In m' k' := by
  cases w <;> simp only [Value.In, load_word_of_double] at h ⊢ <;> rwa [same]

theorem HoldsStack.moved {k k' : Nat} {stack : List Value} (h : HoldsStack m k stack)
    (same : ∀ i < depth stack, load m'.bytes (k' + 8 * i) 8 = load m.bytes (k + 8 * i) 8) :
    HoldsStack m' k' stack := by
  induction stack generalizing k k' with
  | nil => trivial
  | cons w stack ih =>
    obtain ⟨top, below⟩ := h
    have some := top.words_pos
    have words : depth (w :: stack) = w.words + depth stack := rfl
    refine ⟨top.moved (same 0 (by omega)), ih below fun i hi => ?_⟩
    have here := same (w.words + i) (by omega)
    rwa [Nat.mul_add, ← Nat.add_assoc, ← Nat.add_assoc] at here

/-- Where the words up to an address are moved down by the size of a record, `j` of them are left. No
    word is overwritten before it is read. -/
theorem Vm.runMoveDown {r₀ : UInt64} {lo hi j : Nat}
    (i₁ : v.image.code.Fetches r₀ (.load .scratch1 (.base .x2 16) .double false))
    (i₂ : v.image.code.Fetches (r₀ + 4) (.store .scratch1 (.base .x2 0) .double))
    (i₃ : v.image.code.Fetches (r₀ + 4 + 4) (.binary .add .x2 .x2 (.imm 8)))
    (i₄ : v.image.code.Fetches (r₀ + 4 + 4 + 4) (.compare .x2 (.reg .x1)))
    (i₅ : v.image.code.Fetches (r₀ + 4 + 4 + 4 + 4) (.branchIf .ne r₀))
    (clear : m.Clear lo hi) (low : lo ≤ (c.reg .x2).toNat) (high : (c.reg .x1).toNat + 16 ≤ hi)
    (bound : hi < 2 ^ 64) (left : (c.reg .x2).toNat + 8 * j = (c.reg .x1).toNat)
    (next : ∀ c' m', c.Spares c' [.x2, .scratch1] →
      m.Changed m' (c.reg .x2).toNat (c.reg .x1).toNat →
      (∀ i < j, load m'.bytes ((c.reg .x2).toNat + 8 * i) 8 =
        load m.bytes ((c.reg .x2).toNat + 16 + 8 * i) 8) →
      Vm.Arrives P turns (v.moved (r₀ + 4 + 4 + 4 + 4 + 4) c' m')) :
    Vm.Arrives P (turns + (5 * j + 2)) (v.moved (r₀ + 4 + 4 + 4) c m) := by
  induction j generalizing c m with
  | zero =>
    have same : c.reg .x2 = c.reg .x1 := UInt64.toNat_inj.mp left
    have ends : Condition.ne.holds (.ofCompare (c.reg .x2) (c.reg .x1)) = false := by
      rw [Condition.holds_ne, same, bne_self_eq_false]
    refine .compare i₄ (.branchIf i₅ (fun on => absurd (ends.symm.trans on) Bool.false_ne_true)
      fun _ => next _ m ((Cpu.Spares.refl c _).setFlags _) (.refl m _ _) nofun)
  | succ j ih =>
    have differ : c.reg .x2 ≠ c.reg .x1 := by
      rw [← UInt64.toNat_inj.ne]
      omega
    have again : Condition.ne.holds (.ofCompare (c.reg .x2) (c.reg .x1)) = true := by
      rw [Condition.holds_ne, bne_iff_ne]
      exact differ
    have eight : (8 : UInt64).toNat = 8 := rfl
    have sixteen : (16 : UInt64).toNat = 16 := rfl
    have double : Width.double.bytes.toNat = 8 := rfl
    have source : (c.reg .x2 + 16).toNat = (c.reg .x2).toNat + 16 := toNat_add_of_lt (by omega)
    have following : (c.reg .x2 + 8).toNat = (c.reg .x2).toNat + 8 := toNat_add_of_lt (by omega)
    refine .compare i₄ (.branchIf i₅ (fun _ => ?_) fun off =>
      absurd (off.symm.trans again) Bool.false_ne_true)
    generalize hc₀ : c.setFlags _ = c₀
    have spares₀ : c.Spares c₀ [.x2, .scratch1] := hc₀ ▸ (Cpu.Spares.refl c _).setFlags _
    have x2 : c₀.reg .x2 = c.reg .x2 := hc₀ ▸ rfl
    refine .loadAt x2 i₁ source (clear.open (by omega) (by omega)) rfl ?_
    change Vm.Arrives P _
      (v.moved _ (c₀.setReg .scratch1 (load m.bytes ((c.reg .x2).toNat + 16) 8)) m)
    generalize word : load m.bytes ((c.reg .x2).toNat + 16) 8 = w
    have spares₁ := spares₀.setReg (r := .scratch1) (by simp) w
    have x2' : (c₀.setReg .scratch1 w).reg .x2 = c.reg .x2 := by
      rw [Cpu.reg_setReg_ne _ _ (by decide), x2]
    have ok : m.Open (c.reg .x2) 8 := clear.open low (by omega)
    refine .storeAt x2' i₂ (by rwa [UInt64.add_zero]) (.binary i₃ ?_)
    rw [UInt64.add_zero, Cpu.reg_setReg_self _ _ (by decide), x2']
    change Vm.Arrives P _ (v.moved _ ((c₀.setReg .scratch1 w).setReg .x2 (c.reg .x2 + 8))
      (m.put (c.reg .x2) 8 w))
    generalize hc₂ : (c₀.setReg .scratch1 w).setReg .x2 (c.reg .x2 + 8) = c₂
    have spares₂ : c.Spares c₂ [.x2, .scratch1] := hc₂ ▸ spares₁.setReg (by simp) _
    have x1 : c₂.reg .x1 = c.reg .x1 := spares₂.regs _ (by decide)
    have x2₂ : c₂.reg .x2 = c.reg .x2 + 8 := hc₂ ▸ Cpu.reg_setReg_self _ _ (by decide)
    have put : m.Changed (m.put (c.reg .x2) 8 w) (c.reg .x2).toNat (c.reg .x1).toNat :=
      (Guarded.changed_put m _ 8 w).mono (Nat.le_refl _) (by omega)
    refine ih clear.put (by rw [x2₂, following]; omega) (by rwa [x1])
      (by rw [x1, x2₂, following]; omega) fun c' m' spares' changed moved =>
        next c' m' (spares₂.trans spares') ?_ fun i hi => ?_
    · rw [x1, x2₂, following] at changed
      exact put.trans (changed.mono (by omega) (Nat.le_refl _))
    · rw [x1, x2₂, following] at changed
      rw [x2₂, following] at moved
      cases i with
      | zero =>
        rw [Nat.mul_zero, Nat.add_zero, Nat.add_zero, word,
          (changed.agrees (.inl (Nat.le_refl _))).load (Nat.le_refl _) (Nat.le_refl _),
          Guarded.load_put ok]
      | succ i =>
        have here := moved i (by omega)
        rw [Guarded.load_put_of_disjoint (.inr (by omega))] at here
        rwa [show (c.reg .x2).toNat + 8 * (i + 1) = (c.reg .x2).toNat + 8 + 8 * i by omega,
          show (c.reg .x2).toNat + 16 + 8 * (i + 1) = (c.reg .x2).toNat + 8 + 16 + 8 * i by omega]

/-- The activation with one more monitor record. -/
def Activation.grown (a : Activation) : Activation := { a with top := a.top - 16, sp := a.sp - 16 }

/-- The new record lies below the others, where an operand was before. It names whatever that operand
    was until it is given an object. -/
theorem Activation.Monitors.grow (h : a.Monitors objects m) (room : 16 ≤ a.top.toNat)
    (records : m.Agrees m' (a.top.toNat - 16) (a.frame.toNat - 64)) :
    a.grown.Monitors (load m.bytes (a.top.toNat - 8) 8 :: objects) m' := by
  have extent := h.records
  have sixteen : (16 : UInt64).toNat = 16 := rfl
  have top : a.grown.top.toNat = a.top.toNat - 16 :=
    UInt64.toNat_sub_of_le _ _ (UInt64.le_iff_toNat_le.mpr room)
  refine ⟨?_, fun k r named => ?_⟩
  · rw [top, List.length_cons]
    change _ = a.frame.toNat
    omega
  · rw [top]
    cases k with
    | zero =>
      cases named
      rw [records.load (by omega) (by omega)]
      congr 1
      omega
    | succ k =>
      have lt := (List.getElem?_eq_some_iff.mp named).1
      rw [List.length_cons] at lt
      rw [records.load (by omega) (by omega),
        show a.top.toNat - 16 + 16 * (k + 1) + 8 = a.top.toNat + 16 * k + 8 by omega]
      exact h.names k r named

/-- The operands lie a record further down, and the frame says so. -/
theorem Stands.grow {c' : Cpu} {m₁ : Guarded} (h : Stands a b bcp p x v c m)
    (room : a.low + 8 * b.maxStack + 16 ≤ a.top.toNat)
    (spares : c.Spares c' [.x1, .x2, .scratch1, .sp, .operands]) (sp : c'.reg .sp = a.sp - 16)
    (operands : c'.reg .operands = p - 16)
    (put : m.Changed m₁ (a.frame.toNat - 64) (a.frame.toNat - 56))
    (top : load m₁.bytes (a.frame.toNat - 64) 8 = a.top - 16)
    (moved : m₁.Changed m' (p.toNat - 16) (a.top.toNat - 16))
    (same : ∀ i < depth x.stack,
      load m'.bytes (p.toNat - 16 + 8 * i) 8 = load m₁.bytes (p.toNat + 8 * i) 8) :
    Stands a.grown b bcp (p - 16) x v c' m' := by
  have f := (h.fits.changed put).changed moved
  have records := f.records
  have thread := f.thread
  have heap := f.heap
  have bottom := f.operands
  have frame := f.frame
  have extent := f.top
  have depth' := h.top
  have bounded := h.bounded
  have sixteen : (16 : UInt64).toNat = 16 := rfl
  have lower {n : UInt64} (enough : 16 ≤ n.toNat) : (n - 16).toNat = n.toNat - 16 :=
    UInt64.toNat_sub_of_le _ _ (UInt64.le_iff_toNat_le.mpr enough)
  have p' := lower (n := p) (by omega)
  have top' := lower (n := a.top) (by omega)
  have reg (r : Register) (fixed : r ∉ [.x1, .x2, .scratch1, .sp, .operands]) := spares.regs r fixed
  have registers := h.registers
  -- what lies neither among the operands nor in the word for their end
  have kept (s t : Nat) (below : t ≤ p.toNat - 16 ∨ a.frame.toNat - 56 ≤ s) : m.Agrees m' s t :=
    (put.agrees (by omega)).trans (moved.agrees (by omega))
  have loaded := h.loaded.agrees records (kept 0x10000 a.heap.toNat (.inl (by omega)))
  have idle := h.idle.agrees (kept a.thread.toNat (a.thread.toNat + 8) (.inl (by omega)))
    (kept (a.thread.toNat + 48) (a.thread.toNat + 52) (.inl (by omega)))
  have upper := kept (a.frame.toNat - 48) (a.frame.toNat - 16) (.inr (by omega))
  have stored := h.heap.agrees (kept a.heap.toNat a.thread.toNat (.inl (by omega)))
  have word (k : Nat) (inside : 24 ≤ k ∧ k ≤ 48) :
      load m'.bytes (a.frame.toNat - k) 8 = load m.bytes (a.frame.toNat - k) 8 :=
    upper.load (by omega) (by omega)
  exact {
    registers :=
      ⟨(reg _ (by decide)).trans registers.thread, (reg _ (by decide)).trans registers.frame,
        (reg _ (by decide)).trans registers.locals, (reg _ (by decide)).trans registers.cache,
        (reg _ (by decide)).trans registers.dispatch, sp,
        (reg _ (by decide)).trans registers.bytecode, operands⟩
    fits := { f with
      operands := by
        change a.low + 8 * b.maxStack ≤ (a.top - 16).toNat
        omega
      top := by
        change (a.top - 16).toNat + 64 ≤ a.frame.toNat
        omega }
    loaded := { loaded with classes := fun id known => { loaded.classes id known with } }
    idle := { idle with }
    framed := {
      method := (word 24 (by decide)).trans h.framed.method
      cache := (word 40 (by decide)).trans h.framed.cache
      locals := (word 48 (by decide)).trans h.framed.locals
      top := by
        change load m'.bytes (a.frame.toNat - 64) 8 = a.top - 16
        rw [(moved.agrees (s := a.frame.toNat - 64) (t := a.frame.toNat - 56) (by omega)).load
          (Nat.le_refl _) (by omega), top] }
    locals := h.locals.agrees frame (kept _ _ (.inr (by omega)))
    stack := by
      rw [p']
      refine (h.stack.agrees (put.agrees (s := p.toNat) (t := a.top.toNat) (by omega))
        (by omega)).moved same
    top := by
      change (p - 16).toNat + 8 * depth x.stack = (a.top - 16).toNat
      omega
    bounded
    heap := { stored with }
    inhabits := { h.inhabits with } }

/-- The operands are moved down by a record. -/
theorem Stands.runGrow (h : Stands a b bcp p x v c m) (monitors : a.Monitors objects m)
    (room : a.low + 8 * b.maxStack + 16 ≤ a.top.toNat)
    (lay : Lays ⟨v.image.code, place⟩ ctx inStub K S growMonitors q q' ())
    (next : ∀ c' m', Stands a.grown b bcp (p - 16) x v c' m' →
      a.grown.Monitors (load m.bytes (a.top.toNat - 8) 8 :: objects) m' →
      m.Changed m' a.low a.frame.toNat → c'.reg .x0 = c.reg .x0 → c'.reg .x1 = a.grown.record 0 →
      Vm.Arrives P turns (v.moved q' c' m')) :
    Vm.Arrives P (turns + (5 * depth x.stack + 9)) (v.moved q c m) := by
  unfold growMonitors at lay
  obtain ⟨again, lay⟩ := lay.newLabel_bind
  obtain ⟨entry, lay⟩ := lay.newLabel_bind
  obtain ⟨i₁, lay⟩ := lay.emit_bind
  obtain ⟨i₂, lay⟩ := lay.emit_bind
  obtain ⟨i₃, lay⟩ := lay.emit_bind
  obtain ⟨i₄, lay⟩ := lay.emit_bind
  obtain ⟨i₅, lay⟩ := lay.emit_bind
  obtain ⟨i₆, lay⟩ := lay.emit_bind
  obtain ⟨i₇, lay⟩ := lay.emitTo_bind
  obtain ⟨start, lay⟩ := lay.bind_bind
  obtain ⟨j₁, lay⟩ := lay.emit_bind
  obtain ⟨j₂, lay⟩ := lay.emit_bind
  obtain ⟨j₃, lay⟩ := lay.emit_bind
  obtain ⟨inside, lay⟩ := lay.bind_bind
  obtain ⟨j₄, lay⟩ := lay.emit_bind
  obtain ⟨j₅, rfl⟩ := lay.emitTo
  rw [inside] at i₇
  rw [start] at j₅
  have f := h.fits
  have thread := f.thread
  have bottom := f.operands
  have frame := f.frame
  have extent := f.top
  have depth' := h.top
  have bounded := h.bounded
  have bound := a.locals.toNat_lt
  have sixtyFour : (64 : UInt64).toNat = 64 := rfl
  have lower {n : UInt64} (enough : 16 ≤ n.toNat) : (n - 16).toNat = n.toNat - 16 :=
    UInt64.toNat_sub_of_le _ _ (UInt64.le_iff_toNat_le.mpr enough)
  have p' := lower (n := p) (by omega)
  have top' := lower (n := a.top) (by omega)
  have placed := Activation.Placed.of_stands h
  refine placed.runFrameLoad i₁ (by decide) (by decide) h.framed.top
    (.binary i₂ (.binary i₃ (.binary i₄ ?_)))
  generalize hc₁ : (((c.setReg .x1 a.top).setReg .sp _).setReg .operands _).setReg .x1 _ = c₁
  have spares₁ : c.Spares c₁ [.x1, .x2, .scratch1, .sp, .operands] := hc₁ ▸
    ((((Cpu.Spares.refl c _).setReg (by simp) _).setReg (by simp) _).setReg (by simp) _).setReg
      (by simp) _
  have values : c₁.reg .x1 = a.top - 16 ∧ c₁.reg .sp = a.sp - 16 ∧ c₁.reg .operands = p - 16 := by
    rw [← hc₁, ← h.registers.sp, ← h.registers.operands]
    simp +decide only [Cpu.reg_setReg, ↓reduceIte]
    exact ⟨rfl, rfl, rfl⟩
  obtain ⟨x1, sp, operands⟩ := values
  refine (placed.spares spares₁ (by decide) (by decide)).runFrameStore i₅ (by decide) (by decide)
    fun put => .mov i₆ (.branch i₇ ?_)
  obtain ⟨address, ok⟩ := f.frameSlot (k := 64) (by decide) (by decide)
  have top : load (m.put (a.frame + -64) 8 (c₁.reg .x1)).bytes (a.frame.toNat - 64) 8 =
      a.top - 16 := by
    rw [← sixtyFour, ← address, Guarded.load_put ok, x1]
  generalize m.put (a.frame + -64) 8 (c₁.reg .x1) = m₁ at put top
  rw [sixtyFour] at put
  replace put : m.Changed m₁ (a.frame.toNat - 64) (a.frame.toNat - 56) :=
    put.mono (Nat.le_refl _) (by omega)
  generalize hc₂ : c₁.setReg .x2 (c₁.reg .operands) = c₂
  have spares₂ : c.Spares c₂ [.x1, .x2, .scratch1, .sp, .operands] :=
    hc₂ ▸ spares₁.setReg (by simp) _
  have x1' : c₂.reg .x1 = a.top - 16 := by rw [← hc₂, Cpu.reg_setReg_ne _ _ (by decide), x1]
  have x2 : c₂.reg .x2 = p - 16 := by rw [← hc₂, Cpu.reg_setReg_self _ _ (by decide), operands]
  refine Vm.runMoveDown j₁ j₂ j₃ j₄ j₅ (f.clearStack.changed put) (by rw [x2]; omega)
    (by rw [x1']; omega) f.locals (j := depth x.stack) (by rw [x1', x2]; omega)
    fun c' m' spares' moved same => ?_
  rw [x1', x2, top', p'] at moved
  rw [x2, p'] at same
  refine next c' m' (h.grow room (spares₂.trans (spares'.mono (by simp))) ?_ ?_ put top moved
    fun i hi => ?_) (monitors.grow (by omega) ?_) ?_ ?_ ?_
  · rw [spares'.regs _ (by decide), ← hc₂, Cpu.reg_setReg_ne _ _ (by decide), sp]
  · rw [spares'.regs _ (by decide), ← hc₂, Cpu.reg_setReg_ne _ _ (by decide), operands]
  · rw [same i hi, Nat.sub_add_cancel (by omega)]
  · exact (put.agrees (by omega)).trans (moved.agrees (by omega))
  · exact (put.mono (by omega) (by omega)).trans (moved.mono (by omega) (by omega))
  · exact (spares₂.trans (spares'.mono (by simp))).regs _ (by decide)
  · rw [spares'.regs _ (by decide), x1']
    exact (UInt64.add_zero _).symm

end TemplateVm
