import TemplateVm.Proofs.Calls.Entering
import TemplateVm.Vm.Host

set_option autoImplicit false
set_option synthInstance.maxSize 100000

/-!
# Method handles

A handle is invoked through a method that is made for the descriptor. Its entry takes the handle from
below the arguments and goes on to the entry of the target with them, whatever the target takes: the
words are counted for the descriptor only.
-/
namespace TemplateVm

open Memory (Guarded load)
open Emit

namespace Memory.Guarded

/-- The number is in memory at the address, below the bound. -/
structure Reads (m : Guarded) (top : Nat) (a w n : UInt64) : Prop where
  opens : m.Open a w
  below : a.toNat + w.toNat ≤ top
  holds : load m.bytes a.toNat w.toNat = n

variable {m m' : Guarded} {top lo hi : Nat} {a w n : UInt64} {l : List Write}

theorem Reads.changed (h : m.Reads top a w n) (changed : m.Changed m' lo hi) (above : top ≤ lo) :
    m'.Reads top a w n where
  opens := h.opens.changed changed
  below := h.below
  holds := by
    rw [(changed.agrees (.inl above)).load (Nat.zero_le _) h.below]
    exact h.holds

/-- Writing above the bound keeps the number. -/
theorem Reads.foldl (h : m.Reads top a w n) (above : ∀ x ∈ l, top ≤ x.address.toNat) :
    (l.foldl Machine.write m).Reads top a w n where
  opens := h.opens.alike alike_foldl
  below := h.below
  holds := by
    refine (load_foldl fun x hx => .inr ?_).trans h.holds
    exact Nat.le_trans h.below (above x hx)

/-- A word that is written is at its place then. -/
theorem write_holds (a n : UInt64) (m : Guarded) :
    Ends (fun _ m' => m'.Open a 8 ∧ load m'.bytes a.toNat 8 = n) (fun (_ : Failure) _ => True)
      (Guarded.write a 8 n m) := by
  unfold Guarded.write
  cases faults : m.fault? a 8 .write with
  | some fault => exact trivial
  | none =>
    have room := Open.of_fault? faults
    exact ⟨room.put, load_put room⟩

end Memory.Guarded

namespace Vm.Arrives

variable {P : Vm → Prop} {turns : Nat} {v : Vm} {c : Cpu} {m : Guarded} {q done : UInt64}
  {words : List UInt64} {top : Nat} {b n : UInt64} {r base : Register} {k : UInt64} {width : Width}

theorem loadReads (i : v.image.code.Fetches q (.load r (.base base k) width false))
    (held : c.reg base = b) (reads : m.Reads top (b + k) width.bytes n)
    (next : Arrives P turns (v.moved (q + 4) (c.setReg r n) m)) :
    Arrives P (turns + 1) (v.moved q c m) := by
  subst held
  refine .load i (by rw [Cpu.target_base]; exact reads.opens) ?_
  rw [Cpu.rebase_base, Cpu.target_base, reads.holds]
  exact next

/-- The words are moved up by one place, the highest first. -/
theorem slideWords (i₁ : v.image.code.Fetches q (.compare .x4 (.reg .operands)))
    (i₂ : v.image.code.Fetches (q + 4) (.branchIf .eq done))
    (i₃ : v.image.code.Fetches (q + 4 + 4) (.load .x5 (.base .x4 (-8)) .double false))
    (i₄ : v.image.code.Fetches (q + 4 + 4 + 4) (.store .x5 (.base .x4 0) .double))
    (i₅ : v.image.code.Fetches (q + 4 + 4 + 4 + 4) (.binary .sub .x4 .x4 (.imm 8)))
    (i₆ : v.image.code.Fetches (q + 4 + 4 + 4 + 4 + 4) (.branch q))
    (size : (c.reg .operands).toNat + 8 * words.length = (c.reg .x4).toNat)
    (pushed : m.Pushed (c.reg .x4).toNat words)
    (clear : m.Clear (c.reg .operands).toNat ((c.reg .x4).toNat + 8))
    (next : ∀ c' m', c.Spares c' [.x4, .x5] →
      m.Changed m' ((c.reg .operands).toNat + 8) ((c.reg .x4).toNat + 8) →
      m'.Pushed ((c.reg .x4).toNat + 8) words → Arrives P turns (v.moved done c' m')) :
    Arrives P (turns + 2 + 6 * words.length) (v.moved q c m) := by
  induction words generalizing c m with
  | nil =>
    change Arrives P (turns + 2) _
    refine .compare i₁ (.branchIf i₂ (fun _ => ?_) fun other => ?_)
    · exact next _ m ((Cpu.Spares.refl c _).setFlags _) (.refl ..) nofun
    · have same : c.reg .x4 = c.reg .operands := UInt64.toNat_inj.mp size.symm
      rw [Cpu.flags_setFlags, Condition.holds_eq] at other
      exact absurd same (beq_eq_false_iff_ne.mp other)
  | cons w words ih =>
    change Arrives P (turns + 2 + 6 * words.length + 6) _
    have eight : (8 : UInt64).toNat = 8 := rfl
    simp only [List.length_cons] at size
    have down : (c.reg .x4 + -8).toNat = (c.reg .x4).toNat - 8 := toNat_add_neg (by omega)
    refine .compare i₁ (.branchIf i₂ (fun same => ?_) fun _ => ?_)
    · rw [Cpu.flags_setFlags, Condition.holds_eq, beq_iff_eq] at same
      have := congrArg UInt64.toNat same
      change (c.reg .x4).toNat = (c.reg .operands).toNat at this
      omega
    have room : m.Open (c.reg .x4) 8 := clear.open (by omega) (by omega)
    have taken : m.Reads (c.reg .x4).toNat (c.reg .x4 + -8) 8 w :=
      ⟨clear.open (by omega) (by omega), by omega, by rw [down]; exact pushed 0 w rfl⟩
    refine .loadReads i₃ rfl taken (.store i₄ ?_ (.binary i₅ (.branch i₆ ?_)))
    · simp +decide only [Cpu.target_base, Cpu.reg_setReg, Cpu.reg_setFlags, ↓reduceIte,
        UInt64.add_zero]
      exact room
    simp +decide only [Cpu.target_base, Cpu.rebase_base, Cpu.operand, Cpu.reg_setReg,
      Cpu.reg_setFlags, ↓reduceIte, UInt64.add_zero]
    change Arrives P _ (v.moved q _ (m.put (c.reg .x4) 8 w))
    generalize hm : m.put (c.reg .x4) 8 w = m₁
    have changed : m.Changed m₁ (c.reg .x4).toNat ((c.reg .x4).toNat + 8) :=
      hm ▸ Guarded.changed_put m (c.reg .x4) 8 w
    have stored : Memory.load m₁.bytes (c.reg .x4).toNat 8 = w := hm ▸ Guarded.load_put room
    generalize hc : Cpu.setReg _ .x4 _ = c₁
    have spares : c.Spares c₁ [.x4, .x5] := hc ▸
      (((Cpu.Spares.refl c _).setFlags _).setReg (by simp) _).setReg (by simp) _
    have operands : c₁.reg .operands = c.reg .operands := spares.regs _ (by decide)
    have x4 : (c₁.reg .x4).toNat = (c.reg .x4).toNat - 8 := by
      rw [← hc, Cpu.reg_setReg_self _ _ (by decide), ← down]
      exact congrArg _ (UInt64.sub_eq_add_neg ..)
    refine ih ?_ ?_ ?_ fun c' m' spares' changed' pushed' => ?_
    · rw [operands, x4]
      omega
    · rw [x4]
      exact pushed.tail.changed changed (Nat.sub_le _ _) (by omega)
    · rw [operands, x4]
      exact (clear.changed changed).mono (Nat.le_refl _) (by omega)
    · rw [operands, x4] at changed'
      rw [x4, show (c.reg .x4).toNat - 8 + 8 = (c.reg .x4).toNat by omega] at pushed'
      refine next c' m' (spares.trans spares') ?_ (.cons ?_ ?_)
      · exact (changed.mono (by omega) (Nat.le_refl _)).trans
          (changed'.mono (Nat.le_refl _) (by omega))
      · rw [Nat.add_sub_cancel]
        refine (((changed'.mono (Nat.le_refl _) (t := (c.reg .x4).toNat) (by omega)).agrees
          (s := (c.reg .x4).toNat) (.inr (Nat.le_refl _))).load (Nat.le_refl _)
            (Nat.le_refl _)).trans stored
      · rw [Nat.add_sub_cancel]
        exact pushed'

end Vm.Arrives

/-! ## The entry -/

/-- A handle with what its invocation goes through: the method that invokes it, and its target. -/
structure Invocation where
  invoker : UInt64
  constMethod : UInt64
  handle : UInt64
  target : UInt64
  /-- Where the target is entered. -/
  entry : UInt64

namespace Invocation

variable {i : Invocation} {count top lo hi : Nat} {m m' : Guarded} {l : List Write}

/-- The records, below the bound, have the invoker take this number of words, the handle among them,
    and lead from a handle that is there to its target. -/
structure Recorded (i : Invocation) (count top : Nat) (m : Guarded) : Prop where
  constMethod : m.Reads top (i.invoker + MethodRecord.constMethod) 8 i.constMethod
  count : m.Reads top (i.constMethod + ConstMethodRecord.parameterWords) 2 count.toUInt64
  target : i.handle ≠ 0 → m.Reads top (i.handle + firstField) 8 i.target
  entry : i.handle ≠ 0 → m.Reads top (i.target + MethodRecord.fromInterpreted) 8 i.entry

theorem Recorded.changed (h : i.Recorded count top m) (changed : m.Changed m' lo hi)
    (above : top ≤ lo) : i.Recorded count top m' where
  constMethod := h.constMethod.changed changed above
  count := h.count.changed changed above
  target some := (h.target some).changed changed above
  entry some := (h.entry some).changed changed above

theorem Recorded.foldl (h : i.Recorded count top m) (above : ∀ x ∈ l, top ≤ x.address.toNat) :
    i.Recorded count top (l.foldl Machine.write m) where
  constMethod := h.constMethod.foldl above
  count := h.count.foldl above
  target some := (h.target some).foldl above
  entry some := (h.entry some).foldl above

/-- What the entry of the invoker comes to. A handle that is not there has an exception thrown, with
    the stack of the machine as the caller has left it. Otherwise the target is entered, with the
    arguments for its operands. -/
inductive Goes (i : Invocation) (words : List UInt64) (v : Vm) (c : Cpu) (m : Guarded) : Vm → Prop
  | thrown {c' : Cpu} (null : i.handle = 0) (spares : c.Spares c' [.x0, .x2, .x3, .sp])
    (sp : c'.reg .sp = c.reg .sender &&& -16) :
    Goes i words v c m (v.moved v.image.stubs.throwNullPointer c' m)
  | entered {c' : Cpu} {m' : Guarded} (some : i.handle ≠ 0)
    (spares : c.Spares c' [.x0, .x2, .x3, .x4, .x5, .method, .operands, .scratch1])
    (method : c'.reg .method = i.target)
    (operands : (c'.reg .operands).toNat = (c.reg .operands).toNat + 8)
    (changed : m.Changed m' (c'.reg .operands).toNat
      ((c'.reg .operands).toNat + 8 * words.length))
    (pushed : m'.Pushed ((c'.reg .operands).toNat + 8 * words.length) words) :
    Goes i words v c m (v.moved i.entry c' m')

end Invocation

section
variable {v : Vm} {c : Cpu} {m : Guarded} {q q' e : UInt64} {place : CodeLabel → UInt64}
  {ctx : CodeContext} {inStub : Bool} {K S : List CodeLabel} {i : Invocation}
  {words : List UInt64} {bottom top : Nat}

/-- With the handle in hand the arguments are moved up over it, and the target is entered. -/
theorem Invocation.Recorded.runTarget {c₁ : Cpu}
    (h : i.Recorded (words.length + 1) bottom m) (low : bottom ≤ (c.reg .operands).toNat)
    (size : (c.reg .operands).toNat + 8 * (words.length + 1) = top)
    (clear : m.Clear (c.reg .operands).toNat top) (pushed : m.Pushed top (i.handle :: words))
    (some : i.handle ≠ 0) (spares : c.Spares c₁ [.x0, .x2, .x3])
    (x0 : c₁.reg .x0 = i.handle) (x3 : (c₁.reg .x3).toNat = top)
    (i₁ : v.image.code.Fetches q (.load .method (.base .x0 firstField) .double false))
    (i₂ : v.image.code.Fetches (q + 4) (.binary .sub .x4 .x3 (.imm 8)))
    (j₁ : v.image.code.Fetches (q + 4 + 4) (.compare .x4 (.reg .operands)))
    (j₂ : v.image.code.Fetches (q + 4 + 4 + 4) (.branchIf .eq q'))
    (j₃ : v.image.code.Fetches (q + 4 + 4 + 4 + 4) (.load .x5 (.base .x4 (-8)) .double false))
    (j₄ : v.image.code.Fetches (q + 4 + 4 + 4 + 4 + 4) (.store .x5 (.base .x4 0) .double))
    (j₅ : v.image.code.Fetches (q + 4 + 4 + 4 + 4 + 4 + 4) (.binary .sub .x4 .x4 (.imm 8)))
    (j₆ : v.image.code.Fetches (q + 4 + 4 + 4 + 4 + 4 + 4 + 4) (.branch (q + 4 + 4)))
    (k₁ : v.image.code.Fetches q' (.binary .add .operands .operands (.imm 8)))
    (k₂ : v.image.code.Fetches (q' + 4)
      (.load .scratch1 (.base .method MethodRecord.fromInterpreted) .double false))
    (k₃ : v.image.code.Fetches (q' + 4 + 4) (.branchTo .scratch1)) :
    Vm.Arrives (i.Goes words v c m) (6 * words.length + 7) (v.moved q c₁ m) := by
  suffices goes : Vm.Arrives (i.Goes words v c m) (3 + 2 + 6 * words.length + 2)
      (v.moved q c₁ m) from goes.le (by omega)
  have eight : (8 : UInt64).toNat = 8 := rfl
  refine .loadReads i₁ x0 (h.target some) (.binary i₂ ?_)
  simp +decide only [Cpu.operand, Cpu.reg_setReg, ↓reduceIte]
  generalize hc : Cpu.setReg _ .x4 _ = c₂
  have spares₂ : c.Spares c₂ [.x0, .x2, .x3, .x4, .x5, .method, .operands, .scratch1] := hc ▸
    ((spares.mono (by simp)).setReg (by simp) _).setReg (by simp) _
  have method : c₂.reg .method = i.target := by
    rw [← hc]
    simp +decide only [Cpu.reg_setReg, ↓reduceIte]
  have x4 : (c₂.reg .x4).toNat = top - 8 := by
    rw [← hc, Cpu.reg_setReg_self _ _ (by decide), ← x3]
    exact UInt64.toNat_sub_of_le _ _ (UInt64.le_iff_toNat_le.mpr (by omega))
  have operands : c₂.reg .operands = c.reg .operands := by
    rw [← hc]
    simp +decide only [Cpu.reg_setReg, ↓reduceIte]
    exact spares.regs _ (by decide)
  have words' : m.Pushed (c₂.reg .x4).toNat words := x4 ▸ pushed.tail
  refine .slideWords j₁ j₂ j₃ j₄ j₅ j₆ ?_ words' ?_ fun c₃ m₁ spares₃ changed pushed₁ => ?_
  · rw [operands, x4]
    omega
  · rw [operands, x4]
    exact clear.mono (Nat.le_refl _) (by omega)
  rw [operands, x4, show top - 8 + 8 = top by omega] at changed
  rw [x4, show top - 8 + 8 = top by omega] at pushed₁
  have up : (c₃.reg .operands + 8).toNat = (c.reg .operands).toNat + 8 := by
    have limit := (c₁.reg .x3).toNat_lt
    rw [x3] at limit
    rw [spares₃.regs _ (by decide), operands, toNat_add_of_lt (by omega)]
    rfl
  refine .binary k₁ (.loadReads k₂ (b := i.target) ?_ ((h.entry some).changed changed ?_)
    (.branchTo k₃ ?_))
  · rw [Cpu.reg_setReg_ne _ _ (by decide), spares₃.regs _ (by decide), method]
  · omega
  simp +decide only [Cpu.operand, Cpu.reg_setReg, ↓reduceIte]
  generalize hc' : Cpu.setReg _ .scratch1 _ = c₄
  have operands₄ : (c₄.reg .operands).toNat = (c.reg .operands).toNat + 8 := by
    rw [← hc']
    simp +decide only [Cpu.reg_setReg, ↓reduceIte]
    exact up
  refine .here (.entered some ?_ ?_ operands₄ ?_ ?_)
  · exact hc' ▸ (((spares₂.trans (spares₃.mono (by simp))).setReg (by simp) _).setReg (by simp) _)
  · rw [← hc']
    simp +decide only [Cpu.reg_setReg, ↓reduceIte]
    rw [spares₃.regs _ (by decide), method]
  · rw [operands₄]
    exact changed.mono (Nat.le_refl _) (by omega)
  · rw [operands₄, show (c.reg .operands).toNat + 8 + 8 * words.length = top by omega]
    exact pushed₁

/-- The entry of an invoker takes the handle from the operands and goes on to its target. -/
theorem Invocation.Recorded.run (h : i.Recorded (words.length + 1) bottom m)
    (low : bottom ≤ (c.reg .operands).toNat)
    (lay : Lays ⟨v.image.code, place⟩ ctx inStub K S
      (methodHandleEntry v.image.stubs.throwNullPointer) q q' e)
    (invoker : c.reg .method = i.invoker)
    (size : (c.reg .operands).toNat + 8 * (words.length + 1) = top) (limit : top < 2 ^ 64)
    (clear : m.Clear (c.reg .operands).toNat top) (pushed : m.Pushed top (i.handle :: words)) :
    Vm.Arrives (i.Goes words v c m) (6 * words.length + 12) (v.moved e c m) := by
  unfold methodHandleEntry at lay
  replace lay := lay.pc_bind
  obtain ⟨missing, lay⟩ := lay.newLabel_bind
  obtain ⟨i₁, lay⟩ := lay.emit_bind
  obtain ⟨i₂, lay⟩ := lay.emit_bind
  obtain ⟨i₃, lay⟩ := lay.emit_bind
  obtain ⟨i₄, lay⟩ := lay.emit_bind
  obtain ⟨i₅, lay⟩ := lay.emitTo_bind
  obtain ⟨i₆, lay⟩ := lay.emit_bind
  obtain ⟨again, lay⟩ := lay.newLabel_bind
  obtain ⟨done, lay⟩ := lay.newLabel_bind
  obtain ⟨i₇, lay⟩ := lay.emit_bind
  obtain ⟨here, lay⟩ := lay.bind_bind
  obtain ⟨j₁, lay⟩ := lay.emit_bind
  obtain ⟨j₂, lay⟩ := lay.emitTo_bind
  obtain ⟨j₃, lay⟩ := lay.emit_bind
  obtain ⟨j₄, lay⟩ := lay.emit_bind
  obtain ⟨j₅, lay⟩ := lay.emit_bind
  obtain ⟨j₆, lay⟩ := lay.emitTo_bind
  obtain ⟨there, lay⟩ := lay.bind_bind
  obtain ⟨k₁, lay⟩ := lay.emit_bind
  obtain ⟨k₂, lay⟩ := lay.emit_bind
  obtain ⟨k₃, lay⟩ := lay.emit_bind
  obtain ⟨apart, lay⟩ := lay.bind_bind
  obtain ⟨l₁, lay⟩ := lay.emit_bind
  obtain ⟨l₂, lay⟩ := lay.emit_bind
  obtain ⟨-, rfl⟩ := lay.ended
  dsimp only at here there apart i₅ j₂ j₆
  rw [here] at j₆
  rw [there] at j₂
  rw [apart] at i₅
  have eight : (8 : UInt64).toNat = 8 := rfl
  have space : ((words.length + 1).toUInt64 <<< (3 : UInt8).toUInt64).toNat =
      8 * (words.length + 1) := toNat_shiftLeft (by decide) (by change 8 * _ < _; omega)
  have above : (c.reg .operands + (words.length + 1).toUInt64 <<< (3 : UInt8).toUInt64).toNat =
      top := by
    rw [toNat_add_of_lt (by omega), space, size]
  refine .loadReads i₁ invoker h.constMethod
    (.loadReads i₂ (Cpu.reg_setReg_self _ _ (by decide)) h.count (.binary i₃ ?_))
  simp +decide only [Cpu.operand, Cpu.reg_setReg, ↓reduceIte]
  generalize hc : Cpu.setReg _ .x3 _ = c₁
  have spares₁ : c.Spares c₁ [.x0, .x2, .x3] := hc ▸
    (((Cpu.Spares.refl c _).setReg (by simp) _).setReg (by simp) _).setReg (by simp) _
  have x3 : (c₁.reg .x3).toNat = top := by
    rw [← hc, Cpu.reg_setReg_self _ _ (by decide)]
    exact above
  have below : (c₁.reg .x3 + -8).toNat = top - 8 := by
    rw [toNat_add_neg (by omega), x3]
    rfl
  have receiver : m.Reads top (c₁.reg .x3 + -8) 8 i.handle :=
    ⟨clear.open (by omega) (by omega), by omega, by rw [below]; exact pushed 0 i.handle rfl⟩
  refine .loadReads i₄ rfl receiver (.branchZero i₅ (fun null => ?_) fun some => ?_)
  · rw [Cpu.reg_setReg_self _ _ (by decide)] at null
    refine .binary l₁ (.branch l₂ (.here (.thrown null ?_ ?_)))
    · exact ((spares₁.mono (by simp)).setReg (by simp) _).setReg (by simp) _
    · rw [Cpu.reg_setReg_self _ _ (by decide), Cpu.reg_setReg_ne _ _ (by decide),
        spares₁.regs _ (by decide)]
      rfl
  · rw [Cpu.reg_setReg_self _ _ (by decide)] at some
    exact h.runTarget low size clear pushed some (spares₁.setReg (by simp) _)
      (Cpu.reg_setReg_self _ _ (by decide))
      ((congrArg _ (Cpu.reg_setReg_ne _ _ (by decide))).trans x3) i₆ i₇ j₁ j₂ j₃ j₄ j₅ j₆ k₁ k₂ k₃

end

namespace Image

/-- The entry of invokers is where the image says, with the way to the stub for a handle that is not
    there. -/
def Forwards (i : Image) : Prop :=
  ∃ place ctx K p q, Lays ⟨i.code, place⟩ ctx true K []
    (methodHandleEntry i.stubs.throwNullPointer) p q (i.methodEntry .methodHandle)

variable {s : Settings} {i i' : Image}

theorem forwards_of_generate (h : generate s = .ok i) (pages : s.shadowPages.toNat < 2 ^ 54) :
    i.Forwards := by
  obtain ⟨parts, laid⟩ := laid_of_generate h pages
  obtain ⟨place, l, lay⟩ := laid.interpreter
  obtain ⟨p, q, entries⟩ := (placed_of_lays lay).entries
  obtain ⟨r, t, code⟩ := entries.methodEntries .methodHandle (by decide)
  rw [← laid.methodEntries] at code
  exact ⟨place, _, _, r, t, code⟩

theorem Forwards.keeps (h : i.Forwards) (keeps : i.Keeps i') : i'.Forwards := by
  obtain ⟨place, ctx, K, p, q, lay⟩ := h
  rw [Forwards, methodEntry, keeps.stubs, keeps.methodEntries]
  exact ⟨place, ctx, K, p, q, lay.mono rfl keeps.fetches⟩

end Image

/-! ## Invoking a handle -/

namespace Vm

variable {v w : Vm} {i : Invocation} {words : List UInt64} {s : Settings} {id : MethodId}

/-- The method invokes the handle: it has the entry of invokers, and the records lead to the target. -/
structure Invokes (v : Vm) (i : Invocation) (words : List UInt64) (id : MethodId) : Prop where
  invoker : (v.world.classes.method id).address = i.invoker
  forwards : load v.world.store.mem.bytes (i.invoker + MethodRecord.fromInterpreted).toNat 8 =
    v.image.methodEntry .methodHandle
  recorded : i.Recorded (words.length + 1) v.map.thread.toNat v.world.store.mem

/-- A call through a handle comes to the entry of its target with the words of the arguments, whatever
    the target takes; if there is no handle, it comes to where the exception is thrown. -/
theorem Callable.forwards (h : v.Callable id (i.handle :: words)) (mapped : v.Mapped)
    (spacious : v.Spacious (i.handle :: words)) (admits : v.image.Admits s)
    (forwards : v.image.Forwards) (invokes : v.Invokes i words id) :
    Arrives (fun w => ∃ c m, (c.reg .thread = v.map.thread ∧ c.reg .sender = c.reg .sp ∧
        (c.reg .operands).toNat + 8 * (words.length + 1) + 128 = v.stackTop.toNat) ∧
      i.Goes words ({ v with preserved := none } : Vm) c m w) (11 * words.length + 37)
      (v.atCall id (i.handle :: words)) := by
  suffices goes : Arrives _ (6 * words.length + 12 + (5 * (words.length + 1) + 20)) _ from
    goes.le (by omega)
  refine (h.enters mapped spacious admits).trans fun w ⟨c, m, passes, there⟩ => ?_
  subst there
  obtain ⟨place, ctx, K, p, q, lay⟩ := forwards
  have above := spacious.above
  have operands := passes.operands
  simp only [List.length_cons] at above operands
  have alike := Guarded.alike_foldl (m := v.world.store.mem)
    (l := ThreadBlock.callWrites ⟨v.map.thread⟩ (i.handle :: words))
  have entry := invokes.forwards
  rw [← invokes.invoker] at entry
  have recorded := (invokes.recorded.foldl fun x hx => by
    obtain ⟨k, address, -⟩ := ThreadBlock.of_mem_callWrites hx h.few mapped.block_lt
    exact address ▸ Nat.le_add_right _ _).changed passes.changed (by
      simp only [List.length_cons]
      omega)
  have limit := v.stackTop.toNat_lt
  have run := recorded.run (v := { v with preserved := none }) (c := c) (by omega) lay
    (passes.method.trans invokes.invoker) (by omega) (by omega) ?_ passes.pushed
  · rw [entry]
    refine run.mono fun u goes => ⟨c, m, ⟨passes.thread, passes.sender, by omega⟩, goes⟩
  · refine ((spacious.clear.congr alike.size alike.guards).changed passes.changed).mono ?_ ?_
    · simp only [List.length_cons]
      omega
    · omega

/-- The field of a new handle holds the record of the method that has been found by its name, of
    whatever kind the method is. -/
theorem newMethodHandle_holds {className name : String} {handle : UInt64}
    (run : newMethodHandle className name v = .ok handle w) :
    ∃ id, lookup className name v = .ok id v ∧
      w.world.store.mem.Open (handle + firstField) 8 ∧
      load w.world.store.mem.bytes (handle + firstField).toNat 8 =
        (v.world.classes.method id).address := by
  obtain ⟨id, v₁, found, rest⟩ := ok_of_bind run
  obtain rfl : v₁ = v := by
    rcases lookup_cases className name v with ⟨_, refused⟩ | ⟨_, known⟩
    · cases found.symm.trans refused
    · cases found.symm.trans known
      rfl
  obtain ⟨t, v₂, read, rest⟩ := ok_of_bind rest
  cases read
  obtain ⟨object, v₃, -, rest⟩ := ok_of_bind rest
  obtain ⟨⟨⟩, v₄, written, rest⟩ := ok_of_bind rest
  cases rest
  have holds := onMemory_ends (Guarded.write_holds (handle + firstField)
    (v₁.world.classes.method id).address v₃.world.store.mem)
  rw [written] at holds
  obtain ⟨m, there, rfl⟩ := holds
  exact ⟨id, found, there⟩

/-- Invoking a handle finds the invoker for the descriptor and calls it with the handle for the first
    argument. The call is refused if the words are not as many as the invoker takes. -/
theorem invokeExact_cases (handle : UInt64) (descriptor : String) (arguments : List Value) (v : Vm) :
    (∃ failure w, onWorld (World.handleInvoker "invokeExact" descriptor) v = .error failure w ∧
      invokeExact handle descriptor arguments v = .error failure w) ∨
    ∃ id w, onWorld (World.handleInvoker "invokeExact" descriptor) v = .ok id w ∧
      invokeExact handle descriptor arguments v = invoke id (.object handle :: arguments) w ∧
      (Declines (invoke id (.object handle :: arguments)) w ∨
        (arguments.flatMap Value.stackWords).length + 1 =
          (w.world.classes.method id).parameterWords) := by
  cases found : onWorld (World.handleInvoker "invokeExact" descriptor) v with
  | error failure w => exact .inl ⟨failure, w, rfl, bind_error found⟩
  | ok id w =>
    refine .inr ⟨id, w, rfl, bind_ok found, ?_⟩
    refine (invoke_cases id (.object handle :: arguments) w).imp_right fun words => ?_
    rw [← words]
    rfl

end Vm
end TemplateVm
