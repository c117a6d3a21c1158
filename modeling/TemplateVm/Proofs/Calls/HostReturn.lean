import TemplateVm.Proofs.Activation.Returning
import TemplateVm.Proofs.Calls.Entering
import TemplateVm.Proofs.Layout.NormalEntries

set_option autoImplicit false
-- an instance counts as twice the size with every further instruction
set_option synthInstance.maxSize 1000000000000000000000000

/-!
# The way back to the host

An entry that the call stub has called comes back where the stub goes on, or with an exception where
the stub catches it. If it has left the frame of the stub alone, the host has its registers as they
were.
-/
namespace TemplateVm

open Memory (Guarded load)
open Assembly Aims Emit

/-! ## Marks -/

/-- Code that sets no mark. -/
class Unmarked (ctx : CodeContext) {α : Type} (m : Emit α) : Prop where
  marks : ∀ a x a', m ctx a = .ok x a' → a'.marks = a.marks

namespace Unmarked

variable {ctx : CodeContext} {α β : Type}

instance pure (x : α) : Unmarked ctx (Pure.pure x : Emit α) where
  marks _ _ _ run := by
    cases run
    rfl

instance (priority := low) bind (m : Emit α) (f : α → Emit β) [hm : Unmarked ctx m]
    [hf : ∀ x, Unmarked ctx (f x)] : Unmarked ctx (m >>= f) where
  marks a y a' run := by
    obtain ⟨x, a₁, first, rest⟩ := run_of_bind run
    exact ((hf x).marks a₁ y a' rest).trans (hm.marks a x a₁ first)

/-- An operation that leaves the marks as they are. -/
theorem noting {m : Emit α} (f : Assembly → Assembly) (x : Assembly → α)
    (hm : ∀ a, m ctx a = .ok (x a) (f a)) (marks : ∀ a, (f a).marks = a.marks) :
    Unmarked ctx m where
  marks a y a' run := by
    rw [hm] at run
    cases run
    exact marks a

instance emit (i : Instruction Target) : Unmarked ctx (Emit.emit i) :=
  noting (·.emit i) _ (fun _ => rfl) fun _ => rfl

instance emitTo (l : CodeLabel) (i : Target → Instruction Target) :
    Unmarked ctx (Emit.emitTo l i) := noting (·.emitTo l i) _ (fun _ => rfl) fun _ => rfl

instance newLabel : Unmarked ctx Emit.newLabel :=
  noting (·.newLabel.2) _ (fun _ => rfl) fun _ => rfl

instance bindLabel (l : CodeLabel) : Unmarked ctx (Emit.bind l) :=
  noting (·.bind l) _ (fun _ => rfl) fun _ => rfl

instance comment (text : String) : Unmarked ctx (Emit.comment text) :=
  noting (·.comment text) _ (fun _ => rfl) fun _ => rfl

instance settings_bind (f : Settings → Emit β) [h : Unmarked ctx (f ctx.settings)] :
    Unmarked ctx (Emit.settings >>= f) := ⟨h.marks⟩

instance ite (c : Prop) [Decidable c] (m m' : Emit α) [h : Unmarked ctx m]
    [h' : Unmarked ctx m'] : Unmarked ctx (if c then m else m') := by
  split
  · exact h
  · exact h'

instance forM {ι : Type} (xs : List ι) (f : ι → Emit Unit) [h : ∀ x, Unmarked ctx (f x)] :
    Unmarked ctx (xs.forM f) := by
  induction xs with
  | nil => exact Unmarked.pure ()
  | cons x xs ih => exact bind (f x) fun _ => xs.forM f

variable {checks : Bool} {leave : CodeLabel}

instance (r : Register) : Unmarked ctx (verifyReference r) := by
  unfold verifyReference; infer_instance

instance : Unmarked ctx Stubs.passCode := by unfold Stubs.passCode; infer_instance

instance : Unmarked ctx (Stubs.callEntry checks) := by unfold Stubs.callEntry; infer_instance

instance : Unmarked ctx (Stubs.checkSp checks) := by unfold Stubs.checkSp; infer_instance

instance : Unmarked ctx (Stubs.leaveCode checks leave) := by
  unfold Stubs.leaveCode; infer_instance

instance : Unmarked ctx (Stubs.catchCode leave) := by unfold Stubs.catchCode; infer_instance

instance : Unmarked ctx Stubs.forward := by
  unfold Stubs.forward callLeaf passArguments; infer_instance

instance (s : Service) (p : UInt64) : Unmarked ctx (Stubs.throwing s p) := by
  unfold Stubs.throwing setLastFrame resetLastFrame; infer_instance

end Unmarked

namespace Aims

variable {G : UInt64 → Prop} {ctx : CodeContext} {checks : Bool} {leave : CodeLabel}

instance : Aims G passed true ctx Stubs.passCode := by unfold Stubs.passCode; infer_instance

instance : Aims G passed true ctx (Stubs.callEntry checks) := by
  unfold Stubs.callEntry; infer_instance

instance : Aims G passed true ctx (Stubs.checkSp checks) := by
  unfold Stubs.checkSp; infer_instance

instance : Aims G passed true ctx (Stubs.leaveCode checks leave) := by
  unfold Stubs.leaveCode; infer_instance

end Aims

/-! ## Where the call stub is -/

/-- The call stub is placed in its parts, and its two ways back are where the marks say. -/
def Stubs.Placed (s : Settings) (stubs : Stubs) (code : CodeCache) : Prop :=
  ∃ place leave p q,
    Lays ⟨code, place⟩ { settings := s } true [] [] Stubs.passCode stubs.callStub p () ∧
    Lays ⟨code, place⟩ { settings := s } true [] [] (Stubs.callEntry s.debugChecks) p
      stubs.callStubReturn () ∧
    Lays ⟨code, place⟩ { settings := s } true [leave] [leave]
      (Stubs.leaveCode s.debugChecks leave) stubs.callStubReturn stubs.catchException () ∧
    Lays ⟨code, place⟩ { settings := s } true [leave] [] (Stubs.catchCode leave)
      stubs.catchException q ()

theorem Stubs.Placed.mono {s : Settings} {stubs : Stubs} {code code' : CodeCache}
    (h : stubs.Placed s code) (keeps : ∀ p i, code.Fetches p i → code'.Fetches p i) :
    stubs.Placed s code' := by
  obtain ⟨place, leave, p, q, pass, call, leaving, catching⟩ := h
  exact ⟨place, leave, p, q, pass.mono rfl keeps, call.mono rfl keeps, leaving.mono rfl keeps,
    catching.mono rfl keeps⟩

namespace Emitted

variable {F : Finished} {R : List Register} {ctx : CodeContext} {b : Bool} {K S T : List CodeLabel}
  {n : Nat} {α : Type} {a a' : Assembly} {y : α}

theorem settings_bind {f : Settings → Emit α}
    (h : Emitted F R ctx b K S (Emit.settings >>= f) a a' y) :
    Emitted F R ctx b K S (f ctx.settings) a a' y := ⟨h.ready, h.run, h.within, h.aimed⟩

theorem newLabel_bind {f : CodeLabel → Emit α}
    (h : Emitted F R ctx b K S (Emit.newLabel >>= f) a a' y) :
    ∃ l, Emitted F R ctx b (l :: K) (l :: S) (f l) a.newLabel.2 a' y := by
  have labels : Aims F.code.Has R b ctx Emit.newLabel := inferInstance
  exact ⟨⟨a.labels.size⟩, Orderly.ready_newLabel h.ready, h.run, h.within,
    (labels.aims a _ _ h.aimed rfl).1⟩

theorem mark_bind {name : String} {f : Unit → Emit α}
    [∀ u, Orderly ctx b K S T n (f u)]
    (h : Emitted F R ctx b K S (Emit.mark name >>= f) a a' y) :
    Emitted F R ctx b K S (f ()) (a.mark name) a' y := by
  obtain ⟨⟨⟩, a₁, marked, -, h⟩ := h.step
  cases marked.run
  exact h

theorem marks {m : Emit α} [hm : Unmarked ctx m] (h : Emitted F R ctx b K S m a a' y) :
    a'.marks = a.marks := hm.marks a y a' h.run

theorem stub_marks {name : String} {m : Emit α} {x : UInt64 × α} [Orderly ctx true K S T n m]
    [Aims F.code.Has R true ctx m] [Unmarked ctx m]
    (h : Emitted F R ctx false K S (Emit.stub name m) a a' x) : a'.marks = a.marks := by
  obtain ⟨a₁, a₂, body, -, before, after⟩ := h.stub
  exact after.trans (body.marks.trans before)

/-- The marks of the call stub are where its two ways back begin. -/
theorem callCode (h : Emitted F passed ctx true K S Stubs.callCode a a' ()) :
    ∃ leave p q r t, Lays F ctx true K S Stubs.passCode a.pc p () ∧
      Lays F ctx true K S (Stubs.callEntry ctx.settings.debugChecks) p q () ∧
      Lays F ctx true (leave :: K) (leave :: S) (Stubs.leaveCode ctx.settings.debugChecks leave) q r
        () ∧
      Lays F ctx true (leave :: K) S (Stubs.catchCode leave) r t () ∧
      a'.marks = (a.marks.push ("call_stub_return", q)).push ("catch_exception", r) := by
  rw [Stubs.callCode_eq] at h
  obtain ⟨⟨⟩, a₁, pass, -, h⟩ := h.step (m := Stubs.passCode)
  replace h := h.settings_bind
  obtain ⟨⟨⟩, a₂, call, -, h⟩ := h.step (m := Stubs.callEntry ctx.settings.debugChecks)
  obtain ⟨leave, h⟩ := h.newLabel_bind
  replace h := h.mark_bind
  obtain ⟨⟨⟩, a₃, leaving, -, h⟩ := h.step (m := Stubs.leaveCode ctx.settings.debugChecks leave)
  replace h := h.mark_bind
  refine ⟨leave, _, _, _, _, pass.lays, call.lays, leaving.lays, h.lays, ?_⟩
  rw [h.marks]
  change a₃.marks.push _ = _
  rw [leaving.marks]
  change (a₂.marks.push _).push _ = _
  rw [call.marks, pass.marks]
  rfl

theorem callStub {s : Settings} {stubs : Stubs}
    (h : Emitted F passed { settings := s } false [] [] Stubs.all a a' stubs)
    (fresh : a.marks = #[]) : stubs.Placed s F.code := by
  unfold Stubs.all at h
  obtain ⟨⟨callStub, _⟩, a₁, calling, -, h⟩ := h.step
  obtain ⟨⟨forwardException, _⟩, a₂, forwarding, -, h⟩ := h.step
  have : Code F.code.Has forwardException := ⟨forwarding.lays.stub_have⟩
  obtain ⟨⟨overflow, _⟩, a₃, first, -, h⟩ := h.step
  obtain ⟨⟨abstract, _⟩, a₄, second, -, h⟩ := h.step
  obtain ⟨⟨null, _⟩, a₅, third, -, h⟩ := h.step
  obtain ⟨b₁, b₂, body, start, before, after⟩ := calling.stub
  obtain ⟨leave, p, q, r, t, pass, call, leaving, catching, marks⟩ := body.callCode
  have all : a₅.marks = #[("call_stub_return", q), ("catch_exception", r)] := by
    rw [third.stub_marks, second.stub_marks, first.stub_marks, forwarding.stub_marks, after, marks,
      before, fresh]
    rfl
  cases h.run
  replace start : b₁.pc = callStub := start
  refine ⟨F.place, leave, p, t, start ▸ pass, ?_⟩
  simp only [all]
  exact ⟨call, leaving, catching⟩

end Emitted

namespace Image

variable {s : Settings} {i : Image}

/-- The stubs of an image are placed before the interpreter. -/
theorem placed_of_generate (h : generate s = .ok i) :
    i.stubs.Placed s i.code ∧ i.Handles i.stubs.callStubReturn i.stubs.catchException := by
  obtain ⟨stubBlob, c, blob, parts, h₁, h₂, h₃, h₄, start, stop, -⟩ := generate_run h
  have small : Place.codeBase.toNat + 4 * stubBlob.code.size < 2 ^ 64 := by
    have bytes : Place.codeBase.toNat = 0x40000000 := rfl
    have := (size_le_of_toBlob rfl h₁).2
    omega
  have ranged := ranged_empty.install h₂ small
  obtain ⟨a, run, -, -⟩ := Emitted.of_toBlob (R := passed) rfl h₁ ordered_empty h₂ small
  refine ⟨(run.callStub rfl).mono fun _ _ => ranged.ordered.keeps h₄, ?_⟩
  obtain ⟨j, fetch⟩ := run.stubs.2.2.callStubReturn
  have outside : ¬ i.contains i.stubs.callStubReturn = true := fun inside => by
    simp only [contains, Bool.and_eq_true, decide_eq_true_eq, start] at inside
    rw [(CodeCache.install_eq h₄).1] at inside
    exact absurd (ranged.ordered.below fetch.1).1 (UInt64.not_lt.mpr inside.1)
  rw [Handles, if_neg outside]
  exact ⟨rfl, rfl⟩

end Image

/-! ## Coming back -/

/-- What an entry was handed is there again: the stack pointer and the frame pointer, and the frame
    of the stub. The result of the host has its place, away from the frame. -/
structure ComesBack (c₀ c : Cpu) (m : Guarded) (c' : Cpu) (m' : Guarded) : Prop where
  sp : c'.reg .sp = c.reg .sp
  frame : c'.reg .frame = c.reg .frame
  kept : m.Agrees m' ((c₀.reg .sp).toNat - 128) (c₀.reg .sp).toNat
  stack : m'.Clear ((c₀.reg .sp).toNat - 128) (c₀.reg .sp).toNat
  result : m'.Clear (c₀.reg .x0).toNat ((c₀.reg .x0).toNat + 16)
  bound : (c₀.reg .x0).toNat + 16 ≤ 2 ^ 64
  apart : (c₀.reg .x0).toNat + 16 ≤ (c₀.reg .sp).toNat - 128 ∨
    (c₀.reg .sp).toNat ≤ (c₀.reg .x0).toNat

/-- The host `c₀` has its registers as they were. -/
structure Cpu.Restored (c₀ c : Cpu) : Prop where
  saved : ∀ r : Register, 19 ≤ r.number.val → r.number.val ≤ 28 → c.reg r = c₀.reg r
  frame : c.reg .frame = c₀.reg .frame
  sp : c.reg .sp = c₀.reg .sp

/-- The result and the floating-point result are where the host wants them. -/
structure Cpu.Answered (c₀ : Cpu) (result float : UInt64) (m : Guarded) : Prop where
  result : load m.bytes (c₀.reg .x0).toNat 8 = result
  float : load m.bytes ((c₀.reg .x0).toNat + 8) 8 = float

/-- An exception has come as far as the host `c₀`. The thread has a place for it, away from the
    frame of the stub and from the result. -/
structure Escapes (s : Settings) (v : Vm) (c₀ c : Cpu) (m : Guarded) : Prop where
  field : m.Open (c.reg .thread + ThreadBlock.pendingException) 8
  frame : (c.reg .thread + ThreadBlock.pendingException).toNat + 8 ≤ (c₀.reg .sp).toNat - 128 ∨
    (c₀.reg .sp).toNat ≤ (c.reg .thread + ThreadBlock.pendingException).toNat
  result : (c.reg .thread + ThreadBlock.pendingException).toNat + 8 ≤ (c₀.reg .x0).toNat ∨
    (c₀.reg .x0).toNat + 16 ≤ (c.reg .thread + ThreadBlock.pendingException).toNat
  object : s.verifyReferences = true →
    c.reg .x0 = 0 ∨ v.world.store.heap.isObject (c.reg .x0) = true
  stack : s.verifyReferences = true →
    16 ≤ (c.reg .sp).toNat ∧ m.Clear ((c.reg .sp).toNat - 16) (c.reg .sp).toNat

/-- The exception is pending. -/
def Cpu.Pending (c : Cpu) (m : Guarded) : Prop :=
  load m.bytes (c.reg .thread + ThreadBlock.pendingException).toNat 8 = c.reg .x0

namespace Stubs

/-- What the code behind the call of the entry relies on. -/
structure Resumable (checks : Bool) (c₀ c : Cpu) (m : Guarded) : Prop where
  frame : (c.reg .frame).toNat + 16 = (c₀.reg .sp).toNat
  room : 128 ≤ (c₀.reg .sp).toNat
  saved : Saved c₀ (c.reg .frame) m
  checked : checks = true → load m.bytes (c.reg .frame + calleeSp).toNat 8 = c.reg .sp
  stack : m.Clear ((c₀.reg .sp).toNat - 128) (c₀.reg .sp).toNat
  result : m.Clear (c₀.reg .x0).toNat ((c₀.reg .x0).toNat + 16)
  bound : (c₀.reg .x0).toNat + 16 ≤ 2 ^ 64
  apart : (c₀.reg .x0).toNat + 16 ≤ (c₀.reg .sp).toNat - 128 ∨
    (c₀.reg .sp).toNat ≤ (c₀.reg .x0).toNat

theorem mem_names_savedPairs (r : Register) (low : 19 ≤ r.number.val) (high : r.number.val ≤ 28) :
    r ∈ names savedPairs := by
  obtain ⟨n⟩ := r
  revert n
  decide

section
variable {P : Vm → Prop} {turns : Nat} {v : Vm} {checks inStub : Bool} {c₀ c c' : Cpu}
  {m m' : Guarded} {q q' : UInt64} {place : CodeLabel → UInt64} {ctx : CodeContext}
  {K S T : List CodeLabel}

theorem Resumable.calleeSp_toNat (h : Resumable checks c₀ c m) :
    (c.reg .frame + calleeSp).toNat = (c₀.reg .sp).toNat - 120 := by
  have frame := h.frame
  have room := h.room
  refine (toNat_add_neg (k := 104) (by change 104 ≤ _; omega)).trans ?_
  change _ - 104 = _
  omega

/-- What is written elsewhere does not matter. -/
theorem Resumable.changed {lo hi : Nat} (h : Resumable checks c₀ c m)
    (frame : c'.reg .frame = c.reg .frame) (sp : c'.reg .sp = c.reg .sp)
    (changed : m.Changed m' lo hi)
    (away : hi ≤ (c₀.reg .sp).toNat - 128 ∨ (c₀.reg .sp).toNat ≤ lo) :
    Resumable checks c₀ c' m' := by
  have above := h.frame
  have room := h.room
  have same : m.Agrees m' ((c₀.reg .sp).toNat - 128) (c₀.reg .sp).toNat :=
    changed.agrees away.symm
  refine ⟨frame ▸ h.frame, room, ?_, fun on => ?_, h.stack.changed changed,
    h.result.changed changed, h.bound, h.apart⟩
  · rw [frame]
    exact h.saved.agrees (by omega) (same.mono (by omega) (by omega))
  · rw [frame, sp, h.calleeSp_toNat, same.load (by omega) (by omega), ← h.calleeSp_toNat]
    exact h.checked on

/-- The stack pointer is what it was at the call. -/
theorem Resumable.runCheckSp (h : Resumable checks c₀ c m)
    (lay : Lays ⟨v.image.code, place⟩ ctx inStub K S (checkSp checks) q q' ())
    (next : ∀ c', c.Spares c' [.scratch1, .scratch2] → Vm.Arrives P turns (v.moved q' c' m)) :
    Vm.Arrives P (turns + 4) (v.moved q c m) := by
  unfold checkSp at lay
  by_cases on : checks = true
  · replace lay := lay.ite_pos on
    obtain ⟨ok, lay⟩ := lay.newLabel_bind
    obtain ⟨i₁, lay⟩ := lay.emit_bind
    obtain ⟨i₂, lay⟩ := lay.emit_bind
    obtain ⟨i₃, lay⟩ := lay.emit_bind
    obtain ⟨i₄, lay⟩ := lay.emitTo_bind
    obtain ⟨-, lay⟩ := lay.emit_bind
    obtain ⟨here, rfl⟩ := lay.bind
    rw [here] at i₄
    have room := h.room
    have slot := h.calleeSp_toNat
    refine .mov i₁ (.load i₂ ?_ (.compare i₃ (.branchIf i₄ (fun _ => next _ ?_) fun differ => ?_)))
    · rw [Cpu.target_base, Cpu.reg_setReg_ne _ _ (by decide)]
      exact h.stack.open (by omega) (by change _ + 8 ≤ _; omega)
    · rw [Cpu.rebase_base]
      exact (((Cpu.Spares.refl c _).setReg (by simp) _).setReg (by simp) _).setFlags _
    · have kept : load m.bytes (c.reg .frame + calleeSp).toNat Width.double.bytes.toNat =
          c.reg .sp := h.checked on
      simp +decide only [Cpu.target_base, Cpu.rebase_base, Cpu.operand, Cpu.reg_setReg, ↓reduceIte,
        kept, Cpu.flags_setFlags] at differ
      simp [Condition.holds, Flags.ofCompare] at differ
  · obtain ⟨rfl, -⟩ := (lay.ite_neg on).ended
    exact (next c (.refl ..)).le (by omega)

variable {leave : CodeLabel}

theorem place_leave {F : Finished} [Taken leave S T]
    (lay : Lays F ctx inStub K S (leaveCode checks leave) q q' ()) : F.place leave = q := by
  unfold leaveCode at lay
  exact lay.bind_bind.1

/-- The host has its registers again. -/
theorem Resumable.runRegain (h : Resumable checks c₀ c m)
    (lay : Lays ⟨v.image.code, place⟩ ctx inStub K S (do
      savedPairs.forM fun (a, b, offset) => ldp a b (Register.frame.at offset)
      mov .sp .frame
      ldp .frame .link (.post .sp 16)
      ret .link) q q' ())
    (next : ∀ c', c₀.Restored c' → Vm.Arrives P turns (v.moved (c₀.reg .link) c' m)) :
    Vm.Arrives P (turns + 8) (v.moved q c m) := by
  obtain ⟨⟨⟩, r, loading, lay⟩ := lay.split
  obtain ⟨i₁, lay⟩ := lay.emit_bind
  obtain ⟨i₂, lay⟩ := lay.emit_bind
  obtain ⟨i₃, rfl⟩ := lay.emit
  have frame := h.frame
  have room := h.room
  have top := (c₀.reg .sp).toNat_lt
  have eight : (8 : UInt64).toNat = 8 := rfl
  have second : (c.reg .frame + 8).toNat = (c.reg .frame).toNat + 8 := toNat_add_of_lt (by omega)
  refine Vm.runLoadPairs (stacked_savedPairs (by omega)) (h.stack.mono (by omega) (by omega))
    (by omega) h.saved.pairs (by decide) loading fun c₁ spares loaded => ?_
  have frame₁ : c₁.reg .frame = c.reg .frame := spares.regs _ (by decide)
  refine .mov i₁ (.loadPair i₂ ?_ ?_ ?_)
  · rw [Cpu.target_post, Cpu.reg_setReg_self _ _ (by decide), frame₁]
    exact h.stack.open (by omega) (by omega)
  · rw [Cpu.target_post, Cpu.reg_setReg_self _ _ (by decide), frame₁]
    exact h.stack.open (by omega) (by omega)
  simp +decide only [Cpu.target_post, Cpu.rebase_post, Cpu.reg_setReg, ↓reduceIte, frame₁, second,
    h.saved.frame, h.saved.link]
  refine .ret i₃ ?_
  rw [Cpu.reg_setReg_self _ _ (by decide)]
  refine next _ ⟨fun r low high => ?_, ?_, ?_⟩
  · have other : r ≠ .sp ∧ r ≠ .frame ∧ r ≠ .link := by
      refine ⟨?_, ?_, ?_⟩ <;> rintro rfl <;> revert high <;> decide
    simp only [Cpu.reg_setReg_ne _ _ other.1, Cpu.reg_setReg_ne _ _ other.2.1,
      Cpu.reg_setReg_ne _ _ other.2.2]
    exact loaded r (mem_names_savedPairs r low high)
  · simp +decide only [Cpu.reg_setReg, ↓reduceIte]
  · simp +decide only [Cpu.reg_setReg, ↓reduceIte]
    refine UInt64.toNat_inj.mp ((toNat_add_of_lt ?_).trans frame)
    change _ + 16 < _
    omega

/-- The host has its registers again, and the result. -/
theorem Resumable.runLeave [Taken leave S T] (h : Resumable checks c₀ c m)
    (lay : Lays ⟨v.image.code, place⟩ ctx inStub K S (leaveCode checks leave) q q' ())
    (next : ∀ c' m', c₀.Restored c' → c₀.Answered (c.reg .x0) (c.float .v0) m' →
      m.Changed m' (c₀.reg .x0).toNat ((c₀.reg .x0).toNat + 16) →
      Vm.Arrives P turns (v.moved (c₀.reg .link) c' m')) :
    Vm.Arrives P (turns + 15) (v.moved q c m) := by
  unfold leaveCode at lay
  obtain ⟨-, lay⟩ := lay.bind_bind
  obtain ⟨⟨⟩, q₁, checking, lay⟩ := lay.split (m := checkSp checks)
  obtain ⟨i₁, lay⟩ := lay.emit_bind
  obtain ⟨i₂, lay⟩ := lay.emit_bind
  obtain ⟨i₃, lay⟩ := lay.emit_bind
  refine h.runCheckSp checking fun c₁ spares₁ => ?_
  have same₁ (r : Register) (hr : r ∉ [Register.scratch1, .scratch2]) : c₁.reg r = c.reg r :=
    spares₁.regs r hr
  have frame := h.frame
  have room := h.room
  have bound := h.bound
  have top := (c₀.reg .sp).toNat_lt
  have eight : (8 : UInt64).toNat = 8 := rfl
  have below : (c.reg .frame + -8).toNat = (c.reg .frame).toNat - 8 := toNat_add_neg (by omega)
  have second : (c₀.reg .x0 + 8).toNat = (c₀.reg .x0).toNat + 8 := toNat_add_of_lt (by omega)
  have open₁ : m.Open (c₀.reg .x0) 8 := h.result.open (Nat.le_refl _) (by omega)
  have open₂ : m.Open (c₀.reg .x0 + 8) 8 := h.result.open (by omega) (by omega)
  refine .loadAt (same₁ .frame (by decide)) i₁ below ?_ h.saved.result ?_
  · exact h.stack.open (by omega) (by change _ + 8 ≤ _; omega)
  generalize hc : c₁.setReg .scratch1 (c₀.reg .x0) = c₂
  have spares₂ : c.Spares c₂ [.scratch1, .scratch2] := hc ▸ spares₁.setReg (by simp) _
  have same₂ (r : Register) (hr : r ∉ [Register.scratch1, .scratch2]) : c₂.reg r = c.reg r :=
    spares₂.regs r hr
  have base : c₂.reg .scratch1 = c₀.reg .x0 := hc ▸ Cpu.reg_setReg_self _ _ (by decide)
  refine .store i₂ ?_ (.storeFloat i₃ ?_ ?_)
  · rwa [Cpu.target_base, base, UInt64.add_zero]
  · rw [Cpu.rebase_base, Cpu.target_base, Cpu.target_base, base, UInt64.add_zero]
    exact open₂.put
  rw [Cpu.rebase_base, Cpu.rebase_base, Cpu.target_base, Cpu.target_base, base, UInt64.add_zero,
    same₂ .x0 (by decide), spares₂.floats]
  generalize hm : Guarded.put _ (c₀.reg .x0 + 8) _ _ = m₁
  have changed : m.Changed m₁ (c₀.reg .x0).toNat ((c₀.reg .x0).toNat + 16) :=
    hm ▸ ((Guarded.Changed.refl m _ _).put (Nat.le_refl _) (by change _ + 8 ≤ _; omega)).put
      (by omega) (by change _ + 8 ≤ _; omega)
  have answered : c₀.Answered (c.reg .x0) (c.float .v0) m₁ := by
    constructor
    · rw [← hm, Guarded.load_put_of_disjoint (by omega)]
      exact Guarded.load_put open₁
    · rw [← hm, ← second]
      exact Guarded.load_put open₂.put
  have after : Resumable checks c₀ c₂ m₁ :=
    h.changed (same₂ _ (by decide)) (same₂ _ (by decide)) changed h.apart
  exact after.runRegain lay fun c₃ restored => next c₃ m₁ restored answered changed

/-- The exception is pending, and the host has its registers again, with nothing for a result. -/
theorem Resumable.runCatch {s : Settings} (h : Resumable s.debugChecks c₀ c m)
    (escapes : Escapes s v c₀ c m) (low : (c.reg .sp).toNat + 128 ≤ (c₀.reg .sp).toNat)
    (lay : Lays ⟨v.image.code, place⟩ { settings := s } true [leave] [] (catchCode leave) q q' ())
    {p p' : UInt64} (leaving : Lays ⟨v.image.code, place⟩ { settings := s } true [leave] [leave]
      (leaveCode s.debugChecks leave) p p' ())
    (next : ∀ c' m', c₀.Restored c' → c₀.Answered 0 (c.float .v0) m' → c.Pending m' →
      Vm.Arrives P turns (v.moved (c₀.reg .link) c' m')) :
    Vm.Arrives P (turns + 23) (v.moved q c m) := by
  unfold catchCode at lay
  obtain ⟨⟨⟩, q₁, verifying, lay⟩ := lay.split (m := verifyReference .x0)
  obtain ⟨i₁, lay⟩ := lay.emit_bind
  obtain ⟨i₂, lay⟩ := lay.emit_bind
  obtain ⟨i₃, rfl⟩ := lay.emitTo
  rw [place_leave leaving] at i₃
  have room := h.room
  have sixteen : (16 : UInt64).toNat = 16 := rfl
  have eight : (8 : UInt64).toNat = 8 := rfl
  refine .verifyReference (c.reg .sp + -16) verifying (fun on => ?_) escapes.object
    fun c₁ m₁ regs floats wrote => ?_
  · obtain ⟨above, clear⟩ := escapes.stack on
    have below : (c.reg .sp + -16).toNat = (c.reg .sp).toNat - 16 := toNat_add_neg (by omega)
    have limit := (c.reg .sp).toNat_lt
    refine ⟨?_, clear.mono (by omega) (by omega), by omega⟩
    rw [UInt64.add_assoc]
    exact (UInt64.add_zero _).symm
  have changed₁ : m.Changed m₁ 0 (c.reg .sp).toNat := by
    rcases wrote with rfl | ⟨on, changed⟩
    · exact .refl ..
    · obtain ⟨above, -⟩ := escapes.stack on
      have below : (c.reg .sp + -16).toNat = (c.reg .sp).toNat - 16 := toNat_add_neg (by omega)
      exact changed.mono (Nat.zero_le _) (by omega)
  have h₁ : Resumable s.debugChecks c₀ c₁ m₁ :=
    h.changed (regs _ (by decide)) (regs _ (by decide)) changed₁ (.inl (by omega))
  have thread : c₁.reg .thread = c.reg .thread := regs _ (by decide)
  have exception : c₁.reg .x0 = c.reg .x0 := regs _ (by decide)
  have open₁ := escapes.field.changed changed₁
  refine .storeAt thread i₁ open₁ (.mov i₂ (.branch i₃ ?_))
  rw [exception, Cpu.reg_zero]
  generalize hm : Guarded.put m₁ _ _ _ = m₂
  have pending : c.Pending m₂ := hm ▸ Guarded.load_put open₁
  have changed₂ := hm ▸ Guarded.changed_put m₁ (c.reg .thread + ThreadBlock.pendingException) 8
    (c.reg .x0)
  have h₂ : Resumable s.debugChecks c₀ (c₁.setReg .x0 0) m₂ := h₁.changed
    (Cpu.reg_setReg_ne _ _ (by decide)) (Cpu.reg_setReg_ne _ _ (by decide)) changed₂ escapes.frame
  refine h₂.runLeave leaving fun c₃ m₃ restored answered changed₃ => next c₃ m₃ restored ?_ ?_
  · rwa [Cpu.reg_setReg_self _ _ (by decide), Cpu.float_setReg, floats] at answered
  · exact ((changed₃.agrees escapes.result).load (Nat.le_refl _) (Nat.le_refl _)).trans pending

end
end Stubs

/-! ## The whole call -/

section
variable {s : Settings} {words : List UInt64} {method entry thread back : UInt64} {checks : Bool}
  {c₀ c c' : Cpu} {m₀ m m' : Guarded}

/-- The stack pointer at the entry lies below the frame of the stub. -/
theorem HandsOver.low (h : HandsOver checks back words method entry thread c₀ m₀ c m) :
    (c.reg .sp).toNat + 128 ≤ (c₀.reg .sp).toNat := by
  have operands := h.operands
  have sp := h.sp
  omega

theorem ComesBack.resumable (h : ComesBack c₀ c m c' m')
    (hands : HandsOver checks back words method entry thread c₀ m₀ c m) :
    Stubs.Resumable checks c₀ c' m' := by
  have frame := hands.frame
  have operands := hands.operands
  have limit := (c.reg .frame).toNat_lt
  have slot : (c.reg .frame + Stubs.calleeSp).toNat = (c.reg .frame).toNat - 104 :=
    toNat_add_neg (k := 104) (by change 104 ≤ _; omega)
  refine ⟨h.frame ▸ frame, by omega, ?_, fun on => ?_, h.stack, h.result, h.bound, h.apart⟩
  · rw [h.frame]
    exact hands.saved.agrees (by omega) (h.kept.mono (by omega) (by omega))
  · rw [h.frame, h.sp, h.kept.load (by omega) (by omega)]
    exact hands.checked on

/-- An entry that goes back at once has come back. -/
theorem HandsOver.comesBack (h : HandsOver checks back words method entry thread c₀ m₀ c m)
    (stack : m₀.Clear ((c₀.reg .sp).toNat - 128) (c₀.reg .sp).toNat)
    (result : m₀.Clear (c₀.reg .x0).toNat ((c₀.reg .x0).toNat + 16))
    (above : (c₀.reg .sp).toNat ≤ (c₀.reg .x0).toNat) (bound : (c₀.reg .x0).toNat + 16 ≤ 2 ^ 64) :
    ComesBack c₀ c m c m :=
  ⟨rfl, rfl, fun _ _ _ => rfl, stack.changed h.changed, result.changed h.changed, bound,
    .inr above⟩

end

namespace Vm

/-- The call stub enters what it is handed with the words on the operand stack, after five turns for
    each word and twenty for the rest, and the return address it leaves is the one whose exceptions
    it catches. Whatever the entry is: if it comes back there with the stack pointer and the frame
    pointer that it was handed, and the frame of the stub as it was, then within fifteen turns the
    host goes on with its registers as they were, and has the result. If an exception comes back in
    its place, then it is pending, and the result is nothing. -/
theorem callStub_transparent {s : Settings} {i : Image} {v : Vm}
    (generated : Image.generate s = .ok i) (keeps : i.Keeps v.image) {words : List UInt64}
    {method entry thread : UInt64} {c : Cpu} {m : Guarded}
    (submits : Submits words method entry thread c m) :
    i.Handles i.stubs.callStubReturn i.stubs.catchException ∧
    Arrives (fun w => ∃ c' m', w = v.moved entry c' m' ∧
      HandsOver s.debugChecks i.stubs.callStubReturn words method entry thread c m c' m')
      (5 * words.length + 20) (v.moved i.stubs.callStub c m) ∧
    ∀ c' m', HandsOver s.debugChecks i.stubs.callStubReturn words method entry thread c m c' m' →
      ∀ (u : Vm) c₁ m₁, i.Keeps u.image → ComesBack c c' m' c₁ m₁ →
        Arrives (fun w => ∃ c₂ m₂, w = u.moved (c.reg .link) c₂ m₂ ∧ c.Restored c₂ ∧
          c.Answered (c₁.reg .x0) (c₁.float .v0) m₂ ∧
          m₁.Changed m₂ (c.reg .x0).toNat ((c.reg .x0).toNat + 16))
          15 (u.moved i.stubs.callStubReturn c₁ m₁) ∧
        (Escapes s u c c₁ m₁ →
          Arrives (fun w => ∃ c₂ m₂, w = u.moved (c.reg .link) c₂ m₂ ∧ c.Restored c₂ ∧
            c.Answered 0 (c₁.float .v0) m₂ ∧ c₁.Pending m₂)
            23 (u.moved i.stubs.catchException c₁ m₁)) := by
  obtain ⟨placed, handles⟩ := Image.placed_of_generate generated
  refine ⟨handles, ?_, fun c' m' hands u c₁ m₁ kept back => ?_⟩
  · obtain ⟨place, leave, p, q, passing, calling, -⟩ := placed.mono keeps.fetches
    have room := submits.room
    suffices enters : Arrives _ (0 + 4 + (5 * words.length + 1) + 15) _ from enters.le (by omega)
    refine submits.runPassCode passing fun c₁ m₁ passes saved => ?_
    exact passes.runEntry saved
      ((submits.stack.changed passes.changed).mono (by omega) (Nat.le_refl _)) calling
      fun c' m' hands => .here ⟨c', m', rfl, hands⟩
  · obtain ⟨place, leave, p, q, -, -, leaving, catching⟩ := placed.mono kept.fetches
    have resumable := back.resumable hands
    refine ⟨resumable.runLeave leaving fun c₂ m₂ restored answered changed =>
      .here ⟨c₂, m₂, rfl, restored, answered, changed⟩, fun escapes => ?_⟩
    have low := hands.low
    rw [← back.sp] at low
    exact resumable.runCatch escapes low catching leaving fun c₂ m₂ restored answered pending =>
      .here ⟨c₂, m₂, rfl, restored, answered, pending⟩

/-! ### Two hosts -/

namespace Host

/-- The host calls an entry for a method at `0x20`, with words at `0x100` and a place for the result
    at `0x400`. -/
def cpu (entry count : UInt64) : Cpu :=
  [(Register.x0, 0x400), (.x1, 0x20), (.x2, entry), (.x3, 0x100), (.x4, count), (.x5, 0x500),
    (.sp, 0x300), (.link, Place.hostReturn)].foldl (fun c (r, n) => c.setReg r n) Cpu.zero

def blank : Guarded := ⟨⟨Array.replicate 0x600 0⟩, []⟩

/-- Three words. -/
def memory : Guarded := ((blank.put 0x100 8 7).put 0x108 8 9).put 0x110 8 11

def vm (i : Image) : Vm := { (default : Vm) with image := i, processor := { maxSteps := 100 } }

theorem size_blank : blank.bytes.size = 0x600 := Array.size_replicate

theorem clear_blank {lo hi : Nat} (high : hi ≤ 0x600) : blank.Clear lo hi :=
  ⟨size_blank ▸ high, nofun⟩

theorem open_blank {a : UInt64} (high : a.toNat + 8 ≤ 0x600) : blank.Open a 8 :=
  (clear_blank (Nat.le_refl _)).open (Nat.zero_le _) high

theorem load_blank (j k : Nat) : load blank.bytes j k = 0 :=
  Memory.load_of_zero (Memory.byteAt_replicate _) j k

theorem clear_memory {lo hi : Nat} (high : hi ≤ 0x600) : memory.Clear lo hi :=
  (((clear_blank high).put).put).put

section
variable (entry count : UInt64)

theorem x0_cpu : (cpu entry count).reg .x0 = 0x400 := rfl
theorem x3_cpu : (cpu entry count).reg .x3 = 0x100 := rfl
theorem sp_cpu : (cpu entry count).reg .sp = 0x300 := rfl

end

theorem submits (entry : UInt64) : Submits [7, 9, 11] 0x20 entry 0x500 (cpu entry 3) memory where
  method := rfl
  entry := rfl
  thread := rfl
  count := rfl
  lists := fun k w hk => by
    rw [x3_cpu]
    match k, hk with
    | 0, hk =>
      cases hk
      rw [memory, Guarded.load_put_of_disjoint (by decide),
        Guarded.load_put_of_disjoint (by decide)]
      exact Guarded.load_put (open_blank (a := 0x100) (by decide))
    | 1, hk =>
      cases hk
      rw [memory, Guarded.load_put_of_disjoint (by decide)]
      exact Guarded.load_put (a := 0x108) (open_blank (by decide)).put
    | 2, hk =>
      cases hk
      exact Guarded.load_put (a := 0x110) (open_blank (by decide)).put.put
  source := clear_memory (by rw [x3_cpu]; decide)
  bound := by rw [x3_cpu]; decide
  stack := clear_memory (by rw [sp_cpu]; decide)
  room := by rw [sp_cpu]; decide
  apart := .inl (by rw [x3_cpu, sp_cpu]; decide)

/-- An entry that goes back at once, and one that goes back with an exception: here the entry is
    where the call stub goes on itself. -/
theorem callStub_transparent_at_once : ∃ i, Image.generate {} = .ok i ∧
    (∀ entry, Submits [7, 9, 11] 0x20 entry 0x500 (cpu entry 3) memory) ∧
    Arrives (fun w => ∃ c' m', w = (vm i).moved Place.hostReturn c' m' ∧
      (cpu i.stubs.callStubReturn 3).Restored c')
      50 ((vm i).moved i.stubs.callStub (cpu i.stubs.callStubReturn 3) memory) ∧
    Arrives (fun w => ∃ c' m', w = (vm i).moved Place.hostReturn c' m' ∧
      (cpu i.stubs.catchException 3).Restored c' ∧ load m'.bytes 0x400 8 = 0)
      58 ((vm i).moved i.stubs.callStub (cpu i.stubs.catchException 3) memory) := by
  obtain ⟨i, generated⟩ := Image.generate_ok (s := {}) (by decide)
  have keeps : i.Keeps (vm i).image := ⟨rfl, rfl, rfl, fun _ _ fetch => fetch⟩
  have comesBack {back entry : UInt64} {c : Cpu} {m : Guarded}
      (hands : HandsOver true back [7, 9, 11] 0x20 entry 0x500 (cpu entry 3) memory c m) :
      ComesBack (cpu entry 3) c m c m :=
    hands.comesBack (clear_memory (by rw [sp_cpu]; decide)) (clear_memory (by rw [x0_cpu]; decide))
      (by rw [sp_cpu, x0_cpu]; decide) (by rw [x0_cpu]; decide)
  refine ⟨i, generated, submits, ?_, ?_⟩
  · obtain ⟨-, enters, leaves⟩ :=
      callStub_transparent generated keeps (submits i.stubs.callStubReturn)
    change Arrives _ (15 + (5 * 3 + 20)) _
    refine enters.trans ?_
    rintro - ⟨c, m, rfl, hands⟩
    exact (leaves c m hands (vm i) c m keeps (comesBack hands)).1.mono
      fun w ⟨c', m', there, restored, _⟩ => ⟨c', m', there, restored⟩
  · obtain ⟨-, enters, leaves⟩ :=
      callStub_transparent generated keeps (submits i.stubs.catchException)
    change Arrives _ (23 + (5 * 3 + 20)) _
    refine enters.trans ?_
    rintro - ⟨c, m, rfl, hands⟩
    have field : c.reg .thread + ThreadBlock.pendingException = 0x500 := by
      rw [hands.thread]
      rfl
    have escapes : Escapes {} (vm i) (cpu i.stubs.catchException 3) c m := by
      refine ⟨?_, .inr ?_, .inr ?_, nofun, nofun⟩
      · rw [field]
        exact ((clear_memory (Nat.le_refl _)).changed hands.changed).open (Nat.zero_le _)
          (by decide)
      · rw [field, sp_cpu]
        decide
      · rw [field, x0_cpu]
        decide
    exact ((leaves c m hands (vm i) c m keeps (comesBack hands)).2 escapes).mono
      fun w ⟨c', m', there, restored, answered, _⟩ => ⟨c', m', there, restored, answered.result⟩

/-- What an entry is handed that takes nothing, with the frame of the stub below `0x300`. -/
def handed (entry back : UInt64) : Cpu :=
  [(Register.method, 0x20), (.x2, entry), (.thread, 0x500), (.frame, 0x2f0), (.operands, 0x280),
    (.sp, 0x280), (.sender, 0x280), (.link, back)].foldl (fun c (r, n) => c.setReg r n) Cpu.zero

def framed : Guarded := (blank.put 0x2f8 8 Place.hostReturn).put 0x2e8 8 0x400

/-- The entry has written a word over the one that says where the result goes. -/
def overwritten : Guarded := framed.put 0x2e8 8 0x7000

theorem frame_handed (entry back : UInt64) : (handed entry back).reg .frame = 0x2f0 := rfl

theorem loads_overwritten (entry back p : UInt64) :
    (Instruction.load .scratch1 (.base .frame (-8)) .double false).effect
      { handed entry back with pc := p } overwritten =
      .ok { next := p + 4, registers := [(.scratch1, 0x7000)] } := by
  have target : (handed entry back).target (.base .frame (-8)) = 0x2e8 := by
    rw [Cpu.target_base, frame_handed]
    decide
  have ok : overwritten.Open ((handed entry back).target (.base .frame (-8)))
      Width.double.bytes := by
    rw [target]
    exact (open_blank (by decide)).put.put.put
  have loaded : load overwritten.bytes (0x2e8 : UInt64).toNat Width.double.bytes.toNat = 0x7000 :=
    Guarded.load_put (a := 0x2e8) (open_blank (by decide)).put.put
  rw [effect_load ok, target, loaded]
  rfl

theorem stores_overwritten (c : Cpu) (p : UInt64) (base : c.reg .scratch1 = 0x7000) :
    (Instruction.store .x0 (.base .scratch1 0) .double).effect { c with pc := p } overwritten =
      .error (.memoryFault ⟨0x7000, .write, none⟩) := by
  refine effect_store_fault ?_
  rw [Cpu.target_base, base, overwritten, framed, (Guarded.changed_put _ _ _ _).fault?_eq,
    (Guarded.changed_put _ _ _ _).fault?_eq, (Guarded.changed_put _ _ _ _).fault?_eq]
  have unguarded : blank.guardOf? 0x7000 8 = none := rfl
  have past : ¬ (0x7000 : UInt64).toNat + (8 : UInt64).toNat ≤ blank.bytes.size := by
    rw [size_blank]
    decide
  change blank.fault? 0x7000 8 .write = _
  rw [Guarded.fault?, unguarded]
  exact if_neg past

theorem load_framed {j : Nat} (apart : j + 8 ≤ 0x2e8 ∨ 0x2f0 ≤ j ∧ j + 8 ≤ 0x2f8 ∨ 0x300 ≤ j) :
    load framed.bytes j 8 = 0 := by
  have low : (0x2e8 : UInt64).toNat = 0x2e8 := rfl
  have high : (0x2f8 : UInt64).toNat = 0x2f8 := rfl
  have eight : (8 : UInt64).toNat = 8 := rfl
  rw [framed, Guarded.load_put_of_disjoint (by omega), Guarded.load_put_of_disjoint (by omega)]
  exact load_blank j 8

theorem saved_framed (entry : UInt64) : Stubs.Saved (cpu entry 0) 0x2f0 framed where
  frame := load_framed (by decide)
  link := by
    rw [framed, Guarded.load_put_of_disjoint (by decide)]
    exact Guarded.load_put (a := 0x2f8) (open_blank (by decide))
  result := Guarded.load_put (a := 0x2e8) (open_blank (by decide)).put
  pairs := by
    have places : ∀ x ∈ Stubs.savedPairs, (0x2f0 + x.2.2 : UInt64).toNat + 16 ≤ 0x2e8 := by decide
    have zeros : ∀ x ∈ Stubs.savedPairs, (cpu entry 0).reg x.1 = 0 ∧ (cpu entry 0).reg x.2.1 = 0 := by
      simp only [Stubs.savedPairs, List.forall_mem_cons]
      exact ⟨⟨rfl, rfl⟩, ⟨rfl, rfl⟩, ⟨rfl, rfl⟩, ⟨rfl, rfl⟩, ⟨rfl, rfl⟩, List.forall_mem_nil _⟩
    intro x hx
    have below := places x hx
    obtain ⟨first, second⟩ := zeros x hx
    rw [first, second]
    exact ⟨load_framed (.inl (by omega)), load_framed (.inl (by omega))⟩

theorem handsOver (entry back : UInt64) :
    HandsOver false back [] 0x20 entry 0x500 (cpu entry 0) blank (handed entry back) framed where
  method := rfl
  entry := rfl
  thread := rfl
  frame := rfl
  operands := rfl
  sp := by
    change (0x280 : UInt64).toNat = (0x280 : UInt64).toNat / 16 * 16
    decide
  pushed := nofun
  changed := ((Guarded.Changed.refl blank _ _).put (by rw [sp_cpu]; decide)
    (by rw [sp_cpu]; decide)).put (by rw [sp_cpu]; decide) (by rw [sp_cpu]; decide)
  sender := rfl
  link := rfl
  saved := frame_handed entry back ▸ saved_framed entry
  checked on := absurd on Bool.false_ne_true

/-- If the entry has overwritten the frame of the stub, then it does not help that the stack pointer
    and the frame pointer are what they were: the host is not returned to. -/
theorem overwritten_not_left : ∃ i, Image.generate { debugChecks := false } = .ok i ∧
    (∀ entry, Submits [] 0x20 entry 0x500 (cpu entry 0) blank) ∧
    (∀ entry, HandsOver false i.stubs.callStubReturn [] 0x20 entry 0x500 (cpu entry 0) blank
      (handed entry i.stubs.callStubReturn) framed) ∧
    overwritten.Clear 0 0x600 ∧
    ∀ entry n, ¬ Arrives (fun w => w.processor.cpu.pc = (cpu entry 0).reg .link) n
      ((vm i).moved i.stubs.callStubReturn (handed entry i.stubs.callStubReturn) overwritten) := by
  obtain ⟨i, generated⟩ := Image.generate_ok (s := { debugChecks := false }) (by decide)
  obtain ⟨⟨place, leave, p, q, -, -, leaving, -⟩, -⟩ := Image.placed_of_generate generated
  refine ⟨i, generated, fun entry => ?_, fun entry => handsOver entry _,
    (((clear_blank (Nat.le_refl _)).put).put).put, fun entry n arrives => ?_⟩
  · exact ⟨rfl, rfl, rfl, rfl, nofun, clear_blank (by rw [x3_cpu]; decide), by rw [x3_cpu]; decide,
      clear_blank (by rw [sp_cpu]; decide), by rw [sp_cpu]; decide,
      .inl (by rw [x3_cpu, sp_cpu]; decide)⟩
  unfold Stubs.leaveCode Stubs.checkSp at leaving
  obtain ⟨-, leaving⟩ := leaving.bind_bind
  obtain ⟨⟨⟩, r, checking, leaving⟩ := leaving.split
  obtain ⟨rfl, -⟩ := (checking.ite_neg (by decide)).ended
  obtain ⟨i₁, leaving⟩ := leaving.emit_bind
  obtain ⟨i₂, leaving⟩ := leaving.emit_bind
  have more : (0 : UInt64) < (vm i).processor.maxSteps := by
    change (0 : UInt64) < 100
    decide
  have another : (0 + 1 : UInt64) < (vm i).processor.maxSteps := by
    change (0 + 1 : UInt64) < 100
    decide
  obtain ⟨watched, first⟩ := turn_effect i₁ (loads_overwritten entry i.stubs.callStubReturn _) rfl
    more []
  obtain ⟨w, second⟩ := turn_fault i₂
    (stores_overwritten ((handed entry i.stubs.callStubReturn).setReg .scratch1 0x7000) _ rfl) rfl
    another watched
  -- the place of the result is loaded, and the store there does not come about
  have leads := (arrives rfl 0 []).le (Nat.le_add_right n 2)
  refine Leads.not_of_error second nofun ?_ (leads.of_turn first ?_)
  · rintro ⟨u, s, t, there, -, here⟩
    refine (below_codeLimit i₂.2).1 ?_
    have := congrArg (·.processor.cpu.pc) here
    exact this.trans there
  · rintro ⟨u, s, t, there, -, here⟩
    refine (below_codeLimit i₁.2).1 ?_
    have := congrArg (·.processor.cpu.pc) here
    exact this.trans there

end Host
end Vm
end TemplateVm
