import TemplateVm.Proofs.Activation.Nulls
import TemplateVm.Proofs.Simulation.Run
import TemplateVm.Vm.Host

set_option autoImplicit false
set_option synthInstance.maxSize 100000

/-!
# What the marker gets

Two places say whether marking is active: the queue itself, and a word in memory for generated code.
As long as they agree, a run leaves in the queue what it has overwritten in fields, in that order and
but for null, if the code has the barrier and marking is active, and nothing otherwise. The host
makes them agree. A store in a field of null, for which the semantics of the guest has no step, leaves
the queue as it was.
-/
namespace TemplateVm

open Memory (Guarded MarkQueue load)
open Guest

namespace Memory.MarkQueue

variable (q : MarkQueue) (l : List UInt64)

theorem active_enqueue (r : UInt64) : (q.enqueue r).active = q.active := by
  unfold enqueue
  split <;> rfl

theorem toList_enqueue (r : UInt64) :
    (q.enqueue r).toList = q.toList ++ if q.active ∧ r ≠ 0 then [r] else [] := by
  unfold enqueue
  split
  · exact List.reverse_cons
  · exact (List.append_nil _).symm

theorem active_foldl : (l.foldl enqueue q).active = q.active := by
  induction l generalizing q with
  | nil => rfl
  | cons r l ih => exact (ih _).trans (active_enqueue q r)

/-- The queue keeps the order, and leaves out null. -/
theorem toList_foldl : (l.foldl enqueue q).toList =
    q.toList ++ if q.active then l.filter (· ≠ 0) else [] := by
  induction l generalizing q with
  | nil => simp
  | cons r l ih =>
    rw [List.foldl_cons, ih, active_enqueue, toList_enqueue, List.append_assoc]
    cases q.active <;> by_cases null : r = 0 <;> simp [null]

end Memory.MarkQueue

namespace Vm

variable {s : Settings} {v w : Vm} {l : List UInt64}

/-- What generated code reads in memory agrees with the queue. -/
def ShowsMarking (v : Vm) : Prop :=
  load v.world.store.mem.bytes Place.markingActive.toNat 1 = v.marks.active.toUInt64

/-- What marking asks for of a list of overwritten references. -/
def wanted (s : Settings) (v : Vm) (l : List UInt64) : List UInt64 :=
  if s.markBarrier && v.marks.active then l.filter (· ≠ 0) else []

theorem Continues.queued {ran : List Opcode}
    (h : v.Continues s (some l) ran v.world.store.mem w w.world.store.mem)
    (shows : v.ShowsMarking) :
    w.ShowsMarking ∧ w.marks.active = v.marks.active ∧
      w.marks.toList = v.marks.toList ++ v.wanted s l := by
  have marks := h.marks l rfl
  have shown := h.shown
  unfold ShowsMarking at shows ⊢
  unfold queueing at marks
  unfold wanted
  rw [shows] at marks shown
  rw [shown]
  cases active : v.marks.active <;> cases barrier : s.markBarrier <;>
    simp [active, barrier, Bool.toUInt64] at marks ⊢ <;>
    simp [marks, active, MarkQueue.active_foldl, MarkQueue.toList_foldl]

/-- The host can switch marking as long as the word for it is not guarded. -/
theorem setMarking_ok (active : Bool) (ok : v.world.store.mem.Open Place.markingActive 1) :
    ∃ w, setMarking active v = .ok () w ∧ w.ShowsMarking ∧ w.marks.active = active ∧
      w.marks.entries = v.marks.entries := by
  let u : Vm := { v with marks := v.marks.setActive active }
  have run : setMarking active v = onMemory
      (fun m => m.write Place.markingActive 1 active.toUInt64) u := bind_ok rfl
  refine ⟨_, run.trans (onMemory_ok (v := u) ok.write), ?_, rfl, rfl⟩
  refine (Guarded.load_put_byte ok).trans ?_
  cases active <;> rfl

end Vm

variable {a : Activation} {b : Program} {s : Settings} {i : Image} {tos : TopOfStack}
  {t t' : State} {w : Vm} {n : Nat}

/-- With an empty queue before the run, the host drains exactly what the run has overwritten. -/
theorem Enters.drains (h : Enters a b i tos t w) (generated : Image.Generated s i)
    (closed : t.Closed) (typed : t.Typed b) (roomy : a.Roomy s b.maxStack)
    (wide : tos.ofResult = tos ∨ ∀ op, b.operation? t.bci = some op → op.opcode.takes = .none)
    (shows : w.ShowsMarking) (fresh : w.marks.entries = []) (run : Guest.steps b n t = some t') :
    ∃ l, overwrittenIn? b n t = some l ∧
      Vm.Arrives (fun w' => (∃ tos', Enters a b i tos' t' w') ∧ w'.ShowsMarking ∧
        ∃ u, Vm.drainMarks w' = .ok (w.wanted s l) u ∧ u.marks.entries = [] ∧
          u.marks.active = w.marks.active) (n * b.stepTurns) w := by
  obtain ⟨l, known⟩ := steps_overwritten typed run
  refine ⟨l, known, (h.continues generated closed roomy wide run).mono ?_⟩
  rintro w' ⟨enters, continues⟩
  rw [known] at continues
  obtain ⟨shows', active, queue⟩ := continues.queued shows
  refine ⟨enters, shows', { w' with marks := w'.marks.drain.2 }, ?_, rfl, active⟩
  have empty : w.marks.toList = [] := congrArg List.reverse fresh
  rw [empty, List.nil_append] at queue
  exact congrArg (EStateM.Result.ok · _) queue

/-! ## Fields of null -/

section

open Bytecode (Operation)

variable {a : Activation} {b : Program} {s : Settings} {i : Image} {tos : TopOfStack} {t : State}
  {w : Vm} {op : Operation} {slot : FieldSlot} {u : Value} {rest : List Value}
  (h : Enters a b i tos t w) (bounded : Image.Bounded s i) (closed : t.Closed)
  (roomy : a.Roomy s b.maxStack) (current : b.operation? t.bci = some op)
include h bounded closed roomy current

/-- The machine comes to a template that takes no operand in a register. All of its code belongs to
    the interpreter. -/
theorem Enters.toTemplate {P : Vm → Prop} {turns : Nat} (takes : op.opcode.takes = .none)
    (next : ∀ code place ctx K q q' v c m, ctx.settings = s → v.image.exceptions = i.exceptions →
      op ∈ Bytecode.decode b.code → v.Interprets code →
      w.Continues s (some []) [op.opcode] w.world.store.mem v m →
      Lays ⟨code, place⟩ ctx true K [] (Template.ofOpcode v.image.exceptions op.opcode).code q q'
        () →
      Represents a b .none (a.at op) t.toContents v c m → Vm.Arrives P turns (v.moved q c m)) :
    Vm.Arrives P (turns + 51) w := by
  obtain ⟨op₁, v, c, m, current', rfl, rfl, h⟩ := h
  obtain rfl := Option.some.inj (current.symm.trans current')
  obtain ⟨-, hm⟩ := Program.bci_of_operation? current
  obtain ⟨code, place, ctx, K, S, trace, entry, illegal, q, q', E, inside⟩ := bounded.entry op.opcode
  have settings : ctx.settings = s := by
    obtain ⟨i₀, -, same, -⟩ := bounded.generated.image
    exact E.settings.trans same
  subst settings
  refine h.runToTemplate E (fun p j fetch => (inside p j fetch).1) hm closed roomy (.inl takes)
    (fun taken => absurd takes taken) fun q₁ q₂ v₁ c₁ m₁ before lay _ h => ?_
  have same : v₁.image.exceptions = v.image.exceptions := congrArg Image.exceptions before.image
  rw [takes] at h
  refine next code place ctx K q₁ q₂ v₁ c₁ m₁ rfl same hm ?_ ⟨before.image, before.guards,
    before.shown, before.marks, before.counts⟩ (same ▸ lay) h
  unfold Vm.Interprets
  rw [before.image]
  exact inside

/-- The machine comes to the null pointer entry. The reference is gone from the operands, and nothing
    else has changed. -/
theorem Enters.getField_null (null : w.world.store.mem.NullFirst) (is : op.opcode = .getfield)
    (found : b.field? op.operand.toNat = some slot) (small : slot.offset.toNat < 0x1000)
    (stack : t.stack = .object 0 :: rest) (known : TopOfStack.ofType slot.type ≠ .none) :
    Vm.Arrives (fun w' => w'.marks = w.marks ∧ ∃ p v c m,
      w' = v.moved i.exceptions.throwNullPointer c m ∧
      w.Continues s (some []) [op.opcode] w.world.store.mem v m ∧
      Stands a b (a.at op) p { t.toContents with stack := rest } v c m) 79 w := by
  refine h.toTemplate bounded closed roomy current (by rw [is]; rfl)
    fun code place ctx K q q' v c m settings same hm inside continues lay h => ?_
  rw [is] at lay
  refine h.runPopReference (F := ⟨code, place⟩) hm rfl found is stack known
    (fun p j fetch => (inside p j fetch).1) lay fun K S q₁ q₂ p c₁ lay h₁ x0 x1 _ => ?_
  obtain ⟨⟨⟩, r, read, -⟩ := lay.split
  refine .readField_null (null.congr continues.guards) (F := ⟨code, place⟩) inside x0
    (x1.symm ▸ small) read ?_
  rw [same]
  exact .here ⟨(continues.marks [] rfl).trans (ite_self _), p, v, c₁, m, rfl, continues, h₁⟩

/-- The machine comes to the null pointer entry. The operands are gone, and nothing else has
    changed. -/
theorem Enters.putField_null (null : w.world.store.mem.NullFirst) (is : op.opcode = .putfield)
    (found : b.field? op.operand.toNat = some slot) (small : slot.offset.toNat < 0x1000)
    (stack : t.stack = u :: .object 0 :: rest)
    (kind : (Cell.ofValue? (.ofType slot.type) u).isSome) :
    Vm.Arrives (fun w' => w'.marks = w.marks ∧ ∃ p v c m,
      w' = v.moved i.exceptions.throwNullPointer c m ∧
      w.Continues s (some []) [op.opcode] w.world.store.mem v m ∧
      Stands a b (a.at op) p { t.toContents with stack := rest } v c m) 89 w := by
  refine h.toTemplate bounded closed roomy current (by rw [is]; rfl)
    fun code place ctx K q q' v c m settings same hm inside before lay h => ?_
  subst settings
  rw [is] at lay
  refine h.runPopField (F := ⟨code, place⟩) hm rfl closed roomy found is rfl stack kind
    (fun p j fetch => (inside p j fetch).1) lay
    fun K S q₃ q₄ p c₂ m₂ lay h₂ held x3 x1 popped _ => ?_
  have continues := before.after popped
  refine .writeField_null (null.congr continues.guards) (F := ⟨code, place⟩) inside ?_ x3
    (x1.symm ▸ small) lay fun n => ?_
  · have records := h₂.fits.records
    refine h₂.open_below (by decide) ?_
    change 0x1010 + 1 ≤ _
    omega
  rw [same]
  exact .here ⟨(continues.marks [] rfl).trans (ite_self _), p, v, c₂.setReg .scratch1 n, m₂, rfl,
    ⟨continues.image, continues.guards, continues.shown, continues.marks, continues.counts⟩,
    h₂.setReg .scratch1 n rfl⟩

end

end TemplateVm
