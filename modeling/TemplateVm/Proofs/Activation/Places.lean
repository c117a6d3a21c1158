import TemplateVm.Proofs.Activation.Fetch

set_option autoImplicit false
set_option synthInstance.maxSize 100000

/-!
# Variables and objects

Templates find a variable at a distance from the first one, below it. A value of two words is in the
lower of them. The words of an object can be read and written, and a write to one object leaves all
others as they are.
-/
namespace TemplateVm

open Memory (Guarded load)
open Guest

/-! ## Local variables -/

section

open Bytecode (Operation)
open Emit Template

variable {P : Vm → Prop} {v : Vm} {q q' : UInt64} {c : Cpu} {m m' : Guarded} {a : Activation}
  {b : Program} {bcp p k : UInt64} {x : Contents} {place : CodeLabel → UInt64} {ctx : CodeContext}
  {inStub : Bool} {K S : List CodeLabel} {w : Value} {n : Nat} {op : Operation}
  {operands : List UInt8}

namespace Activation

/-- Where a value of so many words is that the variable holds. -/
def slot (a : Activation) (n words : Nat) : Nat := a.locals.toNat + 8 - 8 * (n + words)

theorem HoldsLocals.assign {l : Locals} {maxLocals : Nat} (h : a.HoldsLocals maxLocals m l)
    (frame : a.frame.toNat + 8 * maxLocals ≤ a.locals.toNat + 8)
    (bound : n + w.words ≤ maxLocals)
    (hc : m.Changed m' (a.slot n w.words) (a.slot n 0)) (holds : w.In m' (a.slot n w.words)) :
    a.HoldsLocals maxLocals m' (l.assign n w) := by
  intro i u hu
  unfold Locals.assign at hu
  split at hu
  · next same =>
    cases hu
    subst same
    exact ⟨bound, holds⟩
  · split at hu
    · cases hu
    · next same inside =>
      split at hu
      · cases hu
      · next before =>
        obtain ⟨bound', holds'⟩ := h i u hu
        have apart : i + u.words ≤ n ∨ n + w.words ≤ i := by
          rw [hu] at before
          simp only [Option.any_some, decide_eq_true_eq, not_and] at before
          have positive := holds'.words_pos
          omega
        refine ⟨bound', holds'.agrees (hc.agrees (s := a.slot i u.words) (t := a.slot i 0) ?_)
          (Nat.le_refl _) ?_⟩
        · unfold slot
          omega
        · unfold slot
          omega

end Activation

namespace Stands

theorem slot_toNat (h : Stands a b bcp p x v c m) {words : Nat} (bound : n + words ≤ b.maxLocals) :
    a.low ≤ a.slot n words ∧ a.slot n words + 8 * words = a.slot n 0 ∧
      a.slot n 0 ≤ a.locals.toNat + 8 ∧ a.frame.toNat ≤ a.slot n words := by
  have frame := h.fits.frame
  have top := h.fits.top
  have operands := h.fits.operands
  unfold Activation.slot
  omega

theorem assign (h : Stands a b bcp p x v c m) (bound : n + w.words ≤ b.maxLocals)
    (hc : m.Changed m' (a.slot n w.words) (a.slot n 0)) (holds : w.In m' (a.slot n w.words)) :
    Stands a b bcp p { x with locals := x.locals.assign n w } v c m' := by
  have f := h.fits
  have records := f.records
  have thread := f.thread
  have heap := f.heap
  have operands := f.operands
  have frame := f.frame
  have top := f.top
  have depth := h.top
  have bounded := h.bounded
  obtain ⟨-, -, -, above⟩ := h.slot_toNat bound
  exact {
    registers := h.registers
    fits := f.changed hc
    loaded := h.loaded.agrees f.records (hc.agrees (by omega))
    idle := h.idle.agrees (hc.agrees (by omega)) (hc.agrees (by omega))
    framed := h.framed.agrees (by omega) (hc.agrees (by omega)) (hc.agrees (by omega))
    locals := h.locals.assign f.frame bound hc holds
    stack := h.stack.agrees (hc.agrees (s := p.toNat) (t := a.top.toNat) (by omega)) (by omega)
    top := h.top
    bounded := h.bounded
    heap := h.heap.agrees (hc.agrees (by omega))
    inhabits := { h.inhabits with } }

end Stands

end

/-! ## Objects in memory -/

section

variable {a : Activation} {b : Program} {bcp p : UInt64} {x : Contents} {v : Vm} {c : Cpu}
  {m m' : Guarded} {t : ClassTable} {heap : Heap} {r : UInt64} {o o' : Object} {lo hi : Nat}

namespace Activation.HoldsHeap

theorem update (h : a.HoldsHeap t m heap) (hr : heap r = some o) (hc : m.Changed m' lo hi)
    (above : r.toNat ≤ lo) (below : hi ≤ r.toNat + o.size) (same : o'.classId = o.classId)
    (size : o'.size = o.size) (holds : o'.In m' t r.toNat) :
    a.HoldsHeap t m' (heap.update r o') := by
  -- whatever the new heap has at a reference, the old one has an object of that size there
  have old (r' : UInt64) (o₁ : Object) (h' : heap.update r o' r' = some o₁) :
      ∃ o₂, heap r' = some o₂ ∧ o₁.size = o₂.size ∧ o₁.classId = o₂.classId := by
    obtain ⟨here, rfl⟩ | ⟨-, there⟩ := Heap.of_update h'
    · exact ⟨o, here ▸ hr, size, same⟩
    · exact ⟨o₁, there, rfl, rfl⟩
  constructor
  · intro r' o₁ h'
    obtain ⟨rfl, rfl⟩ | ⟨other, there⟩ := Heap.of_update h'
    · exact holds
    · refine (h.holds r' o₁ there).agrees (hc.agrees ?_)
      have apart := h.apart r' o₁ r o there hr other
      omega
  · intro r' o₁ h'
    obtain ⟨o₂, ho, -, class'⟩ := old r' o₁ h'
    exact class' ▸ h.known r' o₂ ho
  · intro r' o₁ h'
    obtain ⟨o₂, ho, -⟩ := old r' o₁ h'
    exact h.above r' o₂ ho
  · intro r' o₁ h'
    obtain ⟨o₂, ho, size', -⟩ := old r' o₁ h'
    exact size' ▸ h.below r' o₂ ho
  · intro r₁ o₁ r₂ o₂ h₁ h₂ other
    obtain ⟨o₁', ho₁, size₁, -⟩ := old r₁ o₁ h₁
    obtain ⟨o₂', ho₂, size₂, -⟩ := old r₂ o₂ h₂
    rw [size₁, size₂]
    exact h.apart r₁ o₁' r₂ o₂' ho₁ ho₂ other

end Activation.HoldsHeap

namespace Stands

/-- The bytes of an object can be accessed. -/
theorem open_object (h : Stands a b bcp p x v c m) (hr : x.heap r = some o) {k n : UInt64}
    (inside : k.toNat + n.toNat ≤ o.size) :
    (r + k).toNat = r.toNat + k.toNat ∧ m.Open (r + k) n := by
  have above := h.heap.above r o hr
  have below := h.heap.below r o hr
  have records := h.fits.records
  have bound := a.thread.toNat_lt
  have address : (r + k).toNat = r.toNat + k.toNat := toNat_add_of_lt (by omega)
  exact ⟨address, h.fits.clear.open (by omega) (by omega)⟩

/-- An object names its class in memory. -/
theorem classRecord (h : Stands a b bcp p x v c m) (hr : x.heap r = some o) :
    m.Open (r + Memory.ObjectShape.classRecord) 8 ∧
      load m.bytes (r + Memory.ObjectShape.classRecord).toNat 8 =
        (b.classes.get o.classId).address := by
  have inside : Memory.ObjectShape.classRecord.toNat + (8 : UInt64).toNat ≤ o.size := by
    change 16 ≤ o.size
    unfold Object.size
    split <;> omega
  obtain ⟨address, ok⟩ := h.open_object hr inside
  exact ⟨ok, (congrArg (load m.bytes · 8) address).trans (h.heap.holds r o hr).1⟩

/-- The runtime finds the class of an object by what the object has in memory. -/
theorem classAt (h : Stands a b bcp p x v c m) (hr : x.heap r = some o)
    (numbered : b.classes.classAt? (b.classes.get o.classId).address = some o.classId) :
    m.Open (r + Memory.ObjectShape.classRecord) 8 ∧ v.world.classes.classAt?
      (load m.bytes (r + Memory.ObjectShape.classRecord).toNat 8) = some o.classId := by
  obtain ⟨ok, record⟩ := h.classRecord hr
  exact ⟨ok, by rw [record, h.inhabits.classes, numbered]⟩

/-- A write to an object. -/
theorem update (h : Stands a b bcp p x v c m) (hr : x.heap r = some o) (hc : m.Changed m' lo hi)
    (above : r.toNat ≤ lo) (below : hi ≤ r.toNat + o.size) (same : o'.classId = o.classId)
    (size : o'.size = o.size) (holds : o'.In m' b.classes r.toNat) :
    Stands a b bcp p { x with heap := x.heap.update r o' } v c m' := by
  have f := h.fits
  have records := f.records
  have thread := f.thread
  have heap := f.heap
  have operands := f.operands
  have frame := f.frame
  have top := f.top
  have depth := h.top
  have bounded := h.bounded
  have low := h.heap.above r o hr
  have high := h.heap.below r o hr
  exact {
    registers := h.registers
    fits := f.changed hc
    loaded := h.loaded.agrees f.records (hc.agrees (by omega))
    idle := h.idle.agrees (hc.agrees (by omega)) (hc.agrees (by omega))
    framed := h.framed.agrees (by omega) (hc.agrees (by omega)) (hc.agrees (by omega))
    locals := h.locals.agrees f.frame (hc.agrees (by omega))
    stack := h.stack.agrees (hc.agrees (s := p.toNat) (t := a.top.toNat) (by omega)) (by omega)
    top := h.top
    bounded := h.bounded
    heap := h.heap.update hr hc above below same size holds
    inhabits := { h.inhabits with
      objects := fun r' o₁ h' => by
        obtain ⟨here, -⟩ | ⟨-, there⟩ := Heap.of_update h'
        · exact here ▸ h.inhabits.objects r o hr
        · exact h.inhabits.objects r' o₁ there } }

end Stands

end

end TemplateVm
