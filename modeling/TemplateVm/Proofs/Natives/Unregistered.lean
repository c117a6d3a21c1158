import TemplateVm.Proofs.Activation.Rethrowing
import TemplateVm.Proofs.Natives.HostCalls

set_option autoImplicit false
set_option synthInstance.maxSize 100000

/-!
# Native methods without a function

Where no function is registered for a native method, the service that would link it posts an
exception that names the method, and leaves the record of the method as it is. The entry forwards
the exception like any other that a service has posted.
-/
namespace TemplateVm

open Memory (Guarded load)
open Emit

/-! ## New exceptions -/

/-- Without room the heap is as it was. -/
theorem World.newInstance_exhausted {w : World} {id : ClassId} (full : ¬ w.HasRoom id) :
    newInstance id w = .error w.store.heap.exhausted w := by
  rw [HasRoom, Bool.not_eq_true, Option.isSome_eq_false_iff, Option.isNone_iff_eq_none] at full
  unfold newInstance
  refine (Vm.bind_ok (m := (get : World.Action World)) rfl).trans ?_
  have refused : Memory.Store.allocateInstance (w.classes.get id).address
      (w.classes.get id).fields.length.toUInt64 w.store =
        .error w.store.heap.exhausted w.store := by
    refine Vm.bind_error ((Vm.bind_ok (m := (get : Memory.Store.Action Memory.Store)) rfl).trans ?_)
    simp only [full]
    rfl
  simp only [onStore, zoom, refused]

/-- Where the heap has room, an object of the class is made. -/
theorem World.newInstance_made {w : World} {m : Guarded} (sound : (w.withMemory m).Sound)
    {id : ClassId} (few : (w.classes.get id).fields.length < 2 ^ 60) (room : w.HasRoom id) :
    ∃ object store,
      ({ w.store with mem := m } : Memory.Store).Creates (w.classes.get id).address object store ∧
      newInstance id (w.withMemory m) = .ok object { w with store } := by
  have ends := Vm.newInstance_ends sound few
  cases made : newInstance id (w.withMemory m) with
  | ok object w' =>
    rw [made] at ends
    obtain ⟨store, creates, rfl⟩ := ends
    exact ⟨object, store, creates, rfl⟩
  | error e w' =>
    rw [made] at ends
    exact absurd room ends.2.2.2

namespace Vm

variable {v : Vm} {p : UInt64} {c : Cpu} {m : Guarded} {steps : UInt64}
  {watched : List (UInt64 × UInt64)} {e : BuiltinException} {text : String} {id : ClassId}
  {object : UInt64} {store : Memory.Store}

theorem onWorld_ok {α : Type} {action : World.Action α} {x : α} {world : World}
    (h : action (v.world.withMemory m) = .ok x world) :
    onWorld action ((v.moved p c m).counted steps watched) =
      .ok x ((({ v with world } : Vm).moved p c world.store.mem).counted steps watched) := by
  have h' : action { v.world with store := { v.world.store with mem := m } } = .ok x world := h
  simp only [onWorld, zoom, moved, counted, h']

/-- The machine with a new object that has a message. -/
def withException (v : Vm) (object : UInt64) (text : String) (store : Memory.Store) : Vm :=
  { v with world := { v.world with store }, messages := (object, text) :: v.messages }

/-- A new object gets its message. -/
theorem allocateException_ok (loaded : v.world.classes.find? e.className = some id)
    (made : World.newInstance id (v.world.withMemory m) = .ok object { v.world with store }) :
    allocateException e (some text) ((v.moved p c m).counted steps watched) =
      .ok object (((v.withException object text store).moved p c store.mem).counted steps
        watched) := by
  unfold allocateException
  refine (bind_ok (m := classes) rfl).trans ?_
  have loaded' : ((v.moved p c m).counted steps watched).world.classes.find? e.className =
    some id := loaded
  simp only [loaded']
  exact (bind_ok (onWorld_ok made)).trans rfl

/-- An exception of the class with the message is on its way, and the next instruction is the first
    of the code that forwards exceptions. -/
structure Forwards (forward : UInt64) (e : BuiltinException) (text : String) (w : Vm) : Prop where
  pc : w.processor.cpu.pc = forward
  thrown : ∃ object id, load w.world.store.mem.bytes w.map.thread.toNat 8 = object ∧ object ≠ 0 ∧
    w.world.store.heap.isObject object = true ∧ w.message? object = some text ∧
    w.world.classes.find? e.className = some id ∧
    load w.world.store.mem.bytes (object.toNat + 8) 8 = (w.world.classes.get id).address

/-- What is said about a method without a function. -/
def unlinkedText (n : MemberRef) : String := MemberRef.text { n with holder := dotted n.holder }

end Vm

/-! ## The call -/

namespace NativeCall

variable {a : NativeCall} {id : MethodId} {m₀ m m' : Guarded} {v : Vm} {c : Cpu} {q : UInt64}

theorem Fits.alike {holder : UInt64} {n : Nat} (f : a.Fits holder n m) (alike : m.Alike m') :
    a.Fits holder n m' :=
  { f with
    clear := f.clear.congr alike.size alike.guards
    clearStack := f.clearStack.congr alike.size alike.guards }

/-- Records and objects can be added whatever the memory of the call is. -/
theorem Ready.sound (h : a.Ready id m₀ v c m) (mapped : v.Mapped)
    (low : 0x1000 ≤ v.world.classes.metaspace.start.toNat) : (v.world.withMemory m).Sound := by
  have sound := mapped.booted.sound
  have metaspace := mapped.metaspace
  have heap := mapped.heap
  have classes := sound.writable.region.start_le
  have classes' := sound.writable.region.top_le
  have objects := sound.store.region.start_le
  have apart := sound.apart
  rw [h.thread] at metaspace heap
  have records : m.Clear v.world.classes.metaspace.start.toNat
      v.world.classes.metaspace.stop.toNat := h.fits.clear.mono low (by omega)
  have free : m.Clear v.world.store.heap.region.top.toNat v.world.store.heap.region.stop.toNat :=
    h.fits.clear.mono (by omega) (by omega)
  exact ⟨⟨sound.writable.region, records⟩, ⟨sound.store.region, free⟩, apart, sound.coherent,
    sound.within, sound.few⟩

/-- The record of the method lies below all objects. -/
theorem Ready.below (h : a.Ready id m₀ v c m) (mapped : v.Mapped) :
    a.method.toNat + 48 ≤ v.world.store.heap.region.top.toNat := by
  have sound := mapped.booted.sound
  have record := (sound.within.methods _
    (ClassTable.method_mem (ClassTable.lt_of_methodAt? h.known))).record
  rw [ClassTable.address_of_methodAt? h.known] at record
  have classes := sound.writable.region.top_le
  have objects := sound.store.region.start_le
  have apart := sound.apart
  omega

/-- A new object of the class is the exception that is on its way, and all else that is written are
    words of the thread. -/
structure Posted (a : NativeCall) (v : Vm) (error : ClassId) (m : Guarded) (object : UInt64)
    (store : Memory.Store) (m' : Guarded) : Prop where
  some : object ≠ 0
  made : store.heap.isObject object = true
  instanced : load m'.bytes (object.toNat + 8) 8 = (v.world.classes.get error).address
  inside : object.toNat + 16 ≤ a.thread.toNat
  pending : load m'.bytes a.thread.toNat 8 = object
  alike : m.Alike m'
  kept : ∀ lo hi, hi ≤ v.world.store.heap.region.top.toNat ∨
    a.thread.toNat + 8 ≤ lo ∧ hi ≤ a.thread.toNat + 40 ∨ a.thread.toNat + 44 ≤ lo →
      m.Agrees m' lo hi

/-- Between two changes of the thread's state, an object is made and posted. -/
theorem Fits.posted {holder object : UInt64} {n : Nat} {error : ClassId} {store : Memory.Store}
    (f : a.Fits holder n m) (below : a.method.toNat + 48 ≤ v.world.store.heap.region.top.toNat)
    (heap : v.world.store.heap.region.stop.toNat ≤ a.thread.toNat)
    (creates : ({ v.world.store with mem := Vm.threadState a.thread .inRuntime m } :
      Memory.Store).Creates (v.world.classes.get error).address object store) :
    a.Posted v error m object store (Vm.threadState a.thread .inGuest
      (store.mem.put (a.thread + ThreadBlock.pendingException) 8 object)) := by
  have thread := f.thread
  have constMethod := f.constMethod
  have behind : v.world.store.heap.region.top.toNat ≤ object.toNat := creates.behind
  have last := creates.inside
  have inside : store.heap.region.top.toNat ≤ v.world.store.heap.region.stop.toNat :=
    creates.grows.heap.inside
  have state := changed_threadState f .inRuntime
  have added : (Vm.threadState a.thread .inRuntime m).Changed store.mem
    v.world.store.heap.region.top.toNat v.world.store.heap.region.stop.toNat := creates.grows.mem
  have alike : m.Alike store.mem :=
    (⟨state.size, state.guards⟩ : m.Alike _).trans ⟨added.size, added.guards⟩
  obtain ⟨pendingAt, pendingOk⟩ := (f.alike alike).threadField (k := ThreadBlock.pendingException)
    (n := 8) (by decide)
  change _ = a.thread.toNat + 0 at pendingAt
  have eight : (8 : UInt64).toNat = 8 := rfl
  have posted : store.mem.Changed
      (store.mem.put (a.thread + ThreadBlock.pendingException) 8 object) a.thread.toNat
      (a.thread.toNat + 8) :=
    (Guarded.changed_put store.mem _ 8 object).mono (by omega) (by omega)
  have pending : load (store.mem.put (a.thread + ThreadBlock.pendingException) 8 object).bytes
      a.thread.toNat 8 = object := by
    rw [show a.thread.toNat = (a.thread + ThreadBlock.pendingException).toNat from pendingAt.symm]
    exact Guarded.load_put pendingOk
  generalize store.mem.put (a.thread + ThreadBlock.pendingException) 8 object = m₃ at posted pending
  have alike₃ : m.Alike m₃ := alike.trans ⟨posted.size, posted.guards⟩
  have state₃ := changed_threadState (f.alike alike₃) .inGuest
  refine ⟨?_, creates.object, ?_, by omega, ?_, alike₃.trans ⟨state₃.size, state₃.guards⟩,
    fun lo hi out => ?_⟩
  · rintro rfl
    change _ ≤ 0 at behind
    omega
  · refine Eq.trans ?_ creates.instanced
    exact ((posted.agrees (s := object.toNat + 8) (t := object.toNat + 16) (.inl (by omega))).trans
      (state₃.agrees (.inl (by omega)))).load (Nat.le_refl _) (Nat.le_refl _)
  · exact ((state₃.agrees (s := a.thread.toNat) (t := a.thread.toNat + 8) (by omega)).load
      (Nat.le_refl _) (Nat.le_refl _)).trans pending
  · exact (state.agrees (by omega)).trans <| (added.agrees (by omega)).trans <|
      (posted.agrees (by omega)).trans (state₃.agrees (by omega))

section
variable {P : Vm → Prop} {turns : Nat} {error : ClassId} (h : a.Ready id m₀ v c m)
  (unknown : v.library.find? (v.world.classes.member id) = none) (mapped : v.Mapped)
  (low : 0x1000 ≤ v.world.classes.metaspace.start.toNat)
  (loaded : v.world.classes.find? BuiltinException.unsatisfiedLink.className = some error)
  (few : (v.world.classes.get error).fields.length < 2 ^ 60)
  (room : v.world.store.heap.region.top.toNat +
    (16 + 8 * (v.world.classes.get error).fields.length + 7) ≤
      v.world.store.heap.region.stop.toNat)
include h unknown mapped low loaded few room

omit h unknown mapped low loaded few room in
/-- The call ends with an exception that names the method, which has no function then either. -/
structure Unsatisfied (a : NativeCall) (t : ClassTable) (id : MethodId) (forward : UInt64)
    (w : Vm) : Prop where
  forwards : w.Forwards forward .unsatisfiedLink (Vm.unlinkedText (t.member id))
  unlinked : load w.world.store.mem.bytes (a.method.toNat + 24) 8 = 0

end

theorem Unsatisfied.counted {t : ClassTable} {forward : UInt64} {w : Vm}
    (h : a.Unsatisfied t id forward w) (steps : UInt64) (watched : List (UInt64 × UInt64)) :
    a.Unsatisfied t id forward (w.counted steps watched) :=
  ⟨⟨h.forwards.pc, h.forwards.thrown⟩, h.unlinked⟩

end NativeCall
end TemplateVm
