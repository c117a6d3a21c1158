import TemplateVm.Proofs.Calls.Lasting
import TemplateVm.Proofs.Calls.Serving
import TemplateVm.Proofs.Natives.Linking
import TemplateVm.Vm.Host

set_option autoImplicit false

/-!
# The registry of native functions

The host registers functions under class, name and descriptor of a method, the last one taking the
place of those before it. The runtime looks there when it is asked to link a method, and writes what
it finds into the record of the method; or it leaves the record as it is.
-/
namespace TemplateVm

open Memory (Guarded load byteAt)
open Native (CallFormat Library LinkedFunction)

/-! ## The library -/

namespace Native.Library

variable {l l' : Library} {n : MemberRef} {address : UInt64}

theorem of_register (h : l.register n address = .ok l') :
    address ≠ 0 ∧ l' = ⟨⟨n, address⟩ :: l.functions.filter (·.method ≠ n)⟩ := by
  unfold register at h
  split at h
  · cases h
  next present =>
  split at h
  · cases h
  · exact ⟨present, (Except.ok.inj h).symm⟩

theorem find?_cons (f : LinkedFunction) (fs : List LinkedFunction) (method : MemberRef) :
    (Library.mk (f :: fs)).find? method =
      if f.method = method then some f else (Library.mk fs).find? method := by
  unfold find?
  rw [List.find?_cons]
  by_cases here : f.method = method <;> simp [here]

/-- What is registered is found until something is registered for the same method, and nothing else
    is found otherwise. -/
theorem find?_register (h : l.register n address = .ok l') (method : MemberRef) :
    l'.find? method = (Library.mk (⟨n, address⟩ :: l.functions)).find? method := by
  obtain ⟨-, rfl⟩ := of_register h
  rw [find?_cons, find?_cons]
  by_cases same : n = method
  · rw [if_pos same, if_pos same]
  · rw [if_neg same, if_neg same, find?, List.find?_filter]
    refine congrArg (l.functions.find? ·) (funext fun f => ?_)
    by_cases here : f.method = method
    · simp [here, Ne.symm same]
    · simp [here]

/-- A function is accepted for whatever has the descriptor of a method. -/
theorem register_ok {d : MethodDescriptor} (l : Library) (present : address ≠ 0)
    (described : MethodDescriptor.ofText n.descriptor = .ok d) :
    ∃ l', l.register n address = .ok l' ∧ l'.find? n = some ⟨n, address⟩ := by
  obtain ⟨l', registered⟩ : ∃ l', l.register n address = .ok l' := by
    unfold register
    rw [if_neg present, described]
    exact ⟨_, rfl⟩
  refine ⟨l', registered, (find?_register registered n).trans ?_⟩
  rw [find?_cons, if_pos rfl]

end Native.Library

namespace Vm

variable {v w u : Vm} {n : MemberRef} {address : UInt64}

theorem registerNative_ok {l : Library} (registered : v.library.register n address = .ok l) :
    registerNative n address v = .ok () { v with library := l } := by
  unfold registerNative
  refine (bind_ok (m := (get : Action Vm)) rfl).trans ?_
  simp only [registered]
  rfl

/-- Only the library is another one, if anything. -/
theorem registerNative_ends (v : Vm) (n : MemberRef) (address : UInt64) :
    Ends (fun _ w => ∃ l, v.library.register n address = .ok l ∧ w = { v with library := l })
      (fun _ w => w = v) (registerNative n address v) := by
  unfold registerNative
  refine Ends.get_bind ?_
  cases registered : v.library.register n address with
  | ok l => exact ⟨l, rfl, rfl⟩
  | error failure => rfl

/-- The next turn has the runtime link the method with the record. -/
structure Asks (v : Vm) (address : UInt64) : Prop where
  pc : v.processor.cpu.pc = Service.prepareNativeCall.address
  method : v.processor.cpu.reg .x1 = address

/-- The turn is the service. -/
theorem Asks.turn_eq (h : v.Asks address) :
    turn v = (serve .prepareNativeCall >>= fun _ => pure true) v := by
  have here : v = (v.moved Service.prepareNativeCall.address v.processor.cpu
      v.world.store.mem).counted v.processor.steps v.processor.watched := by
    rw [← h.pc]
    rfl
  have turn := turn_service (v := v) (c := v.processor.cpu) (m := v.world.store.mem)
    .prepareNativeCall v.processor.steps v.processor.watched
  rw [← here] at turn
  exact turn

end Vm

/-! ## The record -/

namespace NativeCall

variable {a : NativeCall} {id : MethodId} {v w u : Vm}

/-- The addresses of the words of the record that link the method. -/
def OfLink (a : NativeCall) (j : Nat) : Prop := a.method.toNat + 24 ≤ j ∧ j < a.method.toNat + 44

/-- The record says what it said before, or the method has been linked with the function that is
    registered for it. -/
structure Relinks (a : NativeCall) (id : MethodId) (v w : Vm) : Prop where
  map : w.map = v.map
  record : v.world.store.mem.Agrees w.world.store.mem (a.method.toNat + 24) (a.method.toNat + 44) ∨
    ∃ f, v.library.find? (v.world.classes.member id) = some f ∧
      a.Linked v.world.classes id w.image f.address w.world.store.mem

theorem Relinks.of_serving (h : v.Serving a.OfLink w) : a.Relinks id v w :=
  ⟨h.map, .inl fun j first last => h.bytes.bytes j ⟨first, last⟩⟩

/-- Other bytes may be written. -/
theorem Relinks.next (h : a.Relinks id v u) (map : w.map = u.map) (image : w.image = u.image)
    (kept : u.world.store.mem.Agrees w.world.store.mem (a.method.toNat + 24)
      (a.method.toNat + 44)) : a.Relinks id v w where
  map := map.trans h.map
  record := h.record.imp (·.trans kept) fun ⟨f, found, linked⟩ =>
    ⟨f, found, image ▸ linked.agrees kept⟩

section
variable {s : Settings} (mapped : v.Mapped) (known : v.world.classes.methodAt? a.method = some id)
include mapped known

/-- The record of the method lies among the records. -/
theorem record_inside : v.world.classes.metaspace.start.toNat ≤ a.method.toNat ∧
    a.method.toNat + 48 ≤ v.world.classes.metaspace.top.toNat := by
  have within := mapped.booted.sound.within.methods _
    (ClassTable.method_mem (ClassTable.lt_of_methodAt? known))
  have first := within.first
  have record := within.record
  rw [ClassTable.address_of_methodAt? known] at first record
  exact ⟨first, record⟩

/-- The state of the thread is a word of its block. -/
theorem relinks_setState (state : ThreadState) :
    Preserves (a.Relinks id v) (Vm.onThread (·.setState state)) := fun u h => by
  have record := record_inside mapped known
  have top := mapped.booted.sound.writable.region.top_le
  have stop := mapped.metaspace
  have limit := mapped.block_lt
  have offset : ThreadBlock.threadState.toNat = 40 := rfl
  have address : (u.map.thread + ThreadBlock.threadState).toNat = v.map.thread.toNat + 40 := by
    rw [h.map, toNat_add_of_lt (by omega), offset]
  refine Ends.get_bind ((Vm.onMemory_ends (Guarded.write_ends (u.map.thread +
    ThreadBlock.threadState) 4 state.code.toUInt64 u.world.store.mem)).mono ?_ ?_)
  · rintro _ _ ⟨m, changed, rfl⟩
    exact h.next rfl rfl (changed.agrees (by omega))
  · rintro _ _ ⟨m, rfl, rfl⟩
    exact h

/-- The runtime links the method, or leaves its record as it is. -/
theorem relinks_prepareNativeCall (extended : Image.Extended s v.image)
    (present : ∀ f, v.library.find? (v.world.classes.member id) = some f → f.address ≠ 0)
    (serving : v.Serving a.OfLink u) :
    Ends (fun _ w => a.Relinks id v w) (fun _ w => a.Relinks id v w)
      (Vm.prepareNativeCall a.method u) := by
  have here : a.Relinks id v u := .of_serving serving
  have inside := record_inside mapped known
  have top := mapped.booted.sound.writable.region.top_le
  have apart := mapped.booted.sound.apart
  have below := mapped.booted.sound.writable.region.below
  have known' : u.world.classes.methodAt? a.method = some id := by
    rw [serving.world.classes]
    exact known
  cases found : v.library.find? (v.world.classes.member id) with
  | none =>
    unfold Vm.prepareNativeCall
    refine Vm.classes_bind ?_
    simp only [known']
    refine Ends.get_bind ?_
    rw [serving.library, serving.world.classes]
    simp only [found]
    refine (mapped.serving_post (fun j hj => .inl ?_) _ _ u serving).mono
      (fun _ _ h => .of_serving h) fun _ _ h => .of_serving h
    have last := hj.2
    omega
  | some f =>
    have found' : u.library.find? (u.world.classes.member id) = some f := by
      rw [serving.library, serving.world.classes]
      exact found
    cases supplied : v.image.signatureHandler (v.world.classes.method id).descriptor
        (v.world.classes.method id).access.isStatic with
    | error failure =>
      rw [← serving.image, ← serving.world.classes] at supplied
      rw [Vm.prepareNativeCall_error known' found' supplied]
      exact here
    | ok added =>
      obtain ⟨handler, i'⟩ := added
      obtain ⟨signature, described, sup⟩ := extended.of_signatureHandler supplied
      obtain ⟨few, rfl⟩ := Image.signature_few described
      rw [← serving.image, ← serving.world.classes] at supplied
      rw [Vm.prepareNativeCall_eq known' found' supplied (by rw [serving.world.classes]; exact few)]
      -- the record is open, so that it is written as a whole
      have clear : u.world.store.mem.Clear a.method.toNat (a.method.toNat + 48) :=
        (mapped.booted.sound.writable.clear.congr serving.alike.size serving.alike.guards).mono
          inside.1 (by omega)
      have field {k w : UInt64} (within : k.toNat + w.toNat ≤ 48) :
          u.world.store.mem.Open (a.method + k) w := by
        have address : (a.method + k).toNat = a.method.toNat + k.toNat :=
          toNat_add_of_lt (by omega)
        exact clear.open (by omega) (by omega)
      have linked := linked_linkRecord (t := v.world.classes) (m := u.world.store.mem)
        (present f found) clear (by omega) sup.kept
      have written := @Vm.linkRecord_ok a.method f.address handler
        (.ofMethod (u.world.classes.method id).descriptor) _
        (field (k := MethodRecord.nativeFunction) (w := 8) (by decide))
        (field (k := MethodRecord.signatureHandler) (w := 8) (by decide))
        (field (k := MethodRecord.callFormat) (w := 4) (by decide))
      have linking : Vm.onMemory _ { u with image := i' } = _ := Vm.onMemory_withMemory written
      rw [linking, serving.world.classes]
      exact ⟨here.map, .inr ⟨f, found, linked⟩⟩

/-- So does the turn in which it is asked to. -/
theorem relinks_turn (extended : Image.Extended s v.image)
    (present : ∀ f, v.library.find? (v.world.classes.member id) = some f → f.address ≠ 0)
    (asks : v.Asks a.method) :
    Ends (fun _ w => a.Relinks id v w) (fun _ w => a.Relinks id v w) (Vm.turn v) := by
  have inside := record_inside mapped known
  have top := mapped.booted.sound.writable.region.top_le
  have stop := mapped.metaspace
  have beside : ThreadBlock.Beside ⟨v.map.thread⟩ a.OfLink := fun j hj => .inl (by
    have last := hj.2
    change j < v.map.thread.toNat
    omega)
  have state : Preserves (Vm.Serving a.OfLink v) (Vm.onThread (·.setState .inRuntime)) :=
    Vm.serving_onThread fun _ => ThreadBlock.spared_field beside mapped.block_lt (by decide)
  have goTo (pc : UInt64) : Preserves (a.Relinks id v) (Vm.goTo pc) :=
    Preserves.modify fun u h => h.next rfl rfl fun _ _ _ => rfl
  have served : Ends (fun _ w => a.Relinks id v w) (fun _ w => a.Relinks id v w)
      (Vm.serve .prepareNativeCall v) := by
    unfold Vm.serve
    simp only [show Service.isLeaf .prepareNativeCall = false from rfl, Bool.not_false, ↓reduceIte]
    refine (state v (.refl mapped.booted.sound.store)).bind (fun _ _ h => .of_serving h)
      fun _ v₁ h₁ => ?_
    have method : v₁.processor.cpu.reg .x1 = a.method := by
      rw [h₁.processor]
      exact asks.method
    have linked := relinks_prepareNativeCall mapped known extended present h₁
    rw [← Vm.perform_prepareNativeCall method] at linked
    refine linked.bind (fun _ _ h => h) fun _ v₂ h₂ => ?_
    have link : Preserves (a.Relinks id v) (Vm.reg .link) := Preserves.of_reads fun _ => rfl
    exact ((relinks_setState mapped known .inGuest).bind fun _ => link.bind fun _ => goTo _) v₂ h₂
  rw [asks.turn_eq]
  exact served.bind (fun _ _ h => h) fun _ _ h => h

end

end NativeCall
end TemplateVm
