import TemplateVm.Proofs.Calls.Outcome
import TemplateVm.Proofs.Linking.Resolution
import TemplateVm.Proofs.Machine.Turns
import TemplateVm.Vm.Call

set_option autoImplicit false

/-!
# What no run takes away

Whatever guest code does, and whatever services and the host do for it, the parts of memory stay
where the map has them, and no guard comes to lie on them: the only guards that change are those of
the yellow zone. So the block of the thread can be reached when a run is over, however it ended.
-/
namespace TemplateVm

open Memory (Guarded)

/-! ## Objects -/

namespace Memory.Store

variable {s s₀ : Store} {α : Type}

/-- Objects are at most added, and memory has its shape. -/
structure Stays (s₀ s : Store) : Prop where
  sound : s.Sound
  start : s.heap.region.start = s₀.heap.region.start
  stop : s.heap.region.stop = s₀.heap.region.stop
  alike : s₀.mem.Alike s.mem

theorem Stays.refl (sound : s.Sound) : s.Stays s := ⟨sound, rfl, rfl, .refl _⟩

theorem Stays.grows {s' : Store} (h : s₀.Stays s) (grows : s.Grows s') : s₀.Stays s' where
  sound := grows.sound h.sound
  start := grows.heap.start.trans h.start
  stop := grows.heap.stop.trans h.stop
  alike := h.alike.trans ⟨grows.mem.size, grows.mem.guards⟩

theorem Stays.memory {m : Guarded} (h : s₀.Stays s) (alike : s.mem.Alike m) :
    s₀.Stays { s with mem := m } where
  sound := ⟨h.sound.region, h.sound.clear.congr alike.size alike.guards⟩
  start := h.start
  stop := h.stop
  alike := h.alike.trans alike

theorem preserves_allocate (size : UInt64) : Preserves s₀.Stays (allocate size) := fun _ h =>
  (allocate_ends h.sound size).mono (fun _ _ grown => h.grows grown.grows) fun _ _ failed => by
    rw [failed.1]
    exact h

theorem preserves_onMemory {action : Guarded.Action α} (keeps : Guarded.KeepsShape action) :
    Preserves s₀.Stays (onMemory action) := fun s h => by
  refine (Ends.zoom (keeps s.mem s.mem (.refl _))).mono ?_ ?_
  · rintro _ _ ⟨m, alike, rfl⟩
    exact h.memory alike
  · rintro _ _ ⟨m, alike, rfl⟩
    exact h.memory alike

theorem preserves_allocateInstance (classRecord slots : UInt64) :
    Preserves s₀.Stays (allocateInstance classRecord slots) :=
  (preserves_allocate _).bind fun _ => (preserves_onMemory .write).bind fun _ =>
    (Preserves.modify fun _ h => ⟨⟨h.sound.region, h.sound.clear⟩, h.start, h.stop, h.alike⟩).bind
      fun _ => .pure _

theorem preserves_allocateArray (classRecord elementSize : UInt64) (length : UInt32) :
    Preserves s₀.Stays (allocateArray classRecord elementSize length) :=
  (preserves_allocate _).bind fun _ =>
    (preserves_onMemory (Guarded.KeepsShape.write.bind fun _ => .write)).bind fun _ =>
      (Preserves.modify fun _ h => ⟨⟨h.sound.region, h.sound.clear⟩, h.start, h.stop, h.alike⟩).bind
        fun _ => .pure _

end Memory.Store

namespace World

variable {w w₀ : World} {α : Type}

/-- The classes stay, and objects are at most added. -/
structure Stays (w₀ w : World) : Prop where
  classes : w.classes = w₀.classes
  store : w₀.store.Stays w.store

theorem Stays.sound (h : w₀.Stays w) (sound : w₀.Sound) : w.Sound := by
  obtain ⟨store, classes⟩ := w
  obtain ⟨rfl, stays⟩ := h
  exact ⟨⟨sound.writable.region, sound.writable.clear.congr stays.alike.size stays.alike.guards⟩,
    stays.sound, by rw [stays.start]; exact sound.apart, sound.coherent, sound.within, sound.few⟩

theorem preserves_onStore {action : Memory.Store.Action α}
    (h : Preserves w₀.store.Stays action) : Preserves w₀.Stays (onStore action) := fun w stays => by
  refine (Ends.zoom (h w.store stays.store)).mono ?_ ?_
  · rintro _ _ ⟨store, stays', rfl⟩
    exact ⟨stays.classes, stays'⟩
  · rintro _ _ ⟨store, stays', rfl⟩
    exact ⟨stays.classes, stays'⟩

theorem preserves_onMemory {action : Guarded.Action α} (keeps : Guarded.KeepsShape action) :
    Preserves w₀.Stays (World.onMemory action) :=
  preserves_onStore (Memory.Store.preserves_onMemory keeps)

theorem preserves_newInstance (id : ClassId) : Preserves w₀.Stays (newInstance id) :=
  Preserves.get.bind fun _ => preserves_onStore (Memory.Store.preserves_allocateInstance _ _)

theorem preserves_classOf (object : UInt64) : Preserves w₀.Stays (classOf object) :=
  (preserves_onMemory .readA).bind fun a => Preserves.get.bind fun w => by
    cases w.classes.classAt? a with
    | some id => exact .pure id
    | none => exact .throw _

end World

/-! ## The image -/

namespace Image

variable {i i' i'' : Image} {d : MethodDescriptor} {isStatic : Bool} {added : UInt64 × Image}

/-- Signature handlers have been added to the image, if anything. -/
inductive Gains (i : Image) : Image → Prop
  | refl : i.Gains i
  | added {i' : Image} (before : i.Gains i') {d : MethodDescriptor} {isStatic : Bool}
    {added : UInt64 × Image} (run : i'.signatureHandler d isStatic = .ok added) : i.Gains added.2

theorem Gains.trans (h : i.Gains i') (h' : i'.Gains i'') : i.Gains i'' := by
  induction h' with
  | refl => exact h
  | added _ run ih => exact ih.added run

/-- A signature handler that is added leaves the dispatch tables alone. -/
theorem tables_of_signatureHandler (h : i.signatureHandler d isStatic = .ok added) :
    added.2.normalTable = i.normalTable ∧ added.2.safepointTable = i.safepointTable := by
  obtain ⟨s, -, h⟩ := TemplateVm.ok_of_bind h
  dsimp only at h
  split at h
  · cases h
    exact ⟨rfl, rfl⟩
  split at h
  next result made =>
    cases h
    obtain ⟨blob, -, made⟩ := TemplateVm.ok_of_bind made
    obtain ⟨code, -, made⟩ := TemplateVm.ok_of_bind made
    cases made
    exact ⟨rfl, rfl⟩
  next => cases h

theorem Gains.tables (h : i.Gains i') :
    i'.normalTable = i.normalTable ∧ i'.safepointTable = i.safepointTable := by
  induction h with
  | refl => exact ⟨rfl, rfl⟩
  | added _ run ih =>
    obtain ⟨normal, detour⟩ := tables_of_signatureHandler run
    exact ⟨normal.trans ih.1, detour.trans ih.2⟩

end Image

/-! ## The machine -/

namespace Vm

variable {v w : Vm} {α : Type}

/-- Classes and objects lie below the block of the thread, the block lies below the guarded zones of
    the stack, and no guard lies on any of them. -/
structure Mapped (v : Vm) : Prop where
  ordered : v.map.Ordered
  booted : v.world.Booted
  metaspace : v.world.classes.metaspace.stop.toNat ≤ v.map.thread.toNat
  heap : v.world.store.heap.region.stop.toNat ≤ v.map.thread.toNat
  block : v.world.store.mem.Clear v.map.thread.toNat
    (v.map.thread.toNat + Place.threadSize.toNat)

namespace Mapped

theorem congr (h : v.Mapped) (map : w.map = v.map) (world : w.world = v.world) : w.Mapped where
  ordered := map ▸ h.ordered
  booted := world ▸ h.booted
  metaspace := by rw [map, world]; exact h.metaspace
  heap := by rw [map, world]; exact h.heap
  block := by rw [map, world]; exact h.block

theorem stays {world : World} (h : v.Mapped) (stays : v.world.Stays world) :
    Mapped { v with world } where
  ordered := h.ordered
  booted := ⟨stays.sound h.booted.sound, by
    obtain ⟨id, metaclass⟩ := h.booted.metaclass
    exact ⟨id, by rw [stays.classes]; exact metaclass⟩⟩
  metaspace := by
    change world.classes.metaspace.stop.toNat ≤ _
    rw [stays.classes]
    exact h.metaspace
  heap := by
    change world.store.heap.region.stop.toNat ≤ _
    rw [stays.store.stop]
    exact h.heap
  block := h.block.congr stays.store.alike.size stays.store.alike.guards

/-- Memory may be changed as long as nothing below the end of the red zone gets guarded. -/
theorem memory {m : Guarded} (h : v.Mapped)
    (clear : ∀ lo hi, hi ≤ v.map.redEnd.toNat → v.world.store.mem.Clear lo hi → m.Clear lo hi) :
    (v.withMemory m).Mapped := by
  have thread := h.ordered.thread
  have stack := h.ordered.stack
  have sound := h.booted.sound
  have metaspace := h.metaspace
  have heap := h.heap
  have records := clear _ _ (by omega) sound.writable.clear
  have objects := clear _ _ (by omega) sound.store.clear
  have block := clear _ _ (by omega) h.block
  exact ⟨h.ordered, ⟨⟨⟨sound.writable.region, records⟩, ⟨sound.store.region, objects⟩, sound.apart,
    sound.coherent, sound.within, sound.few⟩, h.booted.metaclass⟩, metaspace, heap, block⟩

theorem alike {m : Guarded} (h : v.Mapped) (alike : v.world.store.mem.Alike m) :
    (v.withMemory m).Mapped :=
  h.memory fun _ _ _ clear => clear.congr alike.size alike.guards

end Mapped

/-! ## What only adds objects -/

/-- The map, the classes and the library are as they were, objects and signature handlers are at
    most added, and memory has its shape. -/
structure Grows (v₀ v : Vm) : Prop where
  map : v.map = v₀.map
  gains : v₀.image.Gains v.image
  world : v₀.world.Stays v.world
  library : v.library = v₀.library

/-- Moreover no safepoint is asked for, armed or taken. -/
structure Stays (v₀ v : Vm) : Prop extends Grows v₀ v where
  safepoints : v.safepoints = v₀.safepoints

variable {v₀ : Vm}

namespace Grows

theorem alike (h : v₀.Grows v) : v₀.world.store.mem.Alike v.world.store.mem := h.world.store.alike

theorem mapped (h : v₀.Grows v) (mapped : v₀.Mapped) : v.Mapped :=
  (mapped.stays h.world).congr h.map rfl

theorem normal (h : v₀.Grows v) : v.image.normalTable = v₀.image.normalTable := h.gains.tables.1

theorem detour (h : v₀.Grows v) : v.image.safepointTable = v₀.image.safepointTable :=
  h.gains.tables.2

theorem trans (h : v₀.Grows v) (h' : v.Grows w) : v₀.Grows w where
  map := h'.map.trans h.map
  gains := h.gains.trans h'.gains
  world := ⟨h'.world.classes.trans h.world.classes, h'.world.store.sound,
    h'.world.store.start.trans h.world.store.start, h'.world.store.stop.trans h.world.store.stop,
    h.alike.trans h'.alike⟩
  library := h'.library.trans h.library

/-- Safepoints may be asked for, armed and taken. -/
theorem arranged {m : Guarded} (h : v₀.Grows v) (safepoints : Safepoints)
    (alike : v.world.store.mem.Alike m) : v₀.Grows { v.withMemory m with safepoints } :=
  ⟨h.map, h.gains, ⟨h.world.classes, h.world.store.memory alike⟩, h.library⟩

end Grows

namespace Stays

theorem refl (sound : v.world.store.Sound) : v.Stays v :=
  ⟨⟨rfl, .refl, ⟨rfl, .refl sound⟩, rfl⟩, rfl⟩

theorem onWorld {world : World} (h : v₀.Stays v) (stays : v₀.world.Stays world) :
    v₀.Stays { v with world } := ⟨⟨h.map, h.gains, stays, h.library⟩, h.safepoints⟩

theorem memory {m : Guarded} (h : v₀.Stays v) (alike : v.world.store.mem.Alike m) :
    v₀.Stays (v.withMemory m) :=
  h.onWorld ⟨h.world.classes, h.world.store.memory alike⟩

end Stays

/-- The action at most adds objects. -/
abbrev Steady (action : Action α) : Prop := ∀ v₀, Preserves (Stays v₀) action

namespace Steady

/-- What holds after every addition is preserved. -/
theorem preserves {action : Action α} {I : Vm → Prop} (h : Steady action)
    (sound : ∀ v, I v → v.world.store.Sound) (closed : ∀ v w, I v → v.Stays w → I w) :
    Preserves I action := fun v before =>
  (h v v (.refl (sound v before))).mono (fun _ w stays => closed v w before stays)
    fun _ w stays => closed v w before stays

theorem grows {action : Action α} (h : Steady action) : Preserves (Grows v₀) action :=
  h.preserves (fun _ grows => grows.world.store.sound) fun _ _ grows stays =>
    grows.trans stays.toGrows

theorem of_reads {action : Action α} (h : Reads action) : Steady action := fun _ => .of_reads h

theorem pure (x : α) : Steady (Pure.pure x : Action α) := fun _ => .pure x

theorem throw (e : Failure) : Steady (MonadExcept.throw e : Action α) := fun _ => .throw e

theorem get : Steady (MonadState.get : Action Vm) := fun _ => .get

theorem bind {β : Type} {action : Action α} {f : α → Action β} (h : Steady action)
    (next : ∀ x, Steady (f x)) : Steady (action >>= f) := fun v₀ => (h v₀).bind fun x => next x v₀

theorem modify {f : Vm → Vm} (same : ∀ v, (f v).map = v.map ∧ (f v).image = v.image ∧
    (f v).safepoints = v.safepoints ∧ (f v).world = v.world ∧ (f v).library = v.library) :
    Steady (modify f : Action Unit) := fun _ => Preserves.modify fun v h => by
  obtain ⟨map, image, safepoints, world, library⟩ := same v
  exact ⟨⟨map.trans h.map, by rw [image]; exact h.gains,
    by rw [world]; exact h.world, library.trans h.library⟩, safepoints.trans h.safepoints⟩

theorem onWorld {action : World.Action α} (h : ∀ w₀, Preserves (World.Stays w₀) action) :
    Steady (onWorld action) := fun v₀ v stays => by
  refine (onWorld_ends (h v₀.world v.world stays.world)).mono ?_ ?_
  · rintro _ _ ⟨world, stays', rfl⟩
    exact stays.onWorld stays'
  · rintro _ _ ⟨world, stays', rfl⟩
    exact stays.onWorld stays'

theorem onMemory {action : Guarded.Action α} (h : Guarded.KeepsShape action) :
    Steady (onMemory action) := fun v₀ v stays => by
  refine (onMemory_ends (h v.world.store.mem _ (.refl _))).mono ?_ ?_
  · rintro _ _ ⟨m, alike, rfl⟩
    exact stays.memory alike
  · rintro _ _ ⟨m, alike, rfl⟩
    exact stays.memory alike

theorem onThread {action : ThreadBlock → Guarded.Action α}
    (h : ∀ t, Guarded.KeepsShape (action t)) : Steady (onThread action) :=
  get.bind fun _ => onMemory (h _)

theorem classes : Steady classes := of_reads Reads.classes

theorem reg (r : Register) : Steady (reg r) := get.bind fun _ => pure _

theorem modifyCpu (f : Cpu → Cpu) : Steady (modifyCpu f) := modify fun _ => ⟨rfl, rfl, rfl, rfl, rfl⟩

theorem consult (f : Hooks → α × Hooks) : Steady (consult f) := fun _ =>
  Preserves.modifyGet fun _ h => ⟨⟨h.map, h.gains, h.world, h.library⟩, h.safepoints⟩

theorem note (e : HookEvent) : Steady (note e) := modify fun _ => ⟨rfl, rfl, rfl, rfl, rfl⟩

end Steady

theorem onSafepoints_ends {action : Safepoints.Action α} {P : α → Safepoints × Guarded → Prop}
    {F : Failure → Safepoints × Guarded → Prop}
    (h : Ends P F (action (v.safepoints, v.world.store.mem))) :
    Ends (fun x w => ∃ s m, P x (s, m) ∧ w = { v.withMemory m with safepoints := s })
      (fun e w => ∃ s m, F e (s, m) ∧ w = { v.withMemory m with safepoints := s })
      (onSafepoints action v) := by
  unfold onSafepoints
  refine Ends.mono (Ends.zoom (P := P) (F := F) h) ?_ ?_
  · rintro x _ ⟨⟨s, m⟩, holds, rfl⟩
    exact ⟨s, m, holds, rfl⟩
  · rintro e _ ⟨⟨s, m⟩, holds, rfl⟩
    exact ⟨s, m, holds, rfl⟩

/-- Safepoints change the tables in memory and their record. -/
theorem grows_onSafepoints {action : Safepoints.Action α}
    (h : ∀ m₀, Preserves (fun s => Guarded.Alike m₀ s.2) action) :
    Preserves (Grows v₀) (onSafepoints action) := fun v grows => by
  refine (onSafepoints_ends (h v.world.store.mem _ (.refl _))).mono ?_ ?_
  · rintro _ _ ⟨s, m, alike, rfl⟩
    exact grows.arranged s alike
  · rintro _ _ ⟨s, m, alike, rfl⟩
    exact grows.arranged s alike

/-! ## Actions -/

/-- The action leaves the parts of memory where they are. -/
abbrev Keeps (action : Action α) : Prop := Preserves Mapped action

theorem Steady.keeps {action : Action α} (h : Steady action) : Keeps action :=
  h.preserves (fun _ mapped => mapped.booted.sound.store) fun _ _ mapped stays =>
    stays.toGrows.mapped mapped

theorem Mapped.grows (h : v.Mapped) : v.Grows v := (Stays.refl h.booted.sound.store).toGrows

/-- What grows from there on leaves the parts where they are. -/
theorem Keeps.of_grows {action : Action α} (h : ∀ v₀, Preserves (Grows v₀) action) :
    Keeps action := fun v mapped =>
  (h v v mapped.grows).mono (fun _ _ grows => grows.mapped mapped) fun _ _ grows =>
    grows.mapped mapped

end Vm
end TemplateVm
