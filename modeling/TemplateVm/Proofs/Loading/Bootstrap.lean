import TemplateVm.Proofs.Linking.Caches
import TemplateVm.Vm.State

set_option autoImplicit false

/-!
# A machine that is ready to load classes

A machine starts with an empty table, a metaspace and a heap that lie apart, and loads what every
program needs. If that succeeds, all that loading relies on holds from then on.
-/
namespace TemplateVm

open Memory (Guarded Region)

namespace World

variable {w w₀ w' : World} {c : ClassDefinition} {k : Nat}

/-- The world with another memory. -/
def withMemory (w : World) (m : Guarded) : World := { w with store := { w.store with mem := m } }

/-! ## The classes of every program -/

theorem Underway.find?_self (h : Underway w c k w') :
    ∃ id, w'.classes.find? c.name = some id := by
  obtain ⟨entry, classes, describes⟩ := h.listed
  have like : (entry.name == c.name) = true := beq_iff_eq.mpr describes.name
  rw [ClassTable.find?, classes, Array.findIdx?_push, if_pos like]
  cases w.classes.classes.findIdx? fun d => d.name == c.name with
  | none => exact ⟨_, rfl⟩
  | some id => exact ⟨id, rfl⟩

/-- What lies below the metaspace is not touched. -/
structure Spares (w w' : World) : Prop where
  start : w'.classes.metaspace.start = w.classes.metaspace.start
  stop : w'.classes.metaspace.stop = w.classes.metaspace.stop
  heap : w'.store.heap.region.stop = w.store.heap.region.stop
  size : w'.store.mem.bytes.size = w.store.mem.bytes.size
  guards : w'.store.mem.guards = w.store.mem.guards
  agrees : w.store.mem.Agrees w'.store.mem 0 w.classes.metaspace.start.toNat

theorem Spares.refl (w : World) : w.Spares w := ⟨rfl, rfl, rfl, rfl, rfl, fun _ _ _ => rfl⟩

theorem Spares.trans (h : w₀.Spares w) (h' : w.Spares w') : w₀.Spares w' where
  start := h'.start.trans h.start
  stop := h'.stop.trans h.stop
  heap := h'.heap.trans h.heap
  size := h'.size.trans h.size
  guards := h'.guards.trans h.guards
  agrees := h.agrees.trans (h.start ▸ h'.agrees)

theorem Extends.spares (h : w.Extends w') (sound : w.Sound) : w.Spares w' :=
  ⟨h.start, h.stop, h.heap.stop, h.size, h.guards, h.agrees sound sound.writable.region.start_le⟩

/-- The machine was made ready from the one before, and is ready; nothing is resolved in it. -/
def BootedFrom (w₀ w : World) : Prop := w.Booted ∧ w₀.Spares w ∧ w.Unlinked

theorem BootedFrom.load_ends (h : w₀.BootedFrom w) (small : c.pool.length ≤ 0xb40000) :
    Ends (fun _ w' => w₀.BootedFrom w' ∧ w.classes.size < w'.classes.size)
      (fun (_ : Failure) _ => True) (load c w) := by
  obtain ⟨h, spares, unlinked⟩ := h
  refine (World.load_ends h.sound (Nat.lt_of_le_of_lt small (by decide)) h.few).mono
    (fun _ w' ⟨_, known⟩ => ?_)
    fun _ _ _ => trivial
  obtain ⟨id, metaclass⟩ := h.metaclass
  obtain ⟨-, -, more, -, -⟩ := known.entry
  exact ⟨⟨⟨known.sound, id, known.grown.table.find?_of_some metaclass⟩,
    spares.trans (known.grown.spares h.sound), known.unlinked h.sound small unlinked⟩, more⟩

/-- A class is changed where loading does not look. -/
theorem Booted.modifyClass (h : w.Booted) {id : ClassId} {f : LoadedClass → LoadedClass}
    (name : ∀ c, (f c).name = c.name) (fields : ∀ c, (f c).fields = c.fields)
    (within : ∀ c lo hi, c.Within lo hi → (f c).Within lo hi)
    (methods : ∀ c, (f c).methods = c.methods) :
    (w.withTable (w.classes.classes.modify id f) w.classes.methods).Booted where
  sound := h.sound.modifyClass name fields within fun c _ hm => .inl (methods c ▸ hm)
  metaclass := by
    obtain ⟨k, metaclass⟩ := h.metaclass
    refine ⟨k, ?_⟩
    rw [← metaclass, ClassTable.find?, ClassTable.find?, findIdx?_name, findIdx?_name]
    exact congrArg _ (map_modify name)

theorem BootedFrom.makeClassObject_ends (h : w₀.BootedFrom w) {id : ClassId}
    (known : id < w.classes.size) :
    Ends (fun _ w' => w₀.BootedFrom w' ∧ w'.classes.size = w.classes.size)
      (fun (_ : Failure) _ => True) (makeClassObject id w) := by
  obtain ⟨h, spares, unlinked⟩ := h
  refine (World.makeClassObject_ends h.sound known).mono (fun _ w' done => ?_) fun _ _ _ => trivial
  rcases done with rfl | gives
  · exact ⟨⟨h, spares, unlinked⟩, rfl⟩
  have after := gives.unlinked h.sound known unlinked
  obtain ⟨store, m, object, grows, changed, rfl⟩ := gives
  have given : Booted { w with store := { store with mem := m } } :=
    ⟨(h.sound.grows grows).changed changed, h.metaclass⟩
  have first := (h.sound.within.classes _ (ClassTable.get_mem known)).first
  have grown := (Extends.grows grows).spares h.sound
  refine ⟨⟨given.modifyClass (fun _ => rfl) (fun _ => rfl)
    (fun _ _ _ within => ⟨within.first, within.record, within.pool, within.cache⟩)
    fun _ => rfl, spares.trans (grown.trans ⟨rfl, rfl, rfl, changed.size, changed.guards, ?_⟩), after⟩,
    Array.size_modify⟩
  exact changed.agrees (.inl first)

/-- The root has no fields. -/
theorem Underway.rootFields (h : Underway w c k w') (empty : w.classes.classes = #[])
    (none : c.fields = []) (id : ClassId) : (w'.classes.get id).fields.length = 0 := by
  obtain ⟨entry, classes, describes⟩ := h.listed
  have nothing (id : ClassId) : w.classes.get id = default := by
    simp [ClassTable.get, empty]
  have inherited : (((entry.superId.map w.classes.get).map (·.fields)).getD []).length = 0 := by
    cases entry.superId with
    | none => rfl
    | some super =>
      rw [Option.map_some, nothing]
      rfl
  have own := layOut_length describes.fields
  rw [inherited, none] at own
  rw [ClassTable.get, Array.getD_eq_getD_getElem?, classes, Array.getElem?_push, empty]
  split
  · exact own
  · rfl

/-- What is loaded after the first two classes. -/
theorem BootedFrom.loads_ends {α : Type} {l : List α} {f : α → ClassDefinition}
    (small : ∀ x, (f x).pool.length ≤ 0xb40000) (h : w₀.BootedFrom w) :
    Ends (fun _ w' => w₀.BootedFrom w') (fun (_ : Failure) _ => True)
      ((l.forM fun x => do let _ ← load (f x) : Action PUnit) w) :=
  Ends.forM (fun x _ _ h => (h.load_ends (small x)).bind (fun _ _ h => h) fun _ _ h => h.1) h

theorem bootstrap_ends (sound : w.Sound) (empty : w.classes.classes = #[]) :
    Ends (fun _ w' => w.BootedFrom w') (fun (_ : Failure) _ => True) (bootstrap w) := by
  unfold bootstrap
  have pool (n : Nat) (h : n ≤ 1) : n < 2 ^ 58 := Nat.lt_of_le_of_lt h (by decide)
  have pool' (n : Nat) (h : n ≤ 1) : n ≤ 0xb40000 := Nat.le_trans h (by decide)
  have unlinked : w.Unlinked :=
    ⟨⟨fun c hc => absurd (empty ▸ hc) (Array.not_mem_empty c), fun i j c _ hc => by
      rw [empty] at hc
      cases hc⟩, fun c hc => absurd (empty ▸ hc) (Array.not_mem_empty c)⟩
  refine (World.load_ends sound (pool _ (by decide))
    fun _ named => absurd named (by decide)).bind (fun _ _ _ => trivial) ?_
  rintro root w₁ ⟨rfl, first⟩
  have fields := first.rootFields empty rfl
  refine (World.load_ends first.sound (pool _ (by decide)) fun _ _ id => ?_).bind
    (fun _ _ _ => trivial) ?_
  · rw [fields id]
    decide
  rintro classId w₂ ⟨rfl, second⟩
  have booted : w.BootedFrom w₂ := ⟨⟨second.sound, second.find?_self⟩,
    (first.grown.spares sound).trans (second.grown.spares first.sound),
    second.unlinked first.sound (pool' _ (by decide))
      (first.unlinked sound (pool' _ (by decide)) unlinked)⟩
  obtain ⟨-, -, known₁, -, -⟩ := first.entry
  obtain ⟨-, -, known₂, -, -⟩ := second.entry
  refine (booted.makeClassObject_ends (Nat.lt_trans known₁ known₂)).bind (fun _ _ _ => trivial) ?_
  rintro _ w₃ ⟨booted, size⟩
  refine (booted.makeClassObject_ends (by rw [size]; exact known₂)).bind (fun _ _ _ => trivial) ?_
  rintro _ w₄ ⟨booted, -⟩
  refine (booted.loads_ends (by exact fun _ => pool' 0 (by decide))).bind (fun _ _ _ => trivial) ?_
  intro _ w₅ booted
  refine (booted.loads_ends (by exact fun _ => pool' 0 (by decide))).bind (fun _ _ _ => trivial) ?_
  intro _ w₆ booted
  refine (booted.load_ends (pool' _ (by decide))).bind (fun _ _ _ => trivial) ?_
  rintro _ w₇ ⟨booted, -⟩
  refine (booted.load_ends (pool' _ (by decide))).bind (fun _ _ _ => trivial) ?_
  rintro _ w₈ ⟨booted, -⟩
  refine Ends.forM (J := w.BootedFrom) (fun element _ _ h => ?_) booted
  refine (h.load_ends (by exact pool' 0 (by decide))).bind (fun _ _ _ => trivial)
    fun id _ ⟨⟨booted, spares, unlinked⟩, _⟩ => ?_
  exact ⟨booted.modifyClass (fun _ => rfl) (fun _ => rfl)
    (fun _ _ _ within => ⟨within.first, within.record, within.pool, within.cache⟩) fun _ => rfl,
    spares.trans ⟨rfl, rfl, rfl, rfl, rfl, fun _ _ _ => rfl⟩,
    unlinked.modify (f := fun c => { c with element := some element }) rfl (fun _ => rfl)
      (fun _ => rfl) (fun _ => rfl) fun _ _ _ _ _ => rfl⟩

end World

/-! ## The machine -/

/-- The metaspace, the heap, the block of the thread and the stack follow each other, far below the
    end of all addresses. -/
structure MemoryMap.Ordered (map : MemoryMap) : Prop where
  low : Place.nullPageEnd.toNat ≤ map.metaspaceStart.toNat
  metaspace : map.metaspaceStart.toNat + map.metaspaceSize.toNat ≤ map.heapStart.toNat
  heap : map.heapStart.toNat + map.heapSize.toNat ≤ map.thread.toNat
  thread : map.thread.toNat + Place.threadSize.toNat ≤ map.stackLimit.toNat
  stack : map.stackLimit.toNat ≤ map.redEnd.toNat
  size : map.redEnd.toNat + 8 ≤ map.size.toNat

namespace Vm

variable {map : MemoryMap} {entries : List UInt64} {policy : EntryPolicy}

/-- No guard lies between the null page and the stack. -/
theorem guarded_clear (ordered : map.Ordered) {lo hi : Nat}
    (first : Place.nullPageEnd.toNat ≤ lo) (last : hi ≤ map.stackLimit.toNat) :
    (guarded (.zeros map.size) map).Clear lo hi where
  inside := by
    have stack := ordered.stack
    have size := ordered.size
    change hi ≤ (Memory.zeros map.size.toNat).size
    rw [Memory.size_zeros]
    omega
  unguarded g hg := by
    have stack := ordered.stack
    simp only [guarded, Guarded.protect, Guarded.zeros, List.nil_append, List.cons_append,
      List.mem_cons, List.not_mem_nil, or_false] at hg
    rcases hg with rfl | rfl | rfl
    · exact .inl first
    · exact .inr last
    · exact .inr (Nat.le_trans last stack)

/-- The world that a machine starts with. -/
def emptyWorld (map : MemoryMap) (entries : List UInt64) (policy : EntryPolicy) : World :=
  { store := { mem := guarded (.zeros map.size) map, heap := .ofRange map.heapStart map.heapSize }
    classes := { metaspace := .ofSize map.metaspaceStart map.metaspaceSize, entries, policy } }

theorem ofSize_sound (start size : UInt64) (below : start.toNat + size.toNat + 8 ≤ 2 ^ 64) :
    (Region.ofSize start size).Sound ∧
      (Region.ofSize start size).stop.toNat = start.toNat + size.toNat := by
  have stop : (start + size).toNat = start.toNat + size.toNat := toNat_add_of_lt (by omega)
  refine ⟨⟨Nat.le_refl _, ?_, ?_⟩, stop⟩
  · change _ ≤ (start + size).toNat
    rw [stop]
    exact Nat.le_add_right _ _
  · change (start + size).toNat + 8 ≤ _
    omega

theorem emptyWorld_sound (ordered : map.Ordered) : (emptyWorld map entries policy).Sound := by
  have low := ordered.low
  have metaspace := ordered.metaspace
  have heap := ordered.heap
  have thread := ordered.thread
  have stack := ordered.stack
  have size := ordered.size
  have limit := map.size.toNat_lt
  obtain ⟨metaspaceSound, metaspaceStop⟩ :=
    ofSize_sound map.metaspaceStart map.metaspaceSize (by omega)
  obtain ⟨heapSound, heapStop⟩ :=
    ofSize_sound map.heapStart map.heapSize (by omega)
  refine ⟨⟨metaspaceSound, guarded_clear ordered low ?_⟩,
    ⟨heapSound, guarded_clear ordered ?_ ?_⟩, ?_, ?_, ?_, ?_⟩
  · change (Region.ofSize map.metaspaceStart map.metaspaceSize).stop.toNat ≤ _
    omega
  · change _ ≤ map.heapStart.toNat
    omega
  · change (Region.ofSize map.heapStart map.heapSize).stop.toNat ≤ _
    omega
  · exact Nat.le_trans (Nat.le_of_eq metaspaceStop) metaspace
  · intro c hc
    cases Array.not_mem_empty c hc
  · exact ⟨fun c hc => (Array.not_mem_empty c hc).elim, fun m hm =>
      (Array.not_mem_empty m hm).elim, fun m hm => (Array.not_mem_empty m hm).elim⟩
  · intro id found
    simp [ClassTable.find?, emptyWorld] at found

theorem writeWords_keepsShape (words : List UInt64) (a : UInt64) :
    Guarded.KeepsShape (Image.writeWords a words) := by
  induction words generalizing a with
  | nil => exact .pure (⟨⟩ : Unit)
  | cons word words ih => exact Guarded.KeepsShape.write.bind fun _ => ih _

theorem install_keepsShape (image : Image) : Guarded.KeepsShape image.install :=
  (writeWords_keepsShape _ _).bind fun _ => (writeWords_keepsShape _ _).bind fun _ =>
    (writeWords_keepsShape _ _).bind fun _ => writeWords_keepsShape _ _

theorem setUp_within {t : ThreadBlock} (limit : t.base.toNat + Place.threadSize.toNat < 2 ^ 64)
    (base size : UInt64) : Guarded.Within t.base.toNat (t.base.toNat + Place.threadSize.toNat)
      (t.setUp base size) := by
  have page : Place.threadSize.toNat = 0x1000 := rfl
  have write {k width v : UInt64} (inside : k.toNat + width.toNat ≤ 0x1000) :
      Guarded.Within t.base.toNat (t.base.toNat + Place.threadSize.toNat) (t.write k width v) := by
    have address : (t.base + k).toNat = t.base.toNat + k.toNat := toNat_add_of_lt (by omega)
    exact .write (by omega) (by omega)
  exact Guarded.Within.bind (.fill (Nat.le_refl _) (Nat.le_refl _)) fun _ =>
    (write (by decide)).bind fun _ => (write (by decide)).bind fun _ =>
    (write (by decide)).bind fun _ => (write (by decide)).bind fun _ =>
    (write (by decide)).bind fun _ => write (by decide)

theorem onWorld_ends {α : Type} {vm : Vm} {action : World.Action α} {P : α → World → Prop}
    {F : Failure → World → Prop} (h : Ends P F (action vm.world)) :
    Ends (fun x vm' => ∃ world, P x world ∧ vm' = { vm with world })
      (fun e vm' => ∃ world, F e world ∧ vm' = { vm with world }) (onWorld action vm) := by
  unfold onWorld
  exact Ends.zoom h

theorem onMemory_ends {α : Type} {vm : Vm} {action : Guarded.Action α} {P : α → Guarded → Prop}
    {F : Failure → Guarded → Prop} (h : Ends P F (action vm.world.store.mem)) :
    Ends (fun x vm' => ∃ m, P x m ∧ vm' = { vm with world := vm.world.withMemory m })
      (fun e vm' => ∃ m, F e m ∧ vm' = { vm with world := vm.world.withMemory m })
      (onMemory action vm) := by
  refine (onWorld_ends (World.onMemory_ends h)).mono ?_ ?_
  · rintro x _ ⟨_, ⟨m, holds, rfl⟩, rfl⟩
    exact ⟨m, holds, rfl⟩
  · rintro e _ ⟨_, ⟨m, holds, rfl⟩, rfl⟩
    exact ⟨m, holds, rfl⟩

/-- Nothing is loaded, and the block of the thread is behind all that loading may touch. -/
structure Fresh (vm : Vm) : Prop where
  sound : vm.world.Sound
  empty : vm.world.classes.classes = #[]
  clear : vm.world.store.mem.Clear vm.map.thread.toNat
    (vm.map.thread.toNat + Place.threadSize.toNat)
  apart : vm.world.classes.metaspace.stop.toNat ≤ vm.map.thread.toNat
  limit : vm.map.thread.toNat + Place.threadSize.toNat < 2 ^ 64

/-- What a machine does before it takes calls. -/
def prepare (image : Image) (base size : UInt64) : Action Unit := do
  onMemory image.install
  onWorld World.bootstrap
  onThread (·.setUp base size)

/-- The tables are written, then classes are loaded above them. -/
theorem prepare_ends {vm : Vm} (fresh : vm.Fresh) (image : Image) (base size : UInt64) :
    Ends (fun _ vm' => ∃ m world, image.install vm.world.store.mem = .ok () m ∧
        (vm.world.withMemory m).BootedFrom world ∧ vm' = { vm with world })
      (fun (_ : Failure) _ => True) (prepare image base size vm) := by
  obtain ⟨sound, empty, clear, apart, limit⟩ := fresh
  refine (onMemory_ends (install_keepsShape image _ _ (.refl _)).ran).bind (fun _ _ _ => trivial) ?_
  rintro _ _ ⟨m, ⟨installed, alike⟩, rfl⟩
  have booted := World.bootstrap_ends (sound.alike alike) (by exact empty)
  refine Ends.bind (onWorld_ends booted) (fun _ _ _ => trivial) ?_
  rintro _ _ ⟨world, ⟨booted, spares, unlinked⟩, rfl⟩
  have block := (clear.congr alike.size alike.guards).congr spares.size spares.guards
  refine Ends.get_bind ((onMemory_ends (setUp_within limit base size _ block)).mono ?_
    fun _ _ _ => trivial)
  rintro _ _ ⟨m', changed', rfl⟩
  have stop : world.classes.metaspace.stop = vm.world.classes.metaspace.stop := spares.stop
  have region := booted.sound.writable.region
  have below : world.classes.metaspace.top.toNat ≤ vm.map.thread.toNat := by
    rw [← stop] at apart
    exact Nat.le_trans region.top_le apart
  refine ⟨m, _, installed, ⟨⟨booted.sound.changed changed', booted.metaclass⟩,
    spares.trans ⟨rfl, rfl, rfl, changed'.size, changed'.guards, changed'.agrees (.inl ?_)⟩,
    unlinked.congr rfl fun c hc => changed'.agrees (.inl ?_)⟩, rfl⟩
  · exact Nat.le_trans region.start_le below
  · exact Nat.le_trans (booted.sound.within.classes c hc).cache below

/-- A machine that has its code, and nothing in memory. -/
def bare (settings : Settings) (image : Image) : Vm :=
  let map := MemoryMap.ofSettings settings
  { settings, map, image
    world := emptyWorld map image.methodEntries
      ⟨settings.fastEmptyMethods, settings.fastAccessorMethods⟩
    processor := { maxSteps := settings.maxSteps } }

theorem fresh_bare {settings : Settings} (ordered : (MemoryMap.ofSettings settings).Ordered)
    (image : Image) : (bare settings image).Fresh := by
  have low := ordered.low
  have metaspace := ordered.metaspace
  have heap := ordered.heap
  have block := ordered.thread
  have stack := ordered.stack
  have size := ordered.size
  have limit := (MemoryMap.ofSettings settings).size.toNat_lt
  have thread : (bare settings image).map.thread.toNat =
    (MemoryMap.ofSettings settings).thread.toNat := rfl
  have stop : (bare settings image).world.classes.metaspace.stop.toNat =
      (MemoryMap.ofSettings settings).metaspaceStart.toNat +
        (MemoryMap.ofSettings settings).metaspaceSize.toNat := (ofSize_sound _ _ (by omega)).2
  exact ⟨emptyWorld_sound ordered, rfl, guarded_clear ordered (by omega) (by omega), by omega,
    by omega⟩

/-- A machine that could be built has the code for its settings, and was prepared with it. -/
theorem create_ran {settings : Settings} {vm : Vm} (created : create settings = .ok vm) :
    ∃ image, Image.generate settings = .ok image ∧
      prepare image (MemoryMap.ofSettings settings).stackBase
        (MemoryMap.ofSettings settings).stackSize (bare settings image) = .ok () vm := by
  obtain ⟨image, generated, created⟩ := TemplateVm.ok_of_bind created
  dsimp only at created
  split at created
  · next ran =>
    cases created
    refine ⟨image, ?_, ran⟩
    cases made : Image.generate settings with
    | error defect =>
      rw [made] at generated
      cases generated
    | ok image' =>
      rw [made] at generated
      cases generated
      rfl
  · cases created

/-- A machine that could be built has the code and the tables for its settings, and has loaded the
    classes of every program. -/
theorem create_ends {settings : Settings} {vm : Vm}
    (ordered : (MemoryMap.ofSettings settings).Ordered) (created : create settings = .ok vm) :
    ∃ m, Image.generate settings = .ok vm.image ∧
      vm.image.install (bare settings vm.image).world.store.mem = .ok () m ∧
      ((bare settings vm.image).world.withMemory m).BootedFrom vm.world ∧
      vm.map = MemoryMap.ofSettings settings ∧ vm.safepoints = {} := by
  obtain ⟨image, generated, ran⟩ := create_ran created
  obtain ⟨m, world, installed, booted, rfl⟩ :=
    (prepare_ends (fresh_bare ordered image) image _ _).of_ok ran
  exact ⟨m, generated, installed, booted, rfl, rfl⟩

/-- A machine that could be built is ready to load classes. -/
theorem create_booted {settings : Settings} {vm : Vm}
    (ordered : (MemoryMap.ofSettings settings).Ordered) (created : create settings = .ok vm) :
    vm.world.Booted := by
  obtain ⟨_, -, -, ⟨booted, -, -⟩, -⟩ := create_ends ordered created
  exact booted

/-- In a machine that could be built nothing is resolved. -/
theorem create_unlinked {settings : Settings} {vm : Vm}
    (ordered : (MemoryMap.ofSettings settings).Ordered) (created : create settings = .ok vm) :
    vm.world.Unlinked := by
  obtain ⟨_, -, -, ⟨-, -, unlinked⟩, -⟩ := create_ends ordered created
  exact unlinked

/-- The default settings lay memory out so. -/
theorem ordered_default : (MemoryMap.ofSettings {}).Ordered := by
  constructor <;> decide

end Vm
end TemplateVm
