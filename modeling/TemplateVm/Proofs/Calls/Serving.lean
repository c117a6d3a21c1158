import TemplateVm.Proofs.Calls.Services
import TemplateVm.Proofs.Calls.Sparing

set_option autoImplicit false

/-!
# Services on the way into a method

What is called while a method is being entered reports to the host, asks for the frame to be popped,
or locks an object. It writes to the block of the thread, to a monitor record and to the object that
is locked, and a new exception goes to the heap. Control comes back with all registers, and bytes
elsewhere are as they were.
-/
namespace TemplateVm

open Memory (Guarded load)

/-! ## Objects -/

namespace Memory.Store

variable {s : Store} {A : Nat → Prop}

/-- A new object is not in the way of what lies before the heap or well behind it. -/
theorem allocateInstance_spares (sound : s.Sound) (limit : s.heap.region.stop.toNat + 16 < 2 ^ 64)
    (away : ∀ j, A j → j < s.heap.region.start.toNat ∨ s.heap.region.stop.toNat + 16 ≤ j)
    (classRecord slots : UInt64) :
    Ends (fun _ s' => s.Stays s' ∧ s.mem.Spared A s'.mem)
      (fun (_ : Failure) s' => s.Stays s' ∧ s.mem.Spared A s'.mem)
      (allocateInstance classRecord slots s) := by
  have stays := preserves_allocateInstance classRecord slots s (.refl sound)
  refine Ends.and stays ?_
  unfold allocateInstance
  refine (allocate_ends sound _).bind (fun _ _ failed => by rw [failed.1]; exact .refl A s.mem) ?_
  rintro a s₁ ⟨grows, behind, block, -⟩
  have start := sound.region.start_le
  have inside := grows.heap.inside
  have offset : ObjectShape.classRecord.toNat = 8 := rfl
  have eight : (8 : UInt64).toNat = 8 := rfl
  have address : (a + ObjectShape.classRecord).toNat = a.toNat + 8 := by
    rw [toNat_add_of_lt (by omega), offset]
  have spared : s.mem.Spared A s₁.mem := grows.mem.spared fun j hj => by
    have := away j hj
    omega
  have beyond : ∀ j, A j → j < (a + ObjectShape.classRecord).toNat ∨
      (a + ObjectShape.classRecord).toNat + 8 ≤ j := fun j hj => by
    have := away j hj
    omega
  have entered := Guarded.spared_write (w := 8) (n := classRecord) beyond s₁.mem spared
  refine Ends.bind (Ends.zoom entered) ?_ ?_
  · rintro _ _ ⟨m, spared, rfl⟩
    exact spared
  · rintro _ _ ⟨m, spared, rfl⟩
    exact spared

end Memory.Store

/-- The addresses are not those of the block. -/
def ThreadBlock.Beside (t : ThreadBlock) (A : Nat → Prop) : Prop :=
  ∀ j, A j → j < t.base.toNat ∨ t.base.toNat + 0x1000 ≤ j

theorem ThreadBlock.spared_field {t : ThreadBlock} {A : Nat → Prop} {m₀ : Guarded} {f w n : UInt64}
    (beside : t.Beside A) (limit : t.base.toNat + 0x1000 < 2 ^ 64)
    (inside : f.toNat + w.toNat ≤ 0x1000) : Preserves (m₀.Spared A) (t.write f w n) := by
  have address : (t.base + f).toNat = t.base.toNat + f.toNat := toNat_add_of_lt (by omega)
  refine Guarded.spared_write fun j hj => ?_
  have := beside j hj
  omega

namespace Vm

variable {v v₀ u : Vm} {A : Nat → Prop} {α : Type}

/-! ## What is left alone -/

/-- Registers, code and certain bytes are as they were, and objects are at most added. -/
structure Serving (A : Nat → Prop) (v₀ v : Vm) : Prop extends v₀.Spared A v where
  processor : v.processor = v₀.processor
  image : v.image = v₀.image

theorem Serving.refl (sound : v.world.store.Sound) : v.Serving A v := ⟨.refl sound, rfl, rfl⟩

theorem Serving.memory {m : Guarded} (h : v₀.Serving A v)
    (spared : v.world.store.mem.Spared A m) : v₀.Serving A (v.withMemory m) :=
  ⟨h.toSpared.memory spared, h.processor, h.image⟩

theorem serving_modify {f : Vm → Vm} (same : ∀ v, (f v).map = v.map ∧ (f v).image = v.image ∧
    (f v).safepoints = v.safepoints ∧ (f v).world = v.world ∧ (f v).library = v.library)
    (processor : ∀ v, (f v).processor = v.processor) :
    Preserves (Serving A v₀) (modify f : Action Unit) := Preserves.modify fun v h =>
  ⟨spared_modify same v h.toSpared, (processor v).trans h.processor, (same v).2.1.trans h.image⟩

theorem serving_consult (f : Hooks → α × Hooks) : Preserves (Serving A v₀) (consult f) :=
  Preserves.modifyGet fun _ h =>
    ⟨⟨⟨⟨h.map, h.gains, h.world, h.library⟩, h.safepoints⟩, h.bytes⟩, h.processor, h.image⟩

theorem serving_onMemory {action : Guarded.Action α}
    (h : ∀ m₀ : Guarded, Preserves (m₀.Spared A) action) :
    Preserves (Serving A v₀) (onMemory action) := fun v serving => by
  refine (onMemory_ends (h v.world.store.mem _ (.refl A _))).mono ?_ ?_
  · rintro _ _ ⟨m, spared, rfl⟩
    exact serving.memory spared
  · rintro _ _ ⟨m, spared, rfl⟩
    exact serving.memory spared

/-- What the thread's block is written for. -/
theorem serving_onThread {action : ThreadBlock → Guarded.Action α}
    (h : ∀ m₀ : Guarded, Preserves (m₀.Spared A) (action ⟨v₀.map.thread⟩)) :
    Preserves (Serving A v₀) (onThread action) := fun v serving => by
  have here : (⟨v.map.thread⟩ : ThreadBlock) = ⟨v₀.map.thread⟩ := by rw [serving.map]
  refine Ends.get_bind (serving_onMemory (fun m₀ => ?_) v serving)
  rw [here]
  exact h m₀

section
variable (mapped : v₀.Mapped)
include mapped

theorem Mapped.serving_requestPop (beside : ThreadBlock.Beside ⟨v₀.map.thread⟩ A) :
    Preserves (Serving A v₀) requestPop :=
  serving_onThread fun _ => (Preserves.of_reads ((Reads.readA _ _).bind fun _ => .pure _)).bind
    fun _ => ThreadBlock.spared_field beside mapped.block_lt (by decide)

/-- A method that is entered is reported, and its frame is to be popped if that is asked for. -/
theorem Mapped.serving_methodEntry (beside : ThreadBlock.Beside ⟨v₀.map.thread⟩ A) :
    Preserves (Serving A v₀) methodEntry := by
  unfold methodEntry
  refine (Preserves.of_reads lastFrame_reads).bind fun frame => ?_
  refine (Preserves.of_reads (methodOf_reads frame)).bind fun id => ?_
  refine (Preserves.of_reads Reads.classes).bind fun t => (serving_consult _).bind fun asked => ?_
  split
  · exact mapped.serving_requestPop beside
  · exact .pure ()

omit mapped in
theorem serving_counterOverflow : Preserves (Serving A v₀) counterOverflow :=
  (Preserves.of_reads lastFrame_reads).bind fun frame =>
    (Preserves.of_reads (methodOf_reads frame)).bind fun _ =>
    (Preserves.of_reads Reads.classes).bind fun _ =>
    (Preserves.of_reads (Reads.onMemory (Reads.readA _ _))).bind fun _ =>
    serving_modify (fun _ => ⟨rfl, rfl, rfl, rfl, rfl⟩) fun _ => rfl

/-- An exception that is posted lies in the heap. -/
theorem Mapped.serving_post (away : ∀ j, A j → j < v₀.world.store.heap.region.start.toNat ∨
      v₀.map.thread.toNat + 0x1000 ≤ j)
    (e : BuiltinException) (message : Option String) :
    Preserves (Serving A v₀) (post e message) := by
  have limit := mapped.block_lt
  have heap := mapped.heap
  have objects : v₀.world.store.heap.region.start.toNat ≤ v₀.map.thread.toNat := by
    have region := mapped.booted.sound.store.region
    exact Nat.le_trans region.start_le (Nat.le_trans region.top_le heap)
  have created (id : ClassId) : Preserves (Serving A v₀) (onWorld (World.newInstance id)) :=
    fun v serving => by
    have start := serving.world.store.start
    have stop := serving.world.store.stop
    have made := Memory.Store.allocateInstance_spares (A := A) serving.world.store.sound
      (by rw [stop]; omega) (fun j hj => by have := away j hj; rw [start, stop]; omega)
      (v.world.classes.get id).address (v.world.classes.get id).fields.length.toUInt64
    have joined {store : Memory.Store} (stays : v.world.store.Stays store)
        (spared : v.world.store.mem.Spared A store.mem) :
        v₀.Serving A { v with world := { v.world with store } } :=
      ⟨⟨serving.onWorld ⟨serving.world.classes, stays.sound, stays.start.trans serving.world.store.start,
        stays.stop.trans stop, serving.world.store.alike.trans stays.alike⟩,
        serving.bytes.trans spared⟩, serving.processor, serving.image⟩
    refine (onWorld_ends (P := fun _ w' => ∃ store, (v.world.store.Stays store ∧
      v.world.store.mem.Spared A store.mem) ∧ w' = { v.world with store }) (F := fun _ w' =>
      ∃ store, (v.world.store.Stays store ∧ v.world.store.mem.Spared A store.mem) ∧
        w' = { v.world with store }) (Ends.get_bind (Ends.zoom made))).mono ?_ ?_
    · rintro _ _ ⟨_, ⟨store, ⟨stays, spared⟩, rfl⟩, rfl⟩
      exact joined stays spared
    · rintro _ _ ⟨_, ⟨store, ⟨stays, spared⟩, rfl⟩, rfl⟩
      exact joined stays spared
  refine Preserves.bind ?_ fun object => serving_onThread fun _ =>
    ThreadBlock.spared_field (fun j hj => (away j hj).imp_left fun before =>
      Nat.lt_of_lt_of_le before objects) limit (by decide)
  unfold allocateException
  refine (Preserves.of_reads Reads.classes).bind fun t => ?_
  cases t.find? e.className with
  | none => exact .throw _
  | some id =>
    refine (created id).bind fun object => ?_
    cases message with
    | none => exact .pure object
    | some text =>
      exact Preserves.bind (serving_modify
        (f := fun vm => { vm with messages := (object, text) :: vm.messages })
        (fun _ => ⟨rfl, rfl, rfl, rfl, rfl⟩) fun _ => rfl) fun _ => .pure object

/-- Locking writes the first word of the record and of the object that the record names. -/
theorem Mapped.serving_monitorEnter (behind : ∀ j, A j → v₀.map.thread.toNat + 0x1000 ≤ j)
    {record object : UInt64} (named : ∀ v, v₀.Serving A v →
      load v.world.store.mem.bytes (record + Frame.monitorObject).toNat 8 = object)
    (below : ∀ j, A j → record.toNat + 8 ≤ j)
    (away : object ≠ 0 → ∀ j, A j → object.toNat + 8 ≤ j) :
    Preserves (Serving A v₀) (monitorEnter record) := fun v serving => by
  have lock (o : UInt64) (l : Option Lock) : Preserves (Serving A v₀) (setLock o l) :=
    serving_modify (fun _ => ⟨rfl, rfl, rfl, rfl, rfl⟩) fun _ => rfl
  have word {n : UInt64} (m₀ : Guarded) : Preserves (m₀.Spared A) (Guarded.write record 8 n) :=
    Guarded.spared_write fun j hj => .inr (below j hj)
  unfold monitorEnter
  have read : Ends (fun o u => o = object ∧ u = v) (fun _ u => u = v)
      (onMemory (Guarded.readA (record + Frame.monitorObject) 8) v) := by
    refine (Reads.onMemory (Reads.readA _ _) v).ran.mono ?_ fun _ _ h => h.2
    rintro o u ⟨ran, rfl⟩
    obtain ⟨m, ran, -⟩ := of_onMemory ran
    exact ⟨(Guarded.of_readA ran).2.trans (named u serving), rfl⟩
  refine read.bind (fun _ _ same => same ▸ serving) ?_
  rintro object _ ⟨rfl, rfl⟩
  refine .ite (fun _ => mapped.serving_post (fun j hj => .inr (behind j hj)) _ _ _ serving)
    fun real => ?_
  refine Ends.get_bind ?_
  have mark : object + Memory.ObjectShape.mark = object := UInt64.add_zero object
  cases Vm.lock? _ object with
  | some lock' =>
    exact (lock object _).bind (fun _ => serving_onMemory word) _ serving
  | none =>
    refine Preserves.bind (serving_onMemory fun m₀ => ?_) (fun _ => lock object _) _ serving
    refine (Preserves.of_reads (Reads.readA _ _)).bind fun _ => (word m₀).bind fun _ => ?_
    rw [mark]
    exact (Guarded.spared_write fun j hj => .inr (away real j hj)).bind fun _ => .pure _

end

/-! ## Around the work -/

theorem serving_reg (r : Register) : Preserves (Serving A v₀) (reg r) :=
  Preserves.of_reads fun _ => rfl

theorem serving_performOverflow : Preserves (Serving A v₀) (perform .counterOverflow) :=
  (serving_reg _).bind fun _ => (serving_reg _).bind fun _ => (serving_reg _).bind fun _ =>
    serving_counterOverflow

theorem Mapped.serving_performEntry (mapped : v₀.Mapped)
    (beside : ThreadBlock.Beside ⟨v₀.map.thread⟩ A) :
    Preserves (Serving A v₀) (perform .postMethodEntry) :=
  (serving_reg _).bind fun _ => (serving_reg _).bind fun _ => (serving_reg _).bind fun _ =>
    mapped.serving_methodEntry beside

/-- The record is in the second register. -/
theorem Mapped.serving_performLock (object : UInt64) (mapped : v₀.Mapped)
    (behind : ∀ j, A j → v₀.map.thread.toNat + 0x1000 ≤ j) {record : UInt64}
    (second : v₀.processor.cpu.reg .x1 = record) (named : ∀ v, v₀.Serving A v →
      load v.world.store.mem.bytes (record + Frame.monitorObject).toNat 8 = object)
    (below : ∀ j, A j → record.toNat + 8 ≤ j)
    (away : object ≠ 0 → ∀ j, A j → object.toNat + 8 ≤ j) :
    Preserves (Serving A v₀) (perform .monitorEnter) := fun v serving => by
  change Ends _ _ (monitorEnter (v.processor.cpu.reg .x1) v)
  rw [serving.processor, second]
  exact mapped.serving_monitorEnter behind named below away v serving

/-- A service is done: control is where the link register says. -/
structure Served (A : Nat → Prop) (v₀ v : Vm) : Prop where
  mapped : v.Mapped
  map : v.map = v₀.map
  image : v.image = v₀.image
  safepoints : v.safepoints = v₀.safepoints
  bytes : v₀.world.store.mem.Spared A v.world.store.mem
  processor : v.processor =
    { v₀.processor with cpu := { v₀.processor.cpu with pc := v₀.processor.cpu.reg .link } }

/-- The thread is in the runtime while the work is done. -/
theorem Mapped.serve_serving (mapped : v.Mapped) {s : Service} (leaf : s.isLeaf = false)
    (beside : ThreadBlock.Beside ⟨v.map.thread⟩ A) (work : Preserves (Serving A v) (perform s)) :
    Ends (fun _ u => v.Served A u) (fun _ _ => True) (serve s v) := by
  have state (t : ThreadState) : Preserves (Serving A v) (onThread (·.setState t)) :=
    serving_onThread fun _ => ThreadBlock.spared_field beside mapped.block_lt (by decide)
  unfold serve
  simp only [leaf, Bool.not_false, ↓reduceIte]
  refine (state .inRuntime v (.refl mapped.booted.sound.store)).bind (fun _ _ _ => trivial)
    fun _ v₁ h₁ => ?_
  refine (work v₁ h₁).bind (fun _ _ _ => trivial) fun _ v₂ h₂ => ?_
  refine (state .inGuest v₂ h₂).bind (fun _ _ _ => trivial) fun _ w h => ?_
  exact {
    mapped := (h.toGrows.mapped mapped).congr rfl rfl
    map := h.map
    image := h.image
    safepoints := h.safepoints
    bytes := h.bytes
    processor := by
      change { w.processor with cpu := { w.processor.cpu with pc := w.processor.cpu.reg .link } } = _
      rw [h.processor] }

end Vm
end TemplateVm
