import TemplateVm.Proofs.Calls.ThreadStates

set_option autoImplicit false

/-!
# What the host finds between calls

The host builds a machine, loads classes and calls methods, in any order and as often as it likes,
and any of it may fail. Wherever control is with the host, the thread is in the runtime.
-/
namespace TemplateVm

open Memory (Guarded load)

/-! ## Loading -/

namespace World

variable {w w' : World} {c : ClassDefinition}

/-- Records and objects are added where there is room for them, and nothing below and above is
    touched. -/
structure Adds (w w' : World) : Prop where
  booted : w'.Booted
  spares : w.Spares w'
  declares : w.classes.Declares w'.classes
  below : w.store.mem.Agrees w'.store.mem 0 w.classes.metaspace.top.toNat
  above : ∀ lo hi, w.classes.metaspace.stop.toNat ≤ lo → w.store.heap.region.stop.toNat ≤ lo →
    w.store.mem.Agrees w'.store.mem lo hi

theorem Adds.refl (booted : w.Booted) : w.Adds w :=
  ⟨booted, .refl w, .refl _, fun _ _ _ => rfl, fun _ _ _ _ _ _ _ => rfl⟩

theorem Adds.alike (h : w.Adds w') : w.store.mem.Alike w'.store.mem :=
  ⟨h.spares.size, h.spares.guards⟩

theorem Extends.adds (h : w.Extends w') (booted : w.Booted) (sound : w'.Sound) : w.Adds w' where
  booted := by
    obtain ⟨id, metaclass⟩ := booted.metaclass
    exact ⟨sound, id, h.table.find?_of_some metaclass⟩
  spares := h.spares booted.sound
  declares := h.table.declares
  below := h.agrees booted.sound (Nat.le_refl _)
  above lo hi behind above j first _ :=
    h.bytes j (.inr (Nat.le_trans behind first)) (.inr (Nat.le_trans above first))

theorem load_adds (booted : w.Booted) (small : c.pool.length < 2 ^ 58) :
    Ends (fun _ w' => w.Adds w') (fun _ w' => w.Adds w') (load c w) :=
  (load_extends booted.sound small booted.few).mono (fun _ _ h => h.1.adds booted h.2)
    fun _ _ h => h.1.adds booted h.2

/-- A method is added to a class that was loaded before. -/
theorem loadMethod_adds (booted : w.Booted) {holder : ClassId} (known : holder < w.classes.size)
    {m : MethodDefinition} {name : String} (valid : m.validate name = .ok ()) :
    Ends (fun _ w' => w.Adds w') (fun _ w' => w.Adds w') (loadMethod holder m w) := by
  have fills {k : Nat} {w' : World} (h : Fills k w w') : w.Adds w' :=
    (h.extends booted.sound).adds booted (h.sound booted.sound)
  refine (loadMethod_writes booted.sound holder valid).mono ?_ ?_
  · rintro _ _ ⟨w₁, l, filled, records, rfl⟩
    have adds := fills filled
    obtain ⟨k, metaclass⟩ := adds.booted.metaclass
    have table : w₁.classes.classes = w.classes.classes := by rw [filled.table]
    have names : (w₁.classes.classes.modify holder fun c =>
        { c with methods := c.methods ++ [w₁.classes.methods.size] }).map (·.name) =
          w₁.classes.classes.map (·.name) := map_modify fun _ => rfl
    refine ⟨⟨adds.booted.sound.addMethod holder records.within ?_, k, ?_⟩, { adds.spares with },
      ⟨⟨#[l], ?_⟩, #[], ?_⟩, adds.below, adds.above⟩
    · rw [records.holder, table]
      exact known
    · rw [← metaclass, ClassTable.find?, ClassTable.find?, findIdx?_name, findIdx?_name]
      exact congrArg _ names
    · change w₁.classes.methods.push l = _
      rw [filled.table, Array.push_eq_append]
    · rw [Array.append_empty, ← table]
      exact names
  · rintro _ _ (refused | ⟨rfl, -⟩)
    · exact fills refused.1
    · exact .refl booted

theorem require_ends (name : String) (w : World) :
    Ends (fun id w' => w' = w ∧ w.classes.find? name = some id) (fun (_ : Failure) w' => w' = w)
      (require name w) := by
  unfold require
  refine Ends.get_bind ?_
  cases found : w.classes.find? name with
  | some id => exact ⟨rfl, rfl⟩
  | none => rfl

theorem require_reads (name : String) : Reads (require name) := fun w =>
  (require_ends name w).mono (fun _ _ h => h.1) fun _ _ h => h

/-- A method through which handles are invoked is made when it is first needed. -/
theorem handleInvoker_adds (booted : w.Booted) (name descriptor : String) :
    Ends (fun _ w' => w.Adds w') (fun _ w' => w.Adds w') (handleInvoker name descriptor w) := by
  unfold handleInvoker
  refine (require_ends KnownClass.methodHandle w).bind (fun _ _ same => ?_) ?_
  · rw [same]
    exact .refl booted
  rintro holder w' ⟨same, loaded⟩
  rw [same]
  refine Ends.get_bind ?_
  cases w.classes.declared? holder name (some descriptor) with
  | some id => exact Adds.refl booted
  | none =>
    refine .ite (fun _ => ?_) fun _ => .refl booted
    cases described : MethodDescriptor.ofText descriptor with
    | ok d =>
      have native :
          Access.isNative ⟨Access.publicBit ||| Access.finalBit ||| Access.nativeBit⟩ = true := by
        decide
      exact loadMethod_adds booted (ClassTable.lt_of_find? loaded) (MethodDefinition.validate_bodyless name
        ⟨d, described⟩ (by rw [MethodDefinition.isBodyless, native, Bool.true_or]) rfl rfl)
    | error defect =>
      unfold loadMethod
      rw [described]
      exact Adds.refl booted

end World

namespace Vm

variable {v w : Vm} {settings : Settings} {α : Type}

theorem Mapped.adds {world : World} (h : v.Mapped) (adds : v.world.Adds world) :
    Mapped { v with world } where
  ordered := h.ordered
  booted := adds.booted
  metaspace := by
    change world.classes.metaspace.stop.toNat ≤ _
    rw [adds.spares.stop]
    exact h.metaspace
  heap := by
    change world.store.heap.region.stop.toNat ≤ _
    rw [adds.spares.heap]
    exact h.heap
  block := h.block.congr adds.alike.size adds.alike.guards

/-- Nothing is written to the block. -/
theorem Mapped.adds_field {world : World} (h : v.Mapped) (adds : v.world.Adds world) {f : UInt64}
    {n : Nat} (inside : f.toNat + n ≤ 0x1000) :
    load world.store.mem.bytes (v.map.thread + f).toNat n =
      load v.world.store.mem.bytes (v.map.thread + f).toNat n := by
  have thread := h.ordered.thread
  have stack := h.ordered.stack
  have size := h.ordered.size
  have limit := v.map.size.toNat_lt
  have page : Place.threadSize.toNat = 0x1000 := rfl
  have metaspace := h.metaspace
  have heap := h.heap
  have address : (v.map.thread + f).toNat = v.map.thread.toNat + f.toNat :=
    toNat_add_of_lt (by omega)
  have above := adds.above (v.map.thread + f).toNat ((v.map.thread + f).toNat + n) (by omega)
    (by omega)
  exact above.load (Nat.le_refl _) (Nat.le_refl _)

theorem Rests.adds {s : ThreadState} {world : World} (h : v.Rests s) (adds : v.world.Adds world) :
    Rests s { v with world } where
  mapped := h.mapped.adds adds
  state := (h.mapped.adds_field adds (by decide)).trans h.state

theorem rested_onWorld {action : World.Action α}
    (h : ∀ w : World, w.Booted → Ends (fun _ w' => w.Adds w') (fun _ w' => w.Adds w') (action w)) :
    Rested (onWorld action) := fun s v rests => by
  refine (onWorld_ends (h v.world rests.mapped.booted)).mono ?_ ?_
  · rintro _ _ ⟨world, adds, rfl⟩
    exact rests.adds adds
  · rintro _ _ ⟨world, adds, rfl⟩
    exact rests.adds adds

/-- An object goes before the arguments. -/
theorem withObject {reference : UInt64} {arguments : List Value}
    (few : (arguments.flatMap Value.stackWords).length < 2 ^ 58) :
    ((.object reference :: arguments).flatMap Value.stackWords).length < 2 ^ 59 := by
  rw [List.flatMap_cons, List.length_append]
  change 1 + _ < _
  omega

/-- A call by way of a handle leaves the thread in the runtime as well. -/
theorem preserves_invokeExact (handle : UInt64) (descriptor : String) {arguments : List Value}
    (few : (arguments.flatMap Value.stackWords).length < 2 ^ 58) :
    Preserves (Rests .inRuntime) (invokeExact handle descriptor arguments) := by
  refine (rested_onWorld (fun _ booted => World.handleInvoker_adds booted _ _) _).bind fun id => ?_
  exact preserves_invoke id (withObject few)

theorem lookup_reads (className name : String) : Reads (lookup className name) :=
  (Reads.onWorld (World.require_reads className)).bind fun id => Reads.classes.bind fun t => by
    cases t.findMethod? id name none with
    | some id => exact .pure id
    | none => exact .throw _

theorem preserves_callStatic (className name : String) {arguments : List Value}
    (few : (arguments.flatMap Value.stackWords).length < 2 ^ 58) :
    Preserves (Rests .inRuntime) (callStatic className name arguments) := by
  refine (Rested.of_reads (lookup_reads className name) _).bind fun id => ?_
  refine (Rested.of_reads Reads.classes _).bind fun t => ?_
  split
  · exact .throw _
  · exact preserves_invoke id (Nat.lt_trans few (by decide))

theorem preserves_callInstance (className name : String) (receiver : UInt64)
    {arguments : List Value} (few : (arguments.flatMap Value.stackWords).length < 2 ^ 58) :
    Preserves (Rests .inRuntime) (callInstance className name receiver arguments) := by
  refine (Rested.of_reads (lookup_reads className name) _).bind fun id => ?_
  refine (Rested.of_reads Reads.classes _).bind fun t => ?_
  split
  · exact .throw _
  · exact preserves_invoke id (withObject few)

/-! ## From the machine that was built -/

/-- Setting up the block ends with the state. -/
theorem setUp_state (t : ThreadBlock) (base size : UInt64) (m : Guarded) :
    Ends (fun _ m' => t.InState .inRuntime m') (fun (_ : Failure) _ => True)
      (t.setUp base size m) := by
  unfold ThreadBlock.setUp
  refine Ends.next fun _ m => Ends.next fun _ m => Ends.next fun _ m => Ends.next fun _ m =>
    Ends.next fun _ m => Ends.next fun _ m => ?_
  unfold ThreadBlock.setState ThreadBlock.write Guarded.write
  cases faults : m.fault? (t.base + ThreadBlock.threadState) 4 .write with
  | some fault => trivial
  | none => exact .setState (.of_fault? faults)

/-- The block is set up last. -/
theorem create_setUp {P : MemoryMap → Guarded → Prop}
    (h : ∀ (map : MemoryMap) (base size : UInt64) (m : Guarded), Ends (fun _ m' => P map m')
      (fun (_ : Failure) _ => True) (ThreadBlock.setUp ⟨map.thread⟩ base size m))
    (created : create settings = .ok v) : P v.map v.world.store.mem := by
  obtain ⟨image, -, created⟩ := TemplateVm.ok_of_bind created
  dsimp only at created
  have prepared (vm : Vm) (base size : UInt64) :
      Ends (fun _ w => P w.map w.world.store.mem)
        (fun (_ : Failure) _ => True) ((do
          onMemory image.install
          onWorld World.bootstrap
          onThread (·.setUp base size) : Action Unit) vm) := by
    refine Ends.next fun _ vm => Ends.next fun _ vm => Ends.get_bind ?_
    refine (onMemory_ends (h vm.map base size _)).mono ?_ fun _ _ _ => trivial
    rintro _ _ ⟨m, holds, rfl⟩
    exact holds
  split at created
  · next ran =>
    cases created
    exact (prepared _ _ _).of_ok ran
  · cases created

theorem create_state (created : create settings = .ok v) :
    ThreadBlock.InState ⟨v.map.thread⟩ .inRuntime v.world.store.mem :=
  create_setUp (P := fun map m => ThreadBlock.InState ⟨map.thread⟩ .inRuntime m)
    (fun _ => setUp_state _) created

/-- A machine that could be built has its thread in the runtime. -/
theorem create_rests (ordered : (MemoryMap.ofSettings settings).Ordered)
    (created : create settings = .ok v) : v.Rests .inRuntime := by
  obtain ⟨m, -, installed, ⟨booted, spares, -⟩, map, -⟩ := create_ends ordered created
  have low := ordered.low
  have metaspace := ordered.metaspace
  have heap := ordered.heap
  have thread := ordered.thread
  have stack := ordered.stack
  have size := ordered.size
  have limit := (MemoryMap.ofSettings settings).size.toNat_lt
  have metaspaceStop := (ofSize_sound (MemoryMap.ofSettings settings).metaspaceStart
    (MemoryMap.ofSettings settings).metaspaceSize (by omega)).2
  have heapStop := (ofSize_sound (MemoryMap.ofSettings settings).heapStart
    (MemoryMap.ofSettings settings).heapSize (by omega)).2
  have alike := (install_keepsShape v.image _ _ (.refl _)).of_ok installed
  refine ⟨⟨map ▸ ordered, booted, ?_, ?_, ?_⟩, create_state created⟩
  · rw [spares.stop, map]
    change (Memory.Region.ofSize _ _).stop.toNat ≤ _
    omega
  · rw [spares.heap, map]
    change (Memory.Region.ofSize _ _).stop.toNat ≤ _
    omega
  · rw [map]
    exact ((guarded_clear ordered (by omega) (by omega)).congr alike.size alike.guards).congr
      spares.size spares.guards

/-- The action ends in the machine, whether it is done or fails. -/
def Leaves (action : Action α) (v w : Vm) : Prop :=
  (∃ x, action v = .ok x w) ∨ ∃ e, action v = .error e w

theorem Leaves.of_ends {action : Action α} {I : Vm → Prop} (h : Leaves action v w)
    (ends : Ends (fun _ w => I w) (fun _ w => I w) (action v)) : I w := by
  rcases h with ⟨x, ran⟩ | ⟨e, ran⟩
  · exact ends.of_ok ran
  · exact ends.of_error ran

theorem Leaves.of_preserves {action : Action α} {I : Vm → Prop} (h : Leaves action v w)
    (preserves : Preserves I action) (before : I v) : I w := h.of_ends (preserves v before)

/-- Machines that the host comes to from one that it built: it loads classes and calls methods, by
    name or by way of a handle, and any of it may fail. -/
inductive Hosted (settings : Settings) : Vm → Prop
  | created {v : Vm} (ran : create settings = .ok v) : Hosted settings v
  | loaded {v w : Vm} (before : Hosted settings v) (c : ClassDefinition)
    (small : c.pool.length < 2 ^ 58) (left : Leaves (onWorld (World.load c)) v w) :
    Hosted settings w
  | calledStatic {v w : Vm} (before : Hosted settings v) (className name : String)
    (arguments : List Value) (few : (arguments.flatMap Value.stackWords).length < 2 ^ 58)
    (left : Leaves (callStatic className name arguments) v w) : Hosted settings w
  | calledInstance {v w : Vm} (before : Hosted settings v) (className name : String)
    (receiver : UInt64) (arguments : List Value)
    (few : (arguments.flatMap Value.stackWords).length < 2 ^ 58)
    (left : Leaves (callInstance className name receiver arguments) v w) : Hosted settings w
  | invoked {v w : Vm} (before : Hosted settings v) (handle : UInt64) (descriptor : String)
    (arguments : List Value) (few : (arguments.flatMap Value.stackWords).length < 2 ^ 58)
    (left : Leaves (invokeExact handle descriptor arguments) v w) : Hosted settings w

/-- Whatever the host has loaded and called, and however it went, the thread is in the runtime. -/
theorem Hosted.rests (h : Hosted settings v) (ordered : (MemoryMap.ofSettings settings).Ordered) :
    v.Rests .inRuntime := by
  induction h with
  | created ran => exact create_rests ordered ran
  | loaded _ c small left ih =>
    exact left.of_preserves (rested_onWorld (fun _ booted => World.load_adds booted small) _) ih
  | calledStatic _ className name arguments few left ih =>
    exact left.of_preserves (preserves_callStatic className name few) ih
  | calledInstance _ className name receiver arguments few left ih =>
    exact left.of_preserves (preserves_callInstance className name receiver few) ih
  | invoked _ handle descriptor arguments few left ih =>
    exact left.of_preserves (preserves_invokeExact handle descriptor few) ih

end Vm
end TemplateVm
