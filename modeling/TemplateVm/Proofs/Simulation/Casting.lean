import TemplateVm.Proofs.Activation.CastFailures
import TemplateVm.Proofs.Layout.Entries
import TemplateVm.Proofs.Loading.Fields
import TemplateVm.Proofs.Simulation.Run

set_option autoImplicit false
set_option synthInstance.maxSize 100000

/-!
# Casts

Code for a cast has nothing but the records of the classes to go by. However the classes were
loaded, the records lead from each class to the classes that it extends, and to the root in the end.
So null passes, an object passes if its class extends the one that is asked for, and for every other
object an exception is thrown that names its class, or, where the heap has no room for one, the run
ends.
-/
namespace TemplateVm

open Memory (Guarded load)
open Bytecode (Operation)
open Guest Emit
open Relation (ReflTransGen TransGen)

/-! ## The records of a hierarchy -/

namespace World

variable {w : World} {id target : ClassId}

/-- A class is found by its record. -/
theorem Hierarchy.classAt? (h : w.Hierarchy) (known : id < w.classes.size) :
    w.classes.classAt? (w.classes.get id).address = some id := by
  have get {i : Nat} (hi : i < w.classes.classes.size) :
      w.classes.get i = w.classes.classes[i] := by
    rw [ClassTable.get, Array.getD_eq_getD_getElem?, Array.getElem?_eq_getElem hi]
    rfl
  refine Array.findIdx?_eq_some_iff_getElem.mpr ⟨known, ?_, fun i before => ?_⟩
  · rw [get known, beq_self_eq_true]
  · have old := h.ordered id known i before
    rw [← get (Nat.lt_trans before known), beq_iff_eq]
    intro same
    rw [same] at old
    omega

theorem Hierarchy.rooted (h : w.Hierarchy) (known : target < w.classes.size) :
    w.classes.Rooted w.store.mem target where
  below := h.ranked.below
  root id idKnown none := by
    rw [(h.headed id idKnown).super, ClassTable.superAddress, none]
    rfl
  distinct id idKnown same := by
    have here := h.classAt? idKnown
    rw [same, h.classAt? known] at here
    exact (Option.some.inj here).symm

/-- Records are where an activation looks for them, if its heap lies behind them. -/
theorem Hierarchy.recorded (h : w.Hierarchy) (sound : w.Sound) {a : Activation}
    (above : 0x20000 ≤ w.classes.metaspace.start.toNat)
    (below : w.classes.metaspace.stop.toNat ≤ a.heap.toNat) (known : id < w.classes.size) :
    a.Recorded w.classes w.store.mem id := by
  have within := sound.within.classes _ (ClassTable.get_mem known)
  have first := within.first
  have last := within.record
  have top := sound.writable.region.top_le
  refine ⟨by omega, by omega, fun super found => ?_⟩
  rw [(h.headed id known).super, ClassTable.superAddress, found]
  rfl

end World

/-! ## Code for casts -/

/-- Code for casts lies from the one address to the other, and is followed by the code that goes on
    with the next bytecode. -/
def Image.CastsAt (i : Image) (s : Settings) (q q' : UInt64) : Prop :=
  ∃ place ctx K q'', ctx.settings = s ∧
    Lays ⟨i.code, place⟩ ctx true K [] (Template.checkCast i.exceptions) q q' () ∧
    Lays ⟨i.code, place⟩ ctx true K [] (Emit.dispatchNext .object Opcode.checkcast.length.toUInt64)
      q' q'' ()

/-- There is code for casts in every image. -/
theorem Image.Generated.castsAt {s : Settings} {i : Image} (h : Generated s i) :
    ∃ q q', i.CastsAt s q q' := by
  obtain ⟨place, ctx, K, q, q', q'', settings, cast, next⟩ := h.template .checkcast
  exact ⟨q, q', place, ctx, K, q'', settings, cast, next⟩

/-- The method, none of whose constants stands for anything, so that none needs to be resolved. -/
def Guest.Program.unlinked (b : Program) : Program := { b with holder := b.classes.size }

theorem Guest.Program.class?_unlinked (b : Program) (index : Nat) :
    b.unlinked.class? index = none := by
  unfold class?
  rw [ entry?, unlinked, World.get_default (Nat.le_refl _)]
  rfl

variable {a : Activation} {b : Program} {s : Settings} {op : Operation} {id : MethodId}
  {pointer r q q' : UInt64} {x : Contents} {v : Vm} {c : Cpu} {m : Guarded} {o : Object}
  {thrown target : ClassId}

/-- A method of the machine is about to cast a reference. Which of its constants are resolved does
    not matter. -/
structure Casting (a : Activation) (b : Program) (s : Settings) (op : Operation) (id : MethodId)
    (pointer r : UInt64) (x : Contents) (v : Vm) (c : Cpu) (m : Guarded) : Prop where
  represents : Represents a b.unlinked .object (a.at op) x v c m
  current : op ∈ Bytecode.decode b.code
  cast : op.opcode = .checkcast
  stack : ∃ rest, x.stack = .object r :: rest
  roomy : a.Roomy s b.maxStack
  houses : a.Houses x.heap v.world
  throwable : a.Throwable b.unlinked id pointer m

namespace Casting

/-! ## What becomes of a cast -/

/-- The code for the cast has been left behind, with the reference held as before. -/
def Passed (a : Activation) (b : Program) (op : Operation) (r q' : UInt64) (x : Contents) (v : Vm)
    (m : Guarded) (w : Vm) : Prop :=
  ∃ c' m' steps watched, w = (v.moved q' c' m').counted steps watched ∧ c'.reg .x0 = r ∧
    m.Changed m' a.low a.top.toNat ∧ Represents a b.unlinked .object (a.at op) x v c' m'

/-- The one new object of the heap is an exception that names the class, thrown at the cast. -/
def Threw (a : Activation) (b : Program) (op : Operation) (id : MethodId) (pointer : UInt64)
    (x : Contents) (v : Vm) (named thrown : ClassId) (w : Vm) : Prop :=
  ∃ e store text goal handler c' m' steps watched,
    w = ((v.withException e text store).moved goal c' m').counted steps watched ∧
    text = Vm.dotted (b.classes.get named).name ∧
    v.world.store.heap.isObject e = false ∧
    (∀ k, store.heap.isObject k = true ↔ k = e ∨ v.world.store.heap.isObject k = true) ∧
    load m'.bytes (e.toNat + 8) 8 = (b.classes.get thrown).address ∧
    a.GoesOn b.unlinked v.image id (a.at op) thrown goal handler ∧
    Stands { a with sp := pointer } b.unlinked handler (a.top + -8)
      { x with stack := [.object e], heap := x.heap.update e ⟨thrown, .fields []⟩ }
      (v.withException e text store) c' m'

/-- No object has been made, and the next turn ends the run, since the heap is exhausted. -/
structure Exhausted (v w : Vm) : Prop where
  messages : w.messages = v.messages
  heap : w.world.store.heap = v.world.store.heap
  stops : w.Stops v.world.store.heap.exhausted

theorem Passed.counted (w : Vm) (steps : UInt64) (watched : List (UInt64 × UInt64))
    (h : Passed a b op r q' x v m w) : Passed a b op r q' x v m (w.counted steps watched) := by
  obtain ⟨c', m', _, _, rfl, rest⟩ := h
  exact ⟨c', m', steps, watched, rfl, rest⟩

theorem Threw.counted {named : ClassId} (w : Vm) (steps : UInt64)
    (watched : List (UInt64 × UInt64)) (h : Threw a b op id pointer x v named thrown w) :
    Threw a b op id pointer x v named thrown (w.counted steps watched) := by
  obtain ⟨e, store, text, goal, handler, c', m', _, _, rfl, rest⟩ := h
  exact ⟨e, store, text, goal, handler, c', m', steps, watched, rfl, rest⟩

theorem Exhausted.counted (w : Vm) (steps : UInt64) (watched : List (UInt64 × UInt64))
    (h : Exhausted v w) : Exhausted v (w.counted steps watched) :=
  ⟨h.messages, h.heap, h.stops⟩

section
variable (h : Casting a b s op id pointer r x v c m)
include h

/-- The reference passes with all that is left as it was, but for the room of the operands. -/
theorem passed {c' : Cpu} {m' : Guarded} (changed : m.Changed m' a.low a.top.toNat)
    (represents : Represents a b.unlinked .object (a.at op) x v c' m') :
    Vm.Arrives (Passed a b op r q' x v m) 0 (v.moved q' c' m') := by
  obtain ⟨rest, stack⟩ := h.stack
  obtain ⟨p, held, -⟩ := represents.held (by decide) stack
  exact .here ⟨c', m', _, _, rfl, held, changed, represents⟩

variable (code : v.image.CastsAt s q q')
include code

/-- Null passes, whatever the class is. -/
theorem passes_null (null : r = 0) : Vm.Arrives (Passed a b op r q' x v m) 11 (v.moved q c m) := by
  obtain ⟨place, ctx, K, q'', -, lay, -⟩ := code
  obtain ⟨rest, stack⟩ := h.stack
  have nothing (some : r ≠ 0) : a.CastsTo b.classes op 0 m := absurd null some
  exact h.represents.runCheckCast (b := b.unlinked) (n := 0) h.current rfl h.cast stack lay
    (fun _ => h.passed (.refl _ _ _) h.represents)
    fun some => ⟨⟨0, .fields []⟩, absurd null some, absurd null some, nothing some,
      absurd null some⟩

variable (object : x.heap r = some o) (resolved : a.CastsTo b.classes op target m)
include object resolved

/-- An object passes whose class extends the target. -/
theorem passes (extended : b.classes.isSubclass o.classId target = true) :
    Vm.Arrives (Passed a b op r q' x v m) (4 * (b.classes.lineage o.classId).length + 11)
      (v.moved q c m) := by
  obtain ⟨place, ctx, K, q'', -, lay, -⟩ := code
  obtain ⟨rest, stack⟩ := h.stack
  suffices passes : Vm.Arrives (Passed a b op r q' x v m)
      (0 + 4 * (b.classes.lineage o.classId).length + 11) (v.moved q c m) from
    passes.le (by omega)
  exact h.represents.runCheckCast (b := b.unlinked) h.current rfl h.cast stack lay
    (fun _ => h.passed (.refl _ _ _) h.represents) fun _ => ⟨o, object, Nat.le_refl _, resolved,
      .inl ⟨extended, fun _ _ changed represents => h.passed changed represents⟩⟩

/-- With any other object an exception is thrown, or the run ends. -/
theorem fails (generated : Image.Generated s v.image) (sound : (v.world.withMemory m).Sound)
    (hierarchy : (v.world.withMemory m).Hierarchy) (known : target < b.classes.size)
    (other : b.classes.isSubclass o.classId target = false)
    (loaded : b.classes.find? BuiltinException.classCast.className = some thrown) :
    Vm.Arrives (fun w => v.world.HasRoom thrown ∧ Threw a b op id pointer x v o.classId thrown w ∨
      ¬ v.world.HasRoom thrown ∧ Exhausted v w) (4 * (b.classes.lineage o.classId).length + 81)
      (v.moved q c m) := by
  obtain ⟨place, ctx, K, q'', -, lay, -⟩ := code
  obtain ⟨rest, stack⟩ := h.stack
  obtain ⟨p₀, -, stands⟩ := h.represents.held (by decide) stack
  have classes : v.world.classes = b.classes := stands.inhabits.classes
  have above := stands.heap.above r o object
  have records := stands.fits.records
  have low := stands.fits.thread
  have heap := stands.fits.heap
  have rooted : b.classes.Rooted m target := classes ▸ hierarchy.rooted (classes ▸ known)
  have classAt {id : ClassId} (known : id < b.classes.size) :
      b.classes.classAt? (b.classes.get id).address = some id :=
    classes ▸ hierarchy.classAt? (classes ▸ known)
  have thrownKnown : thrown < b.classes.size := ClassTable.lt_of_find? loaded
  have few : (b.classes.get thrown).fields.length < 2 ^ 60 :=
    Nat.lt_trans (classes ▸ hierarchy.ranked.few thrown (classes ▸ thrownKnown)) (by decide)
  suffices fails : Vm.Arrives _ (70 + 4 * (b.classes.lineage o.classId).length + 11) _ from
    fails.le (by omega)
  refine h.represents.runCheckCast (b := b.unlinked) h.current rfl h.cast stack lay
    (fun null => ?_) fun _ => ⟨o, object, Nat.le_refl _, resolved, .inr
      ⟨other, rooted, fun p c₁ m₁ changed h₁ => ?_⟩⟩
  · subst null
    exact absurd above (Nat.not_le.mpr (Nat.lt_of_lt_of_le (by decide) records))
  refine h₁.runCastThrown (sound.alike ⟨changed.size, changed.guards⟩) h.houses few loaded object
    (classAt (stands.heap.known r o object)) stack generated.failsCasts h.roomy
    { h.throwable with measured := h.throwable.measured.agrees (changed.agrees (by omega)) }
    (classAt thrownKnown) (fun full c₂ m₂ stops => ?_)
    fun e store goal handler c₂ m₂ room only fresh goes h₂ => ?_
  · exact .inr ⟨full, rfl, rfl, stops⟩
  · have instanced := (h₂.heap.holds e _ (if_pos rfl)).1
    exact .inl ⟨room, e, store, _, goal, handler, c₂, m₂, _, _, rfl, rfl, fresh, only, instanced,
      goes, h₂⟩

end

/-- However the classes of a machine were loaded, `isSubclass` is the closure of the relation
    between a class and its superclass, which has no cycles and one root, and records tell of each
    class what it extends. So code for a cast lets null pass, whatever the class is, and an object
    whose class extends the one that the constant is resolved to. For every other object it throws
    one exception that names the class of the object, if the heap has room for it; otherwise the run
    ends. -/
theorem decides_subclassing {w₀ : World} {cs : List ClassDefinition} (sound : w₀.Sound)
    (empty : w₀.classes.classes = #[]) (history : w₀.Builds cs (v.moved q c m).world)
    (generated : Image.Generated s v.image) (code : v.image.CastsAt s q q')
    (h : Casting a b s op id pointer r x v c m) (quiet : v.Quiet) :
    (∀ i < b.classes.size,
      load m.bytes (b.classes.get i).address.toNat 8 = b.classes.superAddress i ∧
      (∀ j, b.classes.isSubclass i j = true ↔ ReflTransGen b.classes.Below i j) ∧
      ¬ TransGen b.classes.Below i i ∧ ReflTransGen b.classes.Below i 0 ∧
      ((b.classes.get i).superId = none ↔ (b.classes.get i).name = KnownClass.object)) ∧
    (r = 0 → Vm.Leads (Passed a b op r q' x v m) 11 (v.moved q c m)) ∧
    ∀ o target, x.heap r = some o → target < b.classes.size → a.CastsTo b.classes op target m →
      (b.classes.isSubclass o.classId target = true →
        Vm.Leads (Passed a b op r q' x v m) (4 * (b.classes.lineage o.classId).length + 11)
          (v.moved q c m)) ∧
      (b.classes.isSubclass o.classId target = false →
        ∀ thrown, b.classes.find? BuiltinException.classCast.className = some thrown →
          (v.world.HasRoom thrown →
            Vm.Leads (Threw a b op id pointer x v o.classId thrown)
              (4 * (b.classes.lineage o.classId).length + 81) (v.moved q c m)) ∧
          (¬ v.world.HasRoom thrown →
            Vm.Leads (Exhausted v) (4 * (b.classes.lineage o.classId).length + 81)
              (v.moved q c m))) := by
  have built := history.built sound (.of_empty empty)
  obtain ⟨rest, stack⟩ := h.stack
  obtain ⟨p, -, stands⟩ := h.represents.held (by decide) stack
  have classes : v.world.classes = b.classes := stands.inhabits.classes
  have hierarchy : (v.world.withMemory m).Hierarchy := built.hierarchy
  have ranked : b.classes.Ranked := classes ▸ hierarchy.ranked
  refine ⟨fun i known => ⟨?_, fun j => ranked.isSubclass_iff known, ranked.acyclic i,
    ranked.reaches_root known, ranked.root_iff known⟩,
    fun null => (h.passes_null code null).leads quiet Passed.counted,
    fun o target object known resolved => ⟨fun extended => ?_, fun other thrown loaded => ?_⟩⟩
  · rw [← classes] at known ⊢
    exact (hierarchy.headed i known).super
  · exact (h.passes code object resolved extended).leads quiet Passed.counted
  · have fails := h.fails code object resolved generated built.sound hierarchy known other loaded
    refine ⟨fun room => ?_, fun full => ?_⟩
    · refine (fails.mono fun w ended => ?_).leads quiet Threw.counted
      exact (ended.resolve_right fun exhausted => exhausted.1 room).2
    · refine (fails.mono fun w ended => ?_).leads quiet Exhausted.counted
      exact (ended.resolve_left fun threw => full threw.1).2

/-! ## An object of the root

A method that casts an object of the root to the class of the exception that is thrown for it. Two
classes have been loaded; the object is the first of the heap, which ends at a given address. -/

namespace Unrelated

open World (Grown)

def activation : Activation :=
  { Sum.activation with heap := 0x28000, method := 0x20400, code := 0x20100 }

def cast : Operation := ⟨0, .checkcast, 0⟩

def method : LoadedMethod := { (default : LoadedMethod) with address := activation.method }

def program (t : ClassTable) : Program :=
  { Sum.program with classes := t, code := [0xc0, 0x00, 0x00] }

def object : UInt64 := 0x28000

def contents : Contents where
  locals _ := none
  stack := [.object object]
  heap := Heap.update (fun _ => none) object ⟨0, .fields []⟩

def root : ClassDefinition := { name := KnownClass.object }

def failure : ClassDefinition := { name := BuiltinException.classCast.className }

/-- The body of the method, its record, its entry in the cache and its frame. -/
def framed (i : Image) : Guarded :=
  ((((Sum.memory i).put 0x20100 1 0xc0).put 0x20022 1 0xc0).put 0x20400 8 0x20200).put 0x31038 8
    0x20400

/-- Before any class is loaded. -/
def start (i : Image) : World where
  classes := { metaspace := ⟨0x20400, 0x20480, 0x28000⟩, entries := [], policy := ⟨true, true⟩ }
  store := ⟨framed i, { region := ⟨0x28000, 0x28000, 0x28000⟩ }⟩

/-- The classes with the method, and the heap with the object, which ends at `z`. -/
def world (w : World) (thrown : ClassId) (z : UInt64) : World where
  classes := { w.classes with methods := #[method] ++ w.classes.methods }
  store := ⟨(w.store.mem.put 0x20028 8 (w.classes.get thrown).address).put 0x28008 8
      (w.classes.get 0).address,
    { region := ⟨object, 0x28010, z⟩, starts := (∅ : Std.HashSet UInt64).insert object }⟩

def vm (i : Image) (w : World) (limit : UInt64) : Vm :=
  { Sum.vm i with world := w, processor := { maxSteps := limit } }

def cpu : Cpu := (Sum.cpu.setReg .bytecode activation.code).setReg .x0 object

/-- The two classes are loaded, and have no fields. -/
structure Prepared (i : Image) (w : World) (thrown : ClassId) : Prop where
  grown : Grown (start i) 0 w
  kept : (start i).Extends w
  found : w.classes.find? BuiltinException.classCast.className = some thrown

variable {i : Image} {w : World} {thrown : ClassId} {z : UInt64}

theorem Prepared.fields (h : Prepared i w thrown) (id : ClassId) : (w.classes.get id).fields = [] :=
  List.length_eq_zero_iff.mp (Nat.le_zero.mp (h.grown.fields id))

@[simp] theorem get_world (id : ClassId) :
    (world w thrown z).classes.get id = w.classes.get id := by
  unfold ClassTable.get
  rfl

@[simp] theorem size_world : (world w thrown z).classes.size = w.classes.size := by
  unfold ClassTable.size
  rfl

/-- The method is the first one of the table. -/
theorem method_world : (world w thrown z).classes.method 0 = method ∧
    (world w thrown z).classes.methodAt? activation.method = some 0 := by
  refine ⟨?_, ?_⟩
  · rw [ClassTable.method, world, Array.getD_eq_getD_getElem?, Array.getElem?_append_left (by simp)]
    rfl
  · refine Array.findIdx?_eq_some_iff_getElem.mpr
      ⟨?_, ?_, fun _ before => absurd before (Nat.not_lt_zero _)⟩
    · rw [world, Array.size_append]
      exact Nat.add_pos_left Nat.one_pos _
    · simp [world, method]

theorem isObject_world (r : UInt64) :
    (world w thrown z).store.heap.isObject r = true ↔ r = object := by
  change ((∅ : Std.HashSet UInt64).insert object).contains r = true ↔ _
  rw [Std.HashSet.contains_insert, Std.HashSet.contains_empty, Bool.or_false, beq_iff_eq, eq_comm]

@[simp] theorem find?_world (name : String) :
    (world w thrown z).classes.find? name = w.classes.find? name := by
  unfold ClassTable.find?
  rfl

section
variable (generated : Image.Generated {} i)
include generated

theorem clear_framed : (framed i).Clear 0x1000 0x32000 :=
  (Sum.clear_memory generated).put.put.put.put

theorem start_sound : (start i).Sound := by
  have clear := clear_framed generated
  have records : (⟨0x20400, 0x20480, 0x28000⟩ : Memory.Region).Sound :=
    ⟨by decide, by decide, by decide⟩
  have objects : (⟨0x28000, 0x28000, 0x28000⟩ : Memory.Region).Sound :=
    ⟨by decide, by decide, by decide⟩
  refine ⟨⟨records, clear.mono (s := 0x20400) (t := 0x28000) (by decide) (by decide)⟩,
    ⟨objects, clear.mono (s := 0x28000) (t := 0x28000) (by decide) (by decide)⟩,
    Nat.le_refl 0x28000, ?_, ?_, ?_⟩
  · intro c hc
    cases Array.not_mem_empty c hc
  · exact ⟨fun c hc => (Array.not_mem_empty c hc).elim, fun m hm =>
      (Array.not_mem_empty m hm).elim, fun m hm => (Array.not_mem_empty m hm).elim⟩
  · intro id found
    simp [ClassTable.find?, start] at found

/-- Both classes can be loaded. -/
theorem prepared : ∃ w thrown, Prepared i w thrown := by
  have sound := start_sound generated
  have nothing (name : String) : (start i).classes.find? name = none := by
    simp [ClassTable.find?, start]
  have size : (start i).classes.metaspace.top.toNat + World.classCost root +
    World.classCost failure ≤ (start i).classes.metaspace.stop.toNat := by
      change 0x20480 + World.classCost root + World.classCost failure ≤ 0x28000
      decide
  have none (id : ClassId) : ((start i).classes.get id).fields.length ≤ 0 := by
    rw [World.get_default (Nat.zero_le id)]
    exact Nat.le_refl 0
  have fits {w : World} {c : ClassDefinition} (none : ∀ id, (w.classes.get id).fields.length ≤ 0)
      (fields : c.fields = []) (pool : c.pool = []) : w.Fits c := by
    refine ⟨by rw [pool]; decide, fun id => ?_⟩
    rw [fields]
    exact Nat.lt_of_le_of_lt (Nat.add_le_add_right (none id) _) (by decide)
  have first := fits (c := root) none rfl rfl
  obtain ⟨_, w, ran, known⟩ := World.load_early sound first
    ⟨by decide, nothing _, _, rfl⟩ rfl (nothing _) (by decide) (by omega)
  obtain ⟨id, super⟩ := known.find?_self
  have spent := known.spent
  have stop := known.grown.stop
  have grown := ((Grown.load_ends sound rfl ⟨sound, ⟨[], .start⟩, none⟩ first.pool
    (by decide)).of_ok ran).1
  have absent {name : String} (other : name ≠ root.name) : w.classes.find? name = Option.none := by
    rw [known.find?_other other, nothing]
  have second := fits (c := failure) grown.fields rfl rfl
  obtain ⟨_, w', ran', known'⟩ := World.load_early known.sound second
    ⟨by decide, absent (by decide), World.superOf_ok (Option.isSome_iff_exists.mpr ⟨id, super⟩)⟩ rfl
    (absent (by decide)) (by decide) (by rw [stop]; omega)
  obtain ⟨thrown, found⟩ := known'.find?_self
  exact ⟨w', thrown, ((Grown.load_ends sound rfl grown second.pool (by decide)).of_ok ran').1,
    known.grown.trans known'.grown, found⟩

variable (h : Prepared i w thrown)
include h

theorem clear_world : (world w thrown z).store.mem.Clear 0x1000 0x32000 :=
  ((clear_framed generated).congr h.kept.size h.kept.guards).put.put

omit generated in
/-- What is there before the loads stays, but for records, the entry and the object. -/
theorem framed_agrees {j k : Nat} (apart : ∀ p ∈ [(0x20480, 0x28000), (0x20028, 0x20030),
    (0x28008, 0x28010)], k ≤ p.1 ∨ p.2 ≤ j) :
    (framed i).Agrees (world w thrown z).store.mem j k := by
  simp only [List.mem_cons, List.not_mem_nil, or_false, forall_eq_or_imp, forall_eq] at apart
  obtain ⟨records, entry, object⟩ := apart
  have loads : (framed i).Agrees w.store.mem j k := fun n low high =>
    h.kept.bytes n (by change n < 0x20480 ∨ 0x28000 ≤ n; omega)
      (by change n < 0x28000 ∨ 0x28000 ≤ n; omega)
  exact (loads.trans ((Guarded.changed_put _ 0x20028 8 _).agrees entry)).trans
    ((Guarded.changed_put _ 0x28008 8 _).agrees object)

omit generated in
theorem memory_agrees {j k : Nat} (apart : ∀ p ∈ [(0x20480, 0x28000), (0x20028, 0x20030),
    (0x28008, 0x28010)], k ≤ p.1 ∨ p.2 ≤ j)
    (apart' : ∀ p ∈ [(0x20100, 0x20101), (0x20022, 0x20023), (0x20400, 0x20408),
      (0x31038, 0x31040)], k ≤ p.1 ∨ p.2 ≤ j) :
    (Sum.memory i).Agrees (world w thrown z).store.mem j k := by
  simp only [List.mem_cons, List.not_mem_nil, or_false, forall_eq_or_imp, forall_eq] at apart'
  obtain ⟨code, opcode, record, frame⟩ := apart'
  refine Memory.Guarded.Agrees.trans ?_ (framed_agrees h apart)
  exact ((((Guarded.changed_put _ 0x20100 1 _).agrees code).trans
    ((Guarded.changed_put _ 0x20022 1 _).agrees opcode)).trans
    ((Guarded.changed_put _ 0x20400 8 _).agrees record)).trans
    ((Guarded.changed_put _ 0x31038 8 _).agrees frame)

/-- The words of the method and of its frame that a sum has not. -/
theorem load_world : load (world w thrown z).store.mem.bytes 0x20022 1 = 0xc0 ∧
    load (world w thrown z).store.mem.bytes 0x20400 8 = 0x20200 ∧
    load (world w thrown z).store.mem.bytes 0x31038 8 = 0x20400 ∧
    load (world w thrown z).store.mem.bytes 0x20028 8 = (w.classes.get thrown).address ∧
    load (world w thrown z).store.mem.bytes 0x28008 8 = (w.classes.get 0).address := by
  have clear := Sum.clear_memory generated
  have clear' := (clear_framed generated).congr h.kept.size h.kept.guards
  have opens {m : Guarded} (clear : m.Clear 0x1000 0x32000) {a k : UInt64}
      (low : 0x1000 ≤ a.toNat) (high : a.toNat + k.toNat ≤ 0x32000) : m.Open a k :=
    clear.open low high
  refine ⟨?_, ?_, ?_, ?_, ?_⟩
  · refine ((framed_agrees h (j := 0x20022) (k := 0x20023) (by decide)).load (Nat.le_refl _)
      (Nat.le_refl _)).trans ?_
    refine (Guarded.load_put_of_disjoint (by decide)).trans
      ((Guarded.load_put_of_disjoint (by decide)).trans ?_)
    exact Guarded.load_put_byte (a := 0x20022) (opens clear.put (by decide) (by decide))
  · refine ((framed_agrees h (j := 0x20400) (k := 0x20408) (by decide)).load (Nat.le_refl _)
      (Nat.le_refl _)).trans ?_
    refine (Guarded.load_put_of_disjoint (by decide)).trans ?_
    exact Guarded.load_put (a := 0x20400) (opens clear.put.put (by decide) (by decide))
  · refine ((framed_agrees h (j := 0x31038) (k := 0x31040) (by decide)).load (Nat.le_refl _)
      (Nat.le_refl _)).trans ?_
    exact Guarded.load_put (a := 0x31038) (opens clear.put.put.put (by decide) (by decide))
  · refine (Guarded.load_put_of_disjoint (by decide)).trans ?_
    exact Guarded.load_put (a := 0x20028) (opens clear' (by decide) (by decide))
  · exact Guarded.load_put (a := 0x28008) (opens clear'.put (by decide) (by decide))

omit generated in
/-- The records of classes lie between those of the method and the object. -/
theorem record_inside {id : ClassId} (known : id < w.classes.size) :
    0x20400 ≤ (w.classes.get id).address.toNat ∧
      (w.classes.get id).address.toNat + 24 ≤ 0x28000 := by
  have within := h.grown.sound.within.classes _ (ClassTable.get_mem known)
  have first := within.first
  have last := Nat.le_trans within.record h.grown.sound.writable.region.top_le
  rw [h.kept.start] at first
  rw [h.kept.stop] at last
  exact ⟨first, last⟩

section
variable (low : 0x28010 ≤ z.toNat) (high : z.toNat ≤ 0x30000)
include low high

theorem world_sound : (world w thrown z).Sound := by
  have sound := h.grown.sound
  have some : 0 < w.classes.size := Nat.lt_of_le_of_lt (Nat.zero_le _) (World.lt_of_find? h.found).1
  have clear : (world w thrown z).store.mem.Clear 0x1000 0x32000 := clear_world generated h
  have metaspaceStop : w.classes.metaspace.stop = 0x28000 := h.kept.stop
  have metaspaceStart : w.classes.metaspace.start = 0x20400 := h.kept.start
  have objects : (⟨0x28000, 0x28010, z⟩ : Memory.Region).Sound := by
    refine ⟨Nat.le_of_ble_eq_true rfl, low, ?_⟩
    change z.toNat + 8 ≤ _
    omega
  have records : (world w thrown z).Writable := by
    refine ⟨sound.writable.region, ?_⟩
    change Memory.Guarded.Clear _ w.classes.metaspace.start.toNat w.classes.metaspace.stop.toNat
    rw [metaspaceStart, metaspaceStop]
    exact clear.mono (by decide) (by decide)
  have store : (world w thrown z).store.Sound :=
    ⟨objects, clear.mono (s := 0x28010) (t := z.toNat) (by decide) (by omega)⟩
  have within : method.Within w.classes.metaspace.start.toNat w.classes.metaspace.top.toNat := by
    have top := h.kept.top_le
    change 0x20480 ≤ _ at top
    rw [metaspaceStart]
    refine ⟨Nat.le_refl 0x20400, ?_, ?_⟩
    · change 0x20400 + 48 ≤ _
      omega
    · change 0 + 0 ≤ _
      omega
  have methods {m : LoadedMethod} (hm : m ∈ (world w thrown z).classes.methods) :
      m = method ∨ m ∈ w.classes.methods := by
    simpa [world] using hm
  refine ⟨records, store, ?_, fun c hc id hid => ?_, ⟨sound.within.classes, fun m hm => ?_,
    fun m hm => ?_⟩, fun id found => ?_⟩
  · change w.classes.metaspace.stop.toNat ≤ _
    rw [metaspaceStop]
    exact Nat.le_refl 0x28000
  · have old := sound.coherent c hc id hid
    change id < (#[method] ++ w.classes.methods).size
    rw [Array.size_append]
    exact Nat.lt_of_lt_of_le old (Nat.le_add_left _ _)
  · obtain rfl | old := methods hm
    · exact within
    · exact sound.within.methods m old
  · obtain rfl | old := methods hm
    · exact some
    · exact sound.within.holders m old
  · rw [find?_world] at found
    rw [get_world]
    exact sound.few id found

theorem world_builds : ∃ cs, (start i).Builds cs (world w thrown z) := by
  obtain ⟨cs, history⟩ := h.grown.history
  have apart {id : ClassId} (known : id < w.classes.size) {lo hi : Nat}
      (first : (w.classes.get id).address.toNat ≤ lo)
      (last : hi ≤ (w.classes.get id).address.toNat + 24) :
      w.store.mem.Agrees (world w thrown z).store.mem lo hi := by
    have inside := record_inside h known
    refine ((Guarded.changed_put _ 0x20028 8 _).agrees (.inr ?_)).trans
      ((Guarded.changed_put _ 0x28008 8 _).agrees (.inl ?_))
    · change 0x20030 ≤ lo
      omega
    · change hi ≤ 0x28008
      omega
  have carries : w.classes.Carries (world w thrown z).classes := by
    refine ⟨#[], ?_⟩
    rw [Array.append_empty]
    unfold world
    rfl
  refine ⟨cs, history.spared ⟨carries, size_world, fun id known => ?_, fun id known => ?_⟩
    (world_sound generated h low high)⟩
  · exact apart known (Nat.le_refl _) (by omega)
  · exact apart known (by omega) (Nat.le_refl _)

end

theorem byteAt_world {k : Nat} {byte : UInt8} (hk : [0xc0, 0x00, 0x00][k]? = some byte) :
    Memory.byteAt (world w thrown z).store.mem.bytes (0x20100 + k) = byte := by
  have bound : k < 3 := (List.getElem?_eq_some_iff.mp hk).1
  refine ((framed_agrees h (j := 0x20100) (k := 0x20103) (by decide)) _ (by omega)
    (by omega)).trans ?_
  have later : ((Sum.memory i).put 0x20100 1 0xc0).Agrees (framed i) 0x20100 0x20103 :=
    (((Guarded.changed_put _ 0x20022 1 _).agrees (.inr (by decide))).trans
      ((Guarded.changed_put _ 0x20400 8 _).agrees (.inl (by decide)))).trans
      ((Guarded.changed_put _ 0x31038 8 _).agrees (.inl (by decide)))
  refine (later _ (by omega) (by omega)).trans ?_
  match k, bound, hk with
  | 0, _, hk =>
    cases hk
    have size := (Sum.clear_memory generated).inside
    refine (Memory.byteAt_setByte ..).trans (if_pos ⟨rfl, ?_⟩)
    change 0x20100 < _
    omega
  | k + 1, _, hk =>
    have zero : byte = 0 := by
      match k, hk with
      | 0, hk | 1, hk => exact (Option.some.inj hk).symm
    rw [zero]
    have behind : 0x20101 ≤ 0x20100 + (k + 1) := by omega
    refine ((Guarded.changed_put _ 0x20100 1 _).other _ (.inr behind)).trans ?_
    rw [Sum.byteAt_memory generated (by omega) (by omega), ← Sum.byteAt_blank (0x20100 + (k + 1))]
    exact Sum.changed_body.other _ (.inr (by omega))

theorem loaded (sound : (world w thrown z).Sound) (hierarchy : (world w thrown z).Hierarchy) :
    activation.Loaded i (program (world w thrown z).classes).unlinked
      (world w thrown z).store.mem where
  table tos o := ((Sum.memory_table generated).2.agrees (by decide)
    (memory_agrees h (j := 0x10000) (k := 0x15000) (by decide) (by decide))) tos o.byte
  code := ⟨[0xc0, 0x00, 0x00], rfl, by decide, fun _ _ => byteAt_world generated h⟩
  codeAbove := by decide
  cacheAbove := by decide
  linked op hop _ := by
    obtain rfl : op = cast := by
      have only : Bytecode.decode (program (world w thrown z).classes).unlinked.code = [cast] := by
        change Bytecode.decode [0xc0, 0x00, 0x00] = [cast]
        decide
      rw [only] at hop
      exact List.mem_singleton.mp hop
    refine ⟨by decide, fun id found => ?_⟩
    rw [Program.class?_unlinked] at found
    cases found
  classes id known := hierarchy.recorded sound
    (Nat.le_trans (by decide : 0x20000 ≤ (0x20400 : UInt64).toNat)
      (Nat.le_of_eq (congrArg UInt64.toNat h.kept.start).symm))
    (Nat.le_of_eq (congrArg UInt64.toNat h.kept.stop)) known

/-- Its constant is resolved for the class of the exception. -/
theorem castsTo : activation.CastsTo (world w thrown z).classes cast thrown
    (world w thrown z).store.mem := by
  have words := load_world generated h (z := z)
  refine ⟨words.1, ?_⟩
  rw [get_world]
  exact words.2.2.2.1

omit generated h in
theorem of_heap {r : UInt64} {o : Object} (there : contents.heap r = some o) :
    r = object ∧ o = ⟨0, .fields []⟩ := by
  by_cases same : r = object
  · subst same
    cases there
    exact ⟨rfl, rfl⟩
  · change (if r = object then _ else none) = some o at there
    rw [if_neg same] at there
    cases there

theorem holdsHeap : activation.HoldsHeap (world w thrown z).classes (world w thrown z).store.mem
    contents.heap := by
  have some : 0 < w.classes.size := Nat.lt_of_le_of_lt (Nat.zero_le _) (World.lt_of_find? h.found).1
  constructor
  · intro r o there
    obtain ⟨rfl, rfl⟩ := of_heap there
    refine ⟨?_, nofun⟩
    rw [get_world]
    exact (load_world generated h).2.2.2.2
  · intro r o there
    obtain ⟨-, rfl⟩ := of_heap there
    rw [size_world]
    exact some
  · intro r o there
    obtain ⟨rfl, -⟩ := of_heap there
    decide
  · intro r o there
    obtain ⟨rfl, rfl⟩ := of_heap there
    decide
  · intro r o r' o' there there' other
    exact absurd ((of_heap there).1.trans (of_heap there').1.symm) other

section
variable (low : 0x28010 ≤ z.toNat) (high : z.toNat ≤ 0x30000)
include low high

theorem world_hierarchy : (world w thrown z).Hierarchy := by
  obtain ⟨cs, history⟩ := world_builds generated h low high
  exact (history.built (start_sound generated) (.of_empty rfl)).hierarchy

theorem stands (limit : UInt64) : Stands activation (program (world w thrown z).classes).unlinked
    (activation.at cast) activation.top { contents with stack := [] }
    (vm i (world w thrown z) limit) cpu (world w thrown z).store.mem := by
  have same : (Sum.memory i).Agrees (world w thrown z).store.mem 0x30000 0x31038 :=
    memory_agrees h (by decide) (by decide)
  have blank {j k : Nat} (low : 0x30000 ≤ j) (high : j + k ≤ 0x31010) :
      load (world w thrown z).store.mem.bytes j k = 0 :=
    (same.load low (by omega)).trans (Sum.load_memory_blank generated (by omega) (.inl high))
  have kept {j : Nat} (low : 0x31010 ≤ j) (high : j + 8 ≤ 0x31030) :
      load (world w thrown z).store.mem.bytes j 8 = load Sum.framed.bytes j 8 :=
    (same.load (by omega) (by omega)).trans (Sum.load_memory generated (by omega))
  have fits : activation.Fits 0 2 (world w thrown z).store.mem :=
    { records := by decide
      heap := by decide
      thread := by decide
      operands := by decide
      top := by decide
      frame := by decide
      locals := by decide
      clear := (clear_world generated h).mono (by decide) (by decide)
      clearStack := (clear_world generated h).mono (by decide) (by decide) }
  exact {
    registers := by constructor <;> decide
    fits := fits
    loaded := loaded generated h (world_sound generated h low high)
      (world_hierarchy generated h low high)
    idle :=
      { pending := blank (by decide) (by decide)
        pop := by
          rw [blank (by decide) (by decide)]
          rfl }
    framed :=
      { method := (load_world generated h).2.2.1
        cache := (kept (by decide) (by decide)).trans Sum.load_framed.1
        locals := (kept (by decide) (by decide)).trans Sum.load_framed.2.1
        top := (kept (by decide) (by decide)).trans Sum.load_framed.2.2 }
    locals := nofun
    stack := trivial
    top := rfl
    bounded := Nat.zero_le _
    heap := holdsHeap generated h
    inhabits :=
      { thread := rfl
        classes := rfl
        method := by
          change ((world w thrown z).classes.methodAt? activation.method).isSome = true
          rw [method_world.2]
          rfl
        objects := fun r o there => by
          change (world w thrown z).store.heap.isObject r = true
          exact (isObject_world r).mpr (of_heap there).1
        slots := fun id k slot found => by
          change ((world w thrown z).classes.get id).fields[k]? = _ at found
          rw [get_world, h.fields] at found
          cases found } }

/-- The method is at the cast. -/
theorem casting (limit : UInt64) : Casting activation (program (world w thrown z).classes) {} cast 0
    0x30fe0 object contents (vm i (world w thrown z) limit) cpu
    (world w thrown z).store.mem := by
  have record : load (world w thrown z).store.mem.bytes activation.method.toNat 8 = 0x20200 :=
    (load_world generated h).2.1
  have blank : load (world w thrown z).store.mem.bytes ((0x20200 : UInt64).toNat + 12) 2 = 0 :=
    ((memory_agrees h (j := 0x20200) (k := 0x20300) (by decide) (by decide)).load (by decide)
      (by decide)).trans (Sum.load_memory_blank generated (by decide) (by decide))
  exact {
    represents := ⟨by change 1 ≤ 2; decide, [], activation.top, ⟨.object object, rfl,
      (by decide : cpu.reg .x0 = object)⟩, stands generated h low high limit⟩
    current := by
      change cast ∈ Bytecode.decode [0xc0, 0x00, 0x00]
      decide
    cast := rfl
    stack := ⟨[], rfl⟩
    roomy := nofun
    houses :=
      { start := by
          change (0x28000 : UInt64).toNat ≤ (0x28010 : UInt64).toNat
          decide
        stop := high
        below := fun r o there => by
          obtain ⟨rfl, rfl⟩ := of_heap there
          change object.toNat + 16 ≤ (0x28010 : UInt64).toNat
          decide
        starts := fun r there => by
          obtain rfl := (isObject_world r).mp there
          change object.toNat < (0x28010 : UInt64).toNat
          decide }
    throwable :=
      { method := by
          change (world w thrown z).classes.methodAt? activation.method = _
          exact method_world.2
        handlers := fun thrown' bcp handler found => by
          change Vm.handler? _ ((world w thrown z).classes.method 0) _ _ = _ at found
          rw [method_world.1] at found
          have outside : method.bci? bcp = none := if_neg fun inside => Nat.not_lt_zero _ inside.2
          rw [Vm.handler?, outside] at found
          cases found
        measured :=
          { methodAbove := by decide
            methodBelow := by decide
            recordAbove := by
              rw [record]
              decide
            recordBelow := by
              rw [record]
              decide
            sp := by
              rw [record, blank]
              decide } } }

/-- The root does not extend it. -/
theorem unrelated : (world w thrown z).classes.isSubclass 0 thrown = false := by
  have ranked := (world_hierarchy generated h low high).ranked
  have found := World.lt_of_find? h.found
  have some : 0 < (world w thrown z).classes.size := by
    rw [size_world]
    exact Nat.lt_of_le_of_lt (Nat.zero_le _) found.1
  rw [Bool.eq_false_iff]
  intro extended
  rcases ((ranked.isSubclass_iff some).mp extended).cases_head with same | ⟨super, below, -⟩
  · have named := ranked.first some
    rw [same, get_world, found.2] at named
    revert named
    decide
  · exact Nat.not_lt_zero super (ranked.below 0 some super below.2)

end

end

theorem found_world (h : Prepared i w thrown) :
    (world w thrown z).classes.find? BuiltinException.classCast.className = some thrown := by
  rw [find?_world]
  exact h.found

/-- The walk from the root takes four turns. -/
theorem few_turns (t : ClassTable) : 4 * (t.lineage 0).length + 81 ≤ 85 := by
  obtain ⟨n, le, length⟩ := t.exists_length_lineage 0
  obtain rfl := Nat.le_zero.mp le
  exact length ▸ Nat.le_refl _

/-- The exception takes sixteen bytes. -/
theorem hasRoom_iff (h : Prepared i w thrown) : (world w thrown z).HasRoom thrown ↔
    ((⟨object, 0x28010, z⟩ : Memory.Region).allocate? 16 8).isSome := by
  rw [World.HasRoom, get_world, h.fields]
  rfl

end Unrelated

/-- The exception is thrown if there is room for it. -/
theorem decides_subclassing_unrelated : ∃ i w thrown q q', Image.generate {} = .ok i ∧
    i.CastsAt {} q q' ∧
    (Unrelated.world w thrown 0x30000).classes.isSubclass 0 thrown = false ∧
    Vm.Leads (Threw Unrelated.activation
        (Unrelated.program (Unrelated.world w thrown 0x30000).classes) Unrelated.cast 0 0x30fe0
        Unrelated.contents (Unrelated.vm i (Unrelated.world w thrown 0x30000) 50000000) 0 thrown)
      85 ((Unrelated.vm i (Unrelated.world w thrown 0x30000) 50000000).moved q Unrelated.cpu
        (Unrelated.world w thrown 0x30000).store.mem) := by
  obtain ⟨i, hi⟩ := Image.generate_ok (s := {}) (by decide)
  have generated := Image.generated_of_generate hi (by decide)
  obtain ⟨w, thrown, h⟩ := Unrelated.prepared generated
  obtain ⟨q, q', code⟩ := generated.castsAt
  obtain ⟨cs, history⟩ := Unrelated.world_builds (z := 0x30000) generated h (by decide) (by decide)
  have other := Unrelated.unrelated (z := 0x30000) generated h (by decide) (by decide)
  have casting := Unrelated.casting (z := 0x30000) generated h (by decide) (by decide) 50000000
  have resolved := Unrelated.castsTo (z := 0x30000) generated h
  have found := Unrelated.found_world (z := 0x30000) h
  have room : (Unrelated.world w thrown 0x30000).HasRoom thrown :=
    (Unrelated.hasRoom_iff h).mpr (by decide)
  obtain ⟨-, -, decided⟩ := decides_subclassing
    (v := Unrelated.vm i (Unrelated.world w thrown 0x30000) 50000000)
    (Unrelated.start_sound generated) rfl history generated code casting rfl
  have known := ClassTable.lt_of_find? found
  have thrown := ((decided ⟨0, .fields []⟩ thrown rfl known resolved).2 other thrown found).1 room
  exact ⟨i, w, _, q, q', hi, code, other, thrown.le (Unrelated.few_turns _)⟩

/-- Nothing is thrown if there is none: the run ends with a failure, however long it may last. -/
theorem unrelated_not_thrown : ∃ i w thrown q q', Image.generate {} = .ok i ∧ i.CastsAt {} q q' ∧
    (∃ cs, (Unrelated.start i).Builds cs (Unrelated.world w thrown 0x28010)) ∧
    Unrelated.activation.CastsTo (Unrelated.world w thrown 0x28010).classes Unrelated.cast thrown
      (Unrelated.world w thrown 0x28010).store.mem ∧
    (Unrelated.world w thrown 0x28010).classes.isSubclass 0 thrown = false ∧
    ∀ limit,
      Casting Unrelated.activation (Unrelated.program (Unrelated.world w thrown 0x28010).classes) {}
        Unrelated.cast 0 0x30fe0 Unrelated.object Unrelated.contents
        (Unrelated.vm i (Unrelated.world w thrown 0x28010) limit) Unrelated.cpu
        (Unrelated.world w thrown 0x28010).store.mem ∧
      Vm.Leads (Exhausted (Unrelated.vm i (Unrelated.world w thrown 0x28010) limit))
        85 ((Unrelated.vm i (Unrelated.world w thrown 0x28010) limit).moved q Unrelated.cpu
          (Unrelated.world w thrown 0x28010).store.mem) ∧
      ∀ turns left, 0 < left → ∃ e w', Vm.runTurns turns left
          ((Unrelated.vm i (Unrelated.world w thrown 0x28010) limit).moved q Unrelated.cpu
            (Unrelated.world w thrown 0x28010).store.mem) = .error e w' ∧
        (Vm.Limit e ∧ (turns ≤ 85 ∨ ((Unrelated.vm i (Unrelated.world w thrown 0x28010)
            limit).moved q Unrelated.cpu (Unrelated.world w thrown 0x28010).store.mem).Limited 85) ∨
          e = (Unrelated.world w thrown 0x28010).store.heap.exhausted) := by
  obtain ⟨i, hi⟩ := Image.generate_ok (s := {}) (by decide)
  have generated := Image.generated_of_generate hi (by decide)
  obtain ⟨w, thrown, h⟩ := Unrelated.prepared generated
  obtain ⟨q, q', code⟩ := generated.castsAt
  have history := Unrelated.world_builds (z := 0x28010) generated h (by decide) (by decide)
  have sound := Unrelated.world_sound (z := 0x28010) generated h (by decide) (by decide)
  have hierarchy := Unrelated.world_hierarchy (z := 0x28010) generated h (by decide) (by decide)
  have other := Unrelated.unrelated (z := 0x28010) generated h (by decide) (by decide)
  have resolved := Unrelated.castsTo (z := 0x28010) generated h
  have found := Unrelated.found_world (z := 0x28010) h
  have full : ¬ (Unrelated.world w thrown 0x28010).HasRoom thrown := by
    rw [Unrelated.hasRoom_iff h]
    decide
  refine ⟨i, w, thrown, q, q', hi, code, history, resolved, other, fun limit => ?_⟩
  have casting := Unrelated.casting (z := 0x28010) generated h (by decide) (by decide) limit
  have fails := casting.fails code (o := ⟨0, .fields []⟩) rfl resolved generated sound hierarchy
    (ClassTable.lt_of_find? found) other found
  have leads := (fails.mono fun w ended => (ended.resolve_left fun threw => full threw.1).2).leads
    rfl Exhausted.counted
  replace leads := leads.le (Unrelated.few_turns _)
  exact ⟨casting, leads, leads.fails fun w exhausted => exhausted.stops.turn⟩

end Casting

end TemplateVm
