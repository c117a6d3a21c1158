import TemplateVm.Proofs.Natives.Marshalling
import TemplateVm.Proofs.Natives.Registry
import TemplateVm.Proofs.Natives.Unregistered

set_option autoImplicit false
set_option synthInstance.maxSize 100000

/-!
# Native methods and the registry

What a native method invokes is decided when it is linked. Until then every call asks the registry,
and throws if nothing is there; the first call that finds a function links the method with the one
that was registered last. From then on the method is called whatever is registered.
-/
namespace TemplateVm

open Memory (Guarded load)
open Native (HostFunction Library LinkedFunction)

/-! ## Histories -/

namespace Image

variable {s : Settings} {i i' : Image}

theorem Extended.gains (h : Extended s i) (gains : i.Gains i') :
    Extended s i' ∧ ∀ p ∈ i.signatures, p ∈ i'.signatures := by
  induction gains with
  | refl => exact ⟨h, fun _ hp => hp⟩
  | added _ run ih =>
    obtain ⟨_, -, sup⟩ := ih.1.of_signatureHandler run
    exact ⟨sup.extended, fun p hp => sup.grows.signatures p (ih.2 p hp)⟩

end Image

namespace Vm

variable {v u w : Vm} {gs : List LinkedFunction} {s : Settings} {α : Type}

/-- All that was registered, the last one first. -/
def registry (v : Vm) (gs : List LinkedFunction) : Native.Library := ⟨gs ++ v.library.functions⟩

/-- Registrations and what the machine does lead from the one machine to the other, in any order;
    any of it may fail. The functions that were registered are listed, the last one first. -/
inductive History (v : Vm) : List LinkedFunction → Vm → Prop
  | here : v.History [] v
  | registered {gs : List LinkedFunction} {u w : Vm} (before : v.History gs u) {n : MemberRef}
    {address : UInt64} (ran : registerNative n address u = .ok () w) :
    v.History (⟨n, address⟩ :: gs) w
  | refused {gs : List LinkedFunction} {u w : Vm} (before : v.History gs u) {n : MemberRef}
    {address : UInt64} {e : Failure} (ran : registerNative n address u = .error e w) :
    v.History gs w
  | deed {gs : List LinkedFunction} {u w : Vm} (before : v.History gs u) (d : Deed)
    (lends : d.Lends u) (left : Leaves d.act u w) : v.History gs w

theorem Deed.Own.lends {d : Deed} (own : d.Own) (v : Vm) : d.Lends v := by
  cases d <;> first | exact own.elim | trivial

/-- Calls of the host, and all that is made of deeds, belong to histories. -/
theorem History.made {action : Action α} (before : v.History gs u) (made : Made action)
    (left : Leaves action u w) : v.History gs w :=
  left.of_preserves (made _ fun d own before left => before.deed d (own.lends _) left) before

/-- The parts of the machine are in their places, and its code is that of the settings. -/
structure Serviceable (s : Settings) (v : Vm) : Prop where
  fenced : v.Fenced
  low : 0x20000 ≤ v.world.classes.metaspace.start.toNat
  extended : Image.Extended s v.image

/-- So it is in every machine that could be built. -/
theorem create_serviceable (valid : s.defect? = none) (fits : s.Fits) (created : create s = .ok v) :
    v.Serviceable s := by
  have ordered := (MemoryMap.zoned valid fits).ordered
  obtain ⟨m, generated, -, ⟨-, spares, -⟩, -⟩ := create_ends ordered created
  refine ⟨(create_told valid fits created).1, Nat.le_of_eq ?_,
    Image.extended_of_generate generated (s.shadow_lt valid fits)⟩
  exact (congrArg UInt64.toNat spares.start).symm

theorem Serviceable.deed (h : v.Serviceable s) {d : Deed} (lasts : v.Lasts (d.Spares v) w)
    (left : Leaves d.act v w) : w.Serviceable s where
  fenced := (left.of_ends (h.fenced.act d)).fenced h.fenced
  low := lasts.start ▸ h.low
  extended := (h.extended.gains lasts.gains).1

/-- Nothing but the library depends on what is registered. -/
theorem Serviceable.withLibrary (h : v.Serviceable s) (l : Native.Library) :
    Serviceable s { v with library := l } :=
  ⟨⟨h.fenced.mapped.congr rfl rfl, h.fenced.zoned, h.fenced.size, h.fenced.guards⟩, h.low,
    h.extended⟩

/-- What has come of the machine: methods are where they were, and the library has what was
    registered. -/
structure Develops (s : Settings) (v : Vm) (gs : List LinkedFunction) (w : Vm) : Prop where
  serviceable : w.Serviceable s
  declares : v.world.classes.Declares w.world.classes
  found : ∀ n, w.library.find? n = (v.registry gs).find? n
  present : ∀ f ∈ gs, f.address ≠ 0

theorem History.develops (h : v.History gs w) (start : v.Serviceable s) : v.Develops s gs w := by
  induction h with
  | here => exact ⟨start, .refl _, fun _ => rfl, nofun⟩
  | @registered gs u w before n address ran ih =>
    obtain ⟨l, registered, rfl⟩ := (registerNative_ends u n address).of_ok ran
    refine ⟨ih.serviceable.withLibrary l, ih.declares, fun m => ?_, ?_⟩
    · refine (Native.Library.find?_register registered m).trans ?_
      rw [Native.Library.find?_cons]
      exact (congrArg (ite _ _) (ih.found m)).trans (Native.Library.find?_cons ..).symm
    · rw [List.forall_mem_cons]
      exact ⟨(Native.Library.of_register registered).1, ih.present⟩
  | @refused gs u w before n address e ran ih =>
    obtain rfl := (registerNative_ends u n address).of_error ran
    exact ih
  | deed before d lends left ih =>
    have lasts := left.of_ends (ih.serviceable.fenced.lasts d lends)
    exact ⟨ih.serviceable.deed lasts left, ih.declares.trans lasts.declares,
      fun n => lasts.library ▸ ih.found n, ih.present⟩

end Vm

/-! ## The record of the method -/

namespace NativeCall

variable {a : NativeCall} {id : MethodId} {v u w : Vm} {gs : List LinkedFunction} {s : Settings}

/-- Whether the method is linked, and with what. -/
inductive Record (a : NativeCall) (id : MethodId) (v : Vm) (gs : List LinkedFunction) (w : Vm) :
    Prop
  | blank (function : load w.world.store.mem.bytes (a.method.toNat + 24) 8 = 0)
  /-- The method was linked at a turn, with the function that had been registered last by then. -/
  | linked {fs later : List LinkedFunction} {u u' : Vm} {f : LinkedFunction}
    (before : v.History fs u)
    (asks : u.Asks a.method) (turn : Vm.Leaves (Vm.Deed.act .turn) u u') (all : gs = later ++ fs)
    (found : (v.registry fs).find? (v.world.classes.member id) = some f)
    (linked : a.Linked v.world.classes id w.image f.address w.world.store.mem)
  /-- A turn in which the runtime was not asked to link the method has written over its record. -/
  | overwritten {fs later : List LinkedFunction} {u u' : Vm} (before : v.History fs u)
    (other : ¬u.Asks a.method) (turn : Vm.Leaves (Vm.Deed.act .turn) u u') (all : gs = later ++ fs)
    (written : ¬u.world.store.mem.Agrees u'.world.store.mem (a.method.toNat + 24)
      (a.method.toNat + 44))

theorem Record.agrees (h : a.Record id v gs u)
    (kept : u.world.store.mem.Agrees w.world.store.mem (a.method.toNat + 24) (a.method.toNat + 44))
    (signatures : ∀ p ∈ u.image.signatures, p ∈ w.image.signatures) : a.Record id v gs w := by
  cases h with
  | blank function => exact .blank ((kept.load (by omega) (by omega)).trans function)
  | linked before asks turn all found linked =>
    have linked := linked.agrees kept
    exact .linked before asks turn all found { linked with handler := signatures _ linked.handler }
  | overwritten before other turn all written => exact .overwritten before other turn all written

theorem Record.later (h : a.Record id v gs w) (f : LinkedFunction) : a.Record id v (f :: gs) w := by
  cases h with
  | blank function => exact .blank function
  | linked before asks turn all found linked =>
    exact .linked before asks turn (all ▸ (List.cons_append ..).symm) found linked
  | overwritten before other turn all written =>
    exact .overwritten before other turn (all ▸ (List.cons_append ..).symm) written

theorem Linked.congr {t t' : ClassTable} {i : Image} {target : UInt64} {m : Guarded}
    (h : a.Linked t id i target m) (same : t'.method id = t.method id) :
    a.Linked t' id i target m where
  present := h.present
  function := h.function
  handler := same ▸ h.handler
  format := same ▸ h.format

section
variable (start : v.Serviceable s) (known : v.world.classes.methodAt? a.method = some id)
include start known

/-- The method is declared as it was, by the same class. -/
theorem declared_eq (develops : v.Develops s gs w) :
    w.world.classes.method id = v.world.classes.method id ∧
      w.world.classes.member id = v.world.classes.member id := by
  have inside := ClassTable.lt_of_methodAt? known
  have holder := start.fenced.mapped.booted.sound.within.holders _ (ClassTable.method_mem inside)
  exact ⟨develops.declares.method_eq inside, develops.declares.member_eq inside holder⟩

variable (present : ∀ f ∈ v.library.functions, f.address ≠ 0)
include present

omit start known in
/-- What was registered is a function. -/
theorem present_of_found (develops : v.Develops s gs w) {f : LinkedFunction} {n : MemberRef}
    (found : w.library.find? n = some f) : f.address ≠ 0 := by
  rw [develops.found] at found
  rcases List.mem_append.mp (List.mem_of_find?_eq_some found) with new | old
  · exact develops.present f new
  · exact present f old

/-- One deed links the method, or leaves the record as it is, or else has written over it. -/
theorem Record.deed {d : Vm.Deed} (h : a.Record id v gs u) (before : v.History gs u)
    (lends : d.Lends u) (left : Vm.Leaves d.act u w) : a.Record id v gs w := by
  have develops := before.develops start
  have lasts := left.of_ends (develops.serviceable.fenced.lasts d lends)
  have signatures := (develops.serviceable.extended.gains lasts.gains).2
  have known' := develops.declares.methodAt?_of_some known
  have mapped := develops.serviceable.fenced.mapped
  have inside := record_inside mapped known'
  have low := develops.serviceable.low
  obtain ⟨method, member⟩ := declared_eq start known develops
  by_cases turn : d = .turn
  · subst turn
    by_cases asks : u.Asks a.method
    · have relinks : Ends (fun _ w => a.Relinks id u w) (fun _ w => a.Relinks id u w)
          (Vm.Deed.act .turn u) :=
        (relinks_turn mapped known' develops.serviceable.extended
          (fun f found => present_of_found present develops found) asks).bind (fun _ _ h => h)
          fun _ _ h => h
      rcases (left.of_ends relinks).record with kept | ⟨f, found, linked⟩
      · exact h.agrees kept signatures
      · rw [develops.found, member] at found
        exact .linked before asks left (List.nil_append gs).symm found (linked.congr method.symm)
    · by_cases kept : u.world.store.mem.Agrees w.world.store.mem (a.method.toNat + 24)
        (a.method.toNat + 44)
      · exact h.agrees kept signatures
      · exact .overwritten before asks left (List.nil_append gs).symm kept
  · exact h.agrees (fun j first last => lasts.bytes j ⟨turn, by omega, by omega⟩) signatures

end

/-! ## Calls -/

section
variable {i : Image} (generated : Image.generate s = .ok i) (serviceable : w.Serviceable s)
  (quiet : w.Quiet) (approaches : a.Approaches s id i.stubs.forwardException w w.processor.cpu
    w.world.store.mem w.processor.cpu.pc)
include generated serviceable quiet approaches

end

namespace Rebound

def descriptor : MethodDescriptor := ⟨"()Ljava/lang/Object;", [], .object⟩

def activation : NativeCall where
  thread := 0x22000
  method := 0x20040
  constMethod := 0x20008
  pool := 0x20000
  frame := 0x26000
  locals := 0x26020

/-- Pages of the memory follow each other: records, objects, the thread's block, and the stack with
    its two guarded pages. -/
def map : MemoryMap where
  metaspaceStart := Place.metaspace
  metaspaceSize := 0x1000
  heapStart := 0x21000
  heapSize := 0x1000
  thread := activation.thread
  stackLimit := 0x23000
  stackBase := 0x27000
  pageSize := 0x1000
  redPages := 1
  yellowPages := 1
  size := 0x28000

def loadedClass (name : String) (address mirror : UInt64) : LoadedClass where
  name := name
  address := address
  superId := none
  fields := []
  classObject := mirror
  pool := #[]
  poolAddress := 0
  cacheAddress := 0

def method : LoadedMethod where
  holder := 0
  name := "f"
  descriptor := descriptor
  access := ⟨0x109⟩
  kind := .native
  address := activation.method
  codeBase := 0
  codeLength := 0
  parameterWords := 0
  handlers := []

def classes : ClassTable where
  metaspace := ⟨0x20000, 0x200a0, 0x21000⟩
  classes := #[loadedClass "N" 0x20020 0x500, loadedClass KnownClass.classOfClasses 0x20070 0,
    loadedClass BuiltinException.unsatisfiedLink.className 0x20088 0]
  methods := #[method]
  entries := []
  policy := default

/-- The words of the memory that are not zero. -/
def contents : List (UInt64 × UInt64) :=
  [(0x20000, 0x20020), (0x20008, 0x20000), (0x20028, 0x500), (0x20040, 0x20008), (0x20048, 0x109),
    (0x25fd0, 0x26020), (0x25fe8, 0x20040)]

def blank : Guarded := ⟨⟨Array.replicate 0x28000 0⟩, map.lasting ++ [map.yellowGuard]⟩

def memory : Guarded := Sink.putWords contents blank

/-- The runtime returns to an address. -/
def cpu (q : UInt64) : Cpu :=
  ([(Register.thread, activation.thread), (.frame, activation.frame), (.locals, activation.locals),
    (.method, activation.method), (.x1, activation.method)].foldl (fun c (r, n) => c.setReg r n)
      Cpu.zero).setReg .link q

def world : World where
  classes := classes
  store := ⟨memory, { region := ⟨0x21000, 0x21000, 0x22000⟩ }⟩

/-- The machine at an address, without functions. -/
def vm (i : Image) (limit p q : UInt64) : Vm :=
  Vm.moved { (default : Vm) with
    image := i
    processor := { maxSteps := limit }
    map := map
    world := world } p (cpu q) memory

def function (f : HostFunction) : LinkedFunction := ⟨classes.member 0, f.address⟩

theorem zoned : map.Zoned where
  ordered := by constructor <;> decide
  tables := rfl
  page := by decide
  red := by decide
  yellow := by decide
  redPages := by decide
  yellowPages := by decide
  free := by decide
  base := by decide

theorem size_blank : blank.bytes.size = map.size.toNat := by
  change (Array.replicate 0x28000 (0 : UInt8)).size = 0x28000
  exact Array.size_replicate

theorem clear_blank : blank.Clear 0x1000 0x23000 ∧ blank.Clear 0x25000 0x28000 := by
  refine ⟨MemoryMap.Zoned.clear (n := 1) zoned rfl size_blank,
    ⟨Nat.le_of_eq size_blank.symm, fun g hg => ?_⟩⟩
  simp only [blank, MemoryMap.lasting, List.cons_append, List.nil_append, List.mem_cons,
    List.not_mem_nil, or_false] at hg
  rcases hg with rfl | rfl | rfl <;> decide

theorem clear_memory : memory.Clear 0x1000 0x23000 ∧ memory.Clear 0x25000 0x28000 :=
  ⟨Sink.clear_putWords clear_blank.1, Sink.clear_putWords clear_blank.2⟩

theorem load_memory {p w : UInt64} (hm : (p, w) ∈ contents) :
    load memory.bytes p.toNat 8 = w := by
  have inside : contents.all fun x => 0x1000 ≤ x.1.toNat ∧ x.1.toNat + 8 ≤ 0x23000 ∨
    0x25000 ≤ x.1.toNat ∧ x.1.toNat + 8 ≤ 0x28000 := by decide
  refine Sink.load_putWords (by decide) (fun x hx => ?_) hm
  rcases of_decide_eq_true (List.all_eq_true.mp inside x hx) with ⟨low, high⟩ | ⟨low, high⟩
  · exact clear_blank.1.open low high
  · exact clear_blank.2.open low high

theorem load_memory_blank {j k : Nat}
    (apart : contents.all fun x => j + k ≤ x.1.toNat ∨ x.1.toNat + 8 ≤ j) :
    load memory.bytes j k = 0 :=
  (Sink.load_putWords_of_disjoint fun x hx =>
    of_decide_eq_true (List.all_eq_true.mp apart x hx)).trans
      (Memory.load_of_zero (Memory.byteAt_replicate _) j k)

theorem find?_classes (name : String) :
    classes.find? name = classes.classes.toList.findIdx? (·.name == name) :=
  List.findIdx?_toArray _ classes.classes.toList

theorem find?_metaclass : classes.find? KnownClass.classOfClasses = some 1 :=
  (find?_classes _).trans (by decide)

theorem methodAt?_method : classes.methodAt? activation.method = some 0 := by
  simp [ClassTable.methodAt?, classes, method]

theorem sound : world.Sound where
  writable := ⟨⟨by decide, by decide, by decide⟩, clear_memory.1.mono (by decide) (by decide)⟩
  store := ⟨⟨by decide, by decide, by decide⟩, clear_memory.1.mono (by decide) (by decide)⟩
  apart := by decide
  coherent := by
    change ∀ c ∈ classes.classes, ∀ id ∈ c.methods, id < classes.methods.size
    decide
  within := by
    refine ⟨?_, ?_, ?_⟩
    · simp only [world, classes, List.mem_toArray, List.mem_cons, List.not_mem_nil, or_false,
        forall_eq_or_imp, forall_eq]
      refine ⟨?_, ?_, ?_⟩ <;> constructor <;> decide
    · simp only [world, classes, List.mem_toArray, List.mem_cons, List.not_mem_nil, or_false,
        forall_eq]
      constructor <;> decide
    · simp only [world, classes, List.mem_toArray, List.mem_cons, List.not_mem_nil, or_false,
        forall_eq]
      decide
  few id found := by
    obtain rfl := Option.some.inj (find?_metaclass.symm.trans found)
    decide

variable {i : Image} {limit p q : UInt64}

theorem serviceable (generated : Image.generate {} = .ok i) : (vm i limit p q).Serviceable {} where
  fenced :=
    { mapped :=
        { ordered := zoned.ordered
          booted := ⟨sound, 1, find?_metaclass⟩
          metaspace := show world.classes.metaspace.stop.toNat ≤ map.thread.toNat by decide
          heap := show world.store.heap.region.stop.toNat ≤ map.thread.toNat by decide
          block := clear_memory.1.mono (show 0x1000 ≤ map.thread.toNat by decide)
            (show map.thread.toNat + Place.threadSize.toNat ≤ 0x23000 by decide) }
      zoned := zoned
      size := Sink.alike_putWords.size.trans size_blank
      guards := ⟨1, Sink.alike_putWords.guards⟩ }
  low := show 0x20000 ≤ world.classes.metaspace.start.toNat by decide
  extended := Image.extended_of_generate generated (by decide)

theorem ready : activation.Ready 0 memory (vm i limit p q) (cpu q) memory where
  registers := by
    constructor <;> exact (Cpu.reg_setReg_ne _ _ (by decide)).trans (by decide)
  fits :=
    { pool := by decide
      constMethod := by decide
      holder := show 0x1000 ≤ (0x20020 : UInt64).toNat ∧
        (0x20020 : UInt64).toNat + 16 ≤ activation.method.toNat by decide
      method := by decide
      thread := by decide
      parameters := show activation.frame.toNat + 24 + 8 * words classes 0 ≤
        activation.locals.toNat by decide
      locals := by decide
      clear := clear_memory.1.mono (by decide) (by decide)
      clearStack := clear_memory.2.mono (by decide) (by decide) }
  recorded :=
    { flags := by
        have word := load_memory (p := 0x20048) (w := 0x109) (by decide)
        rw [show activation.method.toNat + 8 = (0x20048 : UInt64).toNat from rfl,
          Memory.load_word_of_double, word]
        rfl
      constMethod := load_memory (p := 0x20040) (by decide)
      constants := load_memory (p := 0x20008) (by decide)
      holder := load_memory (p := 0x20000) (w := 0x20020) (by decide)
      mirror := load_memory (p := 0x20028) (w := 0x500) (by decide) }
  framed :=
    { pending := load_memory_blank (by decide)
      pop := by
        rw [load_memory_blank (by decide)]
        rfl
      method := load_memory (p := 0x25fe8) (by decide)
      locals := load_memory (p := 0x25fd0) (by decide) }
  thread := rfl
  known := methodAt?_method
  parameters _ _ _ := rfl

theorem parsed :
    MethodDescriptor.ofText? descriptor.text = some method.descriptor := rfl

/-- There is room for the exception. -/
theorem room : world.store.heap.region.top.toNat +
    (16 + 8 * (world.classes.get 2).fields.length + 7) ≤
      world.store.heap.region.stop.toNat := by decide

/-- Any function can be registered for the method. -/
theorem register (v : Vm) {f : HostFunction} (present : f.address ≠ 0) :
    ∃ l, Vm.registerNative (classes.member 0) f.address v = .ok () { v with library := l } ∧
      l.find? (classes.member 0) = some (function f) := by
  obtain ⟨l, registered, found⟩ := v.library.register_ok (n := classes.member 0) (d := descriptor)
    present rfl
  exact ⟨l, Vm.registerNative_ok registered, found⟩

end Rebound

end NativeCall
end TemplateVm
