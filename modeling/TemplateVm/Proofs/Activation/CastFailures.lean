import TemplateVm.Proofs.Activation.Rethrowing
import TemplateVm.Proofs.Natives.Unregistered

set_option autoImplicit false
set_option synthInstance.maxSize 100000

/-!
# Exceptions for failed casts

The code for a cast that fails finds the object on the operand stack. The runtime makes an exception
that names the class of the object, if the heap has room for it, and the code throws it. Nothing
that stands for the activation is where the new object is.
-/
namespace TemplateVm

open Memory (Guarded load)
open Guest Emit

/-! ## The code -/

namespace Emit

/-- An exception is made that names the class of the topmost operand, and is thrown. -/
def castFailing (throwException : UInt64) : Emit Unit := do
  popWord Register.x2
  emptyOperands
  movImm Register.x1 BuiltinException.classCast.index.toUInt64
  callVm (some Register.x0) .createClassException [Register.x1, Register.x2]
  bTo throwException

end Emit

instance Orderly.castFailing {ctx : CodeContext} {K S : List CodeLabel} {inStub : Bool}
    (t : UInt64) : Orderly ctx inStub K S S 60 (castFailing t) := by
  unfold Emit.castFailing
  exact upto inferInstance (by decide)

namespace Image

/-- Where the code for casts that fail lies, and the code that throws exceptions. -/
structure FailsCasts (i : Image) (s : Settings) : Prop where
  failing : ∃ place ctx K S q, ctx.settings = s ∧ Lays ⟨i.code, place⟩ ctx true K S
    (castFailing i.exceptions.throwException) i.exceptions.throwClassCast q ()
  searching : ∃ place ctx K S, ctx.settings = s ∧ Lays ⟨i.code, place⟩ ctx true K S searching
    i.exceptions.throwException i.exceptions.removeActivation ()

theorem Generated.failsCasts {s : Settings} {i : Image} (h : Generated s i) : i.FailsCasts s := by
  obtain ⟨i₀, generated, -, -, same, keeps⟩ := h.image
  obtain ⟨parts, laid⟩ := laid_of_generate generated h.pages
  obtain ⟨place, l, lay⟩ := laid.interpreter
  obtain ⟨p, q, exceptions⟩ := (placed_of_lays lay).exceptions
  unfold ExceptionEntries.all at exceptions
  obtain ⟨_, _, -, lay⟩ := exceptions.split
  obtain ⟨⟨_, rethrow, throwException, removeActivation⟩, _, handling, lay⟩ := lay.split
  obtain ⟨_, _, -, lay⟩ := lay.split
  obtain ⟨_, _, -, lay⟩ := lay.split
  obtain ⟨⟨throwClassCast, _⟩, _, failing, lay⟩ := lay.split
  obtain ⟨_, _, -, lay⟩ := lay.split
  obtain ⟨_, _, -, lay⟩ := lay.split
  obtain ⟨-, ended⟩ := lay.ended
  obtain ⟨-, searched, -⟩ := handling.stub.2.handling
  obtain ⟨rfl, failing⟩ := failing.stub
  replace ended := (same.trans laid.exceptions).trans ended
  exact {
    failing := by
      rw [ended]
      exact ⟨place, _, _, _, _, rfl, failing.mono rfl keeps⟩
    searching := by
      rw [ended]
      exact ⟨place, _, _, _, rfl, searched.mono rfl keeps⟩ }

end Image
/-! ## The exception -/

namespace Vm

variable {v : Vm} {p record e : UInt64} {c : Cpu} {m : Guarded} {steps : UInt64}
  {watched : List (UInt64 × UInt64)} {kind thrown : ClassId} {store : Memory.Store}
  {failure : Failure} {s : Service}

/-- The next turn ends the run with the failure, whatever has been counted so far. -/
def Stops (failure : Failure) (v : Vm) : Prop :=
  ∀ steps watched, ∃ w, (v.counted steps watched).turn = .error failure w

theorem Stops.turn (h : v.Stops failure) : ∃ w, v.turn = .error failure w :=
  h v.processor.steps v.processor.watched

/-- A service that is no leaf and fails ends the run. -/
theorem stops_of_perform (leaf : s.isLeaf = false)
    (ok : m.Open (v.map.thread + ThreadBlock.threadState) 4)
    (failed : ∀ steps watched, ∃ w, perform s ((v.moved s.address c
      (threadState v.map.thread .inRuntime m)).counted steps watched) = .error failure w) :
    (v.moved s.address c m).Stops failure := fun steps watched => by
  obtain ⟨w, failed⟩ := failed steps watched
  refine ⟨w, ?_⟩
  rw [turn_service]
  exact bind_error (serve_error leaf ok failed)

section
variable (ok : m.Open (record + Memory.ObjectShape.classRecord) 8)
  (known : v.world.classes.classAt?
    (load m.bytes (record + Memory.ObjectShape.classRecord).toNat 8) = some kind)
  (loaded : v.world.classes.find? BuiltinException.classCast.className = some thrown)
include ok known loaded

/-- The exception names the class of the object. -/
theorem createClassException_ok
    (made : World.newInstance thrown (v.world.withMemory m) = .ok e { v.world with store })
    (resultOk : store.mem.Open (v.map.thread + ThreadBlock.vmResult) 8) :
    createClassException BuiltinException.classCast.index.toUInt64 record
        ((v.moved p c m).counted steps watched) =
      .ok () (((v.withException e (dotted (v.world.classes.get kind).name) store).moved p c
        (store.mem.put (v.map.thread + ThreadBlock.vmResult) 8 e)).counted steps watched) := by
  refine (bind_ok (m := exceptionAt _) rfl).trans ((bind_ok (classOf_ok ok known)).trans ?_)
  refine (bind_ok (m := classes) rfl).trans ((bind_ok (allocateException_ok loaded made)).trans ?_)
  exact onThread_ok (v := v.withException e (dotted (v.world.classes.get kind).name) store)
    resultOk.write

/-- Without room for it the heap is found exhausted. -/
theorem createClassException_exhausted (full : ¬ v.world.HasRoom thrown) :
    createClassException BuiltinException.classCast.index.toUInt64 record
        ((v.moved p c m).counted steps watched) =
      .error v.world.store.heap.exhausted ((v.moved p c m).counted steps watched) := by
  refine (bind_ok (m := exceptionAt _) rfl).trans ((bind_ok (classOf_ok ok known)).trans ?_)
  refine (bind_ok (m := classes) rfl).trans (bind_error ?_)
  refine (bind_ok (m := classes) rfl).trans ?_
  have loaded' : ((v.moved p c m).counted steps watched).world.classes.find?
    BuiltinException.classCast.className = some thrown := loaded
  simp only [loaded']
  refine bind_error ?_
  have failed := World.newInstance_exhausted (w := v.world.withMemory m) full
  have same : ((v.moved p c m).counted steps watched).world = v.world.withMemory m := rfl
  simp only [onWorld, zoom, same, failed]
  rfl

end

theorem perform_createClassException {index object : UInt64} (x1 : c.reg .x1 = index)
    (x2 : c.reg .x2 = object) :
    perform .createClassException ((v.moved p c m).counted steps watched) =
      createClassException index object ((v.moved p c m).counted steps watched) := by
  subst x1 x2
  exact (bind_ok (m := reg .x0) rfl).trans <| (bind_ok (m := reg .x1) rfl).trans <|
    bind_ok (m := reg .x2) rfl

end Vm

/-! ## A new object -/

/-- The objects lie between the records and the thread, and new ones behind all that are there. -/
structure Activation.Houses (a : Activation) (h : Heap) (w : World) : Prop where
  start : a.heap.toNat ≤ w.store.heap.region.top.toNat
  stop : w.store.heap.region.stop.toNat ≤ a.thread.toNat
  below : ∀ r o, h r = some o → r.toNat + o.size ≤ w.store.heap.region.top.toNat
  starts : ∀ r, w.store.heap.isObject r = true → r.toNat < w.store.heap.region.top.toNat

/-- What the activation needs for an exception to be thrown in its method: the method is known by
    its record, its handlers are operations of it, and the record tells where the stack of the
    machine ends. -/
structure Activation.Throwable (a : Activation) (b : Program) (id : MethodId) (pointer : UInt64)
    (m : Guarded) : Prop where
  method : b.classes.methodAt? a.method = some id
  handlers : ∀ thrown bcp handler,
    Vm.handler? b.classes (b.classes.method id) bcp thrown = some handler →
      ∃ op ∈ Bytecode.decode b.code, handler = a.code + op.bci.toUInt64
  measured : a.Measured 4 pointer m

variable {P : Vm → Prop} {turns : Nat} {v : Vm} {q q' r e : UInt64} {c : Cpu} {m m' : Guarded}
  {a : Activation} {b : Program} {bcp p pointer : UInt64} {x : Contents}
  {place : CodeLabel → UInt64} {ctx : CodeContext} {inStub : Bool} {K S : List CodeLabel}
  {o : Object} {thrown : ClassId} {store : Memory.Store} {text : String} {rest : List Value}
  {id : MethodId} {s : Settings}

/-- An object that is made is one more object in memory, behind all others. -/
theorem Activation.HoldsHeap.created {h : Heap} {t : ClassTable} {w : World}
    (holds : a.HoldsHeap t m h) (houses : a.Houses h w) (known : thrown < t.size)
    (creates : ({ w.store with mem := m } : Memory.Store).Creates (t.get thrown).address e store) :
    a.HoldsHeap t store.mem (h.update e ⟨thrown, .fields []⟩) := by
  have behind : w.store.heap.region.top.toNat ≤ e.toNat := creates.behind
  have inside : store.heap.region.top.toNat ≤ w.store.heap.region.stop.toNat :=
    creates.grows.heap.inside
  have last : e.toNat + 16 ≤ store.heap.region.top.toNat := creates.inside
  have changed : m.Changed store.mem w.store.heap.region.top.toNat
    w.store.heap.region.stop.toNat := creates.grows.mem
  have start := houses.start
  have stop := houses.stop
  exact {
    holds := fun r o there => by
      obtain ⟨rfl, rfl⟩ | ⟨-, there⟩ := Heap.of_update there
      · exact ⟨creates.instanced, fun k cell none => by cases none⟩
      · have low := houses.below r o there
        exact (holds.holds r o there).agrees (changed.agrees (by omega))
    known := fun r o there => by
      obtain ⟨-, rfl⟩ | ⟨-, there⟩ := Heap.of_update there
      · exact known
      · exact holds.known r o there
    above := fun r o there => by
      obtain ⟨rfl, -⟩ | ⟨-, there⟩ := Heap.of_update there
      · omega
      · exact holds.above r o there
    below := fun r o there => by
      obtain ⟨rfl, rfl⟩ | ⟨-, there⟩ := Heap.of_update there
      · change r.toNat + 16 ≤ _
        omega
      · exact holds.below r o there
    apart := fun r o r' o' there there' other => by
      obtain ⟨rfl, rfl⟩ | ⟨-, found⟩ := Heap.of_update there
      · obtain ⟨rfl, -⟩ | ⟨-, found'⟩ := Heap.of_update there'
        · exact absurd rfl other
        · have low := houses.below r' o' found'
          omega
      · obtain ⟨rfl, rfl⟩ | ⟨-, found'⟩ := Heap.of_update there'
        · have low := houses.below r o found
          omega
        · exact holds.apart r o r' o' found found' other }

/-- No object has been where the new one is. -/
theorem Activation.Houses.fresh {h : Heap} {w : World} {record : UInt64} (houses : a.Houses h w)
    (creates : ({ w.store with mem := m } : Memory.Store).Creates record e store) :
    w.store.heap.isObject e = false := by
  have behind : w.store.heap.region.top.toNat ≤ e.toNat := creates.behind
  by_contra taken
  have low := houses.starts e (by simpa using taken)
  omega

namespace Stands

/-- An object that is made is one more object of the heap, and has no part in the others. -/
theorem created (h : Stands a b bcp p x v c m) (houses : a.Houses x.heap v.world)
    (creates : ({ v.world.store with mem := m } : Memory.Store).Creates
      (b.classes.get thrown).address e store) (known : thrown < b.classes.size) :
    Stands a b bcp p { x with heap := x.heap.update e ⟨thrown, .fields []⟩ }
      (v.withException e text store) c store.mem := by
  have f := h.fits
  have records := f.records
  have thread := f.thread
  have operands := f.operands
  have frame := f.frame
  have top := f.top
  have depth := h.top
  have bounded := h.bounded
  have start := houses.start
  have stop := houses.stop
  have changed : m.Changed store.mem v.world.store.heap.region.top.toNat
    v.world.store.heap.region.stop.toNat := creates.grows.mem
  exact {
    registers := h.registers
    fits := f.changed changed
    loaded := h.loaded.agrees f.records (changed.agrees (by omega))
    idle := h.idle.agrees (changed.agrees (by omega)) (changed.agrees (by omega))
    framed := h.framed.agrees (by omega) (changed.agrees (by omega)) (changed.agrees (by omega))
    locals := h.locals.agrees f.frame (changed.agrees (by omega))
    stack := h.stack.agrees (changed.agrees (s := p.toNat) (t := a.top.toNat) (by omega)) (by omega)
    top := h.top
    bounded := h.bounded
    heap := h.heap.created houses known creates
    inhabits := { h.inhabits with
      objects := fun r o there => (creates.isObject r).mpr <| by
        obtain ⟨rfl, -⟩ | ⟨-, there⟩ := Heap.of_update there
        · exact .inl rfl
        · exact .inr (h.inhabits.objects r o there) } }

/-- Without room for the exception the service ends the run. -/
theorem stopsExhausted (h : Stands a b bcp p x v c m)
    (loaded : b.classes.find? BuiltinException.classCast.className = some thrown)
    (object : x.heap r = some o)
    (numbered : b.classes.classAt? (b.classes.get o.classId).address = some o.classId)
    (index : c.reg .x1 = BuiltinException.classCast.index.toUInt64) (named : c.reg .x2 = r)
    (full : ¬ v.world.HasRoom thrown) :
    (v.moved Service.createClassException.address c m).Stops v.world.store.heap.exhausted := by
  have own := h.inhabits.thread
  have table := h.inhabits.classes
  obtain ⟨h₁, ok, -⟩ := h.inState .inRuntime
  obtain ⟨classOk, classKnown⟩ := h₁.classAt object numbered
  rw [← own] at ok classOk classKnown
  exact Vm.stops_of_perform rfl ok fun steps watched =>
    ⟨_, (Vm.perform_createClassException index named).trans
      (Vm.createClassException_exhausted classOk classKnown (table ▸ loaded) full)⟩

section
variable (h : Stands a b bcp p x v c m) (sound : (v.world.withMemory m).Sound)
  (houses : a.Houses x.heap v.world) (few : (b.classes.get thrown).fields.length < 2 ^ 60)
  (loaded : b.classes.find? BuiltinException.classCast.className = some thrown)
  (object : x.heap r = some o)
  (numbered : b.classes.classAt? (b.classes.get o.classId).address = some o.classId)
include h sound houses few loaded object numbered

/-- The service makes an exception that names the class of the object, or the heap is exhausted. -/
theorem runCreateClassException
    (index : c.reg .x1 = BuiltinException.classCast.index.toUInt64) (named : c.reg .x2 = r)
    (full : ¬ v.world.HasRoom thrown →
      (v.moved Service.createClassException.address c m).Stops v.world.store.heap.exhausted →
      P (v.moved Service.createClassException.address c m))
    (made : ∀ e store m', v.world.HasRoom thrown → (∀ k, store.heap.isObject k = true ↔
        k = e ∨ v.world.store.heap.isObject k = true) → v.world.store.heap.isObject e = false →
      Stands a b bcp p { x with heap := x.heap.update e ⟨thrown, .fields []⟩ }
        (v.withException e (Vm.dotted (b.classes.get o.classId).name) store) c m' →
      load m'.bytes (a.thread.toNat + 8) 8 = e → m.Agrees m' 0 a.heap.toNat →
      m.Agrees m' (a.frame.toNat - 56) (a.frame.toNat - 48) →
      Vm.Arrives P turns ((v.withException e (Vm.dotted (b.classes.get o.classId).name) store).moved
        (c.reg .link) c m')) :
    Vm.Arrives P (turns + 1) (v.moved Service.createClassException.address c m) := by
  have own := h.inhabits.thread
  have table := h.inhabits.classes
  have room := h.fits.thread
  have heap := h.fits.heap
  have operands := h.fits.operands
  have top := h.fits.top
  have start := houses.start
  have stop := houses.stop
  by_cases room' : v.world.HasRoom thrown
  · refine h.runInRuntime own rfl fun m₁ h₁ changed₁ => ?_
    obtain ⟨classOk, classKnown⟩ := h₁.classAt object numbered
    have sound₁ : (v.world.withMemory m₁).Sound := sound.alike ⟨changed₁.size, changed₁.guards⟩
    obtain ⟨e, store, creates, made'⟩ := World.newInstance_made sound₁ (table ▸ few) room'
    rw [table] at creates
    have h₂ : Stands a b bcp p { x with heap := x.heap.update e ⟨thrown, .fields []⟩ }
        (v.withException e (Vm.dotted (b.classes.get o.classId).name) store) c store.mem :=
      h₁.created houses creates (ClassTable.lt_of_find? loaded)
    have changed₂ : m₁.Changed store.mem v.world.store.heap.region.top.toNat
      v.world.store.heap.region.stop.toNat := creates.grows.mem
    obtain ⟨resultAt, resultOk, h₃⟩ := h₂.threadField (k := ThreadBlock.vmResult) (n := 8)
      (by decide) (by decide) e
    have changed₃ := Guarded.changed_put store.mem (a.thread + ThreadBlock.vmResult) 8 e
    have eight : (8 : UInt64).toNat = 8 := rfl
    have offset : ThreadBlock.vmResult.toNat = 8 := rfl
    refine ⟨v.withException e (Vm.dotted (b.classes.get o.classId).name) store,
      store.mem.put (a.thread + ThreadBlock.vmResult) 8 e, ⟨fun steps watched => ?_, rfl,
        ⟨fun quiet => quiet, rfl, rfl⟩, ?_, ?_⟩, fun m' changed => ?_⟩
    · rw [← own] at resultOk ⊢
      refine (Vm.perform_createClassException index named).trans ?_
      rw [← table]
      exact Vm.createClassException_ok classOk classKnown (table ▸ loaded) made' resultOk
    · exact changed₃.size.trans changed₂.size
    · exact changed₃.guards.trans changed₂.guards
    · have kept {s t : Nat} (outside : t ≤ a.heap.toNat ∨ a.thread.toNat + 64 ≤ s) :
          m.Agrees m' s t :=
        (changed₁.agrees (by omega)).trans <| (changed₂.agrees (by omega)).trans <|
          (changed₃.agrees (by omega)).trans (changed.agrees (by omega))
      refine made e store m' room' creates.isObject (houses.fresh creates)
        (h₃.outside changed (.inr (.inl ⟨by omega, by omega⟩))) ?_ (kept (by omega))
          (kept (by omega))
      rw [(changed.agrees (s := a.thread.toNat + 8) (t := a.thread.toNat + 16) (by omega)).load
        (Nat.le_refl _) (Nat.le_refl _), ← offset, ← resultAt]
      exact Guarded.load_put resultOk
  · exact .here (full room' (h.stopsExhausted loaded object numbered index named room'))

/-- The code for casts that fail gives up the operands and throws the exception, or the run ends. -/
theorem runCastFailing {throwException : UInt64} (stack : x.stack = .object r :: rest)
    (lay : Lays ⟨v.image.code, place⟩ ctx inStub K S (castFailing throwException) q q' ())
    (full : ¬ v.world.HasRoom thrown → ∀ c' m',
      (v.moved Service.createClassException.address c' m').Stops v.world.store.heap.exhausted →
      P (v.moved Service.createClassException.address c' m'))
    (made : ∀ e store c' m', v.world.HasRoom thrown → (∀ k, store.heap.isObject k = true ↔
        k = e ∨ v.world.store.heap.isObject k = true) → v.world.store.heap.isObject e = false →
      Stands a b bcp a.top
        { x with stack := [], heap := x.heap.update e ⟨thrown, .fields []⟩ }
        (v.withException e (Vm.dotted (b.classes.get o.classId).name) store) c' m' →
      c'.reg .x0 = e → m.Agrees m' 0x1000 a.heap.toNat →
      Vm.Arrives P turns ((v.withException e (Vm.dotted (b.classes.get o.classId).name) store).moved
        throwException c' m')) :
    Vm.Arrives P (turns + 29) (v.moved q c m) := by
  unfold castFailing at lay
  obtain ⟨i₁, lay⟩ := Lays.emit_bind (i := .load .x2 (.post .operands 8) .double false) lay
  obtain ⟨⟨⟩, q₁, emptied, lay⟩ := lay.split
  obtain ⟨i₂, lay⟩ := lay.emit_bind
  obtain ⟨⟨⟩, q₂, called, lay⟩ := lay.split
  obtain ⟨i₃, rfl⟩ := lay.emit
  have room := h.fits.thread
  have heap := h.fits.heap
  have operands := h.fits.operands
  have top := h.fits.top
  refine h.runLoad stack i₁ rfl (by decide) rfl fun h₁ holds => ?_
  rw [show load m.bytes p.toNat 8 = r from holds] at h₁ ⊢
  refine h₁.runEmptyOperands emptied fun m₂ h₂ changed₂ => .movImm i₂ ?_
  refine (h₂.setReg .x1 BuiltinException.classCast.index.toUInt64 rfl).runCallVm called (by decide)
    fun c₃ m₃ K' q₃ resumed h₃ link _ same₃ _ saved _ _ kept₃ confined => ?_
  have x1 : c₃.reg .x1 = BuiltinException.classCast.index.toUInt64 :=
    (same₃ _ (by decide) (by decide) (by decide)).trans (Cpu.reg_setReg_self _ _ (by decide))
  have x2 : c₃.reg .x2 = r := by
    rw [same₃ _ (by decide) (by decide) (by decide), Cpu.reg_setReg_ne _ _ (by decide),
      Cpu.reg_setReg_ne _ _ (by decide), Cpu.reg_setReg_self _ _ (by decide)]
  have sound₃ : (v.world.withMemory m₃).Sound :=
    sound.alike ⟨confined.size.trans changed₂.size, confined.guards.trans changed₂.guards⟩
  refine h₃.runCreateClassException sound₃ houses few loaded object numbered x1 x2
    (fun none => full none c₃ m₃) fun e store m₄ some only fresh h₄ result kept₄ frame => ?_
  rw [link]
  refine h₄.runResumeGuest resumed ((frame.load (by omega) (by omega)).trans saved)
    (fun _ known => by cases known; decide) fun c₅ m₅ h₅ _ _ value changed₅ => .branch i₃ ?_
  exact made e store c₅ m₅ some only fresh h₅ ((value _ rfl).trans result) <|
    (changed₂.agrees (by omega)).trans <| (kept₃ _ _ (.inl (by omega))).trans <|
      (kept₄.mono (by omega) (Nat.le_refl _)).trans (changed₅.agrees (by omega))

/-- Where a cast fails the activation goes on with the exception, or the run ends. -/
theorem runCastThrown (stack : x.stack = .object r :: rest) (fails : v.image.FailsCasts s)
    (roomy : a.Roomy s b.maxStack) (throwable : a.Throwable b id pointer m)
    (catchable : b.classes.classAt? (b.classes.get thrown).address = some thrown)
    (full : ¬ v.world.HasRoom thrown → ∀ c' m',
      (v.moved Service.createClassException.address c' m').Stops v.world.store.heap.exhausted →
      P (v.moved Service.createClassException.address c' m'))
    (made : ∀ e store target handler c' m', v.world.HasRoom thrown →
      (∀ k, store.heap.isObject k = true ↔ k = e ∨ v.world.store.heap.isObject k = true) →
      v.world.store.heap.isObject e = false →
      a.GoesOn b v.image id bcp thrown target handler →
      Stands { a with sp := pointer } b handler (a.top + -8)
        { x with stack := [.object e], heap := x.heap.update e ⟨thrown, .fields []⟩ }
        (v.withException e (Vm.dotted (b.classes.get o.classId).name) store) c' m' →
      P ((v.withException e (Vm.dotted (b.classes.get o.classId).name) store).moved target c' m')) :
    Vm.Arrives P 70 (v.moved v.image.exceptions.throwClassCast c m) := by
  obtain ⟨_, _, _, _, _, -, failing⟩ := fails.failing
  obtain ⟨_, _, _, _, rfl, searched⟩ := fails.searching
  have room : 0 < b.maxStack := by
    have bounded := h.bounded
    rw [stack] at bounded
    change 1 + depth rest ≤ _ at bounded
    omega
  refine h.runCastFailing sound houses few loaded object numbered stack failing full
    fun e store c₁ m₁ some only fresh h₁ held kept => ?_
  have throws : a.Throws b (x.heap.update e ⟨thrown, .fields []⟩) id e thrown :=
    ⟨throwable.method, ⟨.fields [], if_pos rfl⟩, catchable, throwable.handlers thrown⟩
  refine h₁.runThrow throws held roomy room (throwable.measured.agrees kept) searched
    fun target handler c₂ m₂ goes h₂ => ?_
  exact .here (made e store target handler c₂ m₂ some only fresh goes h₂)

end

end Stands

end TemplateVm
