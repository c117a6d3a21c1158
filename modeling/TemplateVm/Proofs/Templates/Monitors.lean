import TemplateVm.Proofs.Activation.Records
import TemplateVm.Proofs.Templates.Branches

set_option autoImplicit false
set_option synthInstance.maxSize 100000

/-!
# Templates for monitors

Entering a monitor takes a free record, or makes one by moving the operands down by a record; leaving
it frees the lowest record of the object. Variables, operands and all other records stay as they are,
and every object stays locked as often as records name it.
-/
namespace TemplateVm

open Memory (Guarded load)
open Guest Emit Template

variable {P : Vm → Prop} {turns : Nat} {v : Vm} {q q' r s : UInt64} {c : Cpu} {m m' : Guarded}
  {a : Activation} {b : Program} {bcp p : UInt64} {x : Contents} {place : CodeLabel → UInt64}
  {ctx : CodeContext} {inStub : Bool} {K S : List CodeLabel} {objects : List UInt64} {k : Nat}
  {marks : UInt64 → UInt64} {held outer : List UInt64} {o : Object} {op : Bytecode.Operation}
  {e : ExceptionEntries} {rest : List Value}

/-- The lock table has what the records of this activation and those of all others name. -/
def Activation.Balanced (a : Activation) (v : Vm) (m : Guarded) (heap : Heap)
    (marks : UInt64 → UInt64) (objects outer : List UInt64) : Prop :=
  a.Locks v m heap marks objects (objects.filter (· ≠ 0) ++ outer)

theorem count_named (objects outer : List UInt64) (some : s ≠ 0) :
    (objects.filter (· ≠ 0) ++ outer).count s = objects.count s + outer.count s := by
  rw [List.count_append, List.count_filter (by simpa using some)]

theorem count_unnamed (objects outer : List UInt64) :
    (objects.filter (· ≠ 0) ++ outer).count 0 = outer.count 0 := by
  rw [List.count_append, List.count_eq_zero.mpr (by simp), Nat.zero_add]

/-- What is held once an object has got a record. -/
theorem count_take (objects outer : List UInt64) (some : r ≠ 0) (s : UInt64) :
    ((takeMonitor r objects).filter (· ≠ 0) ++ outer).count s =
      (r :: (objects.filter (· ≠ 0) ++ outer)).count s := by
  rw [List.count_cons]
  by_cases zero : s = 0
  · subst zero
    rw [count_unnamed, count_unnamed, if_neg (by simpa using some), Nat.add_zero]
  · rw [count_named _ _ zero, count_named _ _ zero, count_takeMonitor r objects zero,
      List.count_cons]
    omega

/-- What is held once a record of an object is freed. -/
theorem count_free (outer : List UInt64) (named : objects[k]? = some r) (some : r ≠ 0) (s : UInt64) :
    ((objects.set k 0).filter (· ≠ 0) ++ outer).count s =
      ((objects.filter (· ≠ 0) ++ outer).erase r).count s := by
  rw [List.count_erase]
  by_cases zero : s = 0
  · subst zero
    rw [count_unnamed, count_unnamed, if_neg (by simpa using some), Nat.sub_zero]
  · have mem : r ∈ objects := List.mem_of_getElem? named
    rw [count_named _ _ zero, count_named _ _ zero, count_set_zero named zero, List.count_erase]
    split
    · next same =>
      obtain rfl : r = s := by simpa using same
      have := List.count_pos_iff.mpr mem
      omega
    · rfl

/-- An object is locked as often as records name it. -/
theorem Activation.Balanced.count_eq {heap : Heap} (h : a.Balanced v m heap marks objects outer)
    (some : r ≠ 0) : ((v.lock? r).elim 0 fun l => l.count.toNat) = objects.count r + outer.count r := by
  rw [← count_named objects outer some]
  cases locked : v.lock? r with
  | none => exact (List.count_eq_zero.mpr ((h.accounts.free r).mp locked)).symm
  | some l => exact h.accounts.count r l locked

/-- Null is no object to lock. -/
theorem Vm.runCheckNull {s : Register}
    (lay : Lays ⟨v.image.code, place⟩ ctx inStub K S (checkNull e s) q q' ())
    (null : c.reg s = 0 → Vm.Arrives P turns (v.moved e.throwNullPointer c m))
    (next : c.reg s ≠ 0 → Vm.Arrives P turns (v.moved q' c m)) :
    Vm.Arrives P (turns + 2) (v.moved q c m) := by
  unfold checkNull at lay
  obtain ⟨notNull, lay⟩ := lay.newLabel_bind
  obtain ⟨i₁, lay⟩ := lay.emitTo_bind
  obtain ⟨i₂, lay⟩ := lay.emit_bind
  obtain ⟨here, rfl⟩ := lay.bind
  rw [here] at i₁
  exact .branchNonzero i₁ (fun some => (next some).le (by omega)) fun zero => .branch i₂ (null zero)

namespace Stands

/-- The record in the register gets the object, which is locked, and the next bytecode is begun. -/
theorem runClaim (h : Stands a b bcp p x v c m) (locks : a.Locks v m x.heap marks objects held)
    (there : x.heap r = some o) (inside : k < objects.length) (object : c.reg .x0 = r)
    (record : c.reg .x1 = a.record k) (few : held.count r + 1 < 2 ^ 32)
    (lay : Lays ⟨v.image.code, place⟩ ctx inStub K S (do
      add Register.bytecode Register.bytecode 1
      str Register.x0 (Register.at .x1 Frame.monitorObject)
      lockObject Register.x1
      dispatchNext .none 0) q q' ())
    (hm : op ∈ Bytecode.decode b.code) (target : bcp + 1 = a.at op)
    (next : ∀ v' c' m', v.Continues ctx.settings (some []) [] m v' m' →
      Stands a b (a.at op) p x v' c' m' →
      a.Locks v' m' x.heap marks (objects.set k r) (r :: held) →
      Vm.Arrives P turns (v'.moved (v'.image.normalTable.get .none op.opcode.byte) c' m')) :
    Vm.Arrives P (turns + 30) (v.moved q c m) := by
  obtain ⟨i₁, lay⟩ := lay.emit_bind
  obtain ⟨i₂, lay⟩ := lay.emit_bind
  obtain ⟨⟨⟩, q₁, lock, lay⟩ := lay.split
  have f := h.fits
  have thread := f.thread
  have low := f.low
  have records := f.records
  have operands := f.operands
  have extent := locks.monitors.records
  have bound := a.frame.toNat_lt
  have frame := f.frame
  have eight : (8 : UInt64).toNat = 8 := rfl
  have start := locks.monitors.toNat_record (k := k) (by omega)
  have name : (a.record k + 8).toNat = a.top.toNat + 16 * k + 8 := by
    rw [toNat_add_of_lt (by omega), start, eight]
  have ok : m.Open (a.record k + 8) 8 := f.clearStack.open (by omega) (by omega)
  have put := Guarded.changed_put m (a.record k + 8) 8 r
  have named : load (m.put (a.record k + 8) 8 r).bytes (a.top.toNat + 16 * k + 8) 8 = r := by
    rw [← name, Guarded.load_put ok]
  rw [name, eight] at put
  refine .binary i₁ ?_
  change Vm.Arrives P _ (v.moved (q + 4) (c.setReg .bytecode (c.reg .bytecode + 1)) m)
  rw [h.registers.bytecode]
  refine .storeAt ((Cpu.reg_setReg_ne _ _ (by decide)).trans record) i₂ ok ?_
  rw [Cpu.reg_setReg_ne _ _ (by decide), object]
  change Vm.Arrives P _ (v.moved _ _ (m.put (a.record k + 8) 8 r))
  generalize m.put (a.record k + 8) 8 r = m₁ at put named
  have h₁ := (h.inRecords put (by omega) (by omega)).setBytecode (bcp + 1)
  have locks₁ : a.Locks v m₁ x.heap marks (objects.set k r) held :=
    ⟨locks.monitors.set inside put (by omega) (by omega) named,
      locks.accounts.agrees h.heap (put.agrees (by omega))⟩
  refine h₁.runLock locks₁ there (List.getElem?_set_self inside)
    ((Cpu.reg_setReg_ne _ _ (by decide)).trans record) few lock
    fun v' c' m' h' locks' relocked _ => ?_
  have continues := h₁.relocked (s := ctx.settings) there relocked
  have same : bcp + 1 + 0 = a.at op := by rw [UInt64.add_zero, target]
  rw [← continues.image] at lay
  refine h'.runDispatchTo lay hm same fun c'' h'' _ _ => next v' c'' m' ?_ (same ▸ h'') locks'
  exact (Vm.Continues.of_changed put (.inl (by omega))).after continues

end Stands

/-- The activation once an object has got a record. -/
def Activation.taking (a : Activation) (r : UInt64) (objects : List UInt64) : Activation :=
  match freeMonitor? r objects with
  | some _ => a
  | none => a.grown

/-- A monitor is entered: a free record, or a new one, becomes a record of the object, which is locked
    once more. Variables, operands and other records are as before, though the operands may have moved. -/
theorem Represents.runEnterMonitor (h : Represents a b .object bcp x v c m)
    (stack : x.stack = .object r :: rest) (there : x.heap r = some o)
    (balanced : a.Balanced v m x.heap marks objects outer)
    (few : objects.length + outer.length + 1 < 2 ^ 32)
    (room : freeMonitor? r objects = none → a.low + 8 * b.maxStack + 16 ≤ a.top.toNat)
    (lay : Lays ⟨v.image.code, place⟩ ctx inStub K S (enterMonitor e) q q' ())
    (hm : op ∈ Bytecode.decode b.code) (target : bcp + 1 = a.at op)
    (next : ∀ v' c' m', v.Continues ctx.settings (some []) [] m v' m' →
      Represents (a.taking r objects) b .none (a.at op) { x with stack := rest } v' c' m' →
      (a.taking r objects).Balanced v' m' x.heap marks (takeMonitor r objects) outer →
      Vm.Arrives P turns (v'.moved (v'.image.normalTable.get .none op.opcode.byte) c' m')) :
    Vm.Arrives P (turns + 30 + (5 * depth rest + 9) + 1 + (8 * objects.length + 6) + 2)
      (v.moved q c m) := by
  obtain ⟨-, rest', p, ⟨w, stack', held⟩, h⟩ := h
  obtain ⟨rfl, rfl⟩ := List.cons.inj (stack.symm.trans stack')
  unfold enterMonitor at lay
  obtain ⟨⟨⟩, q₁, check, lay⟩ := lay.split
  obtain ⟨⟨⟩, q₂, search, lay⟩ := lay.split
  obtain ⟨allocated, lay⟩ := lay.newLabel_bind
  obtain ⟨i, lay⟩ := lay.emitTo_bind
  obtain ⟨⟨⟩, q₃, grow, lay⟩ := lay.split
  obtain ⟨here, claim⟩ := lay.bind_bind
  rw [here] at i
  have object : c.reg .x0 = r := held
  have some := h.ne_zero there
  have room' := h.fits.operands
  have low := h.fits.low
  have heap := h.fits.heap
  have thread := h.fits.thread
  have records := h.fits.records
  replace few : (objects.filter (· ≠ 0) ++ outer).count r + 1 < 2 ^ 32 := by
    rw [count_named _ _ some]
    have own := objects.count_le_length (a := r)
    have other := outer.count_le_length (a := r)
    omega
  have settle {a' : Activation} {v' : Vm} {m' : Guarded}
      (locks : a'.Locks v' m' x.heap marks (takeMonitor r objects)
        (r :: (objects.filter (· ≠ 0) ++ outer))) :
      a'.Balanced v' m' x.heap marks (takeMonitor r objects) outer :=
    ⟨locks.monitors, locks.accounts.congr (count_take objects outer some)⟩
  refine Vm.runCheckNull check (fun null => absurd (object.symm.trans null) some) fun _ => ?_
  refine (Activation.Placed.of_stands h).runFindFree balanced.monitors h.framed.top some object search
    fun c₁ spares found => ?_
  have x0 : c₁.reg .x0 = r := (spares.regs _ (by decide)).trans object
  have h₁ := h.spares spares (by decide)
  cases free : freeMonitor? r objects with
  | some k =>
    obtain ⟨inside, -⟩ := List.getElem?_eq_some_iff.mp (getElem?_freeMonitor? free)
    have same : a.taking r objects = a := by rw [Activation.taking, free]
    have taken : takeMonitor r objects = objects.set k r := by rw [takeMonitor, free]
    rw [same] at next
    rw [taken] at settle
    rw [free] at found
    have start := balanced.monitors.toNat_record (Nat.le_of_lt inside)
    refine .branchNonzero i (fun _ => ?_) fun zero => ?_
    · exact (h₁.runClaim balanced there inside x0 found few claim hm target
        fun v' c' m' continues h' locks =>
          next v' c' m' continues (.of_stands h') (taken ▸ settle locks)).le (by omega)
    · rw [found] at zero
      change a.record k = 0 at zero
      rw [zero] at start
      change 0 = _ at start
      omega
  | none =>
    have same : a.taking r objects = a.grown := by rw [Activation.taking, free]
    have taken : takeMonitor r objects = r :: objects := by rw [takeMonitor, free]
    rw [same] at next
    rw [taken] at settle
    rw [free] at found
    refine .branchNonzero i (fun some => absurd found some) fun _ => ?_
    refine h₁.runGrow balanced.monitors (room free) grow
      fun c₂ m₂ h₂ monitors changed object' record => ?_
    have locks : a.grown.Locks v m₂ x.heap marks (load m.bytes (a.top.toNat - 8) 8 :: objects)
        (objects.filter (· ≠ 0) ++ outer) :=
      ⟨monitors, balanced.accounts.agrees h.heap (changed.agrees (by omega))⟩
    exact h₂.runClaim locks there (Nat.succ_pos _) (object'.trans x0) record few claim hm target
      fun v' c' m' continues h' locks' =>
        next v' c' m' ((Vm.Continues.of_changed changed (.inl (by omega))).after continues)
          (.of_stands h') (taken ▸ settle locks')

/-- A monitor is left: the lowest record of the object is freed, and the object is unlocked once. All
    else is as before. Without a record of the object the runtime is asked for the exception, and nothing
    has changed. -/
theorem Represents.runExitMonitor (h : Represents a b .object bcp x v c m)
    (stack : x.stack = .object r :: rest) (there : x.heap r = some o)
    (balanced : a.Balanced v m x.heap marks objects outer)
    (lay : Lays ⟨v.image.code, place⟩ ctx inStub K S (exitMonitor e) q q' ())
    (missing : r ∉ objects → ∀ p c' m' K' S' r' r'', Stands a b bcp p { x with stack := rest } v c' m' →
      a.Balanced v m' x.heap marks objects outer → c'.reg .link = r' →
      load m'.bytes (a.frame.toNat - 56) 8 = bcp →
      Lays ⟨v.image.code, place⟩ ctx inStub K' S' (resumeGuest none) r' r'' () →
      Vm.Arrives P turns (v.moved Service.throwIllegalMonitorState.address c' m'))
    (next : r ∈ objects → ∀ v' c' m', v.Continues ctx.settings (some []) [] m v' m' →
      Represents a b .none bcp { x with stack := rest } v' c' m' →
      a.Balanced v' m' x.heap marks (objects.set (objects.idxOf r) 0) outer →
      Vm.Arrives P turns (v'.moved q' c' m')) :
    Vm.Arrives P (turns + 26 + (6 * objects.length + 2) + 5) (v.moved q c m) := by
  obtain ⟨full, rest', p, ⟨w, stack', held⟩, h⟩ := h
  obtain ⟨rfl, rfl⟩ := List.cons.inj (stack.symm.trans stack')
  unfold exitMonitor at lay
  obtain ⟨⟨⟩, q₁, check, lay⟩ := lay.split
  obtain ⟨found, lay⟩ := lay.newLabel_bind
  obtain ⟨again, lay⟩ := lay.newLabel_bind
  obtain ⟨entry, lay⟩ := lay.newLabel_bind
  obtain ⟨i₁, lay⟩ := lay.emit_bind
  obtain ⟨i₂, lay⟩ := lay.emit_bind
  obtain ⟨i₃, lay⟩ := lay.emitTo_bind
  obtain ⟨start, lay⟩ := lay.bind_bind
  obtain ⟨j₁, lay⟩ := lay.emit_bind
  obtain ⟨j₂, lay⟩ := lay.emit_bind
  obtain ⟨j₃, lay⟩ := lay.emitTo_bind
  obtain ⟨j₄, lay⟩ := lay.emit_bind
  obtain ⟨inside, lay⟩ := lay.bind_bind
  obtain ⟨j₅, lay⟩ := lay.emit_bind
  obtain ⟨j₆, lay⟩ := lay.emitTo_bind
  obtain ⟨⟨⟩, q₂, throw, lay⟩ := lay.split
  obtain ⟨⟨⟩, q₃, -, lay⟩ := lay.split
  obtain ⟨behind, lay⟩ := lay.bind_bind
  obtain ⟨k₁, lay⟩ := lay.emit_bind
  obtain ⟨⟨⟩, q₄, unlock, lay⟩ := lay.split
  obtain ⟨k₂, rfl⟩ := lay.emit
  rw [inside] at i₃
  rw [start] at j₆
  rw [behind] at j₃
  have object : c.reg .x0 = r := held
  have some := h.ne_zero there
  have low := h.fits.low
  have heap := h.fits.heap
  have thread := h.fits.thread
  have operands := h.fits.operands
  have extent := balanced.monitors.records
  have first : a.record 0 = a.top := UInt64.add_zero a.top
  refine Vm.runCheckNull check (fun null => absurd (object.symm.trans null) some) fun _ => ?_
  have placed := Activation.Placed.of_stands h
  refine placed.runFrameLoad i₁ (by decide) (by decide) h.framed.top (.binary i₂ (.branch i₃ ?_))
  generalize hc₁ : (c.setReg .x1 a.top).setReg .x2 _ = c₁
  have spares₁ : c.Spares c₁ [.x1, .x2, .scratch1] :=
    hc₁ ▸ ((Cpu.Spares.refl c _).setReg (by simp) _).setReg (by simp) _
  have x1 : c₁.reg .x1 = a.record 0 := by
    rw [← hc₁, Cpu.reg_setReg_ne _ _ (by decide), Cpu.reg_setReg_self _ _ (by decide), first]
  have x2 : c₁.reg .x2 = a.frame + -64 := by
    rw [← hc₁, Cpu.reg_setReg_self _ _ (by decide), Cpu.reg_setReg_ne _ _ (by decide), placed.frame]
    rfl
  have within : ([.x1, .scratch1] : List Register) ⊆ [.x1, .x2, .scratch1] := by simp
  refine (placed.spares spares₁ (by decide) (by decide)).runFindNamed balanced.monitors j₁ j₂ j₃ j₄ j₅
    j₆ ((spares₁.regs _ (by decide)).trans object) x2 x1 (Nat.zero_add _)
    (fun out c₂ spares₂ => ?_) fun mem c₂ spares₂ result => ?_
  · have h₂ := h.spares (spares₁.trans (spares₂.mono within)) (by decide)
    refine h₂.runCallVm throw (by simp)
      fun c' m' K' r' resume h' link _ _ _ saved _ _ agrees _ => ?_
    have balanced' : a.Balanced v m' x.heap marks objects outer :=
      balanced.agrees h.heap (agrees _ _ (.inl (by omega)))
        (agrees _ _ (.inr ⟨by omega, .inl (by omega)⟩))
    rw [List.drop_zero] at out
    exact (missing out _ c' m' _ _ r' _ h' balanced' link saved resume).le (by omega)
  · rw [List.drop_zero] at mem result
    rw [Nat.zero_add] at result
    have spares := spares₁.trans (spares₂.mono within)
    have h₂ := h.spares spares (by decide)
    have x0 : c₂.reg .x0 = r := (spares.regs _ (by decide)).trans object
    have named : objects[objects.idxOf r]? = Option.some r := List.getElem?_eq_some_iff.mpr
      ⟨List.idxOf_lt_length_of_mem mem, List.getElem_idxOf _⟩
    have depth' := h.top
    have held : r ∈ objects.filter (· ≠ 0) ++ outer :=
      List.mem_append_left _ (List.mem_filter.mpr ⟨mem, by simpa using some⟩)
    have full' : depth rest + 1 ≤ b.maxStack := by
      rw [stack] at full
      change 1 + depth rest ≤ _ at full
      omega
    refine h₂.runStore (w := .object r) (n := 8) k₁ rfl (by decide)
      (fun k ok => x0 ▸ Value.object_in_put ok (c₂.reg .x0)) full' fun m₃ h₃ changed₃ => ?_
    have locks₃ := balanced.agrees h.heap (changed₃.agrees (by omega))
      (changed₃.agrees (s := a.top.toNat) (t := a.frame.toNat - 64) (by omega))
    refine h₃.runUnlock locks₃ there named ((Cpu.reg_setReg_ne _ _ (by decide)).trans result) held
      unlock fun v' c' m' h' locks' relocked _ => ?_
    have continues := h₃.relocked (s := ctx.settings) there relocked
    have k₂ := k₂
    rw [← continues.image] at k₂
    refine h'.runLoad (w := .object r) rfl k₂ rfl (by decide) rfl fun h'' _ => ?_
    exact next mem v' _ m' ((h.continues changed₃ low).after continues) (.of_stands h'')
      ⟨locks'.monitors, locks'.accounts.congr (count_free outer named some)⟩

end TemplateVm
