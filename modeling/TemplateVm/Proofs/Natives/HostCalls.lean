import Mathlib.Data.Nat.Bitwise
import Mathlib.Tactic.IntervalCases
import TemplateVm.Proofs.Natives.Linking

set_option autoImplicit false
set_option synthInstance.maxSize 100000

/-!
# Calling the host

Between the handler and the call, the entry of a native method adds the environment and a handle of
the receiver or of the class. What the host is handed then are these two and the parameters, in the
order of their declaration, as they were when the method was entered.
-/
namespace TemplateVm

open Memory (Guarded load)
open Native (ArgumentKind Arguments CallFormat HostFunction)
open Emit

theorem Cpu.floats_toList (c : Cpu) : FloatRegister.all.map c.float = c.v.toList := by
  refine List.ext_getElem (by simp [FloatRegister.all]) fun i hi _ => ?_
  have hi : i < 8 := by simpa [FloatRegister.all] using hi
  interval_cases i <;> rfl

/-- The next turn calls the function at the address, in the format and with the arguments, each
    from the register file of its kind. -/
structure Vm.Hands (target : UInt64) (f : CallFormat) (args : List UInt64) (w : Vm) : Prop where
  turn : ∃ u : Vm, u.processor.cpu = { w.processor.cpu with pc := u.processor.cpu.pc } ∧
    ∀ steps watched,
      (∃ failure e, (w.counted steps watched).turn = .error failure e ∧
        (w.counted steps watched).Cut failure) ∨
        ∃ steps' watched', (w.counted steps watched).turn =
          (Vm.callNative target f.pack >>= fun _ => pure true) (u.counted steps' watched')
  unpacked : CallFormat.unpack f.pack = .ok f
  passed : Arguments.passed f (Register.arguments.map w.processor.cpu.reg)
    w.processor.cpu.v.toList = .filed f.arguments args
  invoked : ∀ function, HostFunction.ofAddress? target = some function → ∀ b : Native.Bridge,
    ∃ b', b.invoke target f (Register.arguments.map w.processor.cpu.reg)
      w.processor.cpu.v.toList = .ok (.ofOutcome (function.call (.filed f.arguments args)), b')

namespace NativeCall

variable {a : NativeCall} {id : MethodId} {m₀ m m' : Guarded} {v : Vm} {c c' : Cpu} {t : ClassTable}
  {k : Nat} {ts : List TypeTag} {target : UInt64}

/-! ## Parameters stay -/

/-- The registers get for a parameter what it was at the start. -/
theorem Ready.held_eq (h : a.Ready id m₀ v c m) {t : TypeTag} (void : t ≠ .void)
    (hk : k + t.words ≤ words v.world.classes id) : a.held m k t = a.held m₀ k t := by
  have kept {j n : Nat} (hj : j < k + t.words) (hn : n ≤ 8) :
      load m.bytes (a.slot j).toNat n = load m₀.bytes (a.slot j).toNat n := by
    obtain ⟨-, low, high⟩ := h.slot (k := j) (by omega)
    exact h.parameters.load low (by omega)
  cases t with
  | void => exact absurd rfl void
  | long | double => exact kept (j := k + 1) (Nat.lt_succ_self _) (Nat.le_refl _)
  | object | array =>
    have same := kept (j := k) (n := 8) (Nat.lt_succ_self _) (Nat.le_refl _)
    simp only [held, argument, same]
  | float => exact kept (j := k) (n := 4) (Nat.lt_succ_self _) (by decide)
  | boolean | char | byte | short | int =>
    exact kept (j := k) (n := 8) (Nat.lt_succ_self _) (Nat.le_refl _)

theorem Ready.slots_eq (h : a.Ready id m₀ v c m) (void : .void ∉ ts)
    (hk : k + width ts ≤ words v.world.classes id) : a.slots m k ts = a.slots m₀ k ts := by
  induction ts generalizing k with
  | nil => rfl
  | cons t ts ih =>
    have span : width (t :: ts) = t.words + width ts := List.sum_cons
    rw [List.mem_cons, not_or] at void
    rw [slots, slots, h.held_eq (Ne.symm void.1) (by omega), ih void.2 (by omega)]

/-! ## All that is handed over -/

/-- The address of a place with the receiver, or null for null, or with the object of the class. -/
def handle (a : NativeCall) (t : ClassTable) (id : MethodId) (m : Guarded) : UInt64 :=
  if (t.method id).access.isStatic then a.frame + Frame.referenceTemp else a.argument m 0 .object

/-- The arguments in the order of the format. -/
def handed (a : NativeCall) (t : ClassTable) (id : MethodId) (m : Guarded) : List UInt64 :=
  (a.thread + ThreadBlock.environment) :: a.handle t id m ::
    a.arguments m (receivers t id) (t.method id).descriptor.parameters

def handedSlots (a : NativeCall) (t : ClassTable) (id : MethodId) (m : Guarded) : Arguments.Slots :=
  (.word, a.thread + ThreadBlock.environment) :: (.word, a.handle t id m) ::
    a.slots m (receivers t id) (t.method id).descriptor.parameters

theorem handedSlots_kinds (a : NativeCall) (t : ClassTable) (id : MethodId) (m : Guarded) :
    (a.handedSlots t id m).map (·.1) =
      (CallFormat.ofMethod (t.method id).descriptor).arguments := by
  rw [handedSlots, List.map_cons, List.map_cons, slots_kinds, CallFormat.ofMethod]

theorem handedSlots_narrow (a : NativeCall) (t : ClassTable) (id : MethodId) (m : Guarded) :
    (a.handedSlots t id m).map (fun s => s.1.narrow s.2) = a.handed t id m := by
  rw [handedSlots, List.map_cons, List.map_cons, slots_narrow, handed]
  rfl

/-- The registers hold all that is handed over. -/
structure Prepared (a : NativeCall) (t : ClassTable) (id : MethodId) (m : Guarded) (c : Cpu) :
    Prop where
  words : Arguments.ofFile (a.handedSlots t id m) false <+: Register.arguments.map c.reg
  floats : Arguments.ofFile (a.handedSlots t id m) true <+: FloatRegister.all.map c.float

theorem Prepared.congr (h : a.Prepared t id m c)
    (same : ∀ r ∈ Register.arguments, c'.reg r = c.reg r) (floats : ∀ f, c'.float f = c.float f) :
    a.Prepared t id m c' where
  words := by
    rw [List.map_congr_left same]
    exact h.words
  floats := by
    rw [List.map_congr_left fun f _ => floats f]
    exact h.floats

/-- The host takes from the registers what is handed over. -/
theorem Prepared.passed (h : a.Prepared t id m c) :
    Arguments.passed (CallFormat.ofMethod (t.method id).descriptor)
        (Register.arguments.map c.reg) (FloatRegister.all.map c.float) =
      .filed (CallFormat.ofMethod (t.method id).descriptor).arguments (a.handed t id m) := by
  have passed := Arguments.passed_eq_filed (a.handedSlots t id m)
    (r := (CallFormat.ofMethod (t.method id).descriptor).result) h.words h.floats
  rw [handedSlots_kinds, handedSlots_narrow] at passed
  exact passed

/-- At the call the host is handed what is prepared. -/
theorem Prepared.hands {p : UInt64} (h : a.Prepared t id m₀ c) (present : target ≠ 0)
    (few : (t.method id).descriptor.parameters.length ≤ Signature.maxParameters)
    (fetch : v.image.code.Fetches p (.callNative .x10 .x16)) (function : c.reg .x10 = target)
    (format : c.reg .x16 = (CallFormat.ofMethod (t.method id).descriptor).pack.toUInt64) :
    (v.moved p c m).Hands target (.ofMethod (t.method id).descriptor) (a.handed t id m₀) := by
  have passed := h.passed
  rw [Cpu.floats_toList] at passed
  have six : (t.method id).descriptor.parameters.length ≤ 6 := few
  refine ⟨⟨v.moved (p + 4) c m, rfl, fun steps watched => ?_⟩, CallFormat.unpack_pack ?_, passed,
    fun host found b => ⟨if (CallFormat.ofMethod (t.method id).descriptor).pack ∈ b.formats then b
      else { b with
        formats := (CallFormat.ofMethod (t.method id).descriptor).pack :: b.formats }, ?_⟩⟩
  · have called := Vm.turn_callNative (c := c) (m := m) fetch steps watched
    rw [function, format, UInt32.toUInt32_toUInt64] at called
    exact called.imp_right fun ⟨steps', watched', _, same⟩ => ⟨steps', watched', same⟩
  · simp only [CallFormat.ofMethod, List.length_cons, List.length_map, Native.maxArguments]
    omega
  · rw [← passed]
    unfold Native.Bridge.invoke
    rw [if_neg present]
    simp only [found]
    rfl

/-- A handle is added in front of the parameters, and the environment in front of it. -/
theorem Marshalled.prepared (h : a.Marshalled t id m c) (handle : c'.reg .x1 = a.handle t id m)
    (environment : c'.reg .x0 = a.thread + ThreadBlock.environment)
    (same : ∀ r ∈ Register.arguments.drop 2, c'.reg r = c.reg r)
    (floats : ∀ f, c'.float f = c.float f) : a.Prepared t id m c' where
  words := by
    have registers : Register.arguments.map c'.reg =
        c'.reg .x0 :: c'.reg .x1 :: (Register.arguments.drop 2).map c.reg := by
      rw [← List.map_congr_left same]
      rfl
    rw [registers, handle, environment, handedSlots, Arguments.ofFile_cons, Arguments.ofFile_cons]
    exact List.cons_prefix_cons.mpr ⟨rfl, List.cons_prefix_cons.mpr ⟨rfl, h.words⟩⟩
  floats := by
    rw [List.map_congr_left fun f _ => floats f, handedSlots, Arguments.ofFile_cons,
      Arguments.ofFile_cons]
    exact h.floats

/-! ## Passing the arguments -/

/-- The test of a bit tells whether the flag is set. -/
theorem has_of_test (access : Access) {b : UInt32} {k : Nat} (power : b.toNat = 2 ^ k) :
    (access.bits.toUInt64 &&& b.toUInt64 == 0) = !access.has b := by
  have single : access.bits.toNat &&& 2 ^ k = (access.bits.toNat.testBit k).toNat * 2 ^ k :=
    Nat.and_two_pow _ k
  have positive : 0 ≠ 2 ^ k := Nat.ne_of_lt (Nat.two_pow_pos k)
  have wide : access.bits.toUInt64 &&& b.toUInt64 = 0 ↔ access.bits.toNat.testBit k = false := by
    rw [← UInt64.toNat_inj, UInt64.toNat_and, UInt32.toNat_toUInt64, UInt32.toNat_toUInt64, power,
      single]
    cases access.bits.toNat.testBit k <;> simp
  have narrow : access.bits &&& b = b ↔ access.bits.toNat.testBit k = true := by
    rw [← UInt32.toNat_inj, UInt32.toNat_and, power, single]
    cases access.bits.toNat.testBit k <;> simp [positive]
  unfold Access.has
  cases set : access.bits.toNat.testBit k <;> simp_all

namespace Ready

/-- A word of a record below the method. -/
theorem recordField (h : a.Ready id m₀ v c m) {p k : UInt64} (low : 0x1000 ≤ p.toNat)
    (high : p.toNat + k.toNat + 8 ≤ a.method.toNat) :
    (p + k).toNat = p.toNat + k.toNat ∧ m.Open (p + k) 8 := by
  have f := h.fits
  have method := f.method
  have thread := f.thread
  have parameters := f.parameters
  have locals := f.locals
  have eight : (8 : UInt64).toNat = 8 := rfl
  have address : (p + k).toNat = p.toNat + k.toNat := toNat_add_of_lt (by omega)
  exact ⟨address, f.clear.open (by omega) (by omega)⟩

section
variable {P : Vm → Prop} {turns : Nat} {q q' : UInt64} {place : CodeLabel → UInt64}
  {ctx : CodeContext} {inStub : Bool} {K S : List CodeLabel} {r : Register}

/-- A word of a record is loaded, by way of the register that it is loaded into. -/
theorem runRecordLoad (h : a.Ready id m₀ v c m) {p k x : UInt64} (low : 0x1000 ≤ p.toNat)
    (high : p.toNat + k.toNat + 8 ≤ a.method.toNat)
    (i : v.image.code.Fetches q (.load r (.base r k) .double false)) (base : c.reg r = p)
    (holds : load m.bytes (p.toNat + k.toNat) 8 = x)
    (next : Vm.Arrives P turns (v.moved (q + 4) (c.setReg r x) m)) :
    Vm.Arrives P (turns + 1) (v.moved q c m) := by
  obtain ⟨address, ok⟩ := h.recordField low high
  exact .loadAt base i address ok holds next

/-- The object of the class is found by way of the records. -/
theorem runLoadClassObject (h : a.Ready id m₀ v c m) (free : IsFree r)
    (lay : Lays ⟨v.image.code, place⟩ ctx inStub K S (Emit.loadClassObject r) q q' ())
    (next : ∀ c', c'.reg r =
        (v.world.classes.get (v.world.classes.method id).holder).classObject →
      (∀ s, s ≠ r → c'.reg s = c.reg s) → (∀ f, c'.float f = c.float f) →
      Vm.Arrives P turns (v.moved q' c' m)) : Vm.Arrives P (turns + 4) (v.moved q c m) := by
  unfold Emit.loadClassObject at lay
  obtain ⟨i₁, lay⟩ := lay.emit_bind
  obtain ⟨i₂, lay⟩ := lay.emit_bind
  obtain ⟨i₃, lay⟩ := lay.emit_bind
  obtain ⟨i₄, rfl⟩ := lay.emit
  have f := h.fits
  have recorded := h.recorded
  have zero : (0 : UInt64).toNat = 0 := rfl
  have eight : (8 : UInt64).toNat = 8 := rfl
  have constMethod := f.constMethod
  have pool := f.pool
  have holder := f.holder
  have self (x : UInt64) (c : Cpu) : (c.setReg r x).reg r = x :=
    Cpu.reg_setReg_self _ _ free.ne_zero
  have ready (x : UInt64) {c : Cpu} (h : a.Ready id m₀ v c m) : a.Ready id m₀ v (c.setReg r x) m :=
    h.setReg r x fun hr => free (List.mem_append_left _ hr)
  refine h.runMethodLoad i₁ (by decide) recorded.constMethod ?_
  refine (ready _ h).runRecordLoad constMethod.1 (k := 0) (by omega) i₂ (self _ _)
    recorded.constants ?_
  refine (ready _ (ready _ h)).runRecordLoad pool.1 (k := 0) (by omega) i₃ (self _ _)
    recorded.holder ?_
  refine (ready _ (ready _ (ready _ h))).runRecordLoad holder.1 (k := 8) (by omega) i₄ (self _ _)
    recorded.mirror ?_
  refine next _ (self _ _) (fun s hs => ?_) fun f => ?_
  · rw [Cpu.reg_setReg_ne _ _ hs, Cpu.reg_setReg_ne _ _ hs, Cpu.reg_setReg_ne _ _ hs,
      Cpu.reg_setReg_ne _ _ hs]
  · simp

theorem marshalled_eq (h : a.Ready id m₀ v c m)
    (void : .void ∉ (v.world.classes.method id).descriptor.parameters)
    (marshalled : a.Marshalled v.world.classes id m c') :
    a.Marshalled v.world.classes id m₀ c' := by
  have span : receivers v.world.classes id +
      width (v.world.classes.method id).descriptor.parameters ≤ words v.world.classes id := by
    rw [words, parameterWords_eq]
  have slots := h.slots_eq void span
  refine ⟨fun instanced => ?_, slots ▸ marshalled.words, slots ▸ marshalled.floats⟩
  have receiver : 0 + TypeTag.object.words ≤ words v.world.classes id := by
    rw [words, receivers, instanced]
    exact Nat.le_add_right ..
  exact (marshalled.receiver instanced).trans (h.held_eq (t := .object) (by decide) receiver)

/-- The handle is that of the receiver, or that of the object of the class, which is put into the
    frame. -/
theorem runHandle {q₁ : UInt64} (h : a.Ready id m₀ v c m)
    (known : a.Linked v.world.classes id v.image target m)
    (receiver : (v.world.classes.method id).access.isStatic = false →
      c.reg .x1 = a.argument m₀ 0 .object)
    (i₁ : v.image.code.Fetches q
      (.load .scratch1 (.base .method MethodRecord.accessFlags) .word false))
    (i₂ : v.image.code.Fetches (q + 4) (.test .scratch1 (.imm Access.staticBit.toUInt64)))
    (i₃ : v.image.code.Fetches (q + 4 + 4) (.branchIf .eq (q₁ + 4 + 4)))
    (object : Lays ⟨v.image.code, place⟩ ctx inStub K S (Emit.loadClassObject .x1) (q + 4 + 4 + 4)
      q₁ ())
    (i₄ : v.image.code.Fetches q₁ (.store .x1 (.base .frame Frame.referenceTemp) .double))
    (i₅ : v.image.code.Fetches (q₁ + 4) (.binary .add .x1 .frame (.imm Frame.referenceTemp)))
    (next : ∀ c' m', a.Ready id m₀ v c' m' → a.Linked v.world.classes id v.image target m' →
      c'.reg .x1 = a.handle v.world.classes id m₀ →
      (∀ r, r ≠ .x1 → r ≠ .scratch1 → c'.reg r = c.reg r) → (∀ f, c'.float f = c.float f) →
      ((v.world.classes.method id).access.isStatic = true → load m'.bytes (a.frame.toNat + 24) 8 =
        (v.world.classes.get (v.world.classes.method id).holder).classObject) →
      Vm.Arrives P turns (v.moved (q₁ + 4 + 4) c' m')) :
    Vm.Arrives P (turns + 9) (v.moved q c m) := by
  have ready := h.setReg .scratch1 (v.world.classes.method id).access.bits.toUInt64 (by decide)
  have tested : Condition.eq.holds (Flags.ofTest
      ((v.world.classes.method id).access.bits.toUInt64 &&& Access.staticBit.toUInt64)) =
        !(v.world.classes.method id).access.isStatic := has_of_test _ (k := 3) rfl
  refine h.runMethodLoad i₁ (by decide) h.recorded.flags (.test i₂ ?_)
  rw [Cpu.reg_setReg_self _ _ (by decide)]
  refine .branchIf i₃ (fun (eq : Condition.eq.holds (Flags.ofTest _) = true) => ?_)
    fun (ne : Condition.eq.holds (Flags.ofTest _) = false) => ?_
  · have instanced : (v.world.classes.method id).access.isStatic = false := by
      rw [← Bool.not_eq_true', ← tested]
      exact eq
    refine (next _ m (ready.setFlags _) known ?_ (fun r _ other => ?_) (fun f => ?_)
      (fun static => by rw [instanced] at static; cases static)).le (by omega)
    · rw [Cpu.reg_setFlags, Cpu.reg_setReg_ne _ _ (by decide), receiver instanced, handle,
        if_neg (by simp [instanced])]
    · rw [Cpu.reg_setFlags, Cpu.reg_setReg_ne _ _ other]
    · simp
  · have static : (v.world.classes.method id).access.isStatic = true := by
      rw [← Bool.not_eq_false', ← tested]
      exact ne
    refine (ready.setFlags _).runLoadClassObject (show IsFree .x1 by decide) object
      fun c₂ mirror same₂ floats₂ => ?_
    have ready : a.Ready id m₀ v c₂ m :=
      (ready.setFlags _).congr fun r hr => same₂ r (by revert r; decide)
    obtain ⟨address, ok⟩ := ready.temp
    have eight : (8 : UInt64).toNat = 8 := rfl
    have method := ready.fits.method
    have thread := ready.fits.thread
    have changed := Guarded.changed_put m (a.frame + Frame.referenceTemp) 8 (c₂.reg .x1)
    have stored := ready.changed changed (by unfold Spare; omega)
    refine .storeAt ready.registers.frame i₄ ok (.binary i₅ ?_)
    rw [ready.registers.frame]
    refine next _ _ (stored.setReg .x1 _ (by decide)) (known.changed changed (.inr (by omega))) ?_
      (fun r h₁ h₂ => ?_) (fun f => ?_) fun _ => ?_
    · rw [Cpu.reg_setReg_self _ _ (by decide), handle, if_pos static]
      rfl
    · rw [Cpu.reg_setReg_ne _ _ h₁, same₂ r h₁, Cpu.reg_setFlags, Cpu.reg_setReg_ne _ _ h₂]
    · rw [Cpu.float_setReg, floats₂]
      simp
    · rw [← mirror, ← address]
      exact Guarded.load_put ok

/-- The handler and the entry put everything that is handed over into registers. -/
theorem runPassArguments {s : Settings} (h : a.Ready id m₀ v c m)
    (known : a.Linked v.world.classes id v.image target m) (extended : Image.Extended s v.image)
    (void : .void ∉ (v.world.classes.method id).descriptor.parameters)
    (few : (v.world.classes.method id).descriptor.parameters.length ≤ Signature.maxParameters)
    (lay : Lays ⟨v.image.code, place⟩ ctx inStub K S passNativeArguments q q' ())
    (next : ∀ c' m', a.Ready id m₀ v c' m' → a.Linked v.world.classes id v.image target m' →
      a.Prepared v.world.classes id m₀ c' → c'.reg .x10 = c.reg .x10 →
      ((v.world.classes.method id).access.isStatic = true → load m'.bytes (a.frame.toNat + 24) 8 =
        (v.world.classes.get (v.world.classes.method id).holder).classObject) →
      Vm.Arrives P turns (v.moved q' c' m')) : Vm.Arrives P (turns + 43) (v.moved q c m) := by
  unfold passNativeArguments at lay
  obtain ⟨i₁, lay⟩ := lay.emit_bind
  obtain ⟨i₂, lay⟩ := lay.emit_bind
  obtain ⟨i₃, lay⟩ := lay.emit_bind
  obtain ⟨instanced, lay⟩ := lay.newLabel_bind
  obtain ⟨i₄, lay⟩ := lay.emit_bind
  obtain ⟨i₅, lay⟩ := lay.emit_bind
  obtain ⟨i₆, lay⟩ := lay.emitTo_bind
  obtain ⟨⟨⟩, q₁, object, lay⟩ := lay.split
  obtain ⟨i₇, lay⟩ := lay.emit_bind
  obtain ⟨i₈, lay⟩ := lay.emit_bind
  obtain ⟨here, lay⟩ := lay.bind_bind
  obtain ⟨i₉, rfl⟩ := lay.emit
  rw [here] at i₆
  obtain ⟨⟨place', stop, result, code⟩, -⟩ := extended.handlers _ known.handler
  refine h.runMethodLoad i₁ (by decide) rfl (.callTo i₂ ?_)
  rw [Cpu.reg_setReg_self _ _ (by decide)]
  have called := (h.setReg .scratch1 (load m.bytes (a.method.toNat + 32) 8) (by decide)).setReg
    .link (q + 4 + 4) (by decide)
  refine called.runHandler void few code fun c₁ marshalled same₁ => ?_
  rw [Cpu.reg_setReg_self _ _ (by decide)]
  replace marshalled := called.marshalled_eq void marshalled
  have kept {r : Register} (hr : r ∉ Register.arguments ++ [.scratch1, .scratch2, .link]) :
      c₁.reg r = c.reg r := by
    simp only [List.mem_append, List.mem_cons, List.not_mem_nil, or_false, not_or] at hr
    rw [same₁ r hr.1 hr.2.1 hr.2.2.1, Cpu.reg_setReg_ne _ _ hr.2.2.2, Cpu.reg_setReg_ne _ _ hr.2.1]
  have back : a.Ready id m₀ v c₁ m := h.congr fun r hr => kept (by revert r; decide)
  refine .mov i₃ ((back.setReg .x19 (c₁.reg .x0) (by decide)).runHandle known (fun instanced => ?_)
    i₄ i₅ i₆ object i₇ i₈ fun c₂ m₂ ready linked handle same₂ floats mirror => ?_)
  · rw [Cpu.reg_setReg_ne _ _ (by decide), marshalled.receiver instanced]
  have same {r : Register} (h₁ : r ≠ .x1) (h₁₉ : r ≠ .x19) (scratch : r ≠ .scratch1) :
      c₂.reg r = c₁.reg r := by rw [same₂ r h₁ scratch, Cpu.reg_setReg_ne _ _ h₁₉]
  refine .binary i₉ (next _ m₂ (ready.setReg .x0 _ (by decide)) linked ?_ ?_ mirror)
  · refine marshalled.prepared ?_ ?_ (fun r hr => ?_) fun f => ?_
    · rw [Cpu.reg_setReg_ne _ _ (by decide), handle]
    · rw [Cpu.reg_setReg_self _ _ (by decide), ready.registers.thread]
      rfl
    · rw [Cpu.reg_setReg_ne _ _ (by revert r; decide), same (by revert r; decide)
        (by revert r; decide) (by revert r; decide)]
    · rw [Cpu.float_setReg, floats, Cpu.float_setReg]
  · rw [Cpu.reg_setReg_ne _ _ (by decide), same (by decide) (by decide) (by decide),
      kept (by decide)]

/-- The entry leaves the machine with the registers as they are prepared. -/
theorem runLeave (h : a.Ready id m₀ v c m)
    (known : a.Linked v.world.classes id v.image target m)
    (prepared : a.Prepared v.world.classes id m₀ c) (function : c.reg .x10 = target)
    (few : (v.world.classes.method id).descriptor.parameters.length ≤ Signature.maxParameters)
    (lay : Lays ⟨v.image.code, place⟩ ctx inStub K S leaveMachine q q' ())
    (next : ∀ p c' m', a.Ready id m₀ v c' m' →
      m.Changed m' (a.thread.toNat + 16) (a.thread.toNat + 44) → (v.moved p c' m').Hands target
        (.ofMethod (v.world.classes.method id).descriptor) (a.handed v.world.classes id m₀) →
      P (v.moved p c' m')) :
    Vm.Arrives P 9 (v.moved q c m) := by
  unfold leaveMachine setThreadState at lay
  obtain ⟨i₁, lay⟩ := lay.emit_bind
  obtain ⟨i₂, lay⟩ := lay.emit_bind
  obtain ⟨resume, lay⟩ := lay.newLabel_bind
  obtain ⟨⟨⟩, q₁, shown, lay⟩ := lay.split
  obtain ⟨⟨⟩, q₂, state, lay⟩ := lay.split
  obtain ⟨i₅, lay⟩ := lay.emit_bind
  obtain ⟨i₆, -⟩ := lay.emit_bind
  obtain ⟨i₃, state⟩ := state.emit_bind
  obtain ⟨i₄, rfl⟩ := state.emit
  refine .binary i₁ (.binary i₂ ?_)
  refine ((h.setReg .scratch1 _ (by decide)).setReg .sp _ (by decide)).runSetLastFrame shown
    fun c₁ m₁ h₁ same₁ floats₁ changed₁ _ _ => .movImm i₃ ?_
  refine (h₁.setReg .scratch1 _ (by decide)).runThreadStore i₄ (by decide)
    fun m₂ h₂ changed₂ _ => ?_
  have sixteen : ThreadBlock.threadState.toNat = 40 := rfl
  have four : Width.word.bytes.toNat = 4 := rfl
  have changed : m.Changed m₂ (a.thread.toNat + 16) (a.thread.toNat + 44) :=
    (changed₁.mono (by omega) (by omega)).trans (changed₂.mono (by omega) (by omega))
  have known := known.changed changed (.inr (by have := h.fits.method; omega))
  have kept {r : Register} (hr : r ∉ [Register.scratch1, .sp, .x16]) (x y : UInt64) :
      ((c₁.setReg .scratch1 x).setReg .x16 y).reg r = c.reg r := by
    simp only [List.mem_cons, List.not_mem_nil, or_false, not_or] at hr
    rw [Cpu.reg_setReg_ne _ _ hr.2.2, Cpu.reg_setReg_ne _ _ hr.1, same₁ r hr.1,
      Cpu.reg_setReg_ne _ _ hr.2.1, Cpu.reg_setReg_ne _ _ hr.1]
  refine h₂.runMethodLoad i₅ (by decide) known.format
    (.here (next _ _ m₂ (h₂.setReg .x16 _ (by decide)) changed ?_))
  refine Prepared.hands (prepared.congr (fun r hr => kept (by revert r; decide) _ _) fun f => ?_)
    known.present few i₆ ((kept (by decide) _ _).trans function)
    (Cpu.reg_setReg_self _ _ (by decide))
  rw [Cpu.float_setReg, Cpu.float_setReg, floats₁, Cpu.float_setReg, Cpu.float_setReg]

end
end Ready

/-! ## The call -/

/-- The next turn hands the arguments of a native method to its function. The parameters are in
    their variables still, and a static method has the object of its class in its frame. -/
structure Calls (a : NativeCall) (t : ClassTable) (id : MethodId) (target : UInt64) (m₀ : Guarded)
    (w : Vm) : Prop where
  hands : w.Hands target (.ofMethod (t.method id).descriptor) (a.handed t id m₀)
  parameters : m₀.Agrees w.world.store.mem (a.frame.toNat + 32) (a.locals.toNat + 8)
  mirror : (t.method id).access.isStatic = true →
    load w.world.store.mem.bytes (a.frame.toNat + 24) 8 =
      (t.get (t.method id).holder).classObject

/-- Moreover the record has the function, with the handler for its parameters. -/
structure Invokes (a : NativeCall) (t : ClassTable) (id : MethodId) (target : UInt64)
    (m₀ : Guarded) (w : Vm) : Prop extends a.Calls t id target m₀ w where
  linked : a.Linked t id w.image target w.world.store.mem

theorem Calls.counted {w : Vm} (h : a.Calls t id target m₀ w) (steps : UInt64)
    (watched : List (UInt64 × UInt64)) : a.Calls t id target m₀ (w.counted steps watched) :=
  { h with hands := { h.hands with turn := h.hands.turn } }

theorem Invokes.counted {w : Vm} (h : a.Invokes t id target m₀ w) (steps : UInt64)
    (watched : List (UInt64 × UInt64)) : a.Invokes t id target m₀ (w.counted steps watched) :=
  ⟨h.toCalls.counted steps watched, h.linked⟩

end NativeCall
end TemplateVm
