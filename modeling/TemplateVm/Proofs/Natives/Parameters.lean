import TemplateVm.Proofs.Natives.Frames

set_option autoImplicit false
set_option synthInstance.maxSize 100000

/-!
# Passing parameters

A signature handler finds every parameter in its local variables and leaves it in the next register
of its file: what the host is to get, up to the high half of a register that the format leaves out.
-/
namespace TemplateVm

open Memory (Guarded load)
open Native (ArgumentKind Arguments)
open Emit

namespace NativeCall

variable {a : NativeCall} {id : MethodId} {m₀ m : Guarded} {v w : Vm} {c : Cpu} {k : Nat}

/-! ## What the host is to get -/

/-- The address of a local variable. -/
def slot (a : NativeCall) (k : Nat) : UInt64 := a.locals - 8 * k.toUInt64

/-- The argument for the parameter of a type at a local variable: the low half of the word of an
    `int` or anything narrower and of a `float`, the lower of two words, and for a reference the
    address of its variable, or null. -/
def argument (a : NativeCall) (m : Guarded) (k : Nat) : TypeTag → UInt64
  | .long | .double => load m.bytes (a.slot (k + 1)).toNat 8
  | .object | .array => if load m.bytes (a.slot k).toNat 8 = 0 then 0 else a.slot k
  | _ => load m.bytes (a.slot k).toNat 4

/-- The arguments for parameters from a local variable on, in the order of their declaration. -/
def arguments (a : NativeCall) (m : Guarded) (k : Nat) : List TypeTag → List UInt64
  | [] => []
  | t :: ts => a.argument m k t :: a.arguments m (k + t.words) ts

/-! ## What the registers hold -/

/-- The register of a parameter. -/
def held (a : NativeCall) (m : Guarded) (k : Nat) (t : TypeTag) : UInt64 :=
  match t with
  | .boolean | .char | .byte | .short | .int | .void => load m.bytes (a.slot k).toNat 8
  | t => a.argument m k t

def slots (a : NativeCall) (m : Guarded) (k : Nat) : List TypeTag → Arguments.Slots
  | [] => []
  | t :: ts => (.ofType t, a.held m k t) :: a.slots m (k + t.words) ts

theorem narrow_held (a : NativeCall) (m : Guarded) (k : Nat) (t : TypeTag) :
    (ArgumentKind.ofType t).narrow (a.held m k t) = a.argument m k t := by
  have low (j : Nat) : (load m.bytes j 8).toUInt32.toUInt64 = load m.bytes j 4 :=
    (Memory.load_word_of_double _ _).symm
  have half (j : Nat) : (load m.bytes j 4).toUInt32.toUInt64 = load m.bytes j 4 := by
    rw [Memory.load_word_of_double, UInt32.toUInt32_toUInt64]
  cases t with
  | boolean | char | byte | short | int | void => exact low _
  | float => exact half _
  | long | double | object | array => rfl

theorem slots_narrow (a : NativeCall) (m : Guarded) (k : Nat) (ts : List TypeTag) :
    (a.slots m k ts).map (fun s => s.1.narrow s.2) = a.arguments m k ts := by
  induction ts generalizing k with
  | nil => rfl
  | cons t ts ih => rw [slots, List.map_cons, narrow_held, ih, arguments]

theorem slots_kinds (a : NativeCall) (m : Guarded) (k : Nat) (ts : List TypeTag) :
    (a.slots m k ts).map (·.1) = ts.map ArgumentKind.ofType := by
  induction ts generalizing k with
  | nil => rfl
  | cons t ts ih => rw [slots, List.map_cons, ih, List.map_cons]

/-- Arrays are passed as objects are. -/
theorem slots_shape (a : NativeCall) (m : Guarded) (k : Nat) (ts : List TypeTag) :
    a.slots m k (ts.map Signature.shape) = a.slots m k ts := by
  induction ts generalizing k with
  | nil => rfl
  | cons t ts ih =>
    have words : (Signature.shape t).words = t.words := by cases t <;> rfl
    have same : (ArgumentKind.ofType (Signature.shape t), a.held m k (Signature.shape t)) =
        (ArgumentKind.ofType t, a.held m k t) := by cases t <;> rfl
    rw [List.map_cons, slots, slots, words, ih, same]

theorem slots_length (a : NativeCall) (m : Guarded) (k : Nat) (ts : List TypeTag) :
    (a.slots m k ts).length = ts.length := by
  rw [← List.length_map (f := (·.1)), slots_kinds, List.length_map]

/-! ## Local variables -/

/-- Words of the types. -/
def width (ts : List TypeTag) : Nat := (ts.map TypeTag.words).sum

theorem width_shape (ts : List TypeTag) : width (ts.map Signature.shape) = width ts := by
  unfold width
  rw [List.map_map]
  congr 2
  funext t
  cases t <;> rfl

theorem parameterWords_eq (d : MethodDescriptor) : d.parameterWords = width d.parameters := by
  unfold MethodDescriptor.parameterWords width
  rw [List.sum_eq_foldl, List.foldl_map]

namespace Ready

/-- A variable lies above the frame. -/
theorem slot (h : a.Ready id m₀ v c m) (hk : k < words v.world.classes id) :
    (a.slot k).toNat = a.locals.toNat - 8 * k ∧ a.frame.toNat + 32 ≤ (a.slot k).toNat ∧
      (a.slot k).toNat + 8 ≤ a.locals.toNat + 8 := by
  have parameters := h.fits.parameters
  have locals := h.fits.locals
  have index : k.toUInt64.toNat = k := UInt64.toNat_ofNat_of_lt' (by change k < 2 ^ 64; omega)
  have eight : (8 : UInt64).toNat = 8 := rfl
  have offset : (8 * k.toUInt64).toNat = 8 * k := by
    rw [UInt64.toNat_mul, index, eight]
    exact Nat.mod_eq_of_lt (by omega)
  have address : (a.slot k).toNat = a.locals.toNat - 8 * k := by
    rw [NativeCall.slot, UInt64.toNat_sub_of_le _ _
      (UInt64.le_iff_toNat_le.mpr (by rw [offset]; omega)), offset]
  refine ⟨address, ?_, ?_⟩ <;> omega

theorem openSlot (h : a.Ready id m₀ v c m) (hk : k < words v.world.classes id) {n : UInt64}
    (hn : n.toNat ≤ 8) : m.Open (a.slot k) n := by
  obtain ⟨-, low, high⟩ := h.slot hk
  exact h.fits.clearStack.open (by omega) (by omega)

end Ready

theorem slot_target (a : NativeCall) (k : Nat) : a.locals + (0 - k.toUInt64 * 8) = a.slot k := by
  rw [slot, UInt64.sub_eq_add_neg a.locals, UInt64.zero_sub, UInt64.mul_comm]

theorem slot_next (a : NativeCall) (k : Nat) :
    a.locals + (0 - (k.toUInt64 + 1) * 8) = a.slot (k + 1) := by
  rw [← slot_target]
  congr 3
  exact (UInt64.ofNat_add k 1).symm

/-! ## Instructions -/

/-- Registers that a handler leaves parameters in. -/
def IsFree (r : Register) : Prop :=
  r ∉ [Register.thread, .frame, .locals, .method, .scratch1, .scratch2, .link, .zero]

instance (r : Register) : Decidable (IsFree r) := inferInstanceAs (Decidable (r ∉ _))

theorem IsFree.ne {r s : Register} (h : IsFree r)
    (hs : s ∈ [Register.thread, .frame, .locals, .method, .scratch1, .scratch2, .link, .zero]) :
    s ≠ r := fun e => h (e ▸ hs)

theorem IsFree.ne_zero {r : Register} (h : IsFree r) : r ≠ .zero := (h.ne (by simp)).symm

/-- A parameter may be put into a free register, and the scratch registers may be used for it. -/
theorem Ready.passed {r : Register} {c' : Cpu} (h : a.Ready id m₀ v c m) (free : IsFree r)
    (others : ∀ s, s ≠ r → s ≠ .scratch1 → s ≠ .scratch2 → c'.reg s = c.reg s) :
    a.Ready id m₀ v c' m :=
  h.congr fun s hs => others s (free.ne (List.mem_append_left _ hs))
    (fun e => by subst e; revert hs; decide) fun e => by subst e; revert hs; decide

section
variable {P : Vm → Prop} {turns : Nat} {q q' : UInt64} {place : CodeLabel → UInt64}
  {ctx : CodeContext} {inStub : Bool} {K S : List CodeLabel} {r : Register}

/-- A reference is passed by the address of its variable. -/
theorem Ready.runPassObject (h : a.Ready id m₀ v c m) (hk : k < words v.world.classes id)
    (free : IsFree r)
    (lay : Lays ⟨w.image.code, place⟩ ctx inStub K S (Signature.passObject k.toUInt64 r) q q' ())
    (next : ∀ c', c'.reg r = a.argument m k .object →
      (∀ s, s ≠ r → s ≠ .scratch1 → s ≠ .scratch2 → c'.reg s = c.reg s) →
      (∀ f, c'.float f = c.float f) → Vm.Arrives P turns (w.moved q' c' m)) :
    Vm.Arrives P (turns + 4) (w.moved q c m) := by
  unfold Signature.passObject at lay
  obtain ⟨i₁, lay⟩ := lay.emit_bind
  obtain ⟨i₂, lay⟩ := lay.emit_bind
  obtain ⟨i₃, lay⟩ := lay.emit_bind
  obtain ⟨i₄, rfl⟩ := lay.emit
  have address : Binary.apply (c.reg .locals) (c.operand (.imm (k.toUInt64 * 8))) .sub =
      a.slot k := by
    change c.reg .locals - k.toUInt64 * 8 = _
    rw [h.registers.locals, NativeCall.slot, UInt64.mul_comm]
  have first : (c.setReg .scratch1 (a.slot k)).target (.base .scratch1 0) = a.slot k := by
    rw [Cpu.target_base, Cpu.reg_setReg_self _ _ (by decide), UInt64.add_zero]
  refine .binary i₁ ?_
  rw [address]
  refine .load i₂ (by rw [first]; exact h.openSlot hk (by decide)) ?_
  rw [first, Cpu.rebase_base]
  have width : Width.double.bytes.toNat = 8 := rfl
  have passed : a.argument m k .object = if load m.bytes (a.slot k).toNat 8 = 0 then 0
    else a.slot k := rfl
  rw [width]
  rw [passed] at next
  generalize load m.bytes (a.slot k).toNat 8 = x at next
  have scratch : ((c.setReg .scratch1 (a.slot k)).setReg .scratch2 x).reg .scratch2 = x :=
    Cpu.reg_setReg_self _ _ (by decide)
  refine .compare i₃ ?_
  rw [scratch]
  refine .select i₄ (next _ ?_ (fun s hr h₁ h₂ => ?_) fun f => ?_)
  · rw [Cpu.reg_setReg_self _ _ free.ne_zero, Cpu.flags_setFlags, Cpu.reg_setFlags,
      Cpu.reg_setFlags, Cpu.reg_zero, Cpu.reg_setReg_ne _ _ (by decide),
      Cpu.reg_setReg_self _ _ (by decide)]
    change (if Condition.ne.holds (Flags.ofCompare x 0) = true then _ else _) = _
    rw [Condition.holds_ne]
    by_cases null : x = 0 <;> simp [null]
  · rw [Cpu.reg_setReg_ne _ _ hr, Cpu.reg_setFlags, Cpu.reg_setReg_ne _ _ h₂,
      Cpu.reg_setReg_ne _ _ h₁]
  · simp

/-- A word of the variables is loaded. -/
theorem Ready.runSlotLoad (h : a.Ready id m₀ v c m) (hk : k < words v.world.classes id)
    {e : UInt64} (target : a.locals + e = a.slot k)
    (i : w.image.code.Fetches q (.load r (.base .locals e) .double false))
    (next : Vm.Arrives P turns (w.moved (q + 4) (c.setReg r (load m.bytes (a.slot k).toNat 8)) m)) :
    Vm.Arrives P (turns + 1) (w.moved q c m) := by
  have address : c.target (.base .locals e) = a.slot k := by
    rw [Cpu.target_base, h.registers.locals, target]
  refine .load i (by rw [address]; exact h.openSlot hk (by decide)) ?_
  rw [address]
  exact next

theorem Ready.runSlotLoadFloat (h : a.Ready id m₀ v c m) (hk : k < words v.world.classes id)
    {e : UInt64} {f : FloatRegister} {n : Precision} (target : a.locals + e = a.slot k)
    (i : w.image.code.Fetches q (.loadFloat f (.base .locals e) n))
    (next : Vm.Arrives P turns (w.moved (q + 4)
      (c.setFloat f (load m.bytes (a.slot k).toNat n.bytes.toNat)) m)) :
    Vm.Arrives P (turns + 1) (w.moved q c m) := by
  have address : c.target (.base .locals e) = a.slot k := by
    rw [Cpu.target_base, h.registers.locals, target]
  have bytes : n.bytes.toNat ≤ 8 := by cases n <;> decide
  refine .loadFloat i (by rw [address]; exact h.openSlot hk bytes) ?_
  rw [address]
  exact next

/-- What the code for parameters leaves in the registers. -/
structure Passed (ws : List Register) (fs : List FloatRegister) (slots : Arguments.Slots)
    (c c' : Cpu) : Prop where
  words : Arguments.ofFile slots false <+: ws.map c'.reg
  floats : Arguments.ofFile slots true <+: fs.map c'.float
  others : ∀ r, r ∉ ws → r ≠ .scratch1 → r ≠ .scratch2 → c'.reg r = c.reg r
  otherFloats : ∀ f, f ∉ fs → c'.float f = c.float f

namespace Passed

variable {ws : List Register} {fs : List FloatRegister} {slots : Arguments.Slots} {c₁ c' : Cpu}
  {kind : ArgumentKind}

/-- A parameter in a register of its own, before those in the registers that are left. -/
theorem word (rest : Passed ws fs slots c₁ c') (floating : kind.isFloating = false)
    (free : IsFree r)
    (fresh : r ∉ ws) (others : ∀ s, s ≠ r → s ≠ .scratch1 → s ≠ .scratch2 → c₁.reg s = c.reg s)
    (floats : ∀ f, c₁.float f = c.float f) :
    Passed (r :: ws) fs ((kind, c₁.reg r) :: slots) c c' where
  words := by
    have kept : c'.reg r = c₁.reg r :=
      rest.others r fresh (free.ne (by simp)).symm (free.ne (by simp)).symm
    rw [Arguments.ofFile_cons, if_pos floating, List.map_cons, kept]
    exact List.cons_prefix_cons.mpr ⟨rfl, rest.words⟩
  floats := by
    rw [Arguments.ofFile_cons, if_neg (by simp [floating])]
    exact rest.floats
  others s hs h₁ h₂ := by
    rw [List.mem_cons, not_or] at hs
    exact (rest.others s hs.2 h₁ h₂).trans (others s hs.1 h₁ h₂)
  otherFloats f hf := (rest.otherFloats f hf).trans (floats f)

theorem float {f : FloatRegister} (rest : Passed ws fs slots c₁ c')
    (floating : kind.isFloating = true) (fresh : f ∉ fs) (others : ∀ s, c₁.reg s = c.reg s)
    (floats : ∀ g, g ≠ f → c₁.float g = c.float g) :
    Passed ws (f :: fs) ((kind, c₁.float f) :: slots) c c' where
  words := by
    rw [Arguments.ofFile_cons, if_neg (by simp [floating])]
    exact rest.words
  floats := by
    rw [Arguments.ofFile_cons, if_pos floating, List.map_cons, rest.otherFloats f fresh]
    exact List.cons_prefix_cons.mpr ⟨rfl, rest.floats⟩
  others s hs h₁ h₂ := (rest.others s hs h₁ h₂).trans (others s)
  otherFloats g hg := by
    rw [List.mem_cons, not_or] at hg
    exact (rest.otherFloats g hg.2).trans (floats g hg.1)

end Passed

/-- The parameters from a variable on go into the registers that are left. -/
theorem Ready.runParameters {ts : List TypeTag} {ws : List Register} {fs : List FloatRegister}
    (h : a.Ready id m₀ v c m) (hk : k + width ts ≤ words v.world.classes id)
    (void : .void ∉ ts) (free : ∀ r ∈ ws, IsFree r) (nodup : ws.Nodup) (nodup' : fs.Nodup)
    (enough : (Arguments.ofFile (a.slots m k ts) false).length ≤ ws.length)
    (enough' : (Arguments.ofFile (a.slots m k ts) true).length ≤ fs.length)
    (lay : Lays ⟨w.image.code, place⟩ ctx inStub K S
      (Signature.passParameters k.toUInt64 ws fs ts) q q' ())
    (next : ∀ c', Passed ws fs (a.slots m k ts) c c' → Vm.Arrives P turns (w.moved q' c' m)) :
    Vm.Arrives P (turns + 4 * ts.length) (w.moved q c m) := by
  induction ts generalizing k ws fs c q with
  | nil =>
    obtain ⟨rfl, -⟩ := lay.ended
    exact next c ⟨List.nil_prefix, List.nil_prefix, fun _ _ _ _ => rfl, fun _ _ => rfl⟩
  | cons t ts ih =>
    have index : k.toUInt64 + t.words.toUInt64 = (k + t.words).toUInt64 :=
      (UInt64.ofNat_add k t.words).symm
    have span : width (t :: ts) = t.words + width ts := List.sum_cons
    have turned : 4 * (t :: ts).length = 4 * ts.length + 4 := rfl
    rw [List.mem_cons, not_or] at void
    simp only [slots, Arguments.ofFile_cons] at enough enough' next
    -- the parameter has been passed in a register of its file, and the others follow
    have word {r : Register} {ws' : List Register} (hw : ws = r :: ws') {c₁ : Cpu} {q₁ : UInt64}
        (floating : (ArgumentKind.ofType t).isFloating = false)
        (value : c₁.reg r = a.held m k t)
        (others : ∀ s, s ≠ r → s ≠ .scratch1 → s ≠ .scratch2 → c₁.reg s = c.reg s)
        (floats : ∀ f, c₁.float f = c.float f)
        (rest : Lays ⟨w.image.code, place⟩ ctx inStub K S
          (Signature.passParameters (k.toUInt64 + t.words.toUInt64) ws' fs ts) q₁ q' ()) :
        Vm.Arrives P (turns + 4 * ts.length) (w.moved q₁ c₁ m) := by
      subst hw
      simp only [floating, ↓reduceIte, List.length_cons, Bool.false_eq_true] at enough enough' next
      have mine := free r List.mem_cons_self
      have ready := h.passed mine others
      rw [index] at rest
      refine ih ready (by omega) void.2 (fun s hs => free s (List.mem_cons_of_mem _ hs))
        (List.nodup_cons.mp nodup).2 nodup' (by omega) enough' rest fun c' passed => next c' ?_
      rw [← value]
      exact passed.word floating mine (List.nodup_cons.mp nodup).1 others floats
    have float {f : FloatRegister} {fs' : List FloatRegister} (hf : fs = f :: fs') {c₁ : Cpu}
        {q₁ : UInt64} (floating : (ArgumentKind.ofType t).isFloating = true)
        (value : c₁.float f = a.held m k t) (others : ∀ s, c₁.reg s = c.reg s)
        (floats : ∀ g, g ≠ f → c₁.float g = c.float g)
        (rest : Lays ⟨w.image.code, place⟩ ctx inStub K S
          (Signature.passParameters (k.toUInt64 + t.words.toUInt64) ws fs' ts) q₁ q' ()) :
        Vm.Arrives P (turns + 4 * ts.length) (w.moved q₁ c₁ m) := by
      subst hf
      simp only [floating, ↓reduceIte, List.length_cons, Bool.true_eq_false] at enough enough' next
      have ready : a.Ready id m₀ v c₁ m := h.congr fun s _ => others s
      rw [index] at rest
      refine ih ready (by omega) void.2 free nodup (List.nodup_cons.mp nodup').2 enough
        (by omega) rest fun c' passed => next c' ?_
      rw [← value]
      exact passed.float floating (List.nodup_cons.mp nodup').1 others floats
    have mine {j : Nat} (hj : j < t.words) : k + j < words v.world.classes id := by omega
    have self {f : FloatRegister} (n : UInt64) : (c.setFloat f n).float f = n :=
      (c.float_setFloat f f n).trans (if_pos rfl)
    have away {f g : FloatRegister} (n : UInt64) (hg : g ≠ f) :
        (c.setFloat f n).float g = c.float g := (c.float_setFloat f g n).trans (if_neg hg)
    have first {α : Type} {xs : List α} {n : Nat} (enough : n + 1 ≤ xs.length) :
        ∃ x xs', xs = x :: xs' := List.exists_cons_of_length_pos (by omega)
    cases t with
    | void => exact absurd rfl void.1
    | float =>
      obtain ⟨f, fs, rfl⟩ := first enough'
      simp only [Signature.passParameters] at lay
      obtain ⟨i, rest⟩ := lay.emit_bind
      exact (h.runSlotLoadFloat (mine (j := 0) (by decide)) (a.slot_target k) i
        (float rfl rfl (self _) (fun _ => rfl) (fun _ => away _) rest)).le (by omega)
    | double =>
      obtain ⟨f, fs, rfl⟩ := first enough'
      simp only [Signature.passParameters] at lay
      obtain ⟨i, rest⟩ := lay.emit_bind
      exact (h.runSlotLoadFloat (mine (j := 1) (by decide)) (a.slot_next k) i
        (float rfl rfl (self _) (fun _ => rfl) (fun _ => away _) rest)).le (by omega)
    | long =>
      obtain ⟨r, ws, rfl⟩ := first enough
      simp only [Signature.passParameters] at lay
      obtain ⟨i, rest⟩ := lay.emit_bind
      exact (h.runSlotLoad (mine (j := 1) (by decide)) (a.slot_next k) i
        (word rfl rfl (Cpu.reg_setReg_self _ _ (free r List.mem_cons_self).ne_zero)
          (fun _ hs _ _ => Cpu.reg_setReg_ne _ _ hs) (fun _ => Cpu.float_setReg ..) rest)).le
          (by omega)
    | object | array =>
      obtain ⟨r, ws, rfl⟩ := first enough
      simp only [Signature.passParameters] at lay
      obtain ⟨⟨⟩, q₁, object, rest⟩ := lay.split
      exact (h.runPassObject (mine (j := 0) (by decide)) (free r List.mem_cons_self) object
        fun c₁ value others floats => word rfl rfl value others floats rest).le (by omega)
    | boolean | char | byte | short | int =>
      obtain ⟨r, ws, rfl⟩ := first enough
      simp only [Signature.passParameters] at lay
      obtain ⟨i, rest⟩ := lay.emit_bind
      exact (h.runSlotLoad (mine (j := 0) (by decide)) (a.slot_target k) i
        (word rfl rfl (Cpu.reg_setReg_self _ _ (free r List.mem_cons_self).ne_zero)
          (fun _ hs _ _ => Cpu.reg_setReg_ne _ _ hs) (fun _ => Cpu.float_setReg ..) rest)).le
          (by omega)

/-- The registers after the handler of a method: the argument for the receiver and those for the
    parameters are in the registers that come after the one for the environment. -/
structure Marshalled (a : NativeCall) (t : ClassTable) (id : MethodId) (m : Guarded) (c : Cpu) :
    Prop where
  receiver : (t.method id).access.isStatic = false → c.reg .x1 = a.argument m 0 .object
  words :
    Arguments.ofFile (a.slots m (receivers t id) (t.method id).descriptor.parameters) false <+:
      (Register.arguments.drop 2).map c.reg
  floats :
    Arguments.ofFile (a.slots m (receivers t id) (t.method id).descriptor.parameters) true <+:
      FloatRegister.all.map c.float

/-- The handler passes the parameters behind the receiver and returns. -/
theorem Ready.runHandlerRest {result : UInt64} {c₁ : Cpu} (h : a.Ready id m₀ v c₁ m)
    (void : .void ∉ (v.world.classes.method id).descriptor.parameters)
    (few : (v.world.classes.method id).descriptor.parameters.length ≤ Signature.maxParameters)
    (receiver : (v.world.classes.method id).access.isStatic = false →
      c₁.reg .x1 = a.argument m 0 .object)
    (same : ∀ r, r ∉ Register.arguments → r ≠ .scratch1 → r ≠ .scratch2 → c₁.reg r = c.reg r)
    (lay : Lays ⟨w.image.code, place⟩ ctx inStub K S (do
      Signature.passParameters (receivers v.world.classes id).toUInt64
        (Register.arguments.drop 2) FloatRegister.all
        ((v.world.classes.method id).descriptor.parameters.map Signature.shape)
      movImm .x0 result
      ret .link) q q' ())
    (next : ∀ c', a.Marshalled v.world.classes id m c' →
      (∀ r, r ∉ Register.arguments → r ≠ .scratch1 → r ≠ .scratch2 → c'.reg r = c.reg r) →
      Vm.Arrives P turns (w.moved (c.reg .link) c' m)) :
    Vm.Arrives P (turns + 26) (w.moved q c₁ m) := by
  obtain ⟨⟨⟩, q₂, parameters, lay⟩ := lay.split
  obtain ⟨i₁, lay⟩ := lay.emit_bind
  obtain ⟨i₂, rfl⟩ := lay.emit
  have six : (v.world.classes.method id).descriptor.parameters.length ≤ 6 := few
  have span : receivers v.world.classes id +
      width ((v.world.classes.method id).descriptor.parameters.map Signature.shape) =
        words v.world.classes id := by rw [width_shape, words, parameterWords_eq]
  have fits (floating : Bool) := Arguments.length_ofFile (a.slots m (receivers v.world.classes id)
    ((v.world.classes.method id).descriptor.parameters.map Signature.shape)) floating
  rw [slots_length, List.length_map] at fits
  suffices passes : Vm.Arrives P (turns + 2 + 4 * ((v.world.classes.method
      id).descriptor.parameters.map Signature.shape).length) (w.moved q c₁ m) from
    passes.le (by rw [List.length_map]; omega)
  refine h.runParameters (Nat.le_of_eq span) ?_ ?_ (by decide) (by decide)
    (Nat.le_trans (fits false) (show _ ≤ (Register.arguments.drop 2).length from six))
    (Nat.le_trans (fits true) (Nat.le_trans six (by decide))) parameters
    fun c₂ passed => .movImm i₁ (.ret i₂ ?_)
  · intro shaped
    obtain ⟨t, ht, shape⟩ := List.mem_map.mp shaped
    cases t <;> first | exact void ht | cases shape
  · decide
  have others {r : Register} (hr : r ∉ Register.arguments) (h₁ : r ≠ .scratch1)
      (h₂ : r ≠ .scratch2) : (c₂.setReg .x0 result).reg r = c.reg r := by
    have zero : r ≠ .x0 := fun e => hr (e ▸ by decide)
    rw [Cpu.reg_setReg_ne _ _ zero,
      passed.others r (fun hm => hr (List.mem_of_mem_drop hm)) h₁ h₂,
      same r hr h₁ h₂]
  rw [others (by decide) (by decide) (by decide)]
  have kept : (Register.arguments.drop 2).map (c₂.setReg .x0 result).reg =
      (Register.arguments.drop 2).map c₂.reg :=
    List.map_congr_left fun r hr => Cpu.reg_setReg_ne _ _ fun e => by
      subst e
      revert hr
      decide
  refine next _ ⟨fun instanced => ?_, ?_, ?_⟩ fun r => others
  · rw [Cpu.reg_setReg_ne _ _ (by decide), passed.others _ (by decide) (by decide) (by decide),
      receiver instanced]
  · rw [kept, ← slots_shape]
    exact passed.words
  · rw [← slots_shape]
    rw [show (c₂.setReg .x0 result).float = c₂.float from funext fun f => c₂.float_setReg ..]
    exact passed.floats

/-- The handler for the signature of a method passes the parameters of the method. -/
theorem Ready.runHandler {result : UInt64} (h : a.Ready id m₀ v c m)
    (void : .void ∉ (v.world.classes.method id).descriptor.parameters)
    (few : (v.world.classes.method id).descriptor.parameters.length ≤ Signature.maxParameters)
    (lay : Lays ⟨w.image.code, place⟩ ctx inStub K S
      (Signature.code (.shaped (v.world.classes.method id).descriptor
        (v.world.classes.method id).access.isStatic) result) q q' ())
    (next : ∀ c', a.Marshalled v.world.classes id m c' →
      (∀ r, r ∉ Register.arguments → r ≠ .scratch1 → r ≠ .scratch2 → c'.reg r = c.reg r) →
      Vm.Arrives P turns (w.moved (c.reg .link) c' m)) :
    Vm.Arrives P (turns + 30) (w.moved q c m) := by
  have index : (if (v.world.classes.method id).access.isStatic then 0 else 1 : UInt64) =
      (receivers v.world.classes id).toUInt64 := by unfold receivers; split <;> rfl
  unfold Signature.code Signature.shaped at lay
  rw [index] at lay
  cases static : (v.world.classes.method id).access.isStatic with
  | true =>
    exact (h.runHandlerRest void few (by simp [static]) (fun _ _ _ _ => rfl)
      (lay.ite_neg (by simp [static])) next).le (by omega)
  | false =>
    obtain ⟨⟨⟩, q₁, receiver, lay⟩ := (lay.ite_pos (by simp [static])).split
    have positive : 0 < words v.world.classes id := by
      unfold words receivers
      simp [static]
    refine h.runPassObject positive (show IsFree .x1 by decide) receiver fun c₁ value others _ => ?_
    exact (h.passed (show IsFree .x1 by decide) others).runHandlerRest void few (fun _ => value)
      (fun r hr h₁ h₂ => others r (fun e => hr (e ▸ by decide)) h₁ h₂) lay next

end
end NativeCall
end TemplateVm
