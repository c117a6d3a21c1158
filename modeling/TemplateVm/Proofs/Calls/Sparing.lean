import TemplateVm.Proofs.Calls.Deeds
import TemplateVm.Proofs.Calls.Recovery

set_option autoImplicit false

/-!
# Bytes that are left alone

What the host and the runtime do on their own account writes words of the thread's block and, with
a safepoint, the tables. So bytes elsewhere stay as they are, and those of the word about the guards
of the stack change only with the guards.
-/
namespace TemplateVm

open Memory (Guarded byteAt)

namespace Memory.Guarded

variable {A : Nat → Prop} {m m' m'' m₀ : Guarded} {lo hi : Nat} {a w n : UInt64}

/-- The memories have their shape in common, and the bytes at certain addresses. -/
structure Spared (A : Nat → Prop) (m m' : Guarded) : Prop where
  alike : m.Alike m'
  bytes : ∀ j, A j → byteAt m'.bytes j = byteAt m.bytes j

theorem Spared.refl (A : Nat → Prop) (m : Guarded) : m.Spared A m := ⟨.refl m, fun _ _ => rfl⟩

theorem Spared.trans (h : m.Spared A m') (h' : m'.Spared A m'') : m.Spared A m'' :=
  ⟨h.alike.trans h'.alike, fun j hj => (h'.bytes j hj).trans (h.bytes j hj)⟩

theorem Changed.spared (h : m.Changed m' lo hi) (away : ∀ j, A j → j < lo ∨ hi ≤ j) :
    m.Spared A m' := ⟨⟨h.size, h.guards⟩, fun j hj => h.other j (away j hj)⟩

theorem spared_write (away : ∀ j, A j → j < a.toNat ∨ a.toNat + w.toNat ≤ j) :
    Preserves (m₀.Spared A) (Guarded.write a w n) := fun m spared =>
  (write_ends a w n m).mono (fun _ _ changed => spared.trans (changed.spared away))
    fun _ _ same => same ▸ spared

end Memory.Guarded

/-! ## The block of the thread -/

namespace ThreadBlock

variable {t : ThreadBlock} {A : Nat → Prop} {m m₀ : Guarded} {f w n : UInt64}

/-- The addresses are below the block, or those of the word about the guards. -/
def Apart (t : ThreadBlock) (A : Nat → Prop) : Prop :=
  ∀ j, A j → j < t.base.toNat ∨ t.base.toNat + 60 ≤ j ∧ j < t.base.toNat + 64

theorem spared_write (apart : t.Apart A) (limit : t.base.toNat + 0x1000 < 2 ^ 64)
    (inside : f.toNat + w.toNat ≤ 60 ∨ 64 ≤ f.toNat ∧ f.toNat + w.toNat ≤ 0x1000) :
    Preserves (m₀.Spared A) (t.write f w n) := by
  have address : (t.base + f).toNat = t.base.toNat + f.toNat := toNat_add_of_lt (by omega)
  refine Guarded.spared_write fun j hj => ?_
  rcases apart j hj with below | within <;> omega

/-- Each argument lies behind the one before it. However many there are, those that have no room in
    memory are not written, so that no address comes around to the start. -/
theorem spared_arguments (apart : t.Apart A) (words : List UInt64) {k : Nat}
    (few : k + words.length < 2 ^ 60) (room : t.base.toNat + 0x410 + 8 * k < 2 ^ 64)
    (size : m.bytes.size < 2 ^ 64) :
    Ends (fun _ m' => m.Spared A m') (fun (_ : Failure) m' => m.Spared A m')
      ((words.zipIdx k).forM (fun (w, i) =>
        Guarded.write (t.argumentSlot (Vm.parameterSlot + i.toUInt64)) 8 w :
          UInt64 × Nat → Guarded.Action PUnit) m) := by
  induction words generalizing k m with
  | nil => exact .refl A m
  | cons word words ih =>
    have index : k.toUInt64.toNat = k :=
      UInt64.toNat_ofNat_of_lt' (by change k < 2 ^ 64; omega)
    have slot : (t.argumentSlot (Vm.parameterSlot + k.toUInt64)).toNat =
        t.base.toNat + 0x410 + 8 * k := by
      have two : Vm.parameterSlot.toNat = 2 := rfl
      have start : arguments.toNat = 0x400 := rfl
      have eight : (8 : UInt64).toNat = 8 := rfl
      rw [argumentSlot, UInt64.toNat_add, UInt64.toNat_add, UInt64.toNat_mul, UInt64.toNat_add,
        index, two, start, eight]
      omega
    refine (Guarded.write_ends _ _ _ m).ran.bind (fun _ _ failed => failed.2 ▸ .refl A m) ?_
    rintro _ m₁ ⟨written, changed⟩
    have inside := (Guarded.of_write written).1.inside
    have eight : (8 : UInt64).toNat = 8 := rfl
    have spared : m.Spared A m₁ := changed.spared fun j hj => by
      rcases apart j hj with below | within <;> omega
    rw [List.length_cons] at few
    refine (ih (k := k + 1) (by omega) (by omega) (by rw [changed.size]; exact size)).mono ?_ ?_
    · exact fun _ _ h => spared.trans h
    · exact fun _ _ h => spared.trans h

/-- A call writes its arguments and what it resets. -/
theorem spared_prepare (apart : t.Apart A) (limit : t.base.toNat + 0x1000 < 2 ^ 64)
    (size : m.bytes.size < 2 ^ 64) (address : UInt64) {words : List UInt64}
    (few : words.length < 2 ^ 59) :
    Ends (fun _ m' => m.Spared A m') (fun (_ : Failure) m' => m.Spared A m')
      (Vm.prepareThread t address words m) := by
  have field {f w n : UInt64}
      (inside : f.toNat + w.toNat ≤ 60 ∨ 64 ≤ f.toNat ∧ f.toNat + w.toNat ≤ 0x1000) :
      Preserves (m.Spared A) (Guarded.write (t.base + f) w n) := spared_write apart limit inside
  have result : t.argumentSlot Vm.resultSlot = t.base + arguments := by
    rw [argumentSlot]
    exact UInt64.add_zero _
  have result' : t.argumentSlot Vm.resultSlot + 8 = t.base + (arguments + 8) := by
    rw [result, UInt64.add_assoc]
  unfold Vm.prepareThread
  refine (spared_arguments apart words (by omega) (by omega) size).bind (fun _ _ h => h) ?_
  intro _ m₁ h₁
  rw [result', result]
  exact ((field (.inr (by decide))).bind fun _ => (field (.inr (by decide))).bind fun _ =>
    (Preserves.of_reads (.readA _ _)).bind fun _ =>
    (Preserves.bind (field (.inr (by decide))) fun _ => .pure _).bind fun _ =>
    (field (.inl (by decide))).bind fun _ => (field (.inl (by decide))).bind fun _ =>
    (field (.inl (by decide))).bind fun _ => .pure _) m₁ h₁

end ThreadBlock

/-! ## The machine -/

namespace Vm

variable {v v₀ w : Vm} {A : Nat → Prop} {α : Type}

/-- Objects are at most added, and the bytes are as they were. -/
structure Spared (A : Nat → Prop) (v₀ v : Vm) : Prop extends Stays v₀ v where
  bytes : v₀.world.store.mem.Spared A v.world.store.mem

theorem Spared.refl (sound : v.world.store.Sound) : v.Spared A v := ⟨.refl sound, .refl ..⟩

theorem Spared.memory {m : Guarded} (h : v₀.Spared A v) (spared : v.world.store.mem.Spared A m) :
    v₀.Spared A (v.withMemory m) := ⟨h.toStays.memory spared.alike, h.bytes.trans spared⟩

theorem spared_modify {f : Vm → Vm} (same : ∀ v, (f v).map = v.map ∧ (f v).image = v.image ∧
    (f v).safepoints = v.safepoints ∧ (f v).world = v.world ∧ (f v).library = v.library) :
    Preserves (Spared A v₀) (modify f : Action Unit) := Preserves.modify fun v h => by
  obtain ⟨map, image, safepoints, world, library⟩ := same v
  exact ⟨⟨⟨map.trans h.map, by rw [image]; exact h.gains,
    by rw [world]; exact h.world, library.trans h.library⟩, safepoints.trans h.safepoints⟩,
    by rw [world]; exact h.bytes⟩

theorem spared_modifyCpu (f : Cpu → Cpu) : Preserves (Spared A v₀) (modifyCpu f) :=
  spared_modify fun _ => ⟨rfl, rfl, rfl, rfl, rfl⟩

theorem spared_consult (f : Hooks → α × Hooks) : Preserves (Spared A v₀) (consult f) :=
  Preserves.modifyGet fun _ h => ⟨⟨⟨h.map, h.gains, h.world, h.library⟩, h.safepoints⟩, h.bytes⟩

/-- What the thread's block is written for. -/
theorem spared_onThread {action : ThreadBlock → Guarded.Action α}
    (h : ∀ m₀ : Guarded, Preserves (m₀.Spared A) (action ⟨v₀.map.thread⟩)) :
    Preserves (Spared A v₀) (onThread action) := fun v spared => by
  have here : (⟨v.map.thread⟩ : ThreadBlock) = ⟨v₀.map.thread⟩ := by rw [spared.map]
  have written := h v.world.store.mem _ (.refl A _)
  rw [← here] at written
  refine Ends.get_bind ((onMemory_ends written).mono ?_ ?_)
  · rintro _ _ ⟨m, same, rfl⟩
    exact spared.memory same
  · rintro _ _ ⟨m, same, rfl⟩
    exact spared.memory same

/-- The outcome of a call as its memory has it. -/
def tell (result : TypeTag) : Action Outcome := do
  match ← onThread (·.pending?) with
  | some exception =>
    onThread (·.setPending 0)
    let id ← onWorld (World.classOf exception)
    let vm ← get
    pure (.threw exception (vm.world.classes.get id).name (vm.message? exception))
  | none =>
    let p ← onThread (·.pop)
    if p.has FramePop.forceReexecutionBit then
      onThread (·.setPop .none)
      let arguments := (← get).preserved.getD []
      modify fun vm => { vm with preserved := none }
      pure (.popped arguments)
    else
      let (x0, v0) ← onThread fun t => do
        let x0 ← Guarded.readA (t.argumentSlot resultSlot) 8
        let v0 ← Guarded.readA (t.argumentSlot resultSlot + 8) 8
        pure (x0, v0)
      pure (.returned (.ofRegisters result x0 v0))

theorem outcome_eq (result : TypeTag) : outcome result = (do
    let g ← onThread (·.guard)
    if g = .yellowDisabled then do
      let _ ← reguard
      tell result
    else tell result) := rfl

section
variable (mapped : v₀.Mapped) (apart : ThreadBlock.Apart ⟨v₀.map.thread⟩ A)
include mapped apart

theorem Mapped.spared_field {f n x : UInt64}
    (inside : f.toNat + n.toNat ≤ 60 ∨ 64 ≤ f.toNat ∧ f.toNat + n.toNat ≤ 0x1000) :
    Preserves (Spared A v₀) (onThread (·.write f n x)) :=
  spared_onThread fun _ => ThreadBlock.spared_write apart mapped.block_lt inside

/-- The beginning of a call. -/
theorem Mapped.spared_beginCall (size : v₀.world.store.mem.bytes.size < 2 ^ 64) (id : MethodId)
    {arguments : List Value} (few : (arguments.flatMap Value.stackWords).length < 2 ^ 59) :
    Ends (fun _ w => v₀.Spared A w) (fun _ w => v₀.Spared A w) (beginCall id arguments v₀) := by
  have refl : v₀.Spared A v₀ := .refl mapped.booted.sound.store
  have prepared := ThreadBlock.spared_prepare apart mapped.block_lt size
    (v₀.world.classes.method id).address few
  have entered (address entry : UInt64) (n : Nat) : Preserves (Spared A v₀) (do
      modify fun vm => { vm with preserved := none }
      enterStub ⟨(← get).map.thread⟩ address entry n) :=
    .bind (spared_modify fun _ => ⟨rfl, rfl, rfl, rfl, rfl⟩) fun _ => Preserves.get.bind fun _ =>
      Preserves.get.bind fun _ => .bind (spared_modifyCpu _) fun _ =>
      spared_modify fun _ => ⟨rfl, rfl, rfl, rfl, rfl⟩
  unfold beginCall
  refine classes_bind ?_
  dsimp only
  split
  · exact refl
  · refine Ends.bind (P := fun _ w => v₀.Spared A w) (F := fun _ w => v₀.Spared A w)
      (Ends.get_bind ((onMemory_ends prepared).mono ?_ ?_)) (fun _ _ h => h) fun entry w spared => ?_
    · rintro _ _ ⟨m, same, rfl⟩
      exact refl.memory same
    · rintro _ _ ⟨m, same, rfl⟩
      exact refl.memory same
    · exact entered _ _ _ w spared

/-- What came of a call, once the yellow zone is seen to. -/
theorem Mapped.spared_tell (result : TypeTag) : Preserves (Spared A v₀) (tell result) := by
  unfold tell
  refine (Preserves.of_reads (Reads.onThread fun t => (Reads.readA _ _).bind fun _ =>
    .pure _)).bind fun exception? => ?_
  cases exception? with
  | some exception =>
    refine (mapped.spared_field apart (.inl (by decide))).bind fun _ => ?_
    exact (Preserves.of_reads (Reads.onWorld (World.classOf_reads exception))).bind fun _ =>
      Preserves.get.bind fun _ => .pure _
  | none =>
    refine (Preserves.of_reads (Reads.onThread fun t => (Reads.readA _ _).bind fun _ =>
      .pure _)).bind fun p => ?_
    dsimp only
    split
    · refine (mapped.spared_field apart (.inl (by decide))).bind fun _ => ?_
      exact Preserves.get.bind fun _ => .bind (spared_modify fun _ => ⟨rfl, rfl, rfl, rfl, rfl⟩)
        fun _ => .pure _
    · exact (Preserves.of_reads (Reads.onThread fun t => (Reads.readA _ _).bind fun _ =>
        (Reads.readA _ _).bind fun _ => .pure _)).bind fun _ => .pure _

end
end Vm
end TemplateVm
