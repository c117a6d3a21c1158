import TemplateVm.Proofs.Machine.Turns
import TemplateVm.Proofs.Memory.Access
import TemplateVm.Vm.Call

set_option autoImplicit false

/-!
# What a call leaves behind

A call that came back looks for an exception first and for a popped frame second, and takes out of
the thread's block only what it reports. Where both are there, the mark of the popped frame stays
behind the exception, and the next call that ends without one finds it.
-/
namespace TemplateVm

open Memory (Guarded load)

/-! ## The block of a thread -/

namespace ThreadBlock

variable {t : ThreadBlock} {m m' : Guarded} {f g w v : UInt64} {k : Nat}

/-- The exception that is on its way, or zero. -/
def exceptionIn (t : ThreadBlock) (m : Guarded) : UInt64 :=
  load m.bytes (t.base + pendingException).toNat 8

/-- How far the popping of a frame has come. -/
def popIn (t : ThreadBlock) (m : Guarded) : FramePop :=
  .ofBits (load m.bytes (t.base + framePop).toNat 4).toUInt32

theorem popIn_congr {n : UInt64} (h : load m.bytes (t.base + framePop).toNat 4 = n) :
    t.popIn m = .ofBits n.toUInt32 := congrArg (fun n : UInt64 => FramePop.ofBits n.toUInt32) h

/-- Fields that do not meet in the block do not meet in memory, wherever the block is. -/
theorem load_put_field (apart : f.toNat + w.toNat ≤ g.toNat ∧ g.toNat + k ≤ 2 ^ 64 ∨
      g.toNat + k ≤ f.toNat ∧ f.toNat + w.toNat ≤ 2 ^ 64) :
    load (m.put (t.base + f) w v).bytes (t.base + g).toNat k =
      load m.bytes (t.base + g).toNat k := by
  have base := t.base.toNat_lt
  refine Guarded.load_put_of_disjoint ?_
  rw [UInt64.toNat_add, UInt64.toNat_add]
  omega

/-- The block tells the same of exceptions and popped frames. -/
structure SameUnwinding (t : ThreadBlock) (m m' : Guarded) : Prop where
  exception : t.exceptionIn m' = t.exceptionIn m
  pop : t.popIn m' = t.popIn m

theorem SameUnwinding.put
    (apart : pendingException.toNat + 8 ≤ f.toNat ∧ f.toNat + w.toNat ≤ framePop.toNat ∨
      framePop.toNat + 4 ≤ f.toNat ∧ f.toNat + w.toNat ≤ 2 ^ 64) :
    t.SameUnwinding m (m.put (t.base + f) w v) where
  exception := by
    refine load_put_field (.inr ?_)
    have : framePop.toNat = 48 := rfl
    have : pendingException.toNat = 0 := rfl
    omega
  pop := by
    refine popIn_congr (load_put_field ?_)
    have : framePop.toNat = 48 := rfl
    omega

theorem of_guard {s : GuardState} (h : t.guard m = .ok s m') : m' = m := by
  unfold guard at h
  obtain ⟨raw, m₁, read, rest⟩ := Vm.ok_of_bind h
  obtain ⟨same, -⟩ := Guarded.of_readA read
  dsimp only at rest
  cases known : GuardState.ofCode? raw.toUInt32 with
  | none =>
    rw [known] at rest
    cases rest
  | some s =>
    rw [known] at rest
    cases rest
    exact same

theorem of_setGuard {s : GuardState} (h : t.setGuard s m = .ok () m') : t.SameUnwinding m m' := by
  obtain ⟨-, rfl⟩ := Guarded.of_write h
  exact .put (.inr (by decide))

theorem of_pending? {e : Option UInt64} (h : t.pending? m = .ok e m') :
    m' = m ∧ e = if t.exceptionIn m = 0 then none else some (t.exceptionIn m) := by
  unfold pending? at h
  obtain ⟨raw, m₁, read, rest⟩ := Vm.ok_of_bind h
  obtain ⟨rfl, rfl⟩ := Guarded.of_readA read
  cases rest
  exact ⟨rfl, rfl⟩

theorem of_setPending {e : UInt64} (h : t.setPending e m = .ok () m') :
    t.exceptionIn m' = e ∧ t.popIn m' = t.popIn m := by
  obtain ⟨ok, rfl⟩ := Guarded.of_write h
  exact ⟨Guarded.load_put ok, popIn_congr (load_put_field (.inl (by decide)))⟩

theorem of_pop {p : FramePop} (h : t.pop m = .ok p m') : m' = m ∧ p = t.popIn m := by
  unfold pop at h
  obtain ⟨raw, m₁, read, rest⟩ := Vm.ok_of_bind h
  obtain ⟨rfl, rfl⟩ := Guarded.of_readA read
  cases rest
  exact ⟨rfl, rfl⟩

theorem of_setPop {p : FramePop} (h : t.setPop p m = .ok () m') :
    t.exceptionIn m' = t.exceptionIn m ∧ t.popIn m' = .ofBits p.bits := by
  obtain ⟨ok, rfl⟩ := Guarded.of_write h
  refine ⟨load_put_field (.inr (by decide)), ?_⟩
  rw [popIn_congr (Guarded.load_put_word ok)]
  simp

end ThreadBlock

/-! ## Parts of the machine -/

namespace World

variable {world world' : World}

theorem of_onMemory {α : Type} {x : α} {action : Guarded.Action α}
    (h : onMemory action world = .ok x world') : ∃ m, action world.store.mem = .ok x m ∧
      world' = { world with store := { world.store with mem := m } } := by
  simp only [onMemory, onStore, Memory.Store.onMemory, zoom] at h
  cases run : action world.store.mem with
  | ok y m =>
    simp only [run] at h
    cases h
    exact ⟨m, rfl, rfl⟩
  | error e m => simp [run] at h

theorem of_classOf {object : UInt64} {id : ClassId} (h : classOf object world = .ok id world') :
    world' = world := by
  unfold classOf at h
  obtain ⟨address, world₁, read, rest⟩ := Vm.ok_of_bind h
  obtain ⟨m, loaded, rfl⟩ := of_onMemory read
  obtain ⟨rfl, -⟩ := Guarded.of_readA loaded
  obtain ⟨world₂, world₃, got, rest⟩ := Vm.ok_of_bind rest
  cases got
  cases known : world.classes.classAt? address with
  | none =>
    simp only [known] at rest
    cases rest
  | some id =>
    simp only [known] at rest
    cases rest
    rfl

end World

namespace Vm

variable {α : Type} {vm vm' : Vm} {x : α} {o : Outcome} {result : TypeTag}

def withMemory (vm : Vm) (m : Guarded) : Vm :=
  { vm with world := { vm.world with store := { vm.world.store with mem := m } } }

theorem onMemory_withMemory {action : Guarded.Action α} {m : Guarded}
    (h : action vm.world.store.mem = .ok x m) : onMemory action vm = .ok x (vm.withMemory m) := by
  simp only [onMemory, onWorld, World.onMemory, World.onStore, Memory.Store.onMemory, zoom, h]
  rfl

theorem onThread_withMemory {action : ThreadBlock → Guarded.Action α} {m : Guarded}
    (h : action ⟨vm.map.thread⟩ vm.world.store.mem = .ok x m) :
    onThread action vm = .ok x (vm.withMemory m) :=
  (bind_ok (m := (get : Action Vm)) rfl).trans (onMemory_withMemory h)

theorem of_onWorld {action : World.Action α} (h : onWorld action vm = .ok x vm') :
    ∃ world, action vm.world = .ok x world ∧ vm' = { vm with world } := by
  simp only [onWorld, zoom] at h
  cases run : action vm.world with
  | ok y world =>
    simp only [run] at h
    cases h
    exact ⟨world, rfl, rfl⟩
  | error e world => simp [run] at h

theorem of_onMemory {action : Guarded.Action α} (h : onMemory action vm = .ok x vm') :
    ∃ m, action vm.world.store.mem = .ok x m ∧ vm' = vm.withMemory m := by
  obtain ⟨world, ran, rfl⟩ := of_onWorld h
  obtain ⟨m, acted, rfl⟩ := World.of_onMemory ran
  exact ⟨m, acted, rfl⟩

theorem of_onThread {action : ThreadBlock → Guarded.Action α} (h : onThread action vm = .ok x vm') :
    ∃ m, action ⟨vm.map.thread⟩ vm.world.store.mem = .ok x m ∧ vm' = vm.withMemory m := by
  obtain ⟨vm₁, vm₂, got, h⟩ := ok_of_bind h
  cases got
  exact of_onMemory h

/-! ## The end of a call -/

def exception (vm : Vm) : UInt64 := ThreadBlock.exceptionIn ⟨vm.map.thread⟩ vm.world.store.mem

def framePop (vm : Vm) : FramePop := ThreadBlock.popIn ⟨vm.map.thread⟩ vm.world.store.mem

/-- Nothing that the end of a call looks at has changed. -/
structure SameUnwinding (vm vm' : Vm) : Prop where
  exception : vm'.exception = vm.exception
  pop : vm'.framePop = vm.framePop
  preserved : vm'.preserved = vm.preserved

theorem SameUnwinding.refl (vm : Vm) : SameUnwinding vm vm := ⟨rfl, rfl, rfl⟩

theorem SameUnwinding.trans {vm'' : Vm} (h : SameUnwinding vm vm')
    (h' : SameUnwinding vm' vm'') : SameUnwinding vm vm'' where
  exception := h'.exception.trans h.exception
  pop := h'.pop.trans h.pop
  preserved := h'.preserved.trans h.preserved

theorem of_guard {s : GuardState} (h : onThread (·.guard) vm = .ok s vm') : vm' = vm := by
  obtain ⟨m, read, rfl⟩ := of_onThread h
  rw [ThreadBlock.of_guard read]
  rfl

theorem of_pending? {e : Option UInt64} (h : onThread (·.pending?) vm = .ok e vm') :
    vm' = vm ∧ e = if vm.exception = 0 then none else some vm.exception := by
  obtain ⟨m, read, rfl⟩ := of_onThread h
  obtain ⟨rfl, rfl⟩ := ThreadBlock.of_pending? read
  exact ⟨rfl, rfl⟩

theorem of_setPending {e : UInt64} (h : onThread (·.setPending e) vm = .ok () vm') :
    vm'.exception = e ∧ vm'.framePop = vm.framePop := by
  obtain ⟨m, written, rfl⟩ := of_onThread h
  exact ThreadBlock.of_setPending written

theorem of_pop {p : FramePop} (h : onThread (·.pop) vm = .ok p vm') :
    vm' = vm ∧ p = vm.framePop := by
  obtain ⟨m, read, rfl⟩ := of_onThread h
  obtain ⟨rfl, rfl⟩ := ThreadBlock.of_pop read
  exact ⟨rfl, rfl⟩

theorem of_setPop {p : FramePop} (h : onThread (·.setPop p) vm = .ok () vm') :
    vm'.exception = vm.exception ∧ vm'.framePop = .ofBits p.bits ∧
      vm'.preserved = vm.preserved := by
  obtain ⟨m, written, rfl⟩ := of_onThread h
  obtain ⟨same, set⟩ := ThreadBlock.of_setPop written
  exact ⟨same, set, rfl⟩

theorem of_consult {f : Hooks → α × Hooks} (h : consult f vm = .ok x vm') :
    SameUnwinding vm vm' := by
  cases h
  exact ⟨rfl, rfl, rfl⟩

theorem of_reguard {b : Bool} (h : reguard vm = .ok b vm') : SameUnwinding vm vm' := by
  unfold reguard at h
  obtain ⟨s, vm₁, looked, rest⟩ := ok_of_bind h
  obtain rfl := of_guard looked
  by_cases disabled : s = .yellowDisabled
  · rw [if_neg (fun other => other disabled)] at rest
    obtain ⟨allowed, vm₂, asked, answered⟩ := ok_of_bind rest
    refine (of_consult asked).trans ?_
    cases allowed with
    | false =>
      cases answered
      exact .refl _
    | true =>
      rw [if_neg (by decide)] at answered
      obtain ⟨vm₂, vm₃, got, arming⟩ := ok_of_bind answered
      cases got
      obtain ⟨⟨⟩, vm₄, armed, setting⟩ := ok_of_bind arming
      obtain ⟨m, guarded, rfl⟩ := of_onMemory armed
      cases guarded
      obtain ⟨⟨⟩, vm₅, set, done⟩ := ok_of_bind setting
      obtain ⟨m', written, rfl⟩ := of_onThread set
      cases done
      have same := ThreadBlock.of_setGuard written
      exact ⟨same.exception, same.pop, rfl⟩
  · rw [if_pos disabled] at rest
    cases rest
    exact .refl _

/-- How a call ends, by what is in the thread's block when control is back, and what it leaves
    there of a frame that was popped. -/
inductive Settles (vm vm' : Vm) : Outcome → Prop
  | returned {value : Value} (calm : vm.exception = 0)
      (whole : vm.framePop.has FramePop.forceReexecutionBit = false)
      (kept : vm'.framePop = vm.framePop) : Settles vm vm' (.returned value)
  | threw {className : String} {message : Option String} (thrown : vm.exception ≠ 0)
      (kept : vm'.framePop = vm.framePop) : Settles vm vm' (.threw vm.exception className message)
  | popped (calm : vm.exception = 0)
      (marked : vm.framePop.has FramePop.forceReexecutionBit = true)
      (cleared : vm'.framePop = .none) : Settles vm vm' (.popped (vm.preserved.getD []))

theorem Settles.of_same {vm₁ : Vm} (h : Settles vm₁ vm' o) (same : SameUnwinding vm vm₁) :
    Settles vm vm' o := by
  cases h with
  | returned calm whole kept =>
    rw [same.pop] at whole kept
    exact .returned (same.exception ▸ calm) whole kept
  | threw thrown kept =>
    rw [same.exception] at thrown ⊢
    exact .threw thrown (kept.trans same.pop)
  | popped calm marked cleared =>
    rw [same.preserved]
    exact .popped (same.exception ▸ calm) (same.pop ▸ marked) cleared

/-- An action that is taken only under a condition, before another one. -/
theorem of_optional {β : Type} {c : Prop} [Decidable c] {first : Action β} {next : Action α}
    (h : (if c then first >>= fun _ => next else next) vm = .ok x vm') :
    ∃ vm₁, (vm₁ = vm ∨ ∃ y, first vm = .ok y vm₁) ∧ next vm₁ = .ok x vm' := by
  by_cases taken : c
  · rw [if_pos taken] at h
    obtain ⟨y, vm₁, ran, rest⟩ := ok_of_bind h
    exact ⟨vm₁, .inr ⟨y, ran⟩, rest⟩
  · rw [if_neg taken] at h
    exact ⟨vm, .inl rfl, h⟩

theorem of_result {x0 v0 : UInt64} (h : onThread (fun t => do
      let x0 ← Guarded.readA (t.argumentSlot resultSlot) 8
      let v0 ← Guarded.readA (t.argumentSlot resultSlot + 8) 8
      pure (x0, v0)) vm = .ok (x0, v0) vm') : vm' = vm := by
  obtain ⟨m, read, rfl⟩ := of_onThread h
  obtain ⟨n, m₁, first, rest⟩ := ok_of_bind read
  obtain ⟨n', m₂, second, done⟩ := ok_of_bind rest
  cases done
  rw [(Guarded.of_readA second).1, (Guarded.of_readA first).1]
  rfl

/-- An exception is taken out of the block, and of a popped frame only the mark that is reported. -/
theorem outcome_settles (h : outcome result vm = .ok o vm') :
    vm'.exception = 0 ∧ Settles vm vm' o := by
  unfold outcome at h
  obtain ⟨s, vm₀, looked, rest⟩ := ok_of_bind h
  obtain rfl := of_guard looked
  -- What follows is the same whether the yellow zone was armed again or not.
  obtain ⟨vm₁, armed, reporting⟩ := of_optional rest
  have same : SameUnwinding vm₀ vm₁ := by
    rcases armed with rfl | ⟨b, armed⟩
    · exact .refl _
    · exact of_reguard armed
  suffices settled : vm'.exception = 0 ∧ Settles vm₁ vm' o from
    ⟨settled.1, settled.2.of_same same⟩
  clear same
  obtain ⟨e, vm₂, asked, telling⟩ := ok_of_bind reporting
  obtain ⟨rfl, rfl⟩ := of_pending? asked
  by_cases calm : vm₂.exception = 0
  · rw [if_pos calm] at telling
    obtain ⟨p, vm₃, seen, settling⟩ := ok_of_bind telling
    obtain ⟨rfl, rfl⟩ := of_pop seen
    cases marked : vm₃.framePop.has FramePop.forceReexecutionBit with
    | true =>
      simp only [marked, ↓reduceIte] at settling
      obtain ⟨⟨⟩, vm₄, set, taking⟩ := ok_of_bind settling
      obtain ⟨same, cleared, kept⟩ := of_setPop set
      cases taking
      rw [kept]
      exact ⟨same.trans calm, .popped calm marked cleared⟩
    | false =>
      simp only [marked, Bool.false_eq_true, ↓reduceIte] at settling
      obtain ⟨⟨x0, v0⟩, vm₄, given, done⟩ := ok_of_bind settling
      obtain rfl := of_result given
      cases done
      exact ⟨calm, .returned calm marked rfl⟩
  · rw [if_neg calm] at telling
    obtain ⟨⟨⟩, vm₃, set, finding⟩ := ok_of_bind telling
    obtain ⟨zero, same⟩ := of_setPending set
    obtain ⟨id, vm₄, found, done⟩ := ok_of_bind finding
    obtain ⟨world, located, rfl⟩ := of_onWorld found
    obtain rfl := World.of_classOf located
    cases done
    exact ⟨zero, .threw calm same⟩

/-- A call that came back leaves no exception in the thread, and the mark of a popped frame only if
    it threw. -/
theorem invoke_leaves {id : MethodId} {arguments : List Value}
    (h : invoke id arguments vm = .ok o vm') : vm'.exception = 0 ∧
      (vm'.framePop.has FramePop.forceReexecutionBit = true → ∃ e n s, o = .threw e n s) := by
  unfold invoke at h
  obtain ⟨table, vm₁, looked, rest⟩ := ok_of_bind h
  dsimp only at rest
  split at rest
  · obtain ⟨⟨⟩, vm₂, thrown, -⟩ := ok_of_bind rest
    cases thrown
  · obtain ⟨entry, vm₂, prepared, rest⟩ := ok_of_bind rest
    obtain ⟨⟨⟩, vm₃, forgot, rest⟩ := ok_of_bind rest
    obtain ⟨vm₄, vm₅, got, rest⟩ := ok_of_bind rest
    obtain ⟨⟨⟩, vm₆, entered, rest⟩ := ok_of_bind rest
    obtain ⟨⟨⟩, vm₇, ran, ended⟩ := ok_of_bind rest
    obtain ⟨zero, settles⟩ := outcome_settles ended
    refine ⟨zero, fun marked => ?_⟩
    cases settles with
    | returned calm whole kept =>
      rw [kept, whole] at marked
      cases marked
    | threw thrown kept => exact ⟨_, _, _, rfl⟩
    | popped calm marked' cleared =>
      rw [cleared] at marked
      cases marked

end Vm
end TemplateVm
