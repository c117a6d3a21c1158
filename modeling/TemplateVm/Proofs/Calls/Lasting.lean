import TemplateVm.Proofs.Calls.GuardZones

set_option autoImplicit false

/-!
# What lasts

Methods that have been loaded stay where they are and keep their names, code is at most added to the
image, and the functions of the library are those that the host gives. What is done between two
turns of a run does not write over the records of methods either.
-/
namespace TemplateVm.Vm

open Memory (Guarded byteAt)

variable {v w u : Vm} {A B : Nat → Prop} {α : Type}

/-- Methods, functions, code and certain bytes are as they were, but for what has been added. -/
structure Lasts (A : Nat → Prop) (v w : Vm) : Prop where
  map : w.map = v.map
  declares : v.world.classes.Declares w.world.classes
  start : w.world.classes.metaspace.start = v.world.classes.metaspace.start
  gains : v.image.Gains w.image
  library : w.library = v.library
  bytes : ∀ j, A j → byteAt w.world.store.mem.bytes j = byteAt v.world.store.mem.bytes j

namespace Lasts

theorem refl (A : Nat → Prop) (v : Vm) : v.Lasts A v :=
  ⟨rfl, .refl _, rfl, .refl, rfl, fun _ _ => rfl⟩

theorem trans (h : v.Lasts A u) (h' : u.Lasts A w) : v.Lasts A w where
  map := h'.map.trans h.map
  declares := h.declares.trans h'.declares
  start := h'.start.trans h.start
  gains := h.gains.trans h'.gains
  library := h'.library.trans h.library
  bytes j hj := (h'.bytes j hj).trans (h.bytes j hj)

theorem mono (h : v.Lasts A w) (less : ∀ j, B j → A j) : v.Lasts B w :=
  { h with bytes := fun j hj => h.bytes j (less j hj) }

theorem of_grows (grows : v.Grows w)
    (bytes : ∀ j, A j → byteAt w.world.store.mem.bytes j = byteAt v.world.store.mem.bytes j) :
    v.Lasts A w where
  map := grows.map
  declares := grows.world.classes ▸ .refl _
  start := by rw [grows.world.classes]
  gains := grows.gains
  library := grows.library
  bytes := bytes

theorem of_spared (spared : v.Spared A w) : v.Lasts A w := .of_grows spared.toGrows spared.bytes.bytes

/-- What spares the bytes may follow. -/
theorem spared (h : v.Lasts A u) (spared : u.Spared A w) : v.Lasts A w := h.trans (.of_spared spared)

theorem modify {f : Vm → Vm} (same : ∀ v, (f v).map = v.map ∧ (f v).image = v.image ∧
    (f v).world = v.world ∧ (f v).library = v.library) :
    Preserves (Lasts A v) (modify f : Action Unit) := Preserves.modify fun u h => by
  obtain ⟨map, image, world, library⟩ := same u
  exact ⟨map.trans h.map, world ▸ h.declares, by rw [world, h.start], image ▸ h.gains,
    library.trans h.library, by rw [world]; exact h.bytes⟩

theorem modifyCpu (f : Cpu → Cpu) : Preserves (Lasts A v) (modifyCpu f) :=
  modify fun _ => ⟨rfl, rfl, rfl, rfl⟩

/-- Memory may be written elsewhere. -/
theorem onMemory {action : Guarded.Action α}
    (elsewhere : ∀ m₀ : Guarded, Preserves
      (fun m => ∀ j, A j → byteAt m.bytes j = byteAt m₀.bytes j) action) :
    Preserves (Lasts A v) (onMemory action) := fun u h => by
  refine (onMemory_ends (elsewhere u.world.store.mem _ fun _ _ => rfl)).mono ?_ ?_
  · rintro _ _ ⟨m, same, rfl⟩
    exact h.trans ⟨rfl, .refl _, rfl, .refl, rfl, same⟩
  · rintro _ _ ⟨m, same, rfl⟩
    exact h.trans ⟨rfl, .refl _, rfl, .refl, rfl, same⟩

end Lasts

/-! ## The yellow zone -/

section
variable (mapped : v.Mapped) (below : ∀ j, A j → j < v.map.thread.toNat)
include mapped below

/-- The state of the zones is a word of the thread. -/
theorem Mapped.lasts_setGuard (s : GuardState) :
    Preserves (Lasts A v) (onThread (·.setGuard s)) := fun u h => by
  refine Ends.get_bind (Lasts.onMemory (fun m₀ m same => ?_) u h)
  have limit := mapped.block_lt
  have offset : ThreadBlock.guardState.toNat = 60 := rfl
  have address : (u.map.thread + ThreadBlock.guardState).toNat = v.map.thread.toNat + 60 := by
    rw [h.map, toNat_add_of_lt (by omega), offset]
  refine (Guarded.write_ends _ _ _ m).mono (fun _ m' changed j hj => ?_) fun _ _ kept => kept ▸ same
  have away := below j hj
  have changed : m.Changed m' (u.map.thread + ThreadBlock.guardState).toNat _ := changed
  exact (changed.other j (.inl (by omega))).trans (same j hj)

/-- Whether the zone is armed is not of the bytes. -/
theorem Mapped.lasts_reguard : Preserves (Lasts A v) reguard := by
  unfold reguard
  refine (Preserves.of_reads guard_reads).bind fun g => ?_
  split
  · exact .pure true
  refine Preserves.bind (Preserves.modifyGet fun u h => ?_) fun agreed => ?_
  · exact { h with }
  split
  · exact .pure false
  refine Preserves.get.bind fun u => (Lasts.onMemory fun m₀ => ?_).bind fun _ =>
    (mapped.lasts_setGuard below _).bind fun _ => .pure true
  exact Preserves.modify fun m same => same

theorem Mapped.lasts_handleFault (fault : MemoryFault) :
    Preserves (Lasts A v) (handleFault fault) := by
  unfold handleFault
  refine Preserves.get.bind fun u => ?_
  dsimp only
  split
  · exact Lasts.modifyCpu _
  split
  · refine (Lasts.onMemory fun m₀ => ?_).bind fun _ =>
      (mapped.lasts_setGuard below _).bind fun _ => Lasts.modifyCpu _
    exact Preserves.modify fun m same => same
  split
  · exact .throw _
  · exact .throw _

omit mapped below in
theorem Lasts.reg (r : Register) : Preserves (Lasts A v) (reg r) := Preserves.of_reads fun _ => rfl

theorem Mapped.lasts_serveReguard : Preserves (Lasts A v) (serve .reguardYellowZone) := by
  have performed : Preserves (Lasts A v) (perform .reguardYellowZone) :=
    (Lasts.reg _).bind fun _ => (Lasts.reg _).bind fun _ => (Lasts.reg _).bind fun _ =>
      (mapped.lasts_reguard below).bind fun _ => Lasts.modifyCpu _
  exact performed.bind fun _ => (Lasts.reg _).bind fun _ => Lasts.modifyCpu _

end

/-! ## Deeds -/

/-- A turn may write anywhere. -/
theorem Mapped.lasts_turn (mapped : v.Mapped) : Ends (fun _ w => v.Lasts (fun _ => False) w)
    (fun _ w => v.Lasts (fun _ => False) w) (Vm.turn v) := by
  have reached {m : Machine} (alike : v.machine.mem.Alike m.mem) : v.Grows (v.withMachine m) :=
    mapped.grows.machine alike
  have still {m : Machine} (same : m.mem = v.world.store.mem) : v.Grows (v.withMachine m) :=
    reached (same ▸ .refl _)
  have grown {w : Vm} (grows : v.Grows w) : v.Lasts (fun _ => False) w := .of_grows grows nofun
  have lasting {action : Action Unit} {m : Machine} (same : m.mem = v.world.store.mem)
      (lasts : (v.withMachine m).Mapped → Preserves (Lasts (fun _ => False) (v.withMachine m)) action) :
      Ends (fun _ w => v.Lasts (fun _ => False) w) (fun _ w => v.Lasts (fun _ => False) w)
        (action (v.withMachine m)) :=
    (lasts ((still same).mapped mapped) _ (.refl _ _)).mono
      (fun _ _ h => (grown (still same)).trans h) fun _ _ h => (grown (still same)).trans h
  refine turn_ends (fun m alike => grown (reached alike)) (fun m target format same => ?_)
    (fun m s step same => ?_) fun m fault same => ?_
  · exact (grows_callNative target format _ (still same)).mono (fun _ _ => grown) fun _ _ => grown
  · by_cases guards : s = .reguardYellowZone
    · exact guards ▸ lasting same fun mapped => mapped.lasts_serveReguard nofun
    · exact (grows_serve guards _ (still same)).mono (fun _ _ => grown) fun _ _ => grown
  · exact lasting same fun mapped => mapped.lasts_handleFault nofun fault

/-- The addresses of records of classes and methods. -/
def OfRecords (v : Vm) (j : Nat) : Prop :=
  0x20000 ≤ j ∧ j < v.world.classes.metaspace.top.toNat

theorem Mapped.below_thread (mapped : v.Mapped) {j : Nat} (hj : v.OfRecords j) :
    j < v.map.thread.toNat := by
  have top := mapped.booted.sound.writable.region.top_le
  have stop := mapped.metaspace
  exact Nat.lt_of_lt_of_le hj.2 (Nat.le_trans top stop)

/-- Only a turn may write over records. -/
def Deed.Spares (v : Vm) (d : Deed) (j : Nat) : Prop := d ≠ .turn ∧ v.OfRecords j

/-- The deed leaves the library to the host. -/
def Deed.Lends (v : Vm) : Deed → Prop
  | .arrange _ library _ => library = v.library
  | _ => True

/-- Taking and looking for safepoints switches the tables, which lie elsewhere. -/
theorem Fenced.lasts_onSafepoints {action : Safepoints.Action α} (h : v.Fenced)
    (switched : ∃ x s m, action (v.safepoints, v.world.store.mem) = .ok x (s, m) ∧
      Safepoints.Switched v.world.store.mem m) :
    Ends (fun _ w => v.Lasts v.OfRecords w) (fun _ w => v.Lasts v.OfRecords w)
      (Vm.onSafepoints action v) := by
  obtain ⟨x, s, m, ran, switched⟩ := switched
  have ends : Ends (fun _ r => Safepoints.Switched v.world.store.mem r.2)
      (fun (_ : Failure) _ => False) (action (v.safepoints, v.world.store.mem)) := by
    rw [ran]
    exact switched
  refine (onSafepoints_ends ends).mono ?_ fun _ _ ⟨_, _, nothing, _⟩ => nothing.elim
  rintro _ _ ⟨s, m, switched, rfl⟩
  refine .of_grows (h.mapped.grows.arranged s ⟨switched.size, switched.guards⟩) fun j hj => ?_
  have low := hj.1
  exact switched.other j (.inr (by omega)) (.inr (by omega))

theorem Fenced.lasts (h : v.Fenced) (d : Deed) (lends : d.Lends v) :
    Ends (fun _ w => v.Lasts (d.Spares v) w) (fun _ w => v.Lasts (d.Spares v) w) (d.act v) := by
  have mapped := h.mapped
  have clear : v.world.store.mem.Clear 0x1000 0x1f000 := by
    have tables := h.tables
    have thread := h.zoned.ordered.thread
    exact h.clear.mono (Nat.le_refl _) (by omega)
  have apart : ThreadBlock.Apart ⟨v.map.thread⟩ v.OfRecords := fun j hj => .inl (mapped.below_thread hj)
  have mono {w : Vm} (h : v.Lasts v.OfRecords w) : v.Lasts (d.Spares v) w := h.mono fun _ h => h.2
  have adds {world : World} (adds : v.world.Adds world) :
      v.Lasts v.OfRecords { v with world } :=
    ⟨rfl, adds.declares, adds.spares.start, .refl, rfl, fun j hj => adds.below j (Nat.zero_le j) hj.2⟩
  have added {β : Type} {action : World.Action β} (ends : Ends (fun _ w => v.world.Adds w)
      (fun _ w => v.world.Adds w) (action v.world)) :
      Ends (fun _ w => v.Lasts (d.Spares v) w) (fun _ w => v.Lasts (d.Spares v) w)
        ((do let _ ← onWorld action : Action Unit) v) := by
    refine (onWorld_ends ends).bind ?_ ?_
    · rintro _ _ ⟨world, h, rfl⟩
      exact mono (adds h)
    · rintro _ _ ⟨world, h, rfl⟩
      exact mono (adds h)
  cases d with
  | load c small => exact added (World.load_adds mapped.booted small)
  | handleInvoker descriptor => exact added (World.handleInvoker_adds mapped.booted _ descriptor)
  | beginCall id arguments few =>
    have size : v.world.store.mem.bytes.size < 2 ^ 64 := h.size ▸ v.map.size.toNat_lt
    exact (mapped.spared_beginCall apart size id few).mono
      (fun _ _ spared => mono (.of_spared spared)) fun _ _ spared => mono (.of_spared spared)
  | turn =>
    exact (mapped.lasts_turn).bind (fun _ _ h => h.mono fun _ hj => hj.1 rfl)
      fun _ _ h => h.mono fun _ hj => hj.1 rfl
  | settle =>
    exact (mapped.spared_field apart (.inl (by decide)) v (.refl mapped.booted.sound.store)).mono
      (fun _ _ spared => mono (.of_spared spared)) fun _ _ spared => mono (.of_spared spared)
  | outcome result =>
    have told {u : Vm} (mapped : u.Mapped) (lasts : v.Lasts v.OfRecords u) :
        Ends (fun _ w => v.Lasts v.OfRecords w) (fun _ w => v.Lasts v.OfRecords w)
          (tell result u) :=
      (mapped.spared_tell (lasts.map ▸ apart) result u (.refl mapped.booted.sound.store)).mono
        (fun _ _ => lasts.spared) fun _ _ => lasts.spared
    have fenced : v.EndsFenced False True (reguard v) := mapped.reguard_ends trivial
    have rearmed := fenced.and (mapped.lasts_reguard (fun _ => mapped.below_thread) v (.refl _ v))
    have ends : Ends (fun _ w => v.Lasts v.OfRecords w) (fun _ w => v.Lasts v.OfRecords w)
        (outcome result v) := by
      rw [outcome_eq]
      refine guard_reads.next (fun _ => .refl _ v) fun g => ?_
      exact .ite (fun _ => rearmed.bind (fun _ _ h => h.2) fun _ _ h => told h.1.mapped h.2) fun _ =>
        told mapped (.refl _ v)
    exact ends.bind (fun _ _ h => mono h) fun _ _ h => mono h
  | request name => exact mono { Lasts.refl _ v with }
  | poll =>
    exact (h.lasts_onSafepoints (Safepoints.poll_switched clear)).bind (fun _ _ h => mono h)
      fun _ _ h => mono h
  | atSafepoint =>
    exact (h.lasts_onSafepoints (Safepoints.atSafepoint_switched clear)).bind
      (fun _ _ h => mono h) fun _ u h => Preserves.forM (f := fun name => note (.safepoint name))
        (fun _ => Lasts.modify fun _ => ⟨rfl, rfl, rfl, rfl⟩) u (mono h)
  | arrange hooks library bridge => exact mono { Lasts.refl _ v with library := lends }

end TemplateVm.Vm
