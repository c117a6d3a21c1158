import TemplateVm.Proofs.Calls.GuardZones
import TemplateVm.Proofs.Safepoints.Detour

set_option autoImplicit false

/-!
# Upkeep of the tables

The record of safepoints, a word in memory and the active table say the same thing, and the other
tables stay as they were installed. Whatever the host and the runtime do keeps that up; a turn in
which neither the processor nor a service writes over the word and the tables does so too.
-/
namespace TemplateVm

open Memory (Guarded load byteAt)

namespace Vm

variable {v v₀ u w : Vm} {settings : Settings} {α : Type}

/-- The record of safepoints is what memory shows, and the tables that are written once are those of
    the machine that was built. -/
structure Tended (v₀ v : Vm) : Prop where
  mapped : v.Mapped
  start : v.world.classes.metaspace.start = Place.metaspace
  tabled : v.Tabled v.world.store.mem
  fixed : ∀ j, Place.OfFixed j → byteAt v.world.store.mem.bytes j =
    byteAt v₀.world.store.mem.bytes j

namespace Tended

/-- The block of the thread lies above the tables. -/
theorem thread (h : v₀.Tended v) : 0x20000 ≤ v.map.thread.toNat := by
  have start : v.world.classes.metaspace.start.toNat = 0x20000 := congrArg UInt64.toNat h.start
  have region := h.mapped.booted.sound.writable.region
  have metaspace := h.mapped.metaspace
  have first := region.start_le
  have last := region.top_le
  omega

theorem below (h : v₀.Tended v) {j : Nat} (hj : Place.OfTables j) : j < v.map.thread.toNat := by
  have thread := h.thread
  unfold Place.OfTables Place.OfFixed at hj
  omega

theorem apart (h : v₀.Tended v) : ThreadBlock.Apart ⟨v.map.thread⟩ Place.OfTables :=
  fun _ hj => .inl (h.below hj)

theorem spared (h : v₀.Tended v) (spared : v.Spared Place.OfTables w) : v₀.Tended w where
  mapped := spared.toGrows.mapped h.mapped
  start := by rw [spared.world.classes]; exact h.start
  tabled := by
    have kept := h.tabled.same (h.tabled.shown.clear.congr spared.alike.size spared.alike.guards)
      spared.bytes.bytes
    exact ⟨spared.safepoints ▸ kept.shown, spared.normal ▸ kept.normal,
      spared.detour ▸ kept.detour⟩
  fixed j hj := (spared.bytes.bytes j (.inr (.inr hj))).trans (h.fixed j hj)

/-- What spares the tables may follow. -/
theorem next {action : Action α} (h : v₀.Tended v)
    (spares : Preserves (Spared Place.OfTables v) action) :
    Ends (fun _ w => v₀.Tended w) (fun _ w => v₀.Tended w) (action v) :=
  (spares v (.refl h.mapped.booted.sound.store)).mono (fun _ _ spared => h.spared spared)
    fun _ _ spared => h.spared spared

/-- Records and objects may be added. -/
theorem adds {world : World} (h : v₀.Tended v) (adds : v.world.Adds world) :
    v₀.Tended { v with world } where
  mapped := h.mapped.adds adds
  start := adds.spares.start.trans h.start
  tabled := h.tabled.spares adds.spares h.start
  fixed j hj := by
    have start : v.world.classes.metaspace.start.toNat = 0x20000 := congrArg UInt64.toNat h.start
    have kept := adds.spares.agrees j (Nat.zero_le _)
    unfold Place.OfFixed at hj
    exact (kept (by omega)).trans (h.fixed j hj)

/-- The tables may be switched by what keeps the record right. -/
theorem onSafepoints {action : Safepoints.Action α} (h : v₀.Tended v)
    (ran : ∃ x s m, action (v.safepoints, v.world.store.mem) = .ok x (s, m) ∧
      Safepoints.Switched v.world.store.mem m ∧ s.Shown m) :
    Ends (fun _ w => v₀.Tended w) (fun _ w => v₀.Tended w) (onSafepoints action v) := by
  obtain ⟨x, s, m, ran, switched, shown⟩ := ran
  have ends : Ends (fun _ r => Safepoints.Switched v.world.store.mem r.2 ∧ r.1.Shown r.2)
      (fun (_ : Failure) _ => False) (action (v.safepoints, v.world.store.mem)) := by
    rw [ran]
    exact ⟨switched, shown⟩
  refine (onSafepoints_ends ends).mono ?_ fun _ _ ⟨_, _, nothing, _⟩ => nothing.elim
  rintro _ _ ⟨s, m, ⟨switched, shown⟩, rfl⟩
  have tabled := h.tabled.switched switched shown
  exact ⟨(h.mapped.alike ⟨switched.size, switched.guards⟩).congr rfl rfl, h.start,
    ⟨tabled.shown, tabled.normal, tabled.detour⟩,
    fun j hj => (switched.fixed hj).trans (h.fixed j hj)⟩

end Tended

/-! ## What is done about safepoints -/

/-- The action keeps up the tables. -/
abbrev Tends (action : Action α) : Prop := ∀ v₀, Preserves (Tended v₀) action

theorem Tends.of_spared {action : Action α}
    (h : ∀ v, Preserves (Spared Place.OfTables v) action) : Tends action := fun _ v tended =>
  tended.next (h v)

theorem Tends.of_reads {action : Action α} (h : Reads action) : Tends action := fun _ => .of_reads h

theorem Tends.get : Tends (MonadState.get : Action Vm) := fun _ => .get

theorem Tends.reg (r : Register) : Tends (reg r) := .of_reads fun _ => rfl

theorem Tends.modify {f : Vm → Vm} (same : ∀ v, (f v).map = v.map ∧ (f v).image = v.image ∧
    (f v).safepoints = v.safepoints ∧ (f v).world = v.world ∧ (f v).library = v.library) :
    Tends (modify f : Action Unit) := .of_spared fun _ => spared_modify same

theorem Tends.bind {β : Type} {action : Action α} {f : α → Action β} (h : Tends action)
    (next : ∀ x, Tends (f x)) : Tends (action >>= f) := fun v₀ => (h v₀).bind fun x => next x v₀

theorem tends_write {f n x : UInt64} (inside : f.toNat + n.toNat ≤ 0x1000) :
    Tends (onThread (·.write f n x)) := fun _ v tended => tended.next <| by
  have limit := tended.mapped.block_lt
  have address : (v.map.thread + f).toNat = v.map.thread.toNat + f.toNat :=
    toNat_add_of_lt (by omega)
  refine spared_onThread fun _ => Guarded.spared_write fun j hj => .inl ?_
  have below := tended.below hj
  change j < (v.map.thread + f).toNat
  omega

/-- A request is seen when it is looked for. -/
theorem tends_request {f : Safepoints → Safepoints}
    (asks : ∀ s, (f s).armed = s.armed ∧ (f s).requested = true) :
    Tends (modify fun v => { v with safepoints := f v.safepoints }) := fun v₀ =>
  Preserves.modify fun v tended => by
    obtain ⟨armed, requested⟩ := asks v.safepoints
    have shown := tended.tabled.shown
    have table : (f v.safepoints).table = v.safepoints.table := by
      unfold Safepoints.table
      rw [armed]
    refine ⟨tended.mapped.congr rfl rfl, tended.start, ⟨⟨shown.clear, ?_, ?_, fun _ => requested,
      fun _ => requested⟩, tended.tabled.normal, tended.tabled.detour⟩, tended.fixed⟩
    · rw [armed]
      exact shown.state
    · rw [table]
      exact shown.active

theorem tends_poll : Tends poll := fun _ v tended => by
  obtain ⟨armed, m, ran, switched, shown⟩ := Safepoints.poll_ok tended.tabled.shown
  exact (tended.onSafepoints ⟨armed, _, m, ran, switched, shown⟩).bind (fun _ _ h => h)
    fun _ _ h => h

theorem tends_atSafepoint : Tends atSafepoint := fun _ v tended => by
  obtain ⟨m, ran, switched, shown⟩ := Safepoints.atSafepoint_ok tended.tabled.shown
  exact (tended.onSafepoints ⟨_, _, m, ran, switched, shown⟩).bind (fun _ _ h => h)
    fun names _ h => h.next (.forM fun _ => spared_modify fun _ => ⟨rfl, rfl, rfl, rfl, rfl⟩)

theorem tends_return : Tends (do goTo (← reg .link)) :=
  (Tends.reg _).bind fun _ => .of_spared fun _ => spared_modifyCpu _

/-- A service keeps up the tables if its own work does. -/
theorem tends_serve {s : Service} (performs : Tends (perform s)) : Tends (serve s) := fun v₀ =>
  preserves_serve (fun _ => tends_write (by decide) v₀) (tends_return v₀) (performs v₀)

theorem tends_resume : Tends (onThread fun t => do
    if (← t.suspend) ≠ 0 then t.setSuspend 0) := fun _ v tended => tended.next <| by
  have limit := tended.mapped.block_lt
  refine spared_onThread fun m₀ => (Preserves.of_reads ((Reads.readA _ _).bind fun _ =>
    .pure _)).bind fun flags => ?_
  split
  · exact ThreadBlock.spared_write tended.apart limit (.inl (by decide))
  · exact .pure ()

theorem tends_checkNativeTransition : Tends checkNativeTransition := by
  unfold checkNativeTransition
  refine Tends.get.bind fun v => ?_
  dsimp only
  split
  · exact tends_atSafepoint.bind fun _ => tends_resume
  · exact tends_resume

/-- A function of the host may ask for a safepoint, or have the thread suspended. -/
theorem tends_callNative (target : UInt64) (packed : UInt32) :
    Tends (callNative target packed) := by
  unfold callNative
  cases Native.CallFormat.unpack packed with
  | error defect => exact .of_reads (.throw _)
  | ok format =>
    refine (Tends.of_reads (.pure format)).bind fun format => Tends.get.bind fun v => ?_
    dsimp only
    split
    · exact .of_reads (.throw _)
    · have bridged (bridge : Native.Bridge) : Tends (modify fun vm : Vm => { vm with bridge }) :=
        .modify fun _ => ⟨rfl, rfl, rfl, rfl, rfl⟩
      refine (bridged _).bind fun _ => (Tends.of_spared fun _ => spared_modifyCpu _).bind fun _ => ?_
      refine (Tends.of_spared fun _ => spared_consult _).bind fun request => ?_
      cases request with
      | nothing => exact .of_reads (.pure ())
      | safepoint => exact Tends.bind (tends_request fun _ => ⟨rfl, rfl⟩) fun _ => tends_poll
      | suspend => exact tends_write (by decide)

/-! ## The guard zones -/

/-- Guards on the stack do not get in the way. -/
theorem Tended.setGuard {next : Action α} {f : Guarded → Guarded} {g : GuardState}
    (h : v₀.Tended v) (onStack : v.map.OnStack f) (tends : Tends next) :
    Ends (fun _ w => v₀.Tended w) (fun _ w => v₀.Tended w) ((do
      onMemory (modify f)
      onThread (·.setGuard g)
      next : Action α) v) := by
  have below : 0x1f000 ≤ v.map.redEnd.toNat := by
    have start := h.thread
    have thread := h.mapped.ordered.thread
    have stack := h.mapped.ordered.stack
    omega
  have shifted : onMemory (modify f) v = .ok ⟨⟩ (v.withMemory (f v.world.store.mem)) := rfl
  rw [bind_ok shifted]
  have same (j : Nat) : byteAt (f v.world.store.mem).bytes j = byteAt v.world.store.mem.bytes j := by
    rw [onStack.bytes]
  have kept := h.tabled.same (onStack.clear below h.tabled.shown.clear) fun j _ => same j
  have tended : v₀.Tended (v.withMemory (f v.world.store.mem)) :=
    ⟨h.mapped.memory fun _ _ => onStack.clear, h.start, ⟨kept.shown, kept.normal, kept.detour⟩,
      fun j hj => (same j).trans (h.fixed j hj)⟩
  exact Tends.bind (tends_write (by decide)) (fun _ => tends) v₀ _ tended

theorem tends_reguard : Tends reguard := by
  refine (Tends.of_reads guard_reads).bind fun g => ?_
  split
  · exact .of_reads (.pure _)
  refine (Tends.of_spared fun _ => spared_consult _).bind fun agreed => ?_
  split
  · exact .of_reads (.pure _)
  exact fun _ v tended => Ends.get_bind <| tended.setGuard
    (MemoryMap.onStack_protect _) (.of_reads (.pure _))

theorem tends_goTo (pc : UInt64) : Tends (goTo pc) := .of_spared fun _ => spared_modifyCpu _

theorem tends_handleFault (fault : MemoryFault) : Tends (handleFault fault) :=
  fun v₀ v tended => Ends.get_bind <|
    .ite (fun _ => tends_goTo _ v₀ v tended) fun _ =>
    .ite (fun _ => tended.setGuard (MemoryMap.onStack_unprotect _) (tends_goTo _)) fun _ =>
    .ite (fun _ => tended) fun _ => tended

theorem tends_outcome (result : TypeTag) : Tends (outcome result) := by
  have tells : Tends (tell result) := fun _ _ tended =>
    tended.next (tended.mapped.spared_tell tended.apart result)
  rw [outcome_eq]
  refine (Tends.of_reads guard_reads).bind fun g => ?_
  split
  · exact tends_reguard.bind fun _ => tells
  · exact tells

/-! ## Deeds -/

/-- Only the processor has done something. -/
theorem Tended.machine {m : Machine} (h : v₀.Tended v) (same : m.mem = v.world.store.mem) :
    v₀.Tended (v.withMachine m) := by
  obtain ⟨processor, _⟩ := m
  subst same
  exact ⟨h.mapped.congr rfl rfl, h.start, ⟨h.tabled.shown, h.tabled.normal, h.tabled.detour⟩,
    h.fixed⟩

/-- A turn keeps up the tables by itself, or it has nothing to do with safepoints. -/
theorem Tended.turn (h : v₀.Tended v) : Ends (fun _ w => v₀.Tended w ∨ v.Stays w)
    (fun _ w => v₀.Tended w ∨ v.Stays w) (Vm.turn v) := by
  have stays {m : Machine} (alike : v.machine.mem.Alike m.mem) : v.Stays (v.withMachine m) :=
    ⟨h.mapped.grows.machine alike, rfl⟩
  have tending {action : Action Unit} {m : Machine} (same : m.mem = v.world.store.mem)
      (tends : Tends action) : Ends (fun _ w => v₀.Tended w ∨ v.Stays w)
        (fun _ w => v₀.Tended w ∨ v.Stays w) (action (v.withMachine m)) :=
    (tends v₀ _ (h.machine same)).mono (fun _ _ => .inl) fun _ _ => .inl
  have args {next : UInt64 → UInt64 → UInt64 → Action Unit}
      (h : ∀ a0 a1 a2, Tends (next a0 a1 a2)) : Tends (do
        let a0 ← reg .x0
        let a1 ← reg .x1
        let a2 ← reg .x2
        next a0 a1 a2) :=
    (Tends.reg _).bind fun _ => (Tends.reg _).bind fun _ => (Tends.reg _).bind fun _ => h _ _ _
  refine turn_ends (fun m alike => .inr (stays alike))
    (fun m target format same => tending same (tends_callNative target format))
    (fun m s _ same => ?_) fun m fault same => tending same (tends_handleFault fault)
  by_cases guards : s = .reguardYellowZone
  · subst guards
    exact tending same <| tends_serve <| args fun _ _ _ =>
      tends_reguard.bind fun _ => .of_spared fun _ => spared_modifyCpu _
  by_cases entered : s = .atSafepoint
  · subst entered
    exact tending same <| tends_serve <| args fun _ _ _ => tends_atSafepoint
  by_cases returned : s = .checkNativeTransition
  · subst returned
    exact tending same <| tends_serve <| args fun _ _ _ => tends_checkNativeTransition
  · exact (steady_serve guards ⟨entered, returned⟩ v _ (stays (same ▸ .refl _))).mono
      (fun _ _ => .inr) fun _ _ => .inr

/-- Every deed keeps up the tables, if a turn that does nothing about safepoints spares them. -/
theorem Tended.act (h : v₀.Tended v) (fenced : v.Fenced) (d : Deed) (left : Leaves d.act v w)
    (fair : d = .turn → w.safepoints = v.safepoints → ∀ j, Place.OfTables j →
      byteAt w.world.store.mem.bytes j = byteAt v.world.store.mem.bytes j) : v₀.Tended w := by
  have ignoring {β : Type} {action : Action β} (ends : Ends (fun _ w => v₀.Tended w)
      (fun _ w => v₀.Tended w) (action v)) : Ends (fun _ w => v₀.Tended w)
        (fun _ w => v₀.Tended w) ((do let _ ← action : Action Unit) v) :=
    ends.bind (fun _ _ h => h) fun _ _ h => h
  have added {β : Type} {action : World.Action β} (ends : Ends (fun _ w => v.world.Adds w)
      (fun _ w => v.world.Adds w) (action v.world)) : Ends (fun _ w => v₀.Tended w)
        (fun _ w => v₀.Tended w) (onWorld action v) := by
    refine (onWorld_ends ends).mono ?_ ?_
    · rintro _ _ ⟨world, adds, rfl⟩
      exact h.adds adds
    · rintro _ _ ⟨world, adds, rfl⟩
      exact h.adds adds
  cases d with
  | load c small => exact left.of_ends (ignoring (added (World.load_adds h.mapped.booted small)))
  | handleInvoker descriptor =>
    exact left.of_ends (ignoring (added (World.handleInvoker_adds h.mapped.booted _ descriptor)))
  | beginCall id arguments few =>
    have size : v.world.store.mem.bytes.size < 2 ^ 64 := fenced.size ▸ v.map.size.toNat_lt
    exact left.of_ends ((h.mapped.spared_beginCall h.apart size id few).mono
      (fun _ _ spared => h.spared spared) fun _ _ spared => h.spared spared)
  | turn =>
    have ends : Ends (fun _ w => v₀.Tended w ∨ v.Stays w) (fun _ w => v₀.Tended w ∨ v.Stays w)
        (Deed.turn.act v) := h.turn.bind (fun _ _ h => h) fun _ _ h => h
    rcases left.of_ends ends with tended | stays
    · exact tended
    · exact h.spared ⟨stays, stays.alike, fair rfl stays.safepoints⟩
  | settle => exact left.of_ends (tends_write (by decide) v₀ v h)
  | outcome result => exact left.of_ends (ignoring (tends_outcome result v₀ v h))
  | request name =>
    refine left.of_ends (tends_request (fun s => ?_) v₀ v h)
    cases name <;> exact ⟨rfl, rfl⟩
  | poll => exact left.of_ends (tends_poll v₀ v h)
  | atSafepoint => exact left.of_ends (tends_atSafepoint v₀ v h)
  | arrange hooks library bridge =>
    have arranged : Tends (Deed.arrange hooks library bridge).act := fun _ =>
      Preserves.modify fun v h => ⟨h.mapped.congr rfl rfl, h.start,
        ⟨h.tabled.shown, h.tabled.normal, h.tabled.detour⟩, h.fixed⟩
    exact left.of_ends (arranged v₀ v h)

/-! ## From the machine that was built -/

theorem create_tended (valid : settings.defect? = none) (fits : settings.Fits)
    (created : create settings = .ok v) : v.Tended v := by
  have zoned := MemoryMap.zoned valid fits
  obtain ⟨tabled, -⟩ := create_tabled zoned.ordered (settings.shadow_lt valid fits) created
  obtain ⟨m, -, -, ⟨-, spares, -⟩, -⟩ := create_ends zoned.ordered created
  exact ⟨(create_rests zoned.ordered created).mapped, spares.start, tabled, fun _ _ => rfl⟩

/-- Wherever the host and guest code come to, the tables are kept up, or else the turn with which
    that ended has written over them without doing anything about safepoints. -/
theorem Comes.tended_or (valid : settings.defect? = none) (fits : settings.Fits)
    (created : create settings = .ok v) (comes : v.Comes w) :
    v.Tended w ∨ ∃ u u' : Vm, v.Comes u ∧ v.Tended u ∧ Leaves Deed.turn.act u u' ∧ u'.Comes w ∧
      u'.safepoints = u.safepoints ∧ ∃ j, Place.OfTables j ∧
        byteAt u'.world.store.mem.bytes j ≠ byteAt u.world.store.mem.bytes j := by
  have start : v.Fenced ∧ v.Tended v :=
    ⟨(create_told valid fits created).1, create_tended valid fits created⟩
  have step {u w : Vm} (d : Deed) (before : u.Fenced ∧ v.Tended u) (left : Leaves d.act u w)
      (fair : d = .turn → w.safepoints = u.safepoints → ∀ j, Place.OfTables j →
        byteAt w.world.store.mem.bytes j = byteAt u.world.store.mem.bytes j) :
      w.Fenced ∧ v.Tended w :=
    ⟨(left.of_ends (before.1.act d)).fenced before.1, before.2.act before.1 d left fair⟩
  rcases comes.holds_or start step with ⟨-, tended⟩ | ⟨u, u', before, ⟨-, tended⟩, left, unfair, after⟩
  · exact .inl tended
  · obtain ⟨idle, written⟩ := Classical.not_imp.mp unfair
    obtain ⟨j, written⟩ := Classical.not_forall.mp written
    obtain ⟨place, other⟩ := Classical.not_imp.mp written
    exact .inr ⟨u, u', before, tended, left, after, idle, j, place, other⟩

/-! ## What can be read off -/

/-- The two tables that are switched between differ. -/
def Distinct (m : Guarded) : Prop :=
  ∃ k < 0x5000, byteAt m.bytes (0x1a000 + k) ≠ byteAt m.bytes (0x15000 + k)

theorem Tabled.distinct {m : Guarded} (h : v.Tabled m) (armable : Image.Armable settings v.image) :
    Distinct m := by
  obtain ⟨tos, o, differ⟩ := armable.tables_ne
  refine Classical.by_contradiction fun none => differ ?_
  have same (k : Nat) (hk : k < 0x5000) :
      byteAt m.bytes (0x1a000 + k) = byteAt m.bytes (0x15000 + k) :=
    Classical.not_not.mp fun other => none ⟨k, hk, other⟩
  have copied : v.image.normalTable.In m Place.safepointTable :=
    h.normal.copied (by decide) (by decide) same
  exact (h.detour tos o.byte).symm.trans (copied tos o.byte)

/-- A safepoint is armed where the word and the active table say so, and only there. -/
theorem Tended.armed_iff (h : v₀.Tended v) (distinct : Distinct v₀.world.store.mem) :
    (v.safepoints.armed = true ↔
        load v.world.store.mem.bytes 0x1000 4 = Safepoints.armedCode) ∧
      (v.safepoints.armed = true ↔ ∀ k < 0x5000, byteAt v.world.store.mem.bytes (0x10000 + k) =
        byteAt v.world.store.mem.bytes (0x1a000 + k)) := by
  have state := h.tabled.shown.state
  have active := h.tabled.shown.active
  have fixed (k : Nat) (hk : k < 0x5000) :
      byteAt v.world.store.mem.bytes (0x15000 + k) = byteAt v₀.world.store.mem.bytes (0x15000 + k) ∧
      byteAt v.world.store.mem.bytes (0x1a000 + k) = byteAt v₀.world.store.mem.bytes (0x1a000 + k) :=
    ⟨h.fixed _ (.inr (by omega)), h.fixed _ (.inr (by omega))⟩
  unfold Safepoints.table at active
  cases armed : v.safepoints.armed with
  | true =>
    rw [armed] at state active
    exact ⟨iff_of_true rfl state, iff_of_true rfl active⟩
  | false =>
    rw [armed] at state active
    refine ⟨iff_of_false nofun fun other => ?_, iff_of_false nofun fun other => ?_⟩
    · exact absurd (state.symm.trans other) (by decide)
    · obtain ⟨k, hk, differ⟩ := distinct
      have same : byteAt v.world.store.mem.bytes (0x10000 + k) =
        byteAt v.world.store.mem.bytes (0x15000 + k) := active k hk
      exact differ ((fixed k hk).2.symm.trans ((other k hk).symm.trans (same.trans (fixed k hk).1)))

/-- Otherwise the word is clear and the active table is the normal one. -/
theorem Tended.idle (h : v₀.Tended v) (idle : v.safepoints.armed = false) :
    load v.world.store.mem.bytes 0x1000 4 = Safepoints.idleCode ∧
      ∀ k < 0x5000, byteAt v.world.store.mem.bytes (0x10000 + k) =
        byteAt v.world.store.mem.bytes (0x15000 + k) := by
  have state := h.tabled.shown.state
  have active := h.tabled.shown.active
  unfold Safepoints.table at active
  rw [idle] at state active
  exact ⟨state, active⟩

/-- The tables of a machine that was built differ. -/
theorem create_distinct (valid : settings.defect? = none) (fits : settings.Fits)
    (created : create settings = .ok v) : Distinct v.world.store.mem := by
  have zoned := MemoryMap.zoned valid fits
  obtain ⟨tabled, -, armable⟩ :=
    create_tabled zoned.ordered (settings.shadow_lt valid fits) created
  exact tabled.distinct armable

end Vm
end TemplateVm
