import TemplateVm.Proofs.Activation.Banging
import TemplateVm.Proofs.Calls.Sparing
import TemplateVm.Proofs.Machine.Atomic
import TemplateVm.Proofs.Memory.Map

set_option autoImplicit false
set_option synthInstance.maxSize 100000

/-!
# The guard zones of the stack

The null page and the red zone are guarded once and for good. The yellow zone is armed and disarmed,
and a word of the thread's block says which of the two came last. Each deed leaves the guards alone,
arms the zone where the word says that it is disarmed, or disarms it. So nothing else is ever
guarded, and the word is right until a turn writes over it that has nothing to do with the guards.

While the yellow zone is disarmed, the pages that an entry touches are free memory down to the red
zone. A method that gets past the touches has its stack pointer above the red zone by all the pages
that are touched; any other ends the run.
-/
namespace TemplateVm

open Memory (Guarded GuardRange load byteAt)

theorem GuardState.code_of_ofCode? {n : UInt32} {s : GuardState} (h : ofCode? n = some s) :
    s.code = n := by
  unfold ofCode? at h
  have like : (s.code == n) = true := List.find?_some (p := fun s : GuardState => s.code == n) h
  exact eq_of_beq like

namespace MemoryMap

variable {map : MemoryMap} {m m' m'' : Guarded} {told arms : Prop} {n : Nat}

/-- The guards that are never taken away. -/
def lasting (map : MemoryMap) : List GuardRange :=
  [⟨0, Place.nullPageEnd, GuardTag.nullPage⟩, ⟨map.stackLimit, map.redEnd, GuardTag.redZone⟩]

def yellowGuard (map : MemoryMap) : GuardRange := ⟨map.redEnd, map.yellowEnd, GuardTag.yellowZone⟩

/-- What the thread's block says about the yellow zone. -/
def guardWord (map : MemoryMap) (m : Guarded) : UInt64 :=
  load m.bytes (map.thread + ThreadBlock.guardState).toNat 4

/-- The lasting guards are there, and behind them the yellow zone so many times. -/
def Guards (map : MemoryMap) (n : Nat) (m : Guarded) : Prop :=
  m.guards = map.lasting ++ List.replicate n map.yellowGuard

/-- What the block says is so. -/
inductive Told (map : MemoryMap) (m : Guarded) : Prop
  | armed (guards : map.Guards 1 m) (word : map.guardWord m = GuardState.enabled.code.toUInt64)
  | disarmed (guards : map.Guards 0 m)
    (word : map.guardWord m = GuardState.yellowDisabled.code.toUInt64)

/-- What may become of the guards. Where they are left alone the word is known to be so only if it
    is `told`, and the zone is armed only by what `arms` it. -/
inductive Shifts (told arms : Prop) (map : MemoryMap) (m m' : Guarded) : Prop
  | kept (guards : m'.guards = m.guards) (word : told → map.guardWord m' = map.guardWord m)
  | armed (may : arms) (was : map.guardWord m = GuardState.yellowDisabled.code.toUInt64)
    (guards : m'.guards = m.guards ++ [map.yellowGuard])
    (word : map.guardWord m' = GuardState.enabled.code.toUInt64)
  | disarmed (guards : m'.guards = (m.unprotect map.redEnd map.yellowSize).guards)
    (word : map.guardWord m' = GuardState.yellowDisabled.code.toUInt64)

namespace Shifts

theorem refl (map : MemoryMap) (m : Guarded) : Shifts told arms map m m := .kept rfl fun _ => rfl

/-- Afterwards guards and word may be left as they are. -/
theorem trans (h : Shifts told arms map m m') (guards : m''.guards = m'.guards)
    (word : map.guardWord m'' = map.guardWord m') : Shifts told arms map m m'' := by
  cases h with
  | kept guards' word' => exact .kept (guards.trans guards') fun told => word.trans (word' told)
  | armed may was guards' word' => exact .armed may was (guards.trans guards') (word.trans word')
  | disarmed guards' word' => exact .disarmed (guards.trans guards') (word.trans word')

theorem tell (h : Shifts told arms map m m')
    (known : told ∨ (m'.guards = m.guards → map.guardWord m' = map.guardWord m)) :
    Shifts True arms map m m' := by
  cases h with
  | kept guards word =>
    exact .kept guards fun _ => known.elim word fun known => known guards
  | armed may was guards word => exact .armed may was guards word
  | disarmed guards word => exact .disarmed guards word

end Shifts

/-! ## The guards -/

/-- Only guards on the stack are set or taken away. -/
structure OnStack (map : MemoryMap) (f : Guarded → Guarded) : Prop where
  bytes : ∀ m, (f m).bytes = m.bytes
  clear : ∀ {m lo hi}, hi ≤ map.redEnd.toNat → m.Clear lo hi → (f m).Clear lo hi

theorem onStack_protect (map : MemoryMap) :
    map.OnStack (·.protect map.redEnd map.yellowSize GuardTag.yellowZone) :=
  ⟨fun _ => rfl, fun below clear => clear.protect (.inr below)⟩

theorem onStack_unprotect (map : MemoryMap) :
    map.OnStack (·.unprotect map.redEnd map.yellowSize) :=
  ⟨fun _ => rfl, fun _ clear => clear.unprotect⟩

namespace Zoned

/-- Disarming takes away the yellow zone, as often as it is guarded, and nothing else. -/
theorem unprotect (zoned : map.Zoned) (guards : map.Guards n m) :
    map.Guards 0 (m.unprotect map.redEnd map.yellowSize) := by
  have red := zoned.red
  have some : 0 < map.redPages.toNat * map.pageSize.toNat :=
    Nat.mul_pos zoned.redPages (Nat.lt_of_lt_of_le (by decide) zoned.page)
  have null : ¬ map.redEnd ≤ 0 := by
    rw [UInt64.le_iff_toNat_le]
    change ¬ _ ≤ 0
    omega
  have first : ¬ map.redEnd ≤ map.stackLimit := by
    rw [UInt64.le_iff_toNat_le]
    omega
  have all : (List.replicate n map.yellowGuard).filter
      (fun g => !(map.redEnd ≤ g.start && g.stop ≤ map.redEnd + map.yellowSize)) = [] := by
    refine List.filter_eq_nil_iff.mpr fun g hg => ?_
    rw [List.eq_of_mem_replicate hg]
    simp [yellowGuard, yellowEnd]
  unfold Guards Guarded.unprotect at *
  rw [guards, List.filter_append, all]
  simp [lasting, null, first]

/-- No guard lies between the null page and the stack. -/
theorem clear (zoned : map.Zoned) (guards : map.Guards n m)
    (size : m.bytes.size = map.size.toNat) :
    m.Clear Place.nullPageEnd.toNat map.stackLimit.toNat where
  inside := by
    have stack := zoned.ordered.stack
    have size' := zoned.ordered.size
    omega
  unguarded g hg := by
    rw [guards] at hg
    rcases List.mem_append.mp hg with hg | hg
    · simp only [lasting, List.mem_cons, List.not_mem_nil, or_false] at hg
      rcases hg with rfl | rfl
      · exact .inl (Nat.le_refl _)
      · exact .inr (Nat.le_refl _)
    · rw [List.eq_of_mem_replicate hg]
      exact .inr zoned.ordered.stack

end Zoned

theorem Shifts.guards (h : Shifts told arms map m m') (zoned : map.Zoned) (before : map.Guards n m) :
    ∃ n, map.Guards n m' := by
  cases h with
  | kept guards _ => exact ⟨n, guards.trans before⟩
  | armed _ _ guards _ =>
    refine ⟨n + 1, ?_⟩
    unfold Guards at *
    rw [guards, before, List.append_assoc, ← List.replicate_succ']
  | disarmed guards _ => exact ⟨0, guards.trans (zoned.unprotect before)⟩

/-- The zone is armed only after it was disarmed, so that it is never guarded twice. -/
theorem Told.shifts (h : map.Told m) (zoned : map.Zoned) (shifts : Shifts True arms map m m') :
    map.Told m' := by
  cases h with
  | armed guards word =>
    cases shifts with
    | kept same told => exact .armed (same.trans guards) ((told trivial).trans word)
    | armed _ was _ _ => exact absurd (was.symm.trans word) (by decide)
    | disarmed same told => exact .disarmed (same.trans (zoned.unprotect guards)) told
  | disarmed guards word =>
    cases shifts with
    | kept same told => exact .disarmed (same.trans guards) ((told trivial).trans word)
    | armed _ _ same told =>
      refine .armed ?_ told
      unfold Guards at *
      rw [same, guards, List.append_assoc]
      rfl
    | disarmed same told => exact .disarmed (same.trans (zoned.unprotect guards)) told

/-- The guard is laid on some of the yellow zone. -/
def OnYellow (map : MemoryMap) (g : GuardRange) : Prop :=
  g.start < map.yellowEnd ∧ map.redEnd < g.stop

theorem Guards.count (h : map.Guards n m) : m.guards.count map.yellowGuard = n := by
  have other : map.lasting.count map.yellowGuard = 0 := by
    refine List.count_eq_zero.mpr fun mem => ?_
    simp only [lasting, List.mem_cons, List.not_mem_nil, or_false] at mem
    have null : GuardTag.yellowZone ≠ GuardTag.nullPage := by decide
    have red : GuardTag.yellowZone ≠ GuardTag.redZone := by decide
    rcases mem with same | same
    · exact null (congrArg GuardRange.tag same)
    · exact red (congrArg GuardRange.tag same)
  rw [h, List.count_append, other, List.count_replicate_self, Nat.zero_add]

theorem Guards.onYellow (h : map.Guards n m) (zoned : map.Zoned) :
    (∀ g ∈ m.guards, ¬ map.OnYellow g) ↔ n = 0 := by
  have low := zoned.ordered.low
  have metaspace := zoned.ordered.metaspace
  have heap := zoned.ordered.heap
  have thread := zoned.ordered.thread
  have stack := zoned.ordered.stack
  have yellow := zoned.yellow
  have some : 0 < map.yellowPages.toNat * map.pageSize.toNat :=
    Nat.mul_pos zoned.yellowPages (Nat.lt_of_lt_of_le (by decide) zoned.page)
  constructor
  · intro none
    refine Nat.eq_zero_of_not_pos fun positive => ?_
    have mem : map.yellowGuard ∈ m.guards := by
      rw [h]
      exact List.mem_append_right _ (List.mem_replicate.mpr ⟨by omega, rfl⟩)
    have whole : map.redEnd < map.yellowEnd := UInt64.lt_iff_toNat_lt.mpr (by omega)
    exact none _ mem ⟨whole, whole⟩
  · rintro rfl g hg ⟨_, last⟩
    rw [h, List.replicate_zero, List.append_nil] at hg
    simp only [lasting, List.mem_cons, List.not_mem_nil, or_false] at hg
    rw [UInt64.lt_iff_toNat_lt] at last
    rcases hg with rfl | rfl
    · dsimp only at last
      omega
    · exact Nat.lt_irrefl _ last

/-- The word says that the zone is armed where it is guarded once, and that it is disarmed where no
    guard is laid on it. -/
theorem Told.iff (h : map.Told m) (zoned : map.Zoned) :
    (map.guardWord m = GuardState.enabled.code.toUInt64 ↔ m.guards.count map.yellowGuard = 1) ∧
      (map.guardWord m = GuardState.yellowDisabled.code.toUInt64 ↔
        ∀ g ∈ m.guards, ¬ map.OnYellow g) := by
  cases h with
  | armed guards word =>
    rw [guards.count, guards.onYellow zoned, word]
    decide
  | disarmed guards word =>
    rw [guards.count, guards.onYellow zoned, word]
    decide

/-- The addresses of the word. -/
def OfGuardWord (map : MemoryMap) (j : Nat) : Prop :=
  map.thread.toNat + 60 ≤ j ∧ j < map.thread.toNat + 64

theorem Ordered.guardWord (ordered : map.Ordered)
    (same : ∀ j, map.OfGuardWord j → byteAt m'.bytes j = byteAt m.bytes j) :
    map.guardWord m' = map.guardWord m := by
  have thread := ordered.thread
  have stack := ordered.stack
  have size := ordered.size
  have limit := map.size.toNat_lt
  have offset : ThreadBlock.guardState.toNat = 60 := rfl
  have page : Place.threadSize.toNat = 0x1000 := rfl
  have address : (map.thread + ThreadBlock.guardState).toNat = map.thread.toNat + 60 :=
    toNat_add_of_lt (by omega)
  exact Memory.load_congr fun j first last => same j ⟨by omega, by omega⟩

end MemoryMap

/-! ## The machine -/

namespace Vm

variable {v u w : Vm} {told arms : Prop} {α : Type} {settings : Settings}

/-- Besides the lasting guards only the yellow zone is guarded, in a memory of the size of the
    map. -/
structure Fenced (v : Vm) : Prop where
  mapped : v.Mapped
  zoned : v.map.Zoned
  size : v.world.store.mem.bytes.size = v.map.size.toNat
  guards : ∃ n, v.map.Guards n v.world.store.mem

/-- The machine comes to another with its parts in their places and the guards shifted. -/
structure Fences (told arms : Prop) (v w : Vm) : Prop where
  map : w.map = v.map
  mapped : w.Mapped
  size : w.world.store.mem.bytes.size = v.world.store.mem.bytes.size
  shifts : v.map.Shifts told arms v.world.store.mem w.world.store.mem

/-- However the action has ended, it has led there. -/
abbrev EndsFenced (told arms : Prop) (v : Vm) (r : EStateM.Result Failure Vm α) : Prop :=
  Ends (fun _ w => v.Fences told arms w) (fun _ w => v.Fences told arms w) r

theorem Fenced.clear (h : v.Fenced) :
    v.world.store.mem.Clear Place.nullPageEnd.toNat v.map.stackLimit.toNat := by
  obtain ⟨n, guards⟩ := h.guards
  exact h.zoned.clear guards h.size

/-- The tables lie below the block of the thread. -/
theorem Fenced.tables (h : v.Fenced) : 0x20000 ≤ v.map.thread.toNat := by
  have metaspace := h.zoned.ordered.metaspace
  have heap := h.zoned.ordered.heap
  have start : v.map.metaspaceStart.toNat = 0x20000 := congrArg UInt64.toNat h.zoned.tables
  omega

namespace Fences

theorem refl (mapped : v.Mapped) : v.Fences told arms v := ⟨rfl, mapped, rfl, .refl ..⟩

theorem fenced (h : v.Fences told arms w) (before : v.Fenced) : w.Fenced where
  mapped := h.mapped
  zoned := h.map ▸ before.zoned
  size := by rw [h.size, h.map, before.size]
  guards := by
    obtain ⟨n, guards⟩ := before.guards
    rw [h.map]
    exact h.shifts.guards before.zoned guards

/-- Objects may be added. What happens to the word has to be known only where it is told. -/
theorem of_grows (mapped : v.Mapped) (grows : v.Grows w) (word : told →
    v.map.guardWord w.world.store.mem = v.map.guardWord v.world.store.mem) :
    v.Fences told arms w :=
  ⟨grows.map, grows.mapped mapped, grows.alike.size, .kept grows.alike.guards word⟩

theorem spared (h : v.Fences told arms u) (spared : u.Spared u.map.OfGuardWord w) :
    v.Fences told arms w where
  map := spared.map.trans h.map
  mapped := spared.toGrows.mapped h.mapped
  size := spared.alike.size.trans h.size
  shifts := h.shifts.trans spared.alike.guards <| by
    rw [← h.map]
    exact h.mapped.ordered.guardWord spared.bytes.bytes

/-- What spares the word may follow. -/
theorem next {action : Action α} (h : v.Fences told arms u)
    (spares : Preserves (Spared u.map.OfGuardWord u) action) :
    v.EndsFenced told arms (action u) :=
  (spares u (.refl h.mapped.booted.sound.store)).mono (fun _ _ spared => h.spared spared)
    fun _ _ spared => h.spared spared

/-- Only the processor has done something. -/
theorem of_machine {m : Machine} (same : m.mem = v.world.store.mem)
    (h : (v.withMachine m).Fences told arms w) : v.Fences told arms w where
  map := h.map
  mapped := h.mapped
  size := h.size.trans (congrArg (fun m : Guarded => m.bytes.size) same)
  shifts := by
    have shifts : v.map.Shifts told arms m.mem w.world.store.mem := h.shifts
    rw [same] at shifts
    exact shifts

end Fences

/-! ## Arming and disarming -/

theorem Mapped.apart (_ : v.Mapped) : ThreadBlock.Apart ⟨v.map.thread⟩ v.map.OfGuardWord :=
  fun _ within => .inr within

/-- What is read is what the word says. -/
theorem Mapped.guard_ends (h : v.Mapped) :
    Ends (fun g w => w = v ∧ v.map.guardWord v.world.store.mem = g.code.toUInt64)
      (fun (_ : Failure) w => w = v) (onThread (·.guard) v) := by
  have ok := h.open (k := ThreadBlock.guardState) (n := 4) (by decide)
  have word : v.map.guardWord v.world.store.mem =
      (v.map.guardWord v.world.store.mem).toUInt32.toUInt64 := by
    have small := Memory.load_lt (b := v.world.store.mem.bytes)
      (i := (v.map.thread + ThreadBlock.guardState).toNat) (w := 4) (by decide)
    refine UInt64.toNat_inj.mp (Eq.symm ?_)
    exact Nat.mod_eq_of_lt small
  have read : Ends (fun g m => m = v.world.store.mem ∧
        v.map.guardWord v.world.store.mem = g.code.toUInt64)
      (fun (_ : Failure) m => m = v.world.store.mem)
      (ThreadBlock.guard ⟨v.map.thread⟩ v.world.store.mem) := by
    have loaded : Ends (fun n m => m = v.world.store.mem ∧ n = v.map.guardWord v.world.store.mem)
        (fun (_ : Failure) m => m = v.world.store.mem)
        (ThreadBlock.read ⟨v.map.thread⟩ ThreadBlock.guardState 4 v.world.store.mem) := by
      rw [ThreadBlock.read, ok.readA]
      exact ⟨rfl, rfl⟩
    refine loaded.bind (fun _ _ same => same) ?_
    rintro _ _ ⟨rfl, rfl⟩
    dsimp only
    cases found : GuardState.ofCode? (v.map.guardWord v.world.store.mem).toUInt32 with
    | none => exact rfl
    | some g => exact ⟨rfl, word.trans (congrArg _ (GuardState.code_of_ofCode? found).symm)⟩
  refine Ends.get_bind ((onMemory_ends read).mono ?_ ?_)
  · rintro g _ ⟨m, ⟨rfl, word⟩, rfl⟩
    exact ⟨rfl, word⟩
  · rintro e _ ⟨m, rfl, rfl⟩
    rfl

/-- Guards are shifted, the word is written, and nothing is left but what spares it. -/
theorem Mapped.setGuard {next : Action α} {f : Guarded → Guarded} {s : GuardState} (h : v.Mapped)
    (onStack : v.map.OnStack f)
    (shifts : ∀ m', m'.guards = (f v.world.store.mem).guards →
      v.map.guardWord m' = s.code.toUInt64 → v.map.Shifts told arms v.world.store.mem m')
    (spares : ∀ u : Vm, u.Mapped → Preserves (Spared u.map.OfGuardWord u) next) :
    v.EndsFenced told arms ((do
      onMemory (modify f)
      onThread (·.setGuard s)
      next : Action α) v) := by
  have mapped : (v.withMemory (f v.world.store.mem)).Mapped := h.memory fun _ _ => onStack.clear
  have ok : (f v.world.store.mem).Open (v.map.thread + ThreadBlock.guardState) 4 :=
    mapped.open (by decide)
  have shifted : onMemory (modify f) v = .ok ⟨⟩ (v.withMemory (f v.world.store.mem)) := rfl
  have written : onThread (·.setGuard s) (v.withMemory (f v.world.store.mem)) =
      .ok () (v.withMemory ((f v.world.store.mem).put (v.map.thread + ThreadBlock.guardState) 4
        s.code.toUInt64)) := by
    refine onThread_withMemory ?_
    rw [ThreadBlock.setGuard, ThreadBlock.write, withMemory, ok.write]
  rw [bind_ok shifted, bind_ok written]
  have word : v.map.guardWord ((f v.world.store.mem).put (v.map.thread + ThreadBlock.guardState) 4
      s.code.toUInt64) = s.code.toUInt64 := by
    refine (Guarded.load_put_word ok).trans ?_
    rw [UInt32.toUInt32_toUInt64]
  have changed := Guarded.changed_put (f v.world.store.mem)
    (v.map.thread + ThreadBlock.guardState) 4 s.code.toUInt64
  refine Fences.next ⟨rfl, mapped.alike (Guarded.Alike.refl _).put, ?_, ?_⟩ (spares _ ?_)
  · exact changed.size.trans (congrArg ByteArray.size (onStack.bytes _))
  · exact shifts _ changed.guards word
  · exact mapped.alike (Guarded.Alike.refl _).put

/-- The zone is armed only if the word says that it is disarmed. -/
theorem Mapped.reguard_ends (h : v.Mapped) (may : arms) :
    v.EndsFenced told arms (reguard v) := by
  unfold reguard
  refine h.guard_ends.bind (fun _ _ same => by rw [same]; exact .refl h) ?_
  rintro g v ⟨rfl, word⟩
  refine .ite (fun _ => .refl h) fun disabled => ?_
  have disabled := Decidable.of_not_not disabled
  subst disabled
  have asked : Ends (fun _ u => ∃ hooks, u = { v with hooks }) (fun (_ : Failure) _ => False)
      (consult Hooks.shouldReguard v) := ⟨_, rfl⟩
  refine asked.bind (fun _ _ nothing => nothing.elim) ?_
  rintro agreed _ ⟨hooks, rfl⟩
  have mapped : Mapped { v with hooks } := h.congr rfl rfl
  refine .ite (fun _ => ⟨rfl, mapped, rfl, .refl ..⟩) fun _ => Ends.get_bind ?_
  have armed : Vm.EndsFenced told arms { v with hooks } ((do
      onMemory (modify (·.protect v.map.redEnd v.map.yellowSize GuardTag.yellowZone))
      onThread (·.setGuard .enabled)
      pure true : Action Bool) { v with hooks }) :=
    mapped.setGuard (MemoryMap.onStack_protect _) (fun m' guards told => .armed may word guards told)
      fun _ _ => .pure true
  exact armed.mono (fun _ _ h => ⟨h.map, h.mapped, h.size, h.shifts⟩)
    fun _ _ h => ⟨h.map, h.mapped, h.size, h.shifts⟩

theorem Mapped.serveReguard_ends (h : v.Mapped) (may : arms) :
    v.EndsFenced told arms
      (serve .reguardYellowZone v) := by
  have reads (r : Register) : Reads (reg r) := fun _ => rfl
  have performed : v.EndsFenced told arms
      (perform .reguardYellowZone v) :=
    (reads .x0).next (fun _ => .refl h) fun _ => (reads .x1).next (fun _ => .refl h) fun _ =>
      (reads .x2).next (fun _ => .refl h) fun _ => (h.reguard_ends may).bind (fun _ _ h => h)
        fun _ _ fences => fences.next (spared_modifyCpu _)
  exact performed.bind (fun _ _ h => h) fun _ _ fences => fences.next <|
    (Preserves.of_reads (reads .link)).bind fun _ => spared_modifyCpu _

/-- In the interpreter, a fault of the yellow zone disarms it. -/
theorem Mapped.handleFault_ends (h : v.Mapped) (fault : MemoryFault) :
    v.EndsFenced told arms
      (handleFault fault v) := by
  have goTo (u : Vm) (pc : UInt64) : Preserves (Spared u.map.OfGuardWord u) (goTo pc) :=
    spared_modifyCpu _
  refine Ends.get_bind (.ite (fun _ => (Fences.refl h).next (goTo _ _)) fun _ =>
    .ite (fun _ => ?_) fun _ => .ite (fun _ => .refl h) fun _ => .refl h)
  exact h.setGuard (MemoryMap.onStack_unprotect _)
    (fun _ guards told => .disarmed guards told) fun u _ => goTo u _

theorem Mapped.outcome_ends (h : v.Mapped) (may : arms) (result : TypeTag) :
    v.EndsFenced told arms
      (outcome result v) := by
  have told (u : Vm) (fences : v.Fences told arms u) : v.EndsFenced told arms (tell result u) :=
    fences.next (fences.mapped.spared_tell fences.mapped.apart result)
  rw [outcome_eq]
  refine guard_reads.next (fun _ => .refl h) fun g => ?_
  exact .ite (fun _ => (h.reguard_ends may).bind (fun _ _ h => h) fun _ u => told u) fun _ =>
    told v (.refl h)

/-! ## Deeds -/

theorem Grows.machine {m : Machine} (h : v.Grows u) (alike : u.world.store.mem.Alike m.mem) :
    v.Grows (u.withMachine m) :=
  ⟨h.map, h.gains, ⟨h.world.classes, h.world.store.memory alike⟩, h.library⟩

/-- A turn is a step of the machine and what the runtime does about an event or about a fault, which
    come with the memory as it was. -/
theorem turn_ends {P : Vm → Prop}
    (stepped : ∀ m, v.machine.mem.Alike m.mem → P (v.withMachine m))
    (native : ∀ m target format, m.mem = v.world.store.mem →
      Ends (fun _ => P) (fun _ => P) (callNative target format (v.withMachine m)))
    (service : ∀ m s, Machine.step v.image.code v.machine = .ok (.service s) m →
      m.mem = v.world.store.mem → Ends (fun _ => P) (fun _ => P) (serve s (v.withMachine m)))
    (faulted : ∀ m fault, m.mem = v.world.store.mem →
      Ends (fun _ => P) (fun _ => P) (handleFault fault (v.withMachine m))) :
    Ends (fun _ => P) (fun _ => P) (Vm.turn v) := by
  have alike : Ends (fun _ m => v.machine.mem.Alike m.mem) (fun _ m => v.machine.mem.Alike m.mem)
      (Machine.step v.image.code v.machine) := Machine.step_alike
  have goOn {action : Action Unit} {m : Machine}
      (ends : Ends (fun _ => P) (fun _ => P) (action (v.withMachine m))) :
      Ends (fun _ => P) (fun _ => P) ((action >>= fun _ => pure true) (v.withMachine m)) :=
    ends.bind (fun _ _ h => h) fun _ _ h => h
  unfold Vm.turn
  cases step : Machine.step v.image.code v.machine with
  | ok event m =>
    rw [step] at alike
    cases event with
    | next | hostReturn => exact stepped m alike
    | native target format => exact goOn (native m target format (Machine.of_step_event step nofun))
    | service s => exact goOn (service m s step (Machine.of_step_event step nofun))
  | error failure m =>
    rw [step] at alike
    cases failure with
    | memoryFault fault => exact goOn (faulted m fault (Machine.unchanged step).2)
    | _ => exact stepped m alike

/-- What arms the yellow zone. -/
def Deed.Arms (v : Vm) : Deed → Prop
  | .outcome _ => True
  | .turn => ∃ m, Machine.step v.image.code v.machine = .ok (.service .reguardYellowZone) m
  | _ => False

/-- Of a turn it is not known whether it writes over the word. -/
theorem Fenced.turn (h : v.Fenced) (untold : ¬ told) :
    v.EndsFenced told (Deed.Arms v .turn) (Vm.turn v) := by
  have reached {m : Machine} (alike : v.machine.mem.Alike m.mem) : v.Grows (v.withMachine m) :=
    h.mapped.grows.machine alike
  have still {m : Machine} (same : m.mem = v.world.store.mem) : v.Grows (v.withMachine m) :=
    reached (same ▸ .refl _)
  have grown {w : Vm} (grows : v.Grows w) : v.Fences told (Deed.Arms v .turn) w :=
    .of_grows h.mapped grows fun holds => absurd holds untold
  refine turn_ends (fun m alike => grown (reached alike)) (fun m target format same => ?_)
    (fun m s step same => ?_) fun m fault same => ?_
  · exact (grows_callNative target format _ (still same)).mono (fun _ _ => grown) fun _ _ => grown
  · by_cases guards : s = .reguardYellowZone
    · subst guards
      exact (((still same).mapped h.mapped).serveReguard_ends ⟨m, step⟩).mono
        (fun _ _ => .of_machine same) fun _ _ => .of_machine same
    · exact (grows_serve guards _ (still same)).mono (fun _ _ => grown) fun _ _ => grown
  · exact (((still same).mapped h.mapped).handleFault_ends fault).mono
      (fun _ _ => .of_machine same) fun _ _ => .of_machine same

/-- Taking and looking for safepoints switches the tables, which lie elsewhere. -/
theorem Fenced.onSafepoints {action : Safepoints.Action α} (h : v.Fenced)
    (switched : ∃ x s m, action (v.safepoints, v.world.store.mem) = .ok x (s, m) ∧
      Safepoints.Switched v.world.store.mem m) :
    v.EndsFenced told arms
      (onSafepoints action v) := by
  obtain ⟨x, s, m, ran, switched⟩ := switched
  have ends : Ends (fun _ r => Safepoints.Switched v.world.store.mem r.2)
      (fun (_ : Failure) _ => False) (action (v.safepoints, v.world.store.mem)) := by
    rw [ran]
    exact switched
  have tables := h.tables
  refine (onSafepoints_ends ends).mono ?_ fun _ _ ⟨_, _, nothing, _⟩ => nothing.elim
  rintro _ _ ⟨s, m, switched, rfl⟩
  refine .of_grows h.mapped (h.mapped.grows.arranged s ⟨switched.size, switched.guards⟩) fun _ => ?_
  exact h.mapped.ordered.guardWord fun j ⟨first, _⟩ =>
    switched.other j (.inr (by omega)) (.inr (by omega))

/-- A deed leaves the guards as they are, or arms or disarms the yellow zone. -/
theorem Fenced.act (h : v.Fenced) (d : Deed) :
    v.EndsFenced (d ≠ .turn) (d.Arms v) (d.act v) := by
  have clear : v.world.store.mem.Clear 0x1000 0x1f000 := by
    have tables := h.tables
    have thread := h.zoned.ordered.thread
    exact h.clear.mono (Nat.le_refl _) (by omega)
  have same {w : Vm} (map : w.map = v.map) (world : w.world = v.world) :
      v.Fences (d ≠ .turn) (d.Arms v) w :=
    ⟨map, h.mapped.congr map world, by rw [world], by rw [world]; exact .refl ..⟩
  have refl : v.Fences (d ≠ .turn) (d.Arms v) v := .refl h.mapped
  have adds {world : World} (adds : v.world.Adds world) :
      v.Fences (d ≠ .turn) (d.Arms v) { v with world } :=
    ⟨rfl, h.mapped.adds adds, adds.alike.size, .kept adds.alike.guards fun _ =>
      h.mapped.adds_field adds (by decide)⟩
  have added {β : Type} {action : World.Action β} (ends : Ends (fun _ w => v.world.Adds w)
      (fun _ w => v.world.Adds w) (action v.world)) :
      v.EndsFenced (d ≠ .turn) (d.Arms v) ((do let _ ← onWorld action : Action Unit) v) := by
    refine (onWorld_ends ends).bind ?_ ?_
    · rintro _ _ ⟨world, h, rfl⟩
      exact adds h
    · rintro _ _ ⟨world, h, rfl⟩
      exact adds h
  cases d with
  | load c small => exact added (World.load_adds h.mapped.booted small)
  | handleInvoker descriptor => exact added (World.handleInvoker_adds h.mapped.booted _ descriptor)
  | beginCall id arguments few =>
    have size : v.world.store.mem.bytes.size < 2 ^ 64 := h.size ▸ v.map.size.toNat_lt
    exact (h.mapped.spared_beginCall h.mapped.apart size id few).mono
      (fun _ _ spared => refl.spared spared) fun _ _ spared => refl.spared spared
  | turn =>
    exact (h.turn fun other => other rfl).bind (fun _ _ fences => fences) fun _ _ fences => fences
  | settle => exact refl.next (h.mapped.spared_field h.mapped.apart (.inl (by decide)))
  | outcome result =>
    exact (h.mapped.outcome_ends trivial result).bind (fun _ _ fences => fences)
      fun _ _ fences => fences
  | request name => exact same rfl rfl
  | poll =>
    exact (h.onSafepoints (Safepoints.poll_switched clear)).bind (fun _ _ fences => fences)
      fun _ _ fences => fences
  | atSafepoint =>
    exact (h.onSafepoints (Safepoints.atSafepoint_switched clear)).bind (fun _ _ fences => fences)
      fun _ _ fences => fences.next (.forM fun _ => spared_modify fun _ => ⟨rfl, rfl, rfl, rfl, rfl⟩)
  | arrange hooks library bridge => exact same rfl rfl

/-! ## From the machine that was built -/

/-- Setting up the block, the zone is said to be armed. -/
theorem setUp_guard (map : MemoryMap) (base size : UInt64) (m : Guarded) :
    Ends (fun _ m' => map.guardWord m' = GuardState.enabled.code.toUInt64)
      (fun (_ : Failure) _ => True) (ThreadBlock.setUp ⟨map.thread⟩ base size m) := by
  unfold ThreadBlock.setUp
  refine Ends.next fun _ m => Ends.next fun _ m => Ends.next fun _ m => Ends.next fun _ m =>
    Ends.next fun _ m => ?_
  have told : Ends (fun _ m' => map.guardWord m' = GuardState.enabled.code.toUInt64)
      (fun (_ : Failure) _ => True) (ThreadBlock.setGuard ⟨map.thread⟩ .enabled m) := by
    unfold ThreadBlock.setGuard ThreadBlock.write Guarded.write
    cases faults : m.fault? (map.thread + ThreadBlock.guardState) 4 .write with
    | some fault => trivial
    | none =>
      refine (Guarded.load_put_word (.of_fault? faults)).trans ?_
      rw [UInt32.toUInt32_toUInt64]
  refine told.bind (fun _ _ h => h) fun _ m told => ?_
  unfold ThreadBlock.setState ThreadBlock.write Guarded.write
  cases m.fault? (map.thread + ThreadBlock.threadState) 4 .write with
  | some fault => trivial
  | none => exact (ThreadBlock.load_put_field (t := ⟨map.thread⟩) (.inl (by decide))).trans told

theorem create_told (valid : settings.defect? = none) (fits : settings.Fits)
    (created : create settings = .ok v) : v.Fenced ∧ v.map.Told v.world.store.mem := by
  have zoned := MemoryMap.zoned valid fits
  have word : v.map.guardWord v.world.store.mem = GuardState.enabled.code.toUInt64 :=
    create_setUp (P := fun map m => map.guardWord m = GuardState.enabled.code.toUInt64)
      setUp_guard created
  obtain ⟨m, -, installed, ⟨booted, spares, -⟩, map, -⟩ := create_ends zoned.ordered created
  have alike := (install_keepsShape v.image _ _ (.refl _)).of_ok installed
  have guards : v.map.Guards 1 v.world.store.mem := by
    have red : v.map.stackLimit + (v.map.redEnd - v.map.stackLimit) = v.map.redEnd := by
      rw [UInt64.add_comm, UInt64.sub_add_cancel]
    have laid : v.world.store.mem.guards = (guarded (.zeros v.map.size) v.map).guards := by
      rw [map]
      exact spares.guards.trans alike.guards
    refine laid.trans ?_
    simp only [guarded, Guarded.protect, Guarded.zeros, List.nil_append, List.cons_append, red]
    rfl
  refine ⟨⟨(create_rests zoned.ordered created).mapped, map ▸ zoned, ?_, 1, guards⟩,
    .armed guards word⟩
  refine (spares.size.trans alike.size).trans ?_
  rw [map]
  exact Memory.size_zeros _

/-- Whatever the host and guest code do, the null page and the red zone are guarded once each, and
    nothing else is but the yellow zone. -/
theorem Comes.fenced (valid : settings.defect? = none) (fits : settings.Fits)
    (created : create settings = .ok v) (comes : v.Comes w) : w.Fenced := by
  induction comes with
  | here => exact (create_told valid fits created).1
  | next _ d left fenced => exact (left.of_ends (fenced.act d)).fenced fenced

/-- The word is right, or else the turn with which it went wrong has written over it without
    touching a guard. -/
theorem Comes.told_or (valid : settings.defect? = none) (fits : settings.Fits)
    (created : create settings = .ok v) (comes : v.Comes w) :
    w.map.Told w.world.store.mem ∨ ∃ u u' : Vm, v.Comes u ∧ u.map.Told u.world.store.mem ∧
      Leaves Deed.turn.act u u' ∧ u'.Comes w ∧
      u'.world.store.mem.guards = u.world.store.mem.guards ∧
      u.map.guardWord u'.world.store.mem ≠ u.map.guardWord u.world.store.mem := by
  have step {u w : Vm} (d : Deed) (before : u.Fenced ∧ u.map.Told u.world.store.mem)
      (left : Leaves d.act u w)
      (fair : d = .turn → w.world.store.mem.guards = u.world.store.mem.guards →
        u.map.guardWord w.world.store.mem = u.map.guardWord u.world.store.mem) :
      w.Fenced ∧ w.map.Told w.world.store.mem := by
    have fences := left.of_ends (before.1.act d)
    have shifts := fences.shifts.tell ((Classical.em (d = .turn)).symm.imp id fair)
    exact ⟨fences.fenced before.1, fences.map ▸ before.2.shifts before.1.zoned shifts⟩
  rcases comes.holds_or (create_told valid fits created) step with
    ⟨-, told⟩ | ⟨u, u', before, ⟨-, told⟩, left, unfair, after⟩
  · exact .inl told
  · obtain ⟨guards, word⟩ := Classical.not_imp.mp unfair
    exact .inr ⟨u, u', before, told, left, after, guards, word⟩

end Vm

/-! ## Touches without the yellow zone -/

namespace MemoryMap

variable {map : MemoryMap} {m : Guarded} {a : UInt64} {n : Nat}

/-- Without the yellow zone, memory is free from the red zone up. -/
theorem Zoned.free_disarmed (zoned : map.Zoned) (guards : map.Guards 0 m)
    (size : m.bytes.size = map.size.toNat) : m.Clear map.redEnd.toNat map.stackBase.toNat where
  inside := by
    have base := zoned.base
    omega
  unguarded g hg := by
    have low := zoned.ordered.low
    have metaspace := zoned.ordered.metaspace
    have heap := zoned.ordered.heap
    have thread := zoned.ordered.thread
    have stack := zoned.ordered.stack
    rw [guards, List.replicate_zero, List.append_nil] at hg
    simp only [lasting, List.mem_cons, List.not_mem_nil, or_false] at hg
    rcases hg with rfl | rfl <;> dsimp only <;> omega

/-- A touch of the red zone that starts there. -/
theorem Zoned.fault?_red (zoned : map.Zoned) (guards : map.Guards n m) (access : MemoryAccess)
    (low : map.stackLimit.toNat ≤ a.toNat) (high : a.toNat < map.redEnd.toNat) :
    m.fault? a 8 access = some ⟨a, access, some GuardTag.redZone⟩ := by
  have above := zoned.ordered.low
  have metaspace := zoned.ordered.metaspace
  have heap := zoned.ordered.heap
  have thread := zoned.ordered.thread
  have null : ¬ a < Place.nullPageEnd := by rw [UInt64.lt_iff_toNat_lt]; omega
  have inside : ¬ a < map.stackLimit := by rw [UInt64.lt_iff_toNat_lt]; omega
  have red : (⟨map.stackLimit, map.redEnd, GuardTag.redZone⟩ : GuardRange).touches a 8 = true :=
    Guarded.touches_of_start low high (by decide)
  have other : (⟨0, Place.nullPageEnd, GuardTag.nullPage⟩ : GuardRange).touches a 8 = false := by
    simp [GuardRange.touches, null]
  unfold Guards at guards
  simp [Guarded.fault?, Guarded.guardOf?, guards, lasting, red, other, inside]

end MemoryMap

namespace Vm

variable {P : Vm → Prop} {turns : Nat} {v : Vm} {p q : UInt64} {c : Cpu} {m : Guarded}
  {ctx : CodeContext} {inStub : Bool} {K S : List CodeLabel} {place : CodeLabel → UInt64}

/-- The next turn ends the run, at a limit or for an overflow of the stack that is not thrown. -/
def Overflows (w : Vm) : Prop := ∀ steps watched, ∃ failure u,
  (w.counted steps watched).turn = .error failure u ∧
    ((w.counted steps watched).Cut failure ∨ ∃ a, failure = .stackOverflowFatal a)

theorem handleFault_red {fault : MemoryFault} (red : fault.guard = some GuardTag.redZone) (w : Vm) :
    handleFault fault w = .error (.stackOverflowFatal fault.address) w := by
  have others : ¬ (fault.guard = some GuardTag.nullPage ∧ w.image.contains w.processor.cpu.pc = true) ∧
      ¬ (fault.guard = some GuardTag.yellowZone ∧ w.image.contains w.processor.cpu.pc = true) := by
    rw [red]
    exact ⟨nofun, nofun⟩
  unfold handleFault
  refine (bind_ok (m := (get : Action Vm)) rfl).trans ?_
  refine (congrFun (if_neg others.1) _).trans ((congrFun (if_neg others.2) _).trans ?_)
  exact (congrFun (if_pos red) _).trans rfl

theorem overflows_of_fault {i : Instruction UInt64} {fault : MemoryFault}
    (fetch : v.image.code.Fetches p i)
    (effect : i.effect { c with pc := p } m = .error (.memoryFault fault))
    (red : fault.guard = some GuardTag.redZone) : Overflows (v.moved p c m) := fun steps watched => by
  rcases step_fetched (c := c) (m := m) fetch steps watched with
    ⟨failure, w, failed, limit⟩ | ⟨steps', watched', -, step⟩
  · exact ⟨failure, w, failed, .inl limit⟩
  · rw [effect] at step
    exact ⟨_, _, (turn_of_fault step).trans (bind_error (handleFault_red red _)), .inr ⟨_, rfl⟩⟩

/-- One touch, of a page that reaches down to the red zone at most, finds free memory, and the stack
    pointer is above the page; or it ends the run. -/
theorem Arrives.touchDisarmed (zoned : v.map.Zoned) (guards : v.map.Guards 0 m)
    (size : m.bytes.size = v.map.size.toNat) {e : UInt64}
    (near : v.map.stackLimit.toNat + e.toNat ≤ (c.reg .sp).toNat) (far : 8 ≤ e.toNat)
    (base : (c.reg .sp).toNat ≤ v.map.stackBase.toNat)
    (lay : Lays ⟨v.image.code, place⟩ ctx inStub K S (Emit.bangStack e) p q ())
    (free : v.map.redEnd.toNat + e.toNat ≤ (c.reg .sp).toNat →
      ∀ n, Arrives P turns (v.moved q (c.setReg .scratch2 n) m))
    (fatal : ∀ w : Vm, w.Overflows → P w) : Arrives P (turns + 3) (v.moved p c m) := by
  have touched : (c.reg .sp - e).toNat = (c.reg .sp).toNat - e.toNat :=
    UInt64.toNat_sub_of_le _ _ (UInt64.le_iff_toNat_le.mpr (by omega))
  by_cases above : v.map.redEnd.toNat + e.toNat ≤ (c.reg .sp).toNat
  · refine .touchStack ((zoned.free_disarmed guards size).open (by omega) ?_) lay (free above)
    change _ + 8 ≤ _
    omega
  · refine .toTouch lay fun fetch _ => .here (fatal _ ?_)
    have fault := zoned.fault?_red guards (a := c.reg .sp - e) .read (by omega) (by omega)
    exact overflows_of_fault fetch
      (effect_load_fault ((congrArg (m.fault? · 8 .read) (target_touch c e)).trans fault)) rfl

/-- The touches from page `k` on. The one before, if any, was in free memory, so that the next one
    cannot miss the red zone. -/
theorem Arrives.bangsDisarmed (zoned : v.map.Zoned) (guards : v.map.Guards 0 m)
    (size : m.bytes.size = v.map.size.toNat)
    (base : (c.reg .sp).toNat ≤ v.map.stackBase.toNat) {n k : Nat}
    (room : v.map.redEnd.toNat + k * v.map.pageSize.toNat ≤ (c.reg .sp).toNat)
    (lay : Lays ⟨v.image.code, place⟩ ctx inStub K S ((List.range' (k + 1) n).forM fun page =>
      Emit.bangStack (page.toUInt64 * v.map.pageSize)) p q ())
    (free : v.map.redEnd.toNat + (k + n) * v.map.pageSize.toNat ≤ (c.reg .sp).toNat →
      ∀ n, Arrives P turns (v.moved q (c.setReg .scratch2 n) m))
    (fatal : ∀ w : Vm, w.Overflows → P w) : Arrives P (turns + 3 * n) (v.moved p c m) := by
  induction n generalizing k p c with
  | zero =>
    obtain ⟨rfl, -⟩ := lay.ended
    rw [← c.setReg_reg .scratch2]
    exact free room _
  | succ n ih =>
    obtain ⟨r, first, rest⟩ := Lays.forM_cons lay
    have page := zoned.page
    have red := zoned.red
    have some := Nat.le_mul_of_pos_left v.map.pageSize.toNat zoned.redPages
    have sp := (c.reg .sp).toNat_lt
    have next : (k + 1) * v.map.pageSize.toNat = k * v.map.pageSize.toNat + v.map.pageSize.toNat :=
      Nat.succ_mul ..
    have small : k + 1 ≤ (k + 1) * v.map.pageSize.toNat :=
      Nat.le_mul_of_pos_right _ (by omega)
    have distance : ((k + 1).toUInt64 * v.map.pageSize).toNat = (k + 1) * v.map.pageSize.toNat := by
      rw [UInt64.toNat_mul, UInt64.toNat_ofNat_of_lt' (by change k + 1 < 2 ^ 64; omega)]
      exact Nat.mod_eq_of_lt (by omega)
    change Arrives P (turns + 3 * n + 3) _
    refine .touchDisarmed zoned guards size (by omega) (by omega) base first (fun above x => ?_) fatal
    have frame : (c.setReg .scratch2 x).reg .sp = c.reg .sp := Cpu.reg_setReg_ne _ _ (by decide)
    rw [distance] at above
    refine ih (by rw [frame]; exact base) (by rw [frame]; exact above) rest fun reached y => ?_
    rw [Cpu.setReg_setReg]
    rw [frame, show k + 1 + n = k + (n + 1) by omega] at reached
    exact free reached y

/-- With the yellow zone disarmed, a method that is entered with its stack pointer above the red zone
    has it there by all the pages that are touched, or ends the run. -/
theorem Arrives.bangShadowDisarmed (zoned : v.map.Zoned) (guards : v.map.Guards 0 m)
    (size : m.bytes.size = v.map.size.toNat) (settings : ctx.settings.pageSize = v.map.pageSize)
    (on : ctx.settings.stackBanging = true) (base : (c.reg .sp).toNat ≤ v.map.stackBase.toNat)
    (room : v.map.redEnd.toNat ≤ (c.reg .sp).toNat)
    (lay : Lays ⟨v.image.code, place⟩ ctx inStub K S (Emit.bangShadow false) p q ())
    (free : v.map.redEnd.toNat + ctx.settings.shadowPages.toNat * v.map.pageSize.toNat ≤
      (c.reg .sp).toNat → ∀ n, Arrives P turns (v.moved q (c.setReg .scratch2 n) m))
    (fatal : ∀ w : Vm, w.Overflows → P w) :
    Arrives P (turns + 3 * ctx.settings.shadowPages.toNat) (v.moved p c m) := by
  unfold Emit.bangShadow at lay
  have lay := lay.settings_bind.ite_pos on
  rw [settings] at lay
  refine .bangsDisarmed zoned guards size base (k := 0) (by rw [Nat.zero_mul]; exact room) lay
    (fun above => free ?_) fatal
  rw [Nat.zero_add] at above
  exact above

end Vm
end TemplateVm
