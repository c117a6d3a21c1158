import TemplateVm.Proofs.Activation.Fetch

set_option autoImplicit false
set_option synthInstance.maxSize 100000

/-!
# Calls of services

The code around a call of a service saves the bytecode pointer, shows the frame to the runtime, and
finds the registers of the activation again afterwards.
-/
namespace TemplateVm

open Memory (Guarded load)
open Guest Emit

namespace Vm

variable {α : Type} {v w : Vm} {p : UInt64} {c : Cpu} {m m' : Guarded} {steps : UInt64}
  {watched : List (UInt64 × UInt64)}

theorem onMemory_ok {action : Guarded.Action α} {x : α} (h : action m = .ok x m') :
    onMemory action ((v.moved p c m).counted steps watched) =
      .ok x ((v.moved p c m').counted steps watched) := by
  simp only [onMemory, onWorld, World.onMemory, World.onStore, Memory.Store.onMemory, zoom, moved,
    counted, h]

theorem onThread_ok {action : ThreadBlock → Guarded.Action α} {x : α}
    (h : action ⟨v.map.thread⟩ m = .ok x m') :
    onThread action ((v.moved p c m).counted steps watched) =
      .ok x ((v.moved p c m').counted steps watched) :=
  (bind_ok (m := (get : Action Vm)) rfl).trans (onMemory_ok h)

/-- The thread's state while a service is at work, and after it. -/
def threadState (a : UInt64) (s : ThreadState) (m : Guarded) : Guarded :=
  m.put (a + ThreadBlock.threadState) 4 s.code.toUInt64

theorem setState_ok {s : ThreadState} (ok : m.Open (v.map.thread + ThreadBlock.threadState) 4) :
    onThread (·.setState s) ((v.moved p c m).counted steps watched) =
      .ok () ((v.moved p c (threadState v.map.thread s m)).counted steps watched) :=
  onThread_ok ok.write

/-- A service that is no leaf is performed with the thread in the runtime. -/
theorem serve_guest {s : Service} {c' : Cpu} {p' : UInt64} (leaf : s.isLeaf = false)
    (ok : m.Open (v.map.thread + ThreadBlock.threadState) 4)
    (performed : perform s
      ((v.moved p c (threadState v.map.thread .inRuntime m)).counted steps watched) =
        .ok () ((w.moved p' c' m').counted steps watched))
    (ok' : m'.Open (w.map.thread + ThreadBlock.threadState) 4) :
    serve s ((v.moved p c m).counted steps watched) =
      .ok () ((w.moved (c'.reg .link) c' (threadState w.map.thread .inGuest m')).counted steps
        watched) := by
  unfold serve
  simp only [leaf, Bool.not_false, ↓reduceIte]
  exact (bind_ok (setState_ok ok)).trans <| (bind_ok performed).trans <|
    (bind_ok (setState_ok ok')).trans <| bind_ok (m := reg .link) rfl

/-- What a service that is no leaf fails with is not turned into anything else. -/
theorem serve_error {s : Service} {e : Failure} (leaf : s.isLeaf = false)
    (ok : m.Open (v.map.thread + ThreadBlock.threadState) 4)
    (failed : perform s
      ((v.moved p c (threadState v.map.thread .inRuntime m)).counted steps watched) = .error e w) :
    serve s ((v.moved p c m).counted steps watched) = .error e w := by
  unfold serve
  simp only [leaf, Bool.not_false, ↓reduceIte]
  exact (bind_ok (setState_ok ok)).trans (bind_error failed)

/-- A service that keeps control in the machine returns to the link register. -/
theorem Arrives.guestService {P : Vm → Prop} {turns : Nat} {s : Service} {c' : Cpu}
    (leaf : s.isLeaf = false) (ok : m.Open (v.map.thread + ThreadBlock.threadState) 4)
    (performed : ∀ steps watched, perform s
      ((v.moved s.address c (threadState v.map.thread .inRuntime m)).counted steps watched) =
        .ok () ((w.moved s.address c' m').counted steps watched))
    (ok' : m'.Open (w.map.thread + ThreadBlock.threadState) 4) (abides : v.Abides w)
    (h : Arrives P turns (w.moved (c'.reg .link) c' (threadState w.map.thread .inGuest m'))) :
    Arrives P (turns + 1) (v.moved s.address c m) :=
  .service (fun steps watched => serve_guest leaf ok (performed steps watched) ok') abides.moved h

/-- The service does its work, and leaves the machine `w` with the memory `m'`. -/
structure Performs (v w : Vm) (s : Service) (c : Cpu) (m m' : Guarded) : Prop where
  performed : ∀ steps watched, perform s ((v.moved s.address c m).counted steps watched) =
    .ok () ((w.moved s.address c m').counted steps watched)
  map : w.map = v.map
  abides : v.Abides w
  size : m'.bytes.size = m.bytes.size
  guards : m'.guards = m.guards

end Vm

/-- Arguments that are in their registers are passed without an instruction. -/
theorem Lays.passed {F : Finished} {ctx : CodeContext} {inStub : Bool} {K S : List CodeLabel}
    {q q' : UInt64} {rs args : List Register}
    (lay : Lays F ctx inStub K S (Emit.passArguments rs args) q q' ())
    (same : ∀ x ∈ rs.zip args, x.1 = x.2) : q' = q := by
  unfold Emit.passArguments at lay
  revert same
  generalize rs.zip args = moves at lay
  intro same
  induction moves generalizing q with
  | nil => exact lay.ended.1
  | cons x moves ih =>
    have each : ∀ x : Register × Register,
        Orderly ctx inStub K S S 1 (if x.1 = x.2 then pure () else mov x.1 x.2) := fun x =>
      Orderly.upto inferInstance (by decide)
    obtain ⟨r, first, rest⟩ := Lays.forM_cons (o := each) lay
    obtain ⟨rfl, -⟩ := (first.ite_pos (same x List.mem_cons_self)).ended
    exact ih rest fun y hy => same y (List.mem_cons_of_mem _ hy)

/-! ## The thread's block around a service -/

namespace ThreadBlock

/-- The block of a thread is there, and no guard lies on it. -/
def Reached (t : ThreadBlock) (m : Guarded) : Prop :=
  ∀ ⦃k n : UInt64⦄, k.toNat + n.toNat ≤ 0x1000 →
    (t.base + k).toNat = t.base.toNat + k.toNat ∧ m.Open (t.base + k) n

theorem Reached.changed {t : ThreadBlock} {m m' : Guarded} {lo hi : Nat} (h : t.Reached m)
    (changed : m.Changed m' lo hi) : t.Reached m' := fun _ _ inside =>
  ⟨(h inside).1, (h inside).2.changed changed⟩

/-- A frame is to be popped, and none is being popped. -/
structure AsksPop (t : ThreadBlock) (m : Guarded) : Prop where
  pending : load m.bytes (t.base.toNat + 48) 4 &&& 1 ≠ 0
  idle : load m.bytes (t.base.toNat + 48) 4 >>> 1 &&& 1 = 0

end ThreadBlock

namespace Vm

section
variable {P : Vm → Prop} {turns : Nat} {v : Vm} {q q' thread : UInt64} {c : Cpu} {m : Guarded}
  {place : CodeLabel → UInt64} {ctx : CodeContext} {inStub : Bool} {K S : List CodeLabel}
  (own : c.reg .thread = thread) (reached : ThreadBlock.Reached ⟨thread⟩ m)
include own reached

/-- The frame is shown to the runtime. -/
theorem runSetLastFrame {r : Register} {l : CodeLabel} [Known l K]
    (lay : Lays ⟨v.image.code, place⟩ ctx inStub K S (setLastFrame r l) q q' ())
    (next : ∀ c' m', c.Spares c' [.scratch1] →
      m.Changed m' (thread.toNat + 16) (thread.toNat + 40) →
      load m'.bytes (thread.toNat + 16) 8 = c.reg r →
      load m'.bytes (thread.toNat + 24) 8 = c.reg .frame → Arrives P turns (v.moved q' c' m')) :
    Arrives P (turns + 4) (v.moved q c m) := by
  unfold setLastFrame at lay
  obtain ⟨i₁, lay⟩ := lay.emit_bind
  obtain ⟨i₂, lay⟩ := lay.emit_bind
  obtain ⟨i₃, lay⟩ := lay.emitTo_bind
  obtain ⟨i₄, rfl⟩ := lay.emit
  have eight : Width.double.bytes.toNat = 8 := rfl
  obtain ⟨spAt, spOk⟩ := reached (k := ThreadBlock.lastSp) (n := 8) (by decide)
  obtain ⟨fpAt, fpOk⟩ := reached (k := ThreadBlock.lastFp) (n := 8) (by decide)
  obtain ⟨pcAt, pcOk⟩ := reached (k := ThreadBlock.lastPc) (n := 8) (by decide)
  change (thread + ThreadBlock.lastSp).toNat = thread.toNat + 16 at spAt
  change (thread + ThreadBlock.lastFp).toNat = thread.toNat + 24 at fpAt
  change (thread + ThreadBlock.lastPc).toNat = thread.toNat + 32 at pcAt
  refine .storeAt own i₁ spOk <| .storeAt own i₂ fpOk.put <| .adr i₃ <|
    .storeAt ((Cpu.reg_setReg_ne _ _ (by decide)).trans own) i₄ pcOk.put.put <|
      next _ _ ((Cpu.Spares.refl c _).setReg (by simp) _) ?_ ?_ ?_
  · exact (((Guarded.Changed.refl m _ _).put (by omega) (by omega)).put (by omega)
      (by omega)).put (by omega) (by omega)
  · rw [Guarded.load_put_of_disjoint (by omega), Guarded.load_put_of_disjoint (by omega), ← spAt]
    exact Guarded.load_put spOk
  · rw [Guarded.load_put_of_disjoint (by omega), ← fpAt]
    exact Guarded.load_put fpOk.put

/-- The thread tells no last frame any more. -/
theorem runResetLastFrame
    (lay : Lays ⟨v.image.code, place⟩ ctx inStub K S resetLastFrame q q' ())
    (next : ∀ m', m.Changed m' (thread.toNat + 16) (thread.toNat + 40) →
      Arrives P turns (v.moved q' c m')) : Arrives P (turns + 3) (v.moved q c m) := by
  unfold resetLastFrame at lay
  obtain ⟨i₁, lay⟩ := lay.emit_bind
  obtain ⟨i₂, lay⟩ := lay.emit_bind
  obtain ⟨i₃, rfl⟩ := lay.emit
  have eight : Width.double.bytes.toNat = 8 := rfl
  obtain ⟨spAt, spOk⟩ := reached (k := ThreadBlock.lastSp) (n := 8) (by decide)
  obtain ⟨fpAt, fpOk⟩ := reached (k := ThreadBlock.lastFp) (n := 8) (by decide)
  obtain ⟨pcAt, pcOk⟩ := reached (k := ThreadBlock.lastPc) (n := 8) (by decide)
  change (thread + ThreadBlock.lastSp).toNat = thread.toNat + 16 at spAt
  change (thread + ThreadBlock.lastFp).toNat = thread.toNat + 24 at fpAt
  change (thread + ThreadBlock.lastPc).toNat = thread.toNat + 32 at pcAt
  exact .storeAt own i₁ spOk <| .storeAt own i₂ fpOk.put <| .storeAt own i₃ pcOk.put.put <|
    next _ ((((Guarded.Changed.refl m _ _).put (by omega) (by omega)).put (by omega)
      (by omega)).put (by omega) (by omega))

/-- The frame is popped if that is asked for. -/
theorem runHonourPop (lay : Lays ⟨v.image.code, place⟩ ctx inStub K S honourPop q q' ())
    (popped : ∀ c' pop, ctx.popFrame = some pop → ThreadBlock.AsksPop ⟨thread⟩ m →
      c.Spares c' [.scratch1] → Arrives P turns (v.moved (place pop) c' m))
    (next : ∀ c', (ctx.popFrame = none ∨ ¬ ThreadBlock.AsksPop ⟨thread⟩ m) →
      c.Spares c' [.scratch1] → Arrives P turns (v.moved q' c' m)) :
    Arrives P (turns + 4) (v.moved q c m) := by
  unfold honourPop at lay
  replace lay := lay.read_bind
  cases pop : ctx.popFrame with
  | none =>
    simp only [pop] at lay
    obtain ⟨rfl, -⟩ := lay.ended
    exact (next c (.inl pop) (.refl c _)).le (by omega)
  | some l =>
    simp only [pop] at lay
    have : Orderly.Reserved l ctx := ⟨pop⟩
    obtain ⟨none, lay⟩ := lay.newLabel_bind
    obtain ⟨i₁, lay⟩ := lay.emit_bind
    obtain ⟨i₂, lay⟩ := lay.emitTo_bind
    obtain ⟨i₃, lay⟩ := lay.emitTo_bind
    obtain ⟨i₄, lay⟩ := lay.emitTo_bind
    obtain ⟨here, rfl⟩ := lay.bind
    rw [here] at i₂ i₃
    obtain ⟨address, ok⟩ := reached (k := ThreadBlock.framePop) (n := 4) (by decide)
    refine .loadAt own i₁ address ok rfl ?_
    have word : (c.setReg .scratch1 (load m.bytes (thread.toNat + 48) 4)).reg .scratch1 =
      load m.bytes (thread.toNat + 48) 4 := Cpu.reg_setReg_self _ _ (by decide)
    have spares := (Cpu.Spares.refl c [.scratch1]).setReg (r := .scratch1) (by simp)
      (load m.bytes (thread.toNat + 48) 4)
    refine .branchBitClear i₂
      (fun clear => (next _ (.inr fun asks => ?_) spares).le (by omega)) fun pending =>
      .branchBitSet i₃ (fun busy => (next _ (.inr fun asks => ?_) spares).le (by omega)) fun idle =>
        .branch i₄ (popped _ l pop ⟨?_, ?_⟩ spares)
    · exact asks.pending (word ▸ clear)
    · exact busy (word.symm ▸ asks.idle)
    · exact word ▸ pending
    · exact word ▸ idle

/-- An exception that is pending is forwarded. -/
theorem runForwardPending
    (lay : Lays ⟨v.image.code, place⟩ ctx inStub K S forwardPending q q' ())
    (forwarded : ∀ c', load m.bytes thread.toNat 8 ≠ 0 → c.Spares c' [.scratch1] →
      Arrives P turns (v.moved ctx.forwardException c' m))
    (next : ∀ c', load m.bytes thread.toNat 8 = 0 → c.Spares c' [.scratch1] →
      Arrives P turns (v.moved q' c' m)) : Arrives P (turns + 4) (v.moved q c m) := by
  unfold forwardPending at lay
  obtain ⟨ok, lay⟩ := lay.newLabel_bind
  obtain ⟨i₁, lay⟩ := lay.emit_bind
  obtain ⟨i₂, lay⟩ := lay.emitTo_bind
  replace lay := lay.read_bind
  obtain ⟨i₃, lay⟩ := lay.emit_bind
  obtain ⟨i₄, lay⟩ := lay.emit_bind
  obtain ⟨here, rfl⟩ := lay.bind
  rw [here] at i₂
  obtain ⟨address, opens⟩ := reached (k := ThreadBlock.pendingException) (n := 8) (by decide)
  refine .loadAt own i₁ address opens rfl ?_
  have word : (c.setReg .scratch1 (load m.bytes thread.toNat 8)).reg .scratch1 =
    load m.bytes thread.toNat 8 := Cpu.reg_setReg_self _ _ (by decide)
  have spares := (Cpu.Spares.refl c [.scratch1]).setReg (r := .scratch1) (by simp)
    (load m.bytes thread.toNat 8)
  refine .branchZero i₂ (fun none => (next _ (word ▸ none) spares).le (by omega)) fun some =>
    .movImm i₃ (.branchTo i₄ ?_)
  rw [Cpu.reg_setReg_self _ _ (by decide)]
  exact forwarded _ (word ▸ some) (spares.setReg (by simp) _)

/-- After a service the thread tells no last frame any more. The frame is popped if that is asked
    for, an exception that is pending is forwarded, and else the guest goes on. -/
theorem runAfterService {result : Option Register}
    (lay : Lays ⟨v.image.code, place⟩ ctx inStub K S (resumeGuest result) q q' ())
    (popped : ∀ c' m' pop, ctx.popFrame = some pop → ThreadBlock.AsksPop ⟨thread⟩ m →
      c.Spares c' [.scratch1] → m.Changed m' (thread.toNat + 16) (thread.toNat + 40) →
      Arrives P turns (v.moved (place pop) c' m'))
    (forwarded : ∀ c' m', (ctx.popFrame = none ∨ ¬ ThreadBlock.AsksPop ⟨thread⟩ m) →
      load m.bytes thread.toNat 8 ≠ 0 → c.Spares c' [.scratch1] →
      m.Changed m' (thread.toNat + 16) (thread.toNat + 40) →
      Arrives P turns (v.moved ctx.forwardException c' m'))
    (next : ∀ c' m' r, (ctx.popFrame = none ∨ ¬ ThreadBlock.AsksPop ⟨thread⟩ m) →
      load m.bytes thread.toNat 8 = 0 →
      Lays ⟨v.image.code, place⟩ ctx inStub K S (do
        takeResult result
        restoreBytecode
        restoreLocals) r q' () →
      c.Spares c' [.scratch1] → m.Changed m' (thread.toNat + 16) (thread.toNat + 40) →
      Arrives P turns (v.moved r c' m')) : Arrives P (turns + 11) (v.moved q c m) := by
  unfold resumeGuest at lay
  obtain ⟨⟨⟩, q₁, reset, lay⟩ := lay.split
  obtain ⟨⟨⟩, q₂, pop, lay⟩ := lay.split
  obtain ⟨⟨⟩, q₃, pending, lay⟩ := lay.split
  refine runResetLastFrame own reached reset fun m₁ changed => ?_
  have reached₁ := reached.changed changed
  have asked : load m₁.bytes (thread.toNat + 48) 4 = load m.bytes (thread.toNat + 48) 4 :=
    (changed.agrees (s := thread.toNat + 48) (t := thread.toNat + 52) (by omega)).load
      (Nat.le_refl _) (Nat.le_refl _)
  have posted : load m₁.bytes thread.toNat 8 = load m.bytes thread.toNat 8 :=
    (changed.agrees (s := thread.toNat) (t := thread.toNat + 8) (by omega)).load
      (Nat.le_refl _) (Nat.le_refl _)
  have same : ThreadBlock.AsksPop ⟨thread⟩ m₁ ↔ ThreadBlock.AsksPop ⟨thread⟩ m :=
    ⟨fun ⟨pending, idle⟩ => ⟨asked ▸ pending, asked ▸ idle⟩,
      fun ⟨pending, idle⟩ => ⟨asked.symm ▸ pending, asked.symm ▸ idle⟩⟩
  refine runHonourPop own reached₁ pop (fun c₁ l set asks spares => ?_) fun c₁ stays spares => ?_
  · exact (popped c₁ m₁ l set (same.mp asks) spares changed).le (by omega)
  replace stays := stays.imp_right same.not.mp
  refine runForwardPending ((spares.regs _ (by decide)).trans own) reached₁ pending
    (fun c₂ some spares₂ => ?_) fun c₂ none spares₂ => ?_
  · exact forwarded c₂ m₁ stays (posted ▸ some) (spares.trans spares₂) changed
  · exact next c₂ m₁ q₃ stays (posted ▸ none) lay (spares.trans spares₂) changed

end

end Vm

namespace Stands

variable {P : Vm → Prop} {turns : Nat} {u v : Vm} {q q' : UInt64} {c : Cpu} {m m' : Guarded}
  {a : Activation} {b : Program} {bcp p : UInt64} {x : Contents} {place : CodeLabel → UInt64}
  {ctx : CodeContext} {inStub : Bool} {K S : List CodeLabel}

/-- The thread's words about the last frame can be written. -/
theorem threadField (h : Stands a b bcp p x u c m) {k n : UInt64} (above : 8 ≤ k.toNat)
    (below : k.toNat + n.toNat ≤ 48) (w : UInt64) : (a.thread + k).toNat = a.thread.toNat + k.toNat ∧
      m.Open (a.thread + k) n ∧ Stands a b bcp p x u c (m.put (a.thread + k) n w) := by
  have heap := h.fits.heap
  obtain ⟨address, ok⟩ := h.fits.threadField (k := k) (w := n) (by omega)
  exact ⟨address, ok, h.outside (Guarded.changed_put m (a.thread + k) n w) (.inr (.inl (by omega)))⟩

/-- A state of the thread is no matter of the activation. -/
theorem inState (h : Stands a b bcp p x u c m) (s : ThreadState) :
    Stands a b bcp p x u c (Vm.threadState a.thread s m) ∧
      m.Open (a.thread + ThreadBlock.threadState) 4 ∧
      m.Changed (Vm.threadState a.thread s m) (a.thread.toNat + 40) (a.thread.toNat + 44) := by
  have four : (4 : UInt64).toNat = 4 := rfl
  have offset : ThreadBlock.threadState.toNat = 40 := rfl
  obtain ⟨address, ok, stands⟩ := h.threadField (k := ThreadBlock.threadState) (n := 4) (by decide)
    (by decide) s.code.toUInt64
  exact ⟨stands, ok, (Guarded.changed_put m _ 4 _).mono (by omega) (by omega)⟩

/-- A service that is no leaf is at work with the thread in the runtime. The thread is a guest again
    when it is done. -/
theorem runInRuntime (h : Stands a b bcp p x u c m) (own : v.map.thread = a.thread) {s : Service}
    (leaf : s.isLeaf = false)
    (serves : ∀ m₁, Stands a b bcp p x u c m₁ →
      m.Changed m₁ (a.thread.toNat + 40) (a.thread.toNat + 44) → ∃ w m₂, v.Performs w s c m₁ m₂ ∧
        ∀ m', m₂.Changed m' (a.thread.toNat + 40) (a.thread.toNat + 44) →
          Vm.Arrives P turns (w.moved (c.reg .link) c m')) :
    Vm.Arrives P (turns + 1) (v.moved s.address c m) := by
  obtain ⟨h₁, ok, changed⟩ := h.inState .inRuntime
  obtain ⟨w, m₂, performs, next⟩ := serves _ h₁ changed
  obtain ⟨address, ok₂⟩ := (h₁.fits.congr performs.size performs.guards).threadField
    (k := ThreadBlock.threadState) (w := 4) (by decide)
  have back := Guarded.changed_put m₂ (a.thread + ThreadBlock.threadState) 4
    ThreadState.inGuest.code.toUInt64
  rw [address] at back
  have same : w.map.thread = a.thread := performs.map ▸ own
  have arrived := next _ back
  have performed := performs.performed
  rw [← same] at ok₂ arrived
  rw [← own] at ok performed
  exact .guestService leaf ok performed ok₂ performs.abides arrived

/-- A register is stored in the thread's block. -/
theorem runThreadStore (h : Stands a b bcp p x u c m) {r : Register} {k : UInt64}
    (i : v.image.code.Fetches q (.store r (.base .thread k) .double)) (above : 8 ≤ k.toNat)
    (below : k.toNat + 8 ≤ 48)
    (next : Stands a b bcp p x u c (m.put (a.thread + k) 8 (c.reg r)) →
      Vm.Arrives P turns (v.moved (q + 4) c (m.put (a.thread + k) 8 (c.reg r)))) :
    Vm.Arrives P (turns + 1) (v.moved q c m) := by
  obtain ⟨-, ok, stands⟩ := h.threadField (n := 8) above below (c.reg r)
  exact .storeAt h.registers.thread i ok (next stands)

/-- A field of the thread's block is loaded. -/
theorem runThreadLoad (h : Stands a b bcp p x u c m) {r : Register} {k w : UInt64} {n : Width}
    (i : v.image.code.Fetches q (.load r (.base .thread k) n false)) (below : k.toNat ≤ 0x800)
    (holds : load m.bytes (a.thread.toNat + k.toNat) n.bytes.toNat = w)
    (next : Vm.Arrives P turns (v.moved (q + 4) (c.setReg r w) m)) :
    Vm.Arrives P (turns + 1) (v.moved q c m) := by
  have width : n.bytes.toNat ≤ 8 := by cases n <;> decide
  obtain ⟨address, ok⟩ := h.fits.threadField (k := k) (w := n.bytes) (by omega)
  exact .loadAt h.registers.thread i address ok holds next

/-- A word of the frame is loaded. -/
theorem runFrameLoad (h : Stands a b bcp p x u c m) {r : Register} {k w : UInt64}
    (i : v.image.code.Fetches q (.load r (.base .frame (-k)) .double false))
    (hk : k.toNat ≤ 64) (pos : 8 ≤ k.toNat) (holds : load m.bytes (a.frame.toNat - k.toNat) 8 = w)
    (next : Vm.Arrives P turns (v.moved (q + 4) (c.setReg r w) m)) :
    Vm.Arrives P (turns + 1) (v.moved q c m) := by
  obtain ⟨address, ok⟩ := h.fits.frameSlot hk pos
  exact .loadAt h.registers.frame i address ok holds next

/-- The words about the last frame are no matter of the activation. -/
theorem shown (h : Stands a b bcp p x u c m)
    (changed : m.Changed m' (a.thread.toNat + 16) (a.thread.toNat + 40)) :
    Stands a b bcp p x u c m' := by
  have heap := h.fits.heap
  exact h.outside changed (.inr (.inl (by omega)))

/-- No frame is to be popped. -/
theorem not_asksPop (h : Stands a b bcp p x u c m) : ¬ ThreadBlock.AsksPop ⟨a.thread⟩ m :=
  fun asks => asks.pending h.idle.pop

/-- The result of a service is taken from the thread. -/
theorem runTakeResult (h : Stands a b bcp p x u c m) {result : Option Register} {first : Nat}
    (lay : Lays ⟨v.image.code, place⟩ ctx inStub K S (Emit.takeResult result) q q' ())
    (free : ∀ r, result = some r → r.isFixed = false ∧ r ≠ .zero)
    (word : first = 8 ∨ first = 16 ∧ result = none)
    (next : ∀ c' m', Stands a b bcp p x u c' m' → (∀ r, result ≠ some r → c'.reg r = c.reg r) →
      (∀ f, c'.float f = c.float f) →
      (∀ r, result = some r → c'.reg r = load m.bytes (a.thread.toNat + 8) 8) →
      m.Changed m' (a.thread.toNat + first) (a.thread.toNat + 48) →
      Vm.Arrives P turns (v.moved q' c' m')) : Vm.Arrives P (turns + 2) (v.moved q c m) := by
  cases result with
  | none =>
    obtain ⟨rfl, -⟩ := Lays.ended lay
    exact (next c m h (fun _ _ => rfl) (fun _ => rfl) (by simp) (.refl m _ _)).le (by omega)
  | some r =>
    obtain rfl : first = 8 := word.resolve_right nofun
    obtain ⟨fixed, zero⟩ := free r rfl
    obtain ⟨i₁, lay⟩ := Lays.emit_bind
      (i := .load r (.base .thread ThreadBlock.vmResult) .double false) lay
    obtain ⟨i₂, rfl⟩ := Lays.emit (i := .store .zero (.base .thread ThreadBlock.vmResult) .double)
      lay
    obtain ⟨address, -⟩ := h.threadField (k := ThreadBlock.vmResult) (n := 8) (by decide)
      (by decide) 0
    refine h.runThreadLoad i₁ (by decide) rfl ?_
    refine (h.setReg r _ fixed).runThreadStore i₂ (by decide) (by decide) fun h₁ => ?_
    refine next _ _ h₁ (fun s hs => Cpu.reg_setReg_ne _ _ fun e => hs (by rw [e]))
      (fun f => Cpu.float_setReg ..) (fun s hs => ?_) ?_
    · cases hs
      exact Cpu.reg_setReg_self _ _ zero
    · have offset : ThreadBlock.vmResult.toNat = 8 := rfl
      have eight : (8 : UInt64).toNat = 8 := rfl
      exact (Guarded.changed_put m _ 8 _).mono (by omega) (by omega)

/-- After a service the activation goes on with its own registers, at the bytecode that is in the
    frame. If the service has no result, what waits for one in the thread's block stays there. -/
theorem runResumeFrom (h : Stands a b bcp p x u c m) {result : Option Register} {bcp' : UInt64}
    {first : Nat} (lay : Lays ⟨v.image.code, place⟩ ctx inStub K S (Emit.resumeGuest result) q q' ())
    (saved : load m.bytes (a.frame.toNat - 56) 8 = bcp')
    (free : ∀ r, result = some r → r.isFixed = false ∧ r ≠ .zero)
    (word : first = 8 ∨ first = 16 ∧ result = none)
    (next : ∀ c' m', Stands a b bcp' p x u c' m' →
      (∀ r, r ≠ .scratch1 → r ≠ .bytecode → result ≠ some r → c'.reg r = c.reg r) →
      (∀ f, c'.float f = c.float f) →
      (∀ r, result = some r → c'.reg r = load m.bytes (a.thread.toNat + 8) 8) →
      m.Changed m' (a.thread.toNat + first) (a.thread.toNat + 48) →
      Vm.Arrives P turns (v.moved q' c' m')) : Vm.Arrives P (turns + 15) (v.moved q c m) := by
  refine Vm.runAfterService h.registers.thread (fun _ _ inside => h.fits.threadField inside) lay
    (fun _ _ _ _ asks => absurd asks h.not_asksPop) (fun _ _ _ some => absurd h.idle.pending some)
    fun c₁ m₁ r _ _ lay₁ spares reset => ?_
  obtain ⟨⟨⟩, r', value, lay₂⟩ := lay₁.split
  obtain ⟨i₁, lay₃⟩ := Lays.emit_bind
    (i := .load .bytecode (.base .frame Frame.bytecode) .double false) lay₂
  obtain ⟨i₂, rfl⟩ := Lays.emit (i := .load .locals (.base .frame Frame.locals) .double false) lay₃
  have h₁ := (h.shown reset).spares spares (by decide)
  have thread := h.fits.thread
  have operands := h.fits.operands
  have top := h.fits.top
  have bounds := h.bounds
  have offset : (56 : UInt64).toNat = 56 := rfl
  refine h₁.runTakeResult value free word fun c₂ m₂ h₂ same₂ floats₂ result₂ changed₂ => ?_
  have changed : m.Changed m₂ (a.thread.toNat + first) (a.thread.toNat + 48) :=
    (reset.mono (by omega) (by omega)).trans changed₂
  refine h₂.runFrameLoad i₁ (by decide) (by decide) (w := bcp') ?_ ?_
  · rw [← saved]
    exact (changed.agrees (s := a.frame.toNat - 56) (t := a.frame.toNat - 48) (by omega)).load
      (Nat.le_refl _) (by omega)
  have h₃ := h₂.setBytecode bcp'
  refine h₃.runFrameLoad i₂ (by decide) (by decide) h₃.framed.locals ?_
  have back (r : Register) : ((c₂.setReg .bytecode bcp').setReg .locals a.locals).reg r =
      (c₂.setReg .bytecode bcp').reg r := by
    have locals := h₃.registers.locals
    have zero := c₂.reg_zero
    grind [Cpu.reg_setReg]
  have other (r : Register) (hr : r ≠ .bytecode) :
      ((c₂.setReg .bytecode bcp').setReg .locals a.locals).reg r = c₂.reg r :=
    (back r).trans (Cpu.reg_setReg_ne _ _ hr)
  refine next _ m₂ { h₃ with registers := h₃.registers.congr fun r _ => back r }
    (fun r hr own hr' => ?_) (fun f => ?_) (fun r hr => ?_) changed
  · rw [other r own, same₂ r hr', spares.regs r (List.mem_singleton.not.mpr hr)]
  · rw [Cpu.float_setReg, Cpu.float_setReg, floats₂, spares.floats]
  · have own : r ≠ .bytecode := by
      rintro rfl
      exact absurd (free _ hr).1 (by decide)
    rw [other r own, result₂ r hr]
    exact (reset.agrees (s := a.thread.toNat) (t := a.thread.toNat + 16) (by omega)).load
      (by omega) (by omega)

theorem runResume (h : Stands a b bcp p x u c m) {result : Option Register} {bcp' : UInt64}
    (lay : Lays ⟨v.image.code, place⟩ ctx inStub K S (Emit.resumeGuest result) q q' ())
    (saved : load m.bytes (a.frame.toNat - 56) 8 = bcp')
    (free : ∀ r, result = some r → r.isFixed = false ∧ r ≠ .zero)
    (next : ∀ c' m', Stands a b bcp' p x u c' m' →
      (∀ r, r ≠ .scratch1 → r ≠ .bytecode → result ≠ some r → c'.reg r = c.reg r) →
      (∀ f, c'.float f = c.float f) →
      (∀ r, result = some r → c'.reg r = load m.bytes (a.thread.toNat + 8) 8) →
      m.Changed m' (a.thread.toNat + 8) (a.thread.toNat + 48) →
        Vm.Arrives P turns (v.moved q' c' m')) :
    Vm.Arrives P (turns + 15) (v.moved q c m) :=
  h.runResumeFrom lay saved free (.inl rfl) next

/-- The bytecode is where it was when nothing has moved it. -/
theorem runResumeGuest (h : Stands a b bcp p x u c m) {result : Option Register}
    (lay : Lays ⟨v.image.code, place⟩ ctx inStub K S (Emit.resumeGuest result) q q' ())
    (saved : load m.bytes (a.frame.toNat - 56) 8 = bcp)
    (free : ∀ r, result = some r → r.isFixed = false ∧ r ≠ .zero)
    (next : ∀ c' m', Stands a b bcp p x u c' m' →
      (∀ r, r ≠ .scratch1 → result ≠ some r → c'.reg r = c.reg r) →
      (∀ f, c'.float f = c.float f) →
      (∀ r, result = some r → c'.reg r = load m.bytes (a.thread.toNat + 8) 8) →
      m.Changed m' (a.thread.toNat + 8) (a.thread.toNat + 48) →
        Vm.Arrives P turns (v.moved q' c' m')) :
    Vm.Arrives P (turns + 15) (v.moved q c m) :=
  h.runResume lay saved free fun c' m' h' same => next c' m' h' fun r hr hr' => by
    by_cases own : r = .bytecode
    · rw [own, h'.registers.bytecode, h.registers.bytecode]
    · exact same r hr own hr'

/-- A service is called with the frame of the activation shown to it. -/
theorem runCallVm (h : Stands a b bcp p x u c m) {result : Option Register} {s : Service}
    {args : List Register}
    (lay : Lays ⟨v.image.code, place⟩ ctx inStub K S (Emit.callVm result s args) q q' ())
    (placed : ∀ r ∈ (Register.arguments.drop 1).zip args, r.1 = r.2)
    (next : ∀ c' m' K' r, Lays ⟨v.image.code, place⟩ ctx inStub K' S (Emit.resumeGuest result) r q' () →
      Stands a b bcp p x u c' m' → c'.reg .link = r → c'.reg .x0 = a.thread →
      (∀ s, s ≠ .x0 → s ≠ .scratch1 → s ≠ .link → c'.reg s = c.reg s) →
      (∀ f, c'.float f = c.float f) → load m'.bytes (a.frame.toNat - 56) 8 = bcp →
      load m'.bytes (a.thread.toNat + 16) 8 = p →
      load m'.bytes (a.thread.toNat + 24) 8 = a.frame →
      (∀ lo hi, hi ≤ a.thread.toNat + 16 ∨
        a.thread.toNat + 40 ≤ lo ∧ (hi ≤ a.frame.toNat - 56 ∨ a.frame.toNat - 48 ≤ lo) →
        m.Agrees m' lo hi) → a.Confined m m' →
      Vm.Arrives P turns (v.moved s.address c' m')) : Vm.Arrives P (turns + 8) (v.moved q c m) := by
  unfold Emit.callVm Emit.saveBytecode at lay
  obtain ⟨i₁, lay₁⟩ := lay.emit_bind
  obtain ⟨⟨⟩, q₁, passed, lay₂⟩ := lay₁.split
  obtain ⟨i₂, lay₃⟩ := lay₂.emit_bind
  obtain ⟨resume, lay₄⟩ := lay₃.newLabel_bind
  obtain ⟨⟨⟩, q₂, setup, lay₅⟩ := lay₄.split
  obtain ⟨i₃, lay₆⟩ := lay₅.emit_bind
  obtain ⟨i₄, lay₇⟩ := lay₆.emit_bind
  obtain ⟨here, lay₈⟩ := lay₇.bind_bind
  obtain rfl := passed.passed placed
  have bounds := h.bounds
  have thread := h.fits.thread
  have operands := h.fits.operands
  have top := h.fits.top
  have eight : (8 : UInt64).toNat = 8 := rfl
  have offset : (56 : UInt64).toNat = 56 := rfl
  obtain ⟨address, ok⟩ := h.fits.frameSlot (k := 56) (by decide) (by decide)
  have put := Guarded.changed_put m (a.frame + -56) 8 bcp
  have saved := Guarded.load_put (v := bcp) ok
  rw [address, offset] at put saved
  refine .storeAt h.registers.frame i₁ ok (.mov i₂ ?_)
  rw [h.registers.bytecode, h.registers.thread]
  change Vm.Arrives P _ (v.moved _ _ (m.put (a.frame + -56) 8 bcp))
  generalize m.put (a.frame + -56) 8 bcp = m₁ at put saved
  have h₁ : Stands a b bcp p x u (c.setReg .x0 a.thread) m₁ :=
    (h.outside put (.inr (.inr (.inr (by omega))))).setReg .x0 a.thread rfl
  refine Vm.runSetLastFrame h₁.registers.thread (fun _ _ inside => h₁.fits.threadField inside) setup
    fun c₂ m₂ spares shown sp fp => .movImm i₃ (.callTo i₄ ?_)
  have h₂ := (((h₁.shown shown).spares spares (by decide)).setReg .scratch1 s.address rfl).setReg
    .link (q₂ + 4 + 4) rfl
  rw [Cpu.reg_setReg_self _ _ (by decide)]
  refine next _ m₂ _ _ lay₈ h₂ (Cpu.reg_setReg_self _ _ (by decide)) ?_ (fun r h₀ h₁ h₂ => ?_)
    (fun f => ?_) ?_ (sp.trans h₁.registers.operands) (fp.trans h₁.registers.frame)
    (fun lo hi out => ?_) ?_
  · rw [Cpu.reg_setReg_ne _ _ (by decide), Cpu.reg_setReg_ne _ _ (by decide),
      spares.regs _ (by decide), Cpu.reg_setReg_self _ _ (by decide)]
  · rw [Cpu.reg_setReg_ne _ _ h₂, Cpu.reg_setReg_ne _ _ h₁,
      spares.regs _ (List.mem_singleton.not.mpr h₁), Cpu.reg_setReg_ne _ _ h₀]
  · rw [Cpu.float_setReg, Cpu.float_setReg, spares.floats, Cpu.float_setReg]
  · exact ((shown.agrees (s := a.frame.toNat - 56) (t := a.frame.toNat - 48) (by omega)).load
      (Nat.le_refl _) (by omega)).trans saved
  · exact (put.agrees (by omega)).trans (shown.agrees (by omega))
  · exact (Activation.Confined.of_changed put (by omega) thread (by omega)).trans
      (.of_changed shown (by omega) thread (by omega))

end Stands
end TemplateVm
