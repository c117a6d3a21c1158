import TemplateVm.Proofs.Activation.Services
import TemplateVm.Proofs.Calls.Services

set_option autoImplicit false

/-!
# The state of the thread

Instructions write bytes and nothing else. With what services keep, that carries over to a run of
any length, however it ends.

Between calls of the host the thread is in the runtime: a call puts it into guest code as its last
step before the run, and takes it back when the run is over, whether control came back or the run
failed. A service that is no leaf has it in the runtime while it is at work, and leaves it in guest
code.
-/
namespace TemplateVm

open Memory (Guarded load)

/-! ## What runs keep -/

namespace Machine

variable {code : CodeCache} {s : Machine}

theorem foldl_write_alike (m : Guarded) (writes : List Write) :
    m.Alike (writes.foldl write m) := by
  induction writes generalizing m with
  | nil => exact .refl m
  | cons w writes ih => exact (Guarded.Alike.refl m).put.trans (ih _)

theorem step_alike : Ends (fun _ s' => s.mem.Alike s'.mem) (fun _ s' => s.mem.Alike s'.mem)
    (step code s) := by
  unfold step
  dsimp only
  split
  · exact .refl _
  · split
    · cases Service.ofAddress? s.processor.cpu.pc <;> exact Guarded.Alike.refl _
    · split
      · exact .refl _
      · cases code.instruction? s.processor.cpu.pc with
        | none => exact .refl _
        | some i =>
          dsimp only
          cases i.effect _ s.mem with
          | error failure => exact .refl _
          | ok e => exact foldl_write_alike _ _

/-- The processor changes bytes only. -/
theorem run_alike (n : Nat) : s.mem.Alike (run code n s).2.mem := by
  induction n generalizing s with
  | zero => exact .refl _
  | succ n ih =>
    have stepped : Ends (fun _ s' => s.mem.Alike s'.mem) (fun _ s' => s.mem.Alike s'.mem)
        (step code s) := step_alike
    unfold run
    cases taken : step code s with
    | error failure s' =>
      rw [taken] at stepped
      exact stepped
    | ok event s' =>
      rw [taken] at stepped
      cases event with
      | next => exact stepped.trans ih
      | service _ | native _ _ | hostReturn => exact stepped

end Machine

namespace Vm

variable {v w v₀ : Vm}

theorem steady_goTo (pc : UInt64) : Steady (goTo pc) := Steady.modifyCpu _

theorem steady_setState (s : ThreadState) : Steady (onThread (·.setState s)) :=
  Steady.onThread fun _ => .write

theorem grows_poll : Preserves (Grows v₀) poll :=
  (grows_onSafepoints Safepoints.poll_keepsShape).bind fun _ => .pure ()

theorem keeps_poll : Keeps poll := .of_grows fun _ => grows_poll

theorem steady_return : Steady (do goTo (← reg .link)) :=
  (Steady.reg _).bind fun _ => steady_goTo _

/-- A service is served as it is performed, and then control goes back. -/
theorem preserves_serve {I : Vm → Prop} {s : Service}
    (sets : ∀ t : ThreadState, Preserves I (onThread (·.setState t)))
    (returns : Preserves I (do goTo (← reg .link)))
    (performs : Preserves I (perform s)) : Preserves I (serve s) := by
  unfold serve
  cases s.isLeaf with
  | true => exact performs.bind fun _ => returns
  | false => exact (sets _).bind fun _ => performs.bind fun _ => (sets _).bind fun _ => returns

theorem steady_serve {s : Service} (guards : s ≠ .reguardYellowZone)
    (tables : s ≠ .atSafepoint ∧ s ≠ .checkNativeTransition) : Steady (serve s) := fun v₀ =>
  preserves_serve (fun _ => steady_setState _ v₀) (steady_return v₀) (steady_perform guards tables v₀)

theorem grows_serve {s : Service} (guards : s ≠ .reguardYellowZone) :
    Preserves (Grows v₀) (serve s) :=
  preserves_serve (fun _ => (steady_setState _).grows) steady_return.grows (grows_perform guards)

theorem keeps_serve (s : Service) : Keeps (serve s) :=
  preserves_serve (fun _ => (steady_setState _).keeps) steady_return.keeps (keeps_perform s)

theorem keeps_handleFault (fault : MemoryFault) : Keeps (handleFault fault) := fun v mapped =>
  Ends.get_bind <| .ite (fun _ => (steady_goTo _).keeps v mapped) fun _ =>
    .ite (fun _ => mapped.guards (fun _ _ _ _ clear => clear.unprotect)
      ((steady_setGuard _).bind fun _ => steady_goTo _).keeps) fun _ =>
    .ite (fun _ => mapped) fun _ => mapped

/-- A safepoint that is asked for meanwhile may be armed, and the thread may be suspended. -/
theorem grows_callNative (target : UInt64) (packed : UInt32) :
    Preserves (Grows v₀) (callNative target packed) := by
  unfold callNative
  cases Native.CallFormat.unpack packed with
  | error defect => exact .throw _
  | ok format =>
    refine (Preserves.pure format).bind fun format => Preserves.get.bind fun v => ?_
    dsimp only
    split
    · exact .throw _
    · refine .bind (.modify fun _ h => ⟨h.map, h.gains, h.world, h.library⟩) fun _ => ?_
      refine (Steady.modifyCpu _).grows.bind fun _ => (Steady.consult _).grows.bind fun request => ?_
      cases request with
      | nothing => exact .pure ()
      | safepoint =>
        exact .bind (.modify fun _ h => ⟨h.map, h.gains, h.world, h.library⟩) fun _ => grows_poll
      | suspend => exact (Steady.onThread fun _ => .write).grows

theorem keeps_callNative (target : UInt64) (packed : UInt32) :
    Keeps (callNative target packed) := .of_grows fun _ => grows_callNative target packed

theorem keeps_runTurns (turns untilPoll : Nat) : Keeps (runTurns turns untilPoll) := by
  induction turns generalizing untilPoll with
  | zero => exact Preserves.get.bind fun _ => .throw _
  | succ turns ih =>
    have goOn (left : Nat) : Keeps (goOn turns left) := by
      unfold Vm.goOn
      split
      · exact keeps_poll.bind fun _ => ih _
      · exact ih _
    have conclude (left : Nat) (outcome : Except Failure Event) :
        Keeps (conclude turns left outcome) := by
      unfold Vm.conclude
      split
      · exact (keeps_handleFault _).bind fun _ => ih _
      · exact .throw _
      · exact .pure ()
      · exact goOn left
      · exact (keeps_serve _).bind fun _ => goOn left
      · exact (keeps_callNative _ _).bind fun _ => goOn left
    intro v mapped
    have alike : v.machine.mem.Alike (Machine.run v.image.code untilPoll v.machine).2.mem :=
      Machine.run_alike untilPoll
    rw [runTurns_succ rfl]
    exact conclude _ _ _ ((mapped.alike alike).congr rfl rfl)

/-- A run keeps the parts of memory where they are, whether it comes back or fails. -/
theorem keeps_run : Keeps run := Preserves.get.bind fun _ => keeps_runTurns _ _

end Vm

/-! ## The word of the state -/

theorem ThreadState.code_injective : Function.Injective ThreadState.code := by
  intro s s' h
  cases s <;> cases s' <;> first | rfl | cases h

theorem ThreadState.ofCode?_code (s : ThreadState) : ofCode? s.code = some s := by
  cases s <;> rfl

namespace ThreadBlock

variable {t : ThreadBlock} {s s' : ThreadState} {m m' : Guarded} {f w v : UInt64}

/-- The word of the state stands for the state. -/
def InState (t : ThreadBlock) (s : ThreadState) (m : Guarded) : Prop :=
  load m.bytes (t.base + threadState).toNat 4 = s.code.toUInt64

theorem InState.unique (h : t.InState s m) (h' : t.InState s' m) : s = s' :=
  ThreadState.code_injective (UInt32.toUInt64_inj.mp (h.symm.trans h'))

/-- What is written is read. -/
theorem InState.state (h : t.InState s m) (ok : m.Open (t.base + threadState) 4) :
    t.state m = .ok s m := by
  unfold ThreadBlock.state
  refine (Vm.bind_ok ok.readA).trans ?_
  have word : load m.bytes (t.base + threadState).toNat (4 : UInt64).toNat = s.code.toUInt64 := h
  simp only [word, UInt32.toUInt32_toUInt64, ThreadState.ofCode?_code]
  rfl

theorem InState.setState (ok : m.Open (t.base + threadState) 4) :
    t.InState s (m.put (t.base + threadState) 4 s.code.toUInt64) := by
  refine (Guarded.load_put_word ok).trans ?_
  rw [UInt32.toUInt32_toUInt64]

/-- Other fields of the block may be written. -/
theorem InState.put (h : t.InState s m) (apart : f.toNat + w.toNat ≤ threadState.toNat ∨
      threadState.toNat + 4 ≤ f.toNat ∧ f.toNat + w.toNat ≤ 2 ^ 64) :
    t.InState s (m.put (t.base + f) w v) := by
  have offset : threadState.toNat = 40 := rfl
  exact (load_put_field (by omega)).trans h

variable {m₀ : Guarded} {α : Type}

/-- Memory has its shape, and the thread is in the state. -/
abbrev Rests (t : ThreadBlock) (s : ThreadState) (m₀ m : Guarded) : Prop :=
  m₀.Alike m ∧ t.InState s m

theorem preserves_write (apart : f.toNat + w.toNat ≤ threadState.toNat ∨
      threadState.toNat + 4 ≤ f.toNat ∧ f.toNat + w.toNat ≤ 2 ^ 64) :
    Preserves (t.Rests s m₀) (t.write f w v) := fun m ⟨alike, state⟩ => by
  unfold write Guarded.write
  cases m.fault? (t.base + f) w .write with
  | some fault => exact ⟨alike, state⟩
  | none => exact ⟨alike.put, state.put apart⟩

/-- Slots of arguments lie above the word of the state, however many there are. -/
theorem preserves_writeArgument {i k : UInt64} (few : i.toNat < 2 ^ 60) (inside : k.toNat ≤ 8) :
    Preserves (t.Rests s m₀) (Guarded.write (t.argumentSlot i + k) 8 v) := by
  have offset : arguments.toNat = 0x400 := rfl
  have state : threadState.toNat = 40 := rfl
  have eight : (8 : UInt64).toNat = 8 := rfl
  have scaled : (i * 8).toNat = 8 * i.toNat := by
    rw [UInt64.toNat_mul, eight]
    omega
  have slot : (arguments + i * 8).toNat = 0x400 + 8 * i.toNat := by
    rw [toNat_add_of_lt (by omega), scaled, offset]
  have field : (arguments + i * 8 + k).toNat = 0x400 + 8 * i.toNat + k.toNat := by
    rw [toNat_add_of_lt (by omega), slot]
  have address : t.argumentSlot i + k = t.base + (arguments + i * 8 + k) := by
    rw [argumentSlot, UInt64.add_assoc, UInt64.add_assoc, UInt64.add_assoc]
  rw [address]
  exact preserves_write (.inr ⟨by omega, by omega⟩)

end ThreadBlock

namespace Vm

variable {v w : Vm} {s : ThreadState} {α : Type}

/-- The parts of memory are where the map has them, and the thread is in the state. -/
structure Rests (s : ThreadState) (v : Vm) : Prop where
  mapped : v.Mapped
  state : ThreadBlock.InState ⟨v.map.thread⟩ s v.world.store.mem

theorem Rests.congr (h : v.Rests s) (map : w.map = v.map) (world : w.world = v.world) :
    w.Rests s where
  mapped := h.mapped.congr map world
  state := by rw [map, world]; exact h.state

/-- The block can be written. -/
theorem Mapped.open (h : v.Mapped) {k n : UInt64} (inside : k.toNat + n.toNat ≤ 0x1000) :
    v.world.store.mem.Open (v.map.thread + k) n := by
  have thread := h.ordered.thread
  have stack := h.ordered.stack
  have size := h.ordered.size
  have limit := v.map.size.toNat_lt
  have page : Place.threadSize.toNat = 0x1000 := rfl
  have address : (v.map.thread + k).toNat = v.map.thread.toNat + k.toNat :=
    toNat_add_of_lt (by omega)
  exact h.block.open (by omega) (by omega)

/-- Setting the state cannot fail. -/
theorem setState_ends (h : v.Mapped) (s : ThreadState) :
    Ends (fun _ w => w.Rests s ∧ w = v.withMemory (threadState v.map.thread s v.world.store.mem))
      (fun (_ : Failure) _ => False) (onThread (·.setState s) v) := by
  have ok := h.open (k := ThreadBlock.threadState) (n := 4) (by decide)
  have written : Ends (fun _ m => m = threadState v.map.thread s v.world.store.mem)
      (fun (_ : Failure) _ => False)
      (ThreadBlock.setState ⟨v.map.thread⟩ s v.world.store.mem) := by
    rw [ThreadBlock.setState, ThreadBlock.write, ok.write]
    rfl
  refine Ends.get_bind ((onMemory_ends written).mono ?_ fun _ _ ⟨_, nothing, _⟩ => nothing.elim)
  rintro _ _ ⟨m, rfl, rfl⟩
  exact ⟨⟨h.alike (Guarded.Alike.refl _).put, .setState ok⟩, rfl⟩

/-! ## What leaves the state alone -/

/-- The action leaves the thread in its state. -/
abbrev Rested (action : Action α) : Prop := ∀ s, Preserves (Rests s) action

theorem Rested.of_reads {action : Action α} (h : Reads action) : Rested action :=
  fun _ => Preserves.of_reads h

theorem Rested.modify {f : Vm → Vm} (map : ∀ v, (f v).map = v.map)
    (world : ∀ v, (f v).world = v.world) : Rested (modify f : Action Unit) :=
  fun _ => Preserves.modify fun v h => h.congr (map v) (world v)

theorem Rested.bind {β : Type} {action : Action α} {f : α → Action β} (h : Rested action)
    (next : ∀ x, Rested (f x)) : Rested (action >>= f) := fun s => (h s).bind fun x => next x s

/-- Another field of the block is written. -/
theorem rested_write {f n x : UInt64} (apart : f.toNat + n.toNat ≤ ThreadBlock.threadState.toNat ∨
      ThreadBlock.threadState.toNat + 4 ≤ f.toNat ∧ f.toNat + n.toNat ≤ 2 ^ 64) :
    Rested (onThread (·.write f n x)) := fun s v rests => by
  have written := ThreadBlock.preserves_write (v := x) apart v.world.store.mem
    ⟨.refl _, rests.state⟩
  refine Ends.get_bind ((onMemory_ends written).mono ?_ ?_)
  · rintro _ _ ⟨m, ⟨alike, state⟩, rfl⟩
    exact ⟨rests.mapped.alike alike, state⟩
  · rintro _ _ ⟨m, ⟨alike, state⟩, rfl⟩
    exact ⟨rests.mapped.alike alike, state⟩

theorem rested_consult (f : Hooks → α × Hooks) : Rested (consult f) :=
  fun _ => Preserves.modifyGet fun _ h => h.congr rfl rfl

theorem rested_reguard : Rested reguard := by
  refine .bind (.of_reads guard_reads) fun g => ?_
  split
  · exact fun _ => .pure true
  refine .bind (rested_consult _) fun allowed => ?_
  split
  · exact fun _ => .pure false
  intro s v rests
  have armed : Ends (fun _ m => m = v.world.store.mem.protect v.map.redEnd v.map.yellowSize
      GuardTag.yellowZone) (fun (_ : Failure) _ => False)
      ((modify fun m : Guarded => m.protect v.map.redEnd v.map.yellowSize GuardTag.yellowZone :
        Guarded.Action PUnit) v.world.store.mem) := rfl
  refine Ends.get_bind ((onMemory_ends armed).bind (fun _ _ ⟨_, nothing, _⟩ => nothing.elim) ?_)
  rintro _ _ ⟨m, rfl, rfl⟩
  have after : Rests s (v.withMemory (v.world.store.mem.protect v.map.redEnd v.map.yellowSize
      GuardTag.yellowZone)) :=
    ⟨rests.mapped.memory fun _ _ below clear => clear.protect (.inr below), rests.state⟩
  exact Rested.bind (rested_write (.inr (by decide))) (fun _ _ => .pure true) s _ after

/-- An action that is taken only under a condition, before another one. -/
theorem Rested.optional {β : Type} {c : Prop} [Decidable c] {first : Action β} {next : Action α}
    (h : Rested first) (h' : Rested next) :
    Rested (if c then first >>= fun _ => next else next) := by
  split
  · exact h.bind fun _ => h'
  · exact h'

theorem rested_outcome (result : TypeTag) : Rested (outcome result) := by
  unfold outcome
  refine .bind (.of_reads guard_reads) fun g => .optional rested_reguard ?_
  refine .bind (.of_reads (Reads.onThread fun t => (Reads.readA _ _).bind fun _ => .pure _))
    fun exception? => ?_
  cases exception? with
  | some exception =>
    refine .bind (rested_write (.inl (by decide))) fun _ => ?_
    refine .bind (.of_reads (Reads.onWorld (World.classOf_reads exception))) fun id => ?_
    exact .bind (fun _ => .get) fun _ _ => .pure _
  | none =>
    refine .bind (.of_reads (Reads.onThread fun t => (Reads.readA _ _).bind fun _ => .pure _))
      fun p => ?_
    split
    · refine .bind (rested_write (.inr (by decide))) fun _ => .bind (fun _ => .get) fun _ => ?_
      exact .bind (Rested.modify (fun _ => rfl) fun _ => rfl) fun _ _ => .pure _
    · exact .bind (.of_reads (Reads.onThread fun t => (Reads.readA _ _).bind fun _ =>
        (Reads.readA _ _).bind fun _ => .pure _)) fun _ _ => .pure _

/-! ## Calls -/

/-- A call puts the thread into guest code as its last step before the run. -/
theorem prepareThread_ends {t : ThreadBlock} {m₀ m : Guarded} (h : t.Rests s m₀ m)
    (address : UInt64) {words : List UInt64} (few : words.length < 2 ^ 59) :
    Ends (fun _ m' => m₀.Alike m') (fun (_ : Failure) m' => t.Rests s m₀ m')
      (prepareThread t address words m) := by
  have result : resultSlot.toNat = 0 := rfl
  have parameters : parameterSlot.toNat = 2 := rfl
  have argument {i w m} (small : i.toNat < 2 ^ 60) (h : t.Rests s m₀ m) :
      Ends (fun _ m' => t.Rests s m₀ m') (fun (_ : Failure) m' => t.Rests s m₀ m')
        (Guarded.write (t.argumentSlot i) 8 w m) := by
    rw [← UInt64.add_zero (t.argumentSlot i)]
    exact ThreadBlock.preserves_writeArgument small (by decide) m h
  have field {f w v m} (apart : f.toNat + w.toNat ≤ ThreadBlock.threadState.toNat ∨
      ThreadBlock.threadState.toNat + 4 ≤ f.toNat ∧ f.toNat + w.toNat ≤ 2 ^ 64)
      (h : t.Rests s m₀ m) : Ends (fun _ m' => t.Rests s m₀ m')
        (fun (_ : Failure) m' => t.Rests s m₀ m') (t.write f w v m) :=
    ThreadBlock.preserves_write apart m h
  unfold prepareThread
  refine (Ends.forM (J := t.Rests s m₀) (fun p hp m h => ?_) h).bind (fun _ _ h => h) fun _ m h => ?_
  · obtain ⟨w, i⟩ := p
    have inside := (List.mem_zipIdx hp).2.1
    have index : i.toUInt64.toNat = i :=
      UInt64.toNat_ofNat_of_lt' (Nat.lt_trans (m := 2 ^ 59) (by omega) (by decide))
    refine argument ?_ h
    rw [toNat_add_of_lt (by omega)]
    omega
  refine (argument (by decide) h).bind (fun _ _ h => h) fun _ m h => ?_
  refine (ThreadBlock.preserves_writeArgument (by decide) (by decide) m h).bind (fun _ _ h => h)
    fun _ m h => ?_
  refine (Reads.readA _ _).next (fun _ => h) fun entry => ?_
  have handles : Ends (fun _ m' => t.Rests s m₀ m') (fun (_ : Failure) m' => t.Rests s m₀ m')
      (t.resetHandles m) := (field (.inr (by decide)) h).bind (fun _ _ h => h) fun _ _ h => h
  refine handles.bind (fun _ _ h => h) fun _ m h => ?_
  refine (field (.inl (by decide)) h).bind (fun _ _ h => h) fun _ m h => ?_
  refine (field (.inl (by decide)) h).bind (fun _ _ h => h) fun _ m h => ?_
  have entered : Ends (fun _ m' => m₀.Alike m') (fun (_ : Failure) m' => t.Rests s m₀ m')
      (t.setState .inGuest m) := by
    unfold ThreadBlock.setState ThreadBlock.write Guarded.write
    cases m.fault? _ 4 .write with
    | some fault => exact h
    | none => exact h.1.put
  exact entered.bind (fun _ _ h => h) fun _ _ h => h

/-- The state is the runtime after a run, even after one that failed. -/
theorem runGuest_ends (h : v.Mapped) :
    Ends (fun _ w => w.Rests .inRuntime) (fun _ w => w.Rests .inRuntime) (runGuest v) := by
  have kept := keeps_run v h
  unfold runGuest
  cases ran : run v with
  | ok _ w =>
    have mapped := kept.of_ok ran
    exact (setState_ends mapped .inRuntime).mono (fun _ _ h => h.1) fun _ _ nothing => nothing.elim
  | error e w =>
    have mapped := kept.of_error ran
    obtain ⟨_, w', set, rests, -⟩ := (setState_ends mapped .inRuntime).exists_ok
    dsimp only
    rw [set]
    exact rests

/-- A call leaves the thread in the runtime, however it ends. -/
theorem preserves_invoke (id : MethodId) {arguments : List Value}
    (few : (arguments.flatMap Value.stackWords).length < 2 ^ 59) :
    Preserves (Rests .inRuntime) (invoke id arguments) := fun v rests => by
  have entered (w : Vm) (mapped : w.Mapped) (t : ThreadBlock) (address entry : UInt64) (n : Nat) :
      Ends (fun _ w' => w'.Mapped) (fun (_ : Failure) _ => False) (enterStub t address entry n w) :=
    mapped.congr rfl rfl
  have prepared := prepareThread_ends (t := ⟨v.map.thread⟩) (s := .inRuntime)
    ⟨.refl v.world.store.mem, rests.state⟩ (v.world.classes.method id).address few
  unfold invoke
  refine classes_bind ?_
  dsimp only
  split
  · exact rests
  · refine Ends.bind (Ends.get_bind (onMemory_ends prepared)) ?_ ?_
    · rintro _ _ ⟨m, ⟨alike, state⟩, rfl⟩
      exact ⟨rests.mapped.alike alike, state⟩
    · rintro entry _ ⟨m, alike, rfl⟩
      have mapped := (rests.mapped.alike alike)
      refine Ends.modify_bind (Ends.get_bind ?_)
      refine (entered _ ?_ _ _ _ _).bind (fun _ _ nothing => nothing.elim) fun _ w mapped => ?_
      · exact mapped.congr rfl rfl
      · exact (runGuest_ends mapped).bind (fun _ _ h => h) fun _ w rests =>
          rested_outcome _ _ w rests

/-- A service that is no leaf is at work in the runtime, and guest code goes on where it is done. -/
theorem serve_ends {s : Service} (leaf : s.isLeaf = false) (h : v.Mapped) : ∃ w,
    w = v.withMemory (threadState v.map.thread .inRuntime v.world.store.mem) ∧
      w.Rests .inRuntime ∧
      Ends (fun _ u => u.Rests .inGuest ∧ ∃ u', perform s w = .ok () u')
        (fun e u => perform s w = .error e u) (serve s v) := by
  obtain ⟨_, w, set, rests, written⟩ := (setState_ends h .inRuntime).exists_ok
  refine ⟨w, written, rests, ?_⟩
  unfold serve
  simp only [leaf, Bool.not_false, ↓reduceIte]
  rw [bind_ok set]
  refine (keeps_perform s w rests.mapped).ran.bind (fun _ _ failed => failed.1) ?_
  rintro _ u' ⟨performed, mapped⟩
  refine (setState_ends mapped .inGuest).bind (fun _ _ nothing => nothing.elim) ?_
  rintro _ u ⟨rests, -⟩
  exact ⟨rests.congr rfl rfl, u', performed⟩

end Vm
end TemplateVm
