import TemplateVm.Vm.Run

set_option autoImplicit false

/-!
# Turns of the machine

A turn is one step of the processor with the work that it asks for. `Leads P n vm` says that within
`n` turns a state with `P` is reached from `vm`, unless no steps are left on the way, or the
settings ask for a breakpoint that comes first. If `n` steps are left and no breakpoint is asked
for, it is reached. While no safepoint is requested, the running machine takes the same turns.
-/
namespace TemplateVm.Vm

def machine (vm : Vm) : Machine := ⟨vm.processor, vm.world.store.mem⟩

def withMachine (vm : Vm) (m : Machine) : Vm :=
  { vm with
    processor := m.processor
    world := { vm.world with store := { vm.world.store with mem := m.mem } } }

/-- One step of the processor with all that it asks for. Says whether control stays here. -/
def turn : Action Bool := fun vm =>
  match Machine.step vm.image.code vm.machine with
  | .ok .next m => .ok true (vm.withMachine m)
  | .ok .hostReturn m => .ok false (vm.withMachine m)
  | .ok (.service s) m => (serve s >>= fun _ => pure true) (vm.withMachine m)
  | .ok (.native target format) m =>
    (callNative target format >>= fun _ => pure true) (vm.withMachine m)
  | .error (.memoryFault fault) m => (handleFault fault >>= fun _ => pure true) (vm.withMachine m)
  | .error failure m => .error failure (vm.withMachine m)

section
variable {vm : Vm} {m : Machine}

theorem turn_of_next (step : Machine.step vm.image.code vm.machine = .ok .next m) :
    turn vm = .ok true (vm.withMachine m) := by
  unfold turn
  rw [step]

theorem turn_of_hostReturn (step : Machine.step vm.image.code vm.machine = .ok .hostReturn m) :
    turn vm = .ok false (vm.withMachine m) := by
  unfold turn
  rw [step]

theorem turn_of_service {s : Service}
    (step : Machine.step vm.image.code vm.machine = .ok (.service s) m) :
    turn vm = (serve s >>= fun _ => pure true) (vm.withMachine m) := by
  unfold turn
  rw [step]

theorem turn_of_native {target : UInt64} {format : UInt32}
    (step : Machine.step vm.image.code vm.machine = .ok (.native target format) m) :
    turn vm = (callNative target format >>= fun _ => pure true) (vm.withMachine m) := by
  unfold turn
  rw [step]

theorem turn_of_fault {fault : MemoryFault}
    (step : Machine.step vm.image.code vm.machine = .error (.memoryFault fault) m) :
    turn vm = (handleFault fault >>= fun _ => pure true) (vm.withMachine m) := by
  unfold turn
  rw [step]

theorem turn_of_failure {failure : Failure}
    (step : Machine.step vm.image.code vm.machine = .error failure m)
    (other : ∀ fault, failure ≠ .memoryFault fault) :
    turn vm = .error failure (vm.withMachine m) := by
  unfold turn
  rw [step]
  cases failure with
  | memoryFault fault => exact absurd rfl (other fault)
  | _ => rfl

end

/-- No safepoint is requested that is not armed yet, so that looking for one does nothing. -/
def Quiet (vm : Vm) : Prop := (vm.safepoints.armed || !vm.safepoints.requested) = true

/-- What the settings and the host have set for a run stays as it is. -/
structure Abides (v w : Vm) : Prop where
  quiet : v.Quiet → w.Quiet
  maxSteps : w.processor.maxSteps = v.processor.maxSteps
  stopAt : w.image.settings.stopAt = v.image.settings.stopAt

/-- At most one instruction more has been counted, and the limits are the same. -/
structure Spends (v w : Vm) : Prop where
  steps : w.processor.steps.toNat ≤ v.processor.steps.toNat + 1
  maxSteps : w.processor.maxSteps = v.processor.maxSteps
  stopAt : w.image.settings.stopAt = v.image.settings.stopAt

/-- What a run is ended with by a limit that the settings put to it. -/
inductive Limit : Failure → Prop
  | steps (limit : UInt64) : Limit (.stepLimitExceeded limit)
  | breakpoint (pc count : UInt64) : Limit (.breakpoint pc count)

/-- A limit is met where no steps are left, or where the settings ask for breakpoints. -/
inductive Cut (vm : Vm) : Failure → Prop
  | steps (limit : UInt64) (spent : vm.processor.maxSteps ≤ vm.processor.steps) :
    Cut vm (.stepLimitExceeded limit)
  | breakpoint (pc count : UInt64) (asked : vm.image.settings.stopAt ≠ 0) :
    Cut vm (.breakpoint pc count)

/-- So many turns at most lead from the state to one with the property, or to a limit. -/
inductive Leads (P : Vm → Prop) : Nat → Vm → Prop
  | here {n : Nat} {vm : Vm} (h : P vm) : Leads P n vm
  | turn {n : Nat} {vm vm' : Vm} (h : turn vm = .ok true vm') (quiet : vm'.Quiet)
    (spends : vm.Spends vm') (next : Leads P n vm') : Leads P (n + 1) vm
  | cut {n : Nat} {vm vm' : Vm} {failure : Failure} (h : vm.turn = .error failure vm')
    (limit : vm.Cut failure) : Leads P (n + 1) vm

/-- Turns that lead from one state to another. -/
inductive Turns : Nat → Vm → Vm → Prop
  | refl (vm : Vm) : Turns 0 vm vm
  | next {n : Nat} {vm vm' vm'' : Vm} (h : turn vm = .ok true vm') (rest : Turns n vm' vm'') :
    Turns (n + 1) vm vm''

/-- The run may meet a limit within so many turns. -/
def Limited (vm : Vm) (n : Nat) : Prop :=
  vm.processor.maxSteps.toNat < vm.processor.steps.toNat + n ∨ vm.image.settings.stopAt ≠ 0

section
variable {P Q : Vm → Prop} {n k : Nat} {vm vm' : Vm} {failure : Failure}

theorem Cut.limit (h : vm.Cut failure) : Limit failure := by
  cases h with
  | steps limit => exact .steps limit
  | breakpoint pc count => exact .breakpoint pc count

theorem Cut.limited (h : vm.Cut failure) : vm.Limited (n + 1) := by
  cases h with
  | steps limit spent =>
    have spent := UInt64.le_iff_toNat_le.mp spent
    exact .inl (by omega)
  | breakpoint pc count asked => exact .inr asked

theorem Spends.limited (h : vm.Spends vm') (limited : vm'.Limited n) : vm.Limited (n + 1) := by
  obtain few | asked := limited
  · have steps := h.steps
    rw [h.maxSteps] at few
    exact .inl (by omega)
  · exact .inr (h.stopAt ▸ asked)

theorem Leads.mono (h : Leads P n vm) (hpq : ∀ vm, P vm → Q vm) : Leads Q n vm := by
  induction h with
  | here h => exact .here (hpq _ h)
  | turn h quiet spends _ ih => exact .turn h quiet spends ih
  | cut h limit => exact .cut h limit

theorem Leads.le (h : Leads P k vm) (le : k ≤ n) : Leads P n vm := by
  induction h generalizing n with
  | here h => exact .here h
  | turn h quiet spends _ ih =>
    obtain ⟨n, rfl⟩ := Nat.exists_eq_add_of_lt le
    exact .turn h quiet spends (ih (by omega))
  | cut h limit =>
    obtain ⟨n, rfl⟩ := Nat.exists_eq_add_of_lt le
    exact .cut h limit

theorem Leads.trans (h : Leads P n vm) (hpq : ∀ vm, P vm → Leads Q k vm) :
    Leads Q (k + n) vm := by
  induction h with
  | here h => exact (hpq _ h).le (by omega)
  | turn h quiet spends _ ih => exact .turn h quiet spends ih
  | cut h limit => exact .cut h limit

/-- If no limit is met on the way, the turns come to a state with the property. -/
theorem Leads.reaches (h : Leads P n vm) (free : ¬ vm.Limited n) :
    ∃ k ≤ n, ∃ vm', Turns k vm vm' ∧ P vm' := by
  induction h with
  | here h => exact ⟨0, Nat.zero_le _, _, .refl _, h⟩
  | turn h _ spends _ ih =>
    obtain ⟨k, le, vm', turns, reached⟩ := ih fun limited => free (spends.limited limited)
    exact ⟨k + 1, Nat.succ_le_succ le, vm', .next h turns, reached⟩
  | cut _ limit => exact absurd limit.limited free

/-- What a state leads to is settled by its turn. -/
theorem Leads.turn_cases (h : Leads P (n + 1) vm) :
    P vm ∨ (∃ vm', vm.turn = .ok true vm' ∧ Leads P n vm') ∨
      ∃ failure vm', vm.turn = .error failure vm' ∧ vm.Cut failure := by
  cases h with
  | here h => exact .inl h
  | turn h _ _ next => exact .inr (.inl ⟨_, h, next⟩)
  | cut h limit => exact .inr (.inr ⟨_, _, h, limit⟩)

theorem Leads.of_turn (h : Leads P (n + 1) vm) (goes : vm.turn = .ok true vm')
    (before : ¬ P vm) : Leads P n vm' := by
  rcases h.turn_cases with here | ⟨w, turned, next⟩ | ⟨failure, w, failed, -⟩
  · exact absurd here before
  · rw [goes] at turned
    cases turned
    exact next
  · rw [goes] at failed
    cases failed

theorem Leads.not_of_error (fails : vm.turn = .error failure vm') (other : ¬ vm.Cut failure)
    (before : ¬ P vm) : ¬ Leads P n vm := fun h => by
  rcases (h.le (Nat.le_succ n)).turn_cases with here | ⟨w, turned, -⟩ | ⟨failure', w, failed, cut⟩
  · exact before here
  · rw [fails] at turned
    cases turned
  · rw [fails] at failed
    cases failed
    exact other cut

end

/-! ## Turns of a run -/

/-- What a run goes on with after steps of which `left` are left before the next look at
    safepoints. -/
def goOn (turns left : Nat) : Action Unit :=
  if left = 0 then do
    poll
    runTurns turns pollInterval
  else runTurns turns left

def conclude (turns left : Nat) : Except Failure Event → Action Unit
  | .error (.memoryFault fault) => do
    handleFault fault
    runTurns turns left
  | .error failure => throw failure
  | .ok .hostReturn => pure ()
  | .ok .next => goOn turns left
  | .ok (.service s) => do
    serve s
    goOn turns left
  | .ok (.native target format) => do
    callNative target format
    goOn turns left

section
variable {ε σ α β : Type} {m : EStateM ε σ α} {f : α → EStateM ε σ β} {a : α} {e : ε} {s s' : σ}

theorem bind_ok (h : m s = .ok a s') : (m >>= f) s = f a s' := by
  change EStateM.bind m f s = _
  simp only [EStateM.bind, h]

theorem bind_error (h : m s = .error e s') : (m >>= f) s = .error e s' := by
  change EStateM.bind m f s = _
  simp only [EStateM.bind, h]

theorem ok_of_bind {b : β} (h : (m >>= f) s = .ok b s') :
    ∃ a s₁, m s = .ok a s₁ ∧ f a s₁ = .ok b s' := by
  change EStateM.bind m f s = _ at h
  cases hm : m s with
  | ok a s₁ =>
    simp only [EStateM.bind, hm] at h
    exact ⟨a, s₁, rfl, h⟩
  | error e s₁ =>
    simp only [EStateM.bind, hm] at h
    cases h

end

theorem runTurns_succ {turns n left : Nat} {v : Vm} {outcome : Except Failure Event} {m : Machine}
    (h : Machine.run v.image.code n v.machine = ((left, outcome), m)) :
    runTurns (turns + 1) n v = conclude turns left outcome (v.withMachine m) := by
  have run : onMachine (Machine.run v.image.code n) v =
      .ok (left, outcome) (v.withMachine m) := by
    have : Machine.run v.image.code n ⟨v.processor, v.world.store.mem⟩ =
      ((left, outcome), m) := h
    simp only [onMachine, this]
    rfl
  unfold runTurns
  refine (bind_ok (m := (get : Action Vm)) (s := v) rfl).trans ((bind_ok run).trans ?_)
  cases outcome with
  | error failure => cases failure <;> rfl
  | ok event => cases event <;> rfl

theorem runTurns_next {turns n : Nat} {v : Vm} {m : Machine}
    (step : Machine.step v.image.code v.machine = .ok .next m) :
    runTurns (turns + 1) (n + 1) v = runTurns (turns + 1) n (v.withMachine m) := by
  cases rest : Machine.run v.image.code n m with
  | mk l m' =>
    obtain ⟨left, outcome⟩ := l
    have first : Machine.run v.image.code (n + 1) v.machine = ((left, outcome), m') := by
      rw [Machine.run, step]
      exact rest
    exact (runTurns_succ first).trans (runTurns_succ (v := v.withMachine m) rest).symm

theorem runTurns_event {turns n : Nat} {v : Vm} {m : Machine} {event : Event}
    (step : Machine.step v.image.code v.machine = .ok event m) (other : event ≠ .next) :
    runTurns (turns + 1) (n + 1) v = conclude turns n (.ok event) (v.withMachine m) := by
  refine runTurns_succ ?_
  rw [Machine.run, step]
  cases event with
  | next => exact absurd rfl other
  | _ => rfl

theorem runTurns_failure {turns n : Nat} {v : Vm} {m : Machine} {failure : Failure}
    (step : Machine.step v.image.code v.machine = .error failure m) :
    runTurns (turns + 1) (n + 1) v = conclude turns (n + 1) (.error failure) (v.withMachine m) := by
  refine runTurns_succ ?_
  rw [Machine.run, step]

theorem goOn_quiet {vm : Vm} (quiet : vm.Quiet) (turns left : Nat) :
    ∃ left', 0 < left' ∧ goOn turns left vm = runTurns turns left' vm := by
  unfold goOn
  split
  · have looked : poll vm = .ok () vm := by
      have quiet : (vm.safepoints.armed || !vm.safepoints.requested) = true := quiet
      have asked : Safepoints.poll (vm.safepoints, vm.world.store.mem) =
          .ok false (vm.safepoints, vm.world.store.mem) := by
        unfold Safepoints.poll
        refine (bind_ok (m := (get : Safepoints.Action _)) rfl).trans ?_
        simp only [quiet]
        rfl
      have looked : onSafepoints Safepoints.poll vm = .ok false vm := by
        simp only [onSafepoints, zoom, asked]
      exact bind_ok looked
    exact ⟨pollInterval, by decide, bind_ok looked⟩
  · exact ⟨left, by omega, rfl⟩

/-- A turn that goes on is taken by every run that is not at its end. -/
theorem runTurns_turn {vm vm' : Vm} (h : turn vm = .ok true vm') (quiet : vm'.Quiet)
    (turns n : Nat) : ∃ turns' n', 0 < n' ∧ turns ≤ turns' ∧
      runTurns (turns + 1) (n + 1) vm = runTurns turns' n' vm' := by
  unfold turn at h
  split at h
  · next m step =>
    cases h
    rw [runTurns_next step]
    cases n with
    | zero =>
      obtain ⟨n', hn, same⟩ := goOn_quiet quiet turns 0
      exact ⟨turns, n', hn, Nat.le_refl _,
        (runTurns_succ (v := vm.withMachine m) (n := 0) rfl).trans same⟩
    | succ n => exact ⟨turns + 1, n + 1, by omega, Nat.le_succ turns, rfl⟩
  · cases h
  · next s m step =>
    obtain ⟨⟨⟩, vm₁, served, h⟩ := ok_of_bind h
    cases h
    obtain ⟨n', hn, same⟩ := goOn_quiet quiet turns n
    exact ⟨turns, n', hn, Nat.le_refl _,
      (runTurns_event step nofun).trans ((bind_ok served).trans same)⟩
  · next target format m step =>
    obtain ⟨⟨⟩, vm₁, called, h⟩ := ok_of_bind h
    cases h
    obtain ⟨n', hn, same⟩ := goOn_quiet quiet turns n
    exact ⟨turns, n', hn, Nat.le_refl _,
      (runTurns_event step nofun).trans ((bind_ok called).trans same)⟩
  · next fault m step =>
    obtain ⟨⟨⟩, vm₁, handled, h⟩ := ok_of_bind h
    cases h
    exact ⟨turns, n + 1, by omega, Nat.le_refl _, (runTurns_failure step).trans (bind_ok handled)⟩
  · cases h

theorem error_of_bind {m : Action Unit} {vm vm' : Vm} {failure : Failure}
    (h : (m >>= fun _ => pure true) vm = .error failure vm') : m vm = .error failure vm' := by
  cases hm : m vm with
  | ok a vm₁ =>
    rw [bind_ok hm] at h
    cases h
  | error e vm₁ =>
    rw [bind_error hm] at h
    cases h
    rfl

/-- A turn that fails ends every run that is not at its end. -/
theorem runTurns_error {vm vm' : Vm} {failure : Failure} (h : turn vm = .error failure vm')
    (turns n : Nat) : runTurns (turns + 1) (n + 1) vm = .error failure vm' := by
  unfold turn at h
  split at h
  · cases h
  · cases h
  · next s m step => exact (runTurns_event step nofun).trans (bind_error (error_of_bind h))
  · next target format m step =>
    exact (runTurns_event step nofun).trans (bind_error (error_of_bind h))
  · next fault m step => exact (runTurns_failure step).trans (bind_error (error_of_bind h))
  · next failure' m other step =>
    cases h
    refine (runTurns_failure step).trans ?_
    cases failure with
    | memoryFault fault => exact absurd rfl (other fault)
    | _ => rfl

/-- What turns lead to, the run comes to, unless a limit stops it. It can meet one only if it has
    fewer turns or steps left, or if the settings ask for a breakpoint. -/
theorem Leads.runTurns {P : Vm → Prop} {k : Nat} {vm : Vm} (h : Leads P k vm) :
    ∀ turns n, 0 < n →
      (∃ failure vm', Limit failure ∧ (turns < k ∨ vm.Limited k) ∧
        Vm.runTurns turns n vm = .error failure vm') ∨
      ∃ vm' turns' n', P vm' ∧ 0 < n' ∧ turns ≤ turns' + k ∧
        Vm.runTurns turns n vm = Vm.runTurns turns' n' vm' := by
  induction h with
  | here h => exact fun turns n hn => .inr ⟨_, turns, n, h, hn, Nat.le_add_right .., rfl⟩
  | @turn k vm vm' h quiet spends _ ih =>
    intro turns n hn
    cases turns with
    | zero => exact .inl ⟨_, vm, .steps vm.processor.maxSteps, .inl (Nat.succ_pos k), rfl⟩
    | succ turns =>
      obtain ⟨n, rfl⟩ : ∃ k, n = k + 1 := ⟨n - 1, by omega⟩
      obtain ⟨turns', n', hn', fewer, same⟩ := runTurns_turn h quiet turns n
      rw [same]
      obtain ⟨failure, w, limit, met, ran⟩ | ⟨w, turns'', n'', hp, hn'', left, ran⟩ :=
        ih turns' n' hn'
      · exact .inl ⟨failure, w, limit, met.imp (by omega) spends.limited, ran⟩
      · exact .inr ⟨w, turns'', n'', hp, hn'', by omega, ran⟩
  | @cut k vm vm' failure h limit =>
    intro turns n hn
    cases turns with
    | zero => exact .inl ⟨_, vm, .steps vm.processor.maxSteps, .inl (Nat.succ_pos k), rfl⟩
    | succ turns =>
      obtain ⟨n, rfl⟩ : ∃ k, n = k + 1 := ⟨n - 1, by omega⟩
      exact .inl ⟨failure, vm', limit.limit, .inr limit.limited, runTurns_error h turns n⟩

/-- Every run that is led to a turn that fails ends with this failure, unless a limit stops it. -/
theorem Leads.fails {P : Vm → Prop} {k : Nat} {vm : Vm} {failure : Failure} (h : Leads P k vm)
    (stops : ∀ w, P w → ∃ w', w.turn = .error failure w') (turns n : Nat) (hn : 0 < n) :
    ∃ e w', Vm.runTurns turns n vm = .error e w' ∧
      (Limit e ∧ (turns ≤ k ∨ vm.Limited k) ∨ e = failure) := by
  rcases h.runTurns turns n hn with
    ⟨e, w', limit, met, ran⟩ | ⟨w, turns', n', hp, hn', left, same⟩
  · exact ⟨e, w', ran, .inl ⟨limit, met.imp_left Nat.le_of_lt⟩⟩
  · rw [same]
    cases turns' with
    | zero => exact ⟨_, w, rfl, .inl ⟨.steps w.processor.maxSteps, .inl (by omega)⟩⟩
    | succ turns' =>
      obtain ⟨k, rfl⟩ : ∃ k, n' = k + 1 := ⟨n' - 1, by omega⟩
      obtain ⟨w', failed⟩ := stops w hp
      exact ⟨failure, w', runTurns_error failed turns' k, .inr rfl⟩

end TemplateVm.Vm
