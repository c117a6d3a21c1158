import TemplateVm.Proofs.Machine.Turns
import TemplateVm.Proofs.Memory.Copies
import TemplateVm.Safepoint

set_option autoImplicit false

/-!
# Dispatch tables and requests

Arming and disarming switch the active table and the word that generated code looks at, and change
no other byte. Whatever the order in which safepoints are requested, looked for and entered, the
operations run in the order of their requests, and once the last safepoint is over the memory is
what it was before the first.
-/
namespace TemplateVm

/-- Where the tables are that are written once, when a machine is built. -/
def Place.OfFixed (j : Nat) : Prop := 0x1040 ≤ j ∧ j < 0x10e0 ∨ 0x15000 ≤ j ∧ j < 0x1f000

/-- Where the word for generated code and all tables are. -/
def Place.OfTables (j : Nat) : Prop :=
  0x1000 ≤ j ∧ j < 0x1004 ∨ 0x10000 ≤ j ∧ j < 0x15000 ∨ OfFixed j

namespace Safepoints

open Memory (Guarded load byteAt)

/-- Memories that differ at most in the word for generated code and in the active table. -/
structure Switched (m m' : Guarded) : Prop where
  size : m'.bytes.size = m.bytes.size
  guards : m'.guards = m.guards
  other : ∀ j, j < 0x1000 ∨ 0x1004 ≤ j → j < 0x10000 ∨ 0x15000 ≤ j →
    byteAt m'.bytes j = byteAt m.bytes j

/-- The table that bytecodes are dispatched by. -/
def table (s : Safepoints) : UInt64 := if s.armed then Place.safepointTable else Place.normalTable

/-- Generated code finds what the record says, and every operation that waits has been asked for. -/
structure Shown (s : Safepoints) (m : Guarded) : Prop where
  clear : m.Clear 0x1000 0x1f000
  state : load m.bytes 0x1000 4 = if s.armed then armedCode else idleCode
  active : ∀ k < 0x5000, byteAt m.bytes (0x10000 + k) = byteAt m.bytes (s.table.toNat + k)
  armed : s.armed = true → s.requested = true
  queue : s.queue ≠ [] → s.requested = true

variable {s s' : Safepoints} {m m' m'' : Guarded} {names : List String}

theorem Switched.refl (m : Guarded) : Switched m m := ⟨rfl, rfl, fun _ _ _ => rfl⟩

theorem Switched.trans (h : Switched m m') (h' : Switched m' m'') : Switched m m'' where
  size := h'.size.trans h.size
  guards := h'.guards.trans h.guards
  other j h₁ h₂ := (h'.other j h₁ h₂).trans (h.other j h₁ h₂)

theorem Switched.of_state (h : m.Changed m' 0x1000 0x1004) : Switched m m' :=
  ⟨h.size, h.guards, fun j h₁ _ => h.other j h₁⟩

theorem Switched.of_active (h : m.Changed m' 0x10000 0x15000) : Switched m m' :=
  ⟨h.size, h.guards, fun j _ h₂ => h.other j h₂⟩

theorem Switched.fixed (h : Switched m m') {j : Nat} (hj : Place.OfFixed j) :
    byteAt m'.bytes j = byteAt m.bytes j := by
  unfold Place.OfFixed at hj
  exact h.other j (by omega) (by omega)

/-! ## Arming and disarming -/

theorem onMemory_ok {action : Guarded.Action Unit} (h : action m = .ok () m') :
    onMemory action (s, m) = .ok () (s, m') := by
  simp only [onMemory, zoom, h]

theorem seq_ok {first second : Guarded.Action Unit} (h : first m = .ok () m')
    (h' : second m' = .ok () m'') : (do first; second) m = .ok () m'' :=
  (Vm.bind_ok h).trans h'

theorem copyTable_ok (clear : m.Clear 0x1000 0x1f000) (source : UInt64)
    (above : 0x1000 ≤ source.toNat) (below : source.toNat + 0x5000 ≤ 0x1f000) :
    ∃ m', copyTable source Place.activeTable m = .ok () m' ∧ m.Changed m' 0x10000 0x15000 ∧
      ∀ k < 0x5000, byteAt m'.bytes (0x10000 + k) = byteAt m.bytes (source.toNat + k) := by
  have size : Place.dispatchTableSize.toNat = 0x5000 := rfl
  have base : Place.activeTable.toNat = 0x10000 := rfl
  have isOpen : m.Open source Place.dispatchTableSize := clear.open above below
  have isOpen' : m.Open Place.activeTable Place.dispatchTableSize :=
    clear.open (by decide) (by decide)
  have copied := Guarded.copy_ok isOpen isOpen'
  rw [size, base] at copied
  exact copied

theorem writeState_ok (clear : m.Clear 0x1000 0x1f000) {n : UInt64} (small : n.toNat < 2 ^ 32) :
    ∃ m', Guarded.write Place.safepointState 4 n m = .ok () m' ∧ m.Changed m' 0x1000 0x1004 ∧
      load m'.bytes 0x1000 4 = n := by
  have base : Place.safepointState.toNat = 0x1000 := rfl
  have isOpen : m.Open Place.safepointState 4 := clear.open (by decide) (by decide)
  have word := Guarded.load_put_word (v := n) isOpen
  have same : n.toUInt32.toUInt64 = n := by
    apply UInt64.toNat_inj.mp
    simpa using small
  rw [base, same] at word
  exact ⟨_, isOpen.write, Guarded.changed_put .., word⟩

theorem arm_ok (clear : m.Clear 0x1000 0x1f000) (requested : s.requested = true) :
    ∃ m', arm (s, m) = .ok () ({ s with armed := true }, m') ∧ Switched m m' ∧
      Shown { s with armed := true } m' := by
  obtain ⟨m₁, written, state, holds⟩ := writeState_ok clear (n := armedCode) (by decide)
  have clear₁ := clear.changed state
  obtain ⟨m₂, copied, active, same⟩ :=
    copyTable_ok clear₁ Place.safepointTable (by decide) (by decide)
  have other (j : Nat) (h : j < 0x10000 ∨ 0x15000 ≤ j) := active.other j h
  refine ⟨m₂, ?_, (Switched.of_state state).trans (.of_active active), ?_⟩
  · exact (Vm.bind_ok (onMemory_ok (seq_ok written copied))).trans rfl
  · constructor
    · exact clear₁.changed active
    · rw [(active.agrees (s := 0x1000) (t := 0x1004) (by decide)).load (by decide) (by decide)]
      exact holds
    · intro k hk
      have base : Place.safepointTable.toNat = 0x1a000 := rfl
      rw [same k hk]
      exact (other _ (.inr (by omega))).symm
    · intro
      exact requested
    · intro
      exact requested

theorem disarm_ok (clear : m.Clear 0x1000 0x1f000) (asked : s.queue ≠ [] → s.requested = true) :
    ∃ m', disarm (s, m) = .ok () ({ s with armed := false }, m') ∧ Switched m m' ∧
      Shown { s with armed := false } m' := by
  obtain ⟨m₁, copied, active, same⟩ :=
    copyTable_ok clear Place.normalTable (by decide) (by decide)
  have clear₁ := clear.changed active
  obtain ⟨m₂, written, state, holds⟩ := writeState_ok clear₁ (n := idleCode) (by decide)
  have other (j : Nat) (h : j < 0x1000 ∨ 0x1004 ≤ j) := state.other j h
  refine ⟨m₂, ?_, (Switched.of_active active).trans (.of_state state), ?_⟩
  · exact (Vm.bind_ok (onMemory_ok (seq_ok copied written))).trans rfl
  · constructor
    · exact clear₁.changed state
    · exact holds
    · intro k hk
      have base : Place.normalTable.toNat = 0x15000 := rfl
      have kept := active.other (Place.normalTable.toNat + k) (.inr (by omega))
      rw [other _ (.inr (by omega)), same k hk]
      exact kept.symm.trans (other _ (.inr (by omega))).symm
    · intro armed
      cases armed
    · exact asked

/-- Whatever the record says, a look changes nothing but what a safepoint switches. -/
theorem poll_switched (clear : m.Clear 0x1000 0x1f000) :
    ∃ armed s' m', poll (s, m) = .ok armed (s', m') ∧ Switched m m' := by
  unfold poll
  by_cases waits : (s.armed || !s.requested) = true
  · refine ⟨false, s, m, (Vm.bind_ok (m := (get : Action _)) rfl).trans ?_, .refl m⟩
    simp only [waits]
    rfl
  · have requested : s.requested = true := by
      simp only [Bool.or_eq_true, not_or] at waits
      simpa using waits.2
    obtain ⟨m', armed, switched, -⟩ := arm_ok clear requested
    refine ⟨true, { s with armed := true }, m',
      (Vm.bind_ok (m := (get : Action _)) rfl).trans ?_, switched⟩
    simp only [waits]
    exact (Vm.bind_ok armed).trans rfl

/-- A look arms a safepoint that is requested. -/
theorem poll_ok (h : s.Shown m) :
    ∃ armed m', poll (s, m) = .ok armed ({ s with armed := s.requested }, m') ∧ Switched m m' ∧
      Shown { s with armed := s.requested } m' := by
  unfold poll
  by_cases waits : (s.armed || !s.requested) = true
  · have same : s.armed = s.requested := by
      cases armed : s.armed
      · simpa [armed] using waits
      · exact (h.armed armed).symm
    have target : ({ s with armed := s.requested } : Safepoints) = s :=
      congrArg (fun armed => { s with armed }) same.symm
    refine ⟨false, m, ?_, .refl m, ?_⟩
    · rw [target]
      refine (Vm.bind_ok (m := (get : Action _)) rfl).trans ?_
      simp only [waits]
      rfl
    · rw [target]
      exact h
  · have requested : s.requested = true := by
      simp only [Bool.or_eq_true, not_or] at waits
      simpa using waits.2
    have target : ({ s with armed := s.requested } : Safepoints) = { s with armed := true } :=
      congrArg (fun armed => { s with armed }) requested
    obtain ⟨m', armed, switched, shown⟩ := arm_ok h.clear requested
    rw [target]
    refine ⟨true, m', ?_, switched, shown⟩
    refine (Vm.bind_ok (m := (get : Action _)) rfl).trans ?_
    simp only [waits]
    exact (Vm.bind_ok armed).trans rfl

/-- The record after a safepoint at which operations waited. -/
def after (s : Safepoints) : Safepoints :=
  if s.armed then
    { requested := false, queue := [], armed := false, taken := s.taken + 1
      operationsRun := s.operationsRun + s.queue.length }
  else s

/-- Nor does a safepoint. -/
theorem atSafepoint_switched (clear : m.Clear 0x1000 0x1f000) :
    ∃ names s' m', atSafepoint (s, m) = .ok names (s', m') ∧ Switched m m' := by
  unfold atSafepoint
  by_cases armed : s.armed = true
  · let s₁ : Safepoints := { s with
      queue := [], requested := false
      operationsRun := s.operationsRun + s.queue.length, taken := s.taken + 1 }
    obtain ⟨m', disarmed, switched, -⟩ := disarm_ok (s := s₁) clear fun waits => absurd rfl waits
    refine ⟨s.queue, { s₁ with armed := false }, m',
      (Vm.bind_ok (m := (get : Action _)) rfl).trans ?_, switched⟩
    simp only [armed, Bool.not_true, Bool.false_eq_true, ↓reduceIte]
    exact (Vm.bind_ok disarmed).trans rfl
  · refine ⟨[], s, m, (Vm.bind_ok (m := (get : Action _)) rfl).trans ?_, .refl m⟩
    simp only [armed, Bool.not_false, ↓reduceIte]
    rfl

theorem atSafepoint_ok (h : s.Shown m) :
    ∃ m', atSafepoint (s, m) = .ok (if s.armed then s.queue else []) (s.after, m') ∧
      Switched m m' ∧ Shown s.after m' := by
  unfold atSafepoint after
  by_cases armed : s.armed = true
  · let s₁ : Safepoints := { s with
      queue := [], requested := false
      operationsRun := s.operationsRun + s.queue.length, taken := s.taken + 1 }
    obtain ⟨m', disarmed, switched, shown⟩ :=
      disarm_ok (s := s₁) h.clear fun waits => absurd rfl waits
    refine ⟨m', ?_, switched, ?_⟩
    · refine (Vm.bind_ok (m := (get : Action _)) rfl).trans ?_
      simp only [armed, Bool.not_true, Bool.false_eq_true, ↓reduceIte]
      exact (Vm.bind_ok disarmed).trans rfl
    · simp only [armed, ↓reduceIte]
      exact shown
  · refine ⟨m, ?_, .refl m, ?_⟩
    · refine (Vm.bind_ok (m := (get : Action _)) rfl).trans ?_
      simp only [armed, Bool.false_eq_true, Bool.not_false, ↓reduceIte]
      rfl
    · simp only [armed, Bool.false_eq_true, ↓reduceIte]
      exact h

/-! ## Any order of requests, looks and safepoints -/

/-- What can happen between two instructions. -/
inductive Incident where
  | begin
  | request (name : String)
  | poll
  | enter

namespace Incident

/-- Gives the names of the operations that are run. -/
def act : Incident → Action (List String)
  | .begin => do
    update Safepoints.begin
    return []
  | .request name => do
    update (·.request name)
    return []
  | .poll => do
    let _ ← Safepoints.poll
    return []
  | .enter => atSafepoint

/-- The operation that is asked for. -/
def asked : Incident → List String
  | .request name => [name]
  | _ => []

/-- One incident after the other. -/
def actAll : List Incident → Action (List String)
  | [] => return []
  | i :: rest => do
    let first ← i.act
    let names ← actAll rest
    return first ++ names

/-- An incident does not fail, keeps what generated code is shown, and loses no operation. -/
theorem act_ok (i : Incident) (h : s.Shown m) :
    ∃ names s' m', i.act (s, m) = .ok names (s', m') ∧ Switched m m' ∧ s'.Shown m' ∧
      s.queue ++ i.asked = names ++ s'.queue ∧
      s'.operationsRun = s.operationsRun + names.length := by
  cases i with
  | begin =>
    refine ⟨[], s.begin, m, rfl, .refl m, ?_, by simp [asked, Safepoints.begin], rfl⟩
    exact ⟨h.clear, h.state, h.active, fun _ => rfl, fun _ => rfl⟩
  | request name =>
    refine ⟨[], s.request name, m, rfl, .refl m, ?_, by simp [asked, Safepoints.request], rfl⟩
    exact ⟨h.clear, h.state, h.active, fun _ => rfl, fun _ => rfl⟩
  | poll =>
    obtain ⟨armed, m', run, switched, shown⟩ := poll_ok h
    exact ⟨[], _, m', (Vm.bind_ok run).trans rfl, switched, shown, by simp [asked], rfl⟩
  | enter =>
    obtain ⟨m', run, switched, shown⟩ := atSafepoint_ok h
    refine ⟨_, _, m', run, switched, shown, ?_, ?_⟩
    · unfold after
      split <;> simp [asked]
    · unfold after
      split <;> simp

theorem actAll_ok (incidents : List Incident) (h : s.Shown m) :
    ∃ names s' m', actAll incidents (s, m) = .ok names (s', m') ∧ Switched m m' ∧ s'.Shown m' ∧
      s.queue ++ incidents.flatMap asked = names ++ s'.queue ∧
      s'.operationsRun = s.operationsRun + names.length := by
  induction incidents generalizing s m with
  | nil => exact ⟨[], s, m, rfl, .refl m, h, by simp, rfl⟩
  | cons i rest ih =>
    obtain ⟨first, s₁, m₁, run, switched, shown, order, count⟩ := i.act_ok h
    obtain ⟨names, s', m', runs, switched', shown', order', count'⟩ := ih shown
    refine ⟨first ++ names, s', m', ?_, switched.trans switched', shown', ?_, ?_⟩
    · exact (Vm.bind_ok run).trans ((Vm.bind_ok runs).trans rfl)
    · rw [List.flatMap_cons, ← List.append_assoc, order, List.append_assoc, order',
        List.append_assoc]
    · rw [count', count, List.length_append, Nat.add_assoc]

/-- Operations are run in the order of their requests, each of them once; the others still wait. -/
theorem names_of_actAll {incidents : List Incident} (h : s.Shown m)
    (run : actAll incidents (s, m) = .ok names (s', m')) :
    s.queue ++ incidents.flatMap asked = names ++ s'.queue ∧
      s'.operationsRun = s.operationsRun + names.length := by
  obtain ⟨names', s'', m'', run', -, -, counts⟩ := actAll_ok incidents h
  rw [run'] at run
  cases run
  exact counts

theorem actAll_append {xs ys : List Incident} {st st' st'' : Safepoints × Guarded}
    {names' : List String} (h : actAll xs st = .ok names st')
    (h' : actAll ys st' = .ok names' st'') : actAll (xs ++ ys) st = .ok (names ++ names') st'' := by
  induction xs generalizing st names with
  | nil =>
    cases h
    exact h'
  | cons i rest ih =>
    obtain ⟨first, st₁, acted, h⟩ := Vm.ok_of_bind h
    obtain ⟨others, st₂, runs, h⟩ := Vm.ok_of_bind h
    cases h
    rw [List.append_assoc]
    exact (Vm.bind_ok acted).trans ((Vm.bind_ok (ih runs)).trans rfl)

/-- After a look and a safepoint nothing waits any more. -/
theorem drained {incidents : List Incident} (h : s.Shown m)
    (run : actAll (incidents ++ [.poll, .enter]) (s, m) = .ok names (s', m')) :
    names = s.queue ++ incidents.flatMap asked ∧ s'.queue = [] ∧ s'.requested = false ∧
      s'.armed = false := by
  obtain ⟨order, -⟩ := names_of_actAll h run
  obtain ⟨before, s₁, m₁, runs, -, shown, -⟩ := actAll_ok incidents h
  obtain ⟨armed, m₂, polled, -, shown₂⟩ := poll_ok shown
  obtain ⟨m₃, entered, -, -⟩ := atSafepoint_ok shown₂
  have look : Incident.poll.act (s₁, m₁) = .ok [] _ := (Vm.bind_ok polled).trans rfl
  have last := (Vm.bind_ok (f := fun first => do return first ++ (← actAll [])) entered).trans rfl
  have both : actAll [.poll, .enter] (s₁, m₁) = _ := (Vm.bind_ok look).trans
    ((Vm.bind_ok last).trans rfl)
  rw [actAll_append runs both] at run
  cases run
  have settled : (after { s₁ with armed := s₁.requested }).queue = [] ∧
      (after { s₁ with armed := s₁.requested }).requested = false ∧
      (after { s₁ with armed := s₁.requested }).armed = false := by
    unfold after
    by_cases requested : s₁.requested = true
    · simp [requested]
    · have none : s₁.queue = [] := Decidable.byContradiction fun waits =>
        requested (shown.queue waits)
      simp [requested, none]
  refine ⟨?_, settled⟩
  rw [settled.1, List.append_nil] at order
  simpa [asked] using order.symm

/-- When the last safepoint is over the memory is what it was before the first. -/
theorem restored {incidents : List Incident} (h : s.Shown m) (idle : s.armed = false)
    (run : actAll incidents (s, m) = .ok names (s', m')) (disarmed : s'.armed = false) : m' = m := by
  obtain ⟨names', s'', m'', run', switched, shown, -⟩ := actAll_ok incidents h
  rw [run'] at run
  cases run
  have normal : s'.table = s.table := by simp only [table, idle, disarmed]
  have state : load m'.bytes 0x1000 4 = load m.bytes 0x1000 4 := by
    rw [h.state, shown.state, idle, disarmed]
  have bytes : m'.bytes = m.bytes := by
    apply Memory.eq_of_byteAt switched.size
    intro j
    by_cases inState : j < 0x1000 ∨ 0x1004 ≤ j
    · by_cases inTable : j < 0x10000 ∨ 0x15000 ≤ j
      · exact switched.other j inState inTable
      · obtain ⟨k, rfl⟩ : ∃ k, j = 0x10000 + k := ⟨j - 0x10000, by omega⟩
        have base : s.table.toNat = 0x15000 := by
          simp only [table, idle]
          rfl
        rw [shown.active k (by omega), h.active k (by omega), normal, base]
        exact switched.other _ (.inr (by omega)) (.inr (by omega))
    · obtain ⟨k, rfl⟩ : ∃ k, j = 0x1000 + k := ⟨j - 0x1000, by omega⟩
      exact Memory.byteAt_of_load (by decide) state (by omega)
  cases m'
  cases m
  exact congr (congrArg Guarded.mk bytes) switched.guards

end Incident
end Safepoints
end TemplateVm
