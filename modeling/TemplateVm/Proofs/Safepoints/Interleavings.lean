import TemplateVm.Proofs.Safepoints.Tables

set_option autoImplicit false

/-!
# Requests between the pieces of a safepoint

A request is made in two pieces: the operation is queued, and then the flag is set. A safepoint is
taken in pieces, too: the queue is taken, its operations are run one after the other, the flag is
cleared, and the tables are switched back. Any thread can ask for something between two of these
pieces, and so can an operation that is being run. Operations are run in the order of the queue and
none of them twice. But the flag is cleared after the operations have been run: what was asked for
in the meantime waits without a flag, and is not run until somebody else asks.
-/
namespace TemplateVm.Safepoints

open Memory (Guarded load)

/-- The first piece of a request; the second one is `begin`. -/
def enqueue (s : Safepoints) (name : String) : Safepoints := { s with queue := s.queue ++ [name] }

/-- Where the thread that runs guest code is in a safepoint. -/
inductive Progress where
  | away
  /-- The queue has been taken; these operations are still to be run. -/
  | running (rest : List String)
  /-- The flag has been cleared, but the tables are still armed. -/
  | cleared
  deriving DecidableEq

/-- The operations that are taken and not run yet. -/
def Progress.rest : Progress → List String
  | .running rest => rest
  | _ => []

/-- What threads share, with what has happened so far. -/
structure Shared where
  record : Safepoints
  mem : Guarded
  progress : Progress := .away
  /-- Number of requests that have queued their operation and not set the flag. -/
  halfway : Nat := 0
  /-- All operations that were ever queued, in this order. -/
  asked : List String := []
  /-- All operations that were run, in this order. -/
  ran : List String := []

inductive Piece where
  | enqueue (name : String)
  /-- A request that is halfway sets the flag. -/
  | flag
  | begin
  | poll
  | take
  | run
  | clear
  | disarm

namespace Shared

/-- What an action on the record and the memory leaves, if it is done. -/
def after {α : Type} (s : Shared) (action : Action α) : Option Shared :=
  match action (s.record, s.mem) with
  | .ok _ (record, mem) => some { s with record, mem }
  | .error _ _ => none

/-- One piece, if it can come next. Requests can be made at any time; the other pieces belong to the
    one thread that runs guest code. -/
def step (s : Shared) : Piece → Option Shared
  | .enqueue name => some { s with
      record := s.record.enqueue name, halfway := s.halfway + 1, asked := s.asked ++ [name] }
  | .flag =>
    if s.halfway = 0 then none
    else some { s with record := s.record.begin, halfway := s.halfway - 1 }
  | .begin => some { s with record := s.record.begin }
  | .poll => if s.progress = .away then s.after Safepoints.poll else none
  | .take =>
    if s.progress = .away ∧ s.record.armed then some { s with
      record := { s.record with queue := [] }, progress := .running s.record.queue }
    else none
  | .run =>
    match s.progress with
    | .running (name :: rest) => some { s with
        record := { s.record with operationsRun := s.record.operationsRun + 1 }
        progress := .running rest, ran := s.ran ++ [name] }
    | _ => none
  | .clear =>
    if s.progress = .running [] then some { s with
      record := { s.record with requested := false, taken := s.record.taken + 1 }
      progress := .cleared }
    else none
  | .disarm =>
    if s.progress = .cleared then ({ s with progress := .away } : Shared).after Safepoints.disarm
    else none

/-- One piece after the other. -/
def interleave : List Piece → Shared → Option Shared
  | [], s => some s
  | p :: ps, s => (s.step p).bind (interleave ps)

variable {s s' t : Shared} {p : Piece} {ps qs : List Piece} {m : Guarded}

theorem interleave_append :
    interleave (ps ++ qs) s = (interleave ps s).bind (interleave qs) := by
  induction ps generalizing s with
  | nil => rfl
  | cons p ps ih =>
    change (s.step p).bind (interleave (ps ++ qs)) = ((s.step p).bind (interleave ps)).bind _
    rw [Option.bind_assoc]
    exact congrArg (s.step p).bind (funext fun _ => ih)

/-! ## The pieces put together -/

/-- A request is made in two pieces. -/
theorem interleave_request (name : String) :
    interleave [.enqueue name, .flag] s =
      some { s with record := s.record.request name, asked := s.asked ++ [name] } := rfl

theorem interleave_run (rest : List String) (running : s.progress = .running rest) :
    interleave (.replicate rest.length .run) s = some { s with
      record := { s.record with operationsRun := s.record.operationsRun + rest.length }
      progress := .running [], ran := s.ran ++ rest } := by
  induction rest generalizing s with
  | nil =>
    obtain ⟨record, mem, progress, halfway, asked, ran⟩ := s
    cases running
    simp [interleave]
  | cons name rest ih =>
    have first : s.step .run = some { s with
        record := { s.record with operationsRun := s.record.operationsRun + 1 }
        progress := .running rest, ran := s.ran ++ [name] } := by
      unfold step
      rw [running]
    rw [List.length_cons, List.replicate_succ, interleave, first]
    refine (ih rfl).trans ?_
    simp only [List.append_assoc, List.singleton_append, Nat.add_assoc, Nat.add_comm 1]

/-- A safepoint that nothing comes between. -/
theorem interleave_atSafepoint {names : List String} {record : Safepoints}
    (away : s.progress = .away) (armed : s.record.armed = true)
    (entered : atSafepoint (s.record, s.mem) = .ok names (record, m)) :
    interleave (.take :: .replicate s.record.queue.length .run ++ [.clear, .disarm]) s =
      some { s with record, mem := m, ran := s.ran ++ names } := by
  have taken : s.step .take = some { s with
      record := { s.record with queue := [] }, progress := .running s.record.queue } :=
    if_pos ⟨away, armed⟩
  rw [List.cons_append, interleave, taken, Option.bind_some, interleave_append,
    interleave_run s.record.queue rfl, Option.bind_some]
  unfold atSafepoint at entered
  obtain ⟨_, _, got, entered⟩ := Vm.ok_of_bind entered
  cases got
  simp only [armed, Bool.not_true, Bool.false_eq_true, if_false] at entered
  obtain ⟨⟨⟩, _, updated, entered⟩ := Vm.ok_of_bind entered
  cases updated
  obtain ⟨⟨⟩, ⟨record', m'⟩, disarmed, entered⟩ := Vm.ok_of_bind entered
  cases entered
  simp only [interleave, step, if_true, Option.bind_some, after]
  rw [disarmed]
  simp only [Option.bind_some, away]

/-! ## What a piece does -/

theorem record_of_onMemory {α : Type} {action : Guarded.Action α} {a : α} {r r' : Safepoints}
    {m' : Guarded} (h : onMemory action (r, m) = .ok a (r', m')) : r' = r := by
  dsimp only [onMemory, zoom] at h
  split at h <;> cases h
  rfl

/-- A look for requests leaves the queue and the flag as they are, -/
theorem queue_of_poll {r r' : Safepoints} {m' : Guarded} {armed : Bool}
    (h : poll (r, m) = .ok armed (r', m')) :
    r'.queue = r.queue ∧ r'.requested = r.requested ∧ (r.requested = false → r'.armed = r.armed) := by
  unfold poll at h
  obtain ⟨_, _, got, h⟩ := Vm.ok_of_bind h
  cases got
  dsimp only at h
  split at h
  · cases h
    exact ⟨rfl, rfl, fun _ => rfl⟩
  · rename_i waits
    obtain ⟨⟨⟩, _, armed, h⟩ := Vm.ok_of_bind h
    cases h
    unfold arm at armed
    obtain ⟨⟨⟩, ⟨_, _⟩, written, updated⟩ := Vm.ok_of_bind armed
    cases updated
    cases record_of_onMemory written
    refine ⟨rfl, rfl, fun none => ?_⟩
    simp [none] at waits

/-- disarming changes nothing else in the record, -/
theorem record_of_disarm {r r' : Safepoints} {m' : Guarded} (h : disarm (r, m) = .ok () (r', m')) :
    r' = { r with armed := false } := by
  unfold disarm at h
  obtain ⟨⟨⟩, ⟨_, _⟩, written, updated⟩ := Vm.ok_of_bind h
  cases updated
  cases record_of_onMemory written
  rfl

/-- and can be done as long as the tables are open. -/
theorem disarm_runs {r : Safepoints} (tables : m.Clear 0x1000 0x1f000) :
    ∃ m', disarm (r, m) = .ok () ({ r with armed := false }, m') := by
  obtain ⟨m₁, copied, active, -⟩ :=
    copyTable_ok tables Place.normalTable (by decide) (by decide)
  obtain ⟨m₂, written, -⟩ := writeState_ok (tables.changed active) (n := idleCode) (by decide)
  exact ⟨m₂, (Vm.bind_ok (onMemory_ok (seq_ok copied written))).trans rfl⟩

/-- What a look changes. -/
theorem of_step_poll (stepped : s.step .poll = some s') :
    s.progress = .away ∧ ∃ record mem, s' = { s with record, mem } ∧
      record.queue = s.record.queue ∧ record.requested = s.record.requested ∧
      (s.record.requested = false → record.armed = s.record.armed) := by
  dsimp only [Shared.step, after] at stepped
  split at stepped
  · rename_i away
    split at stepped
    · rename_i polled
      cases stepped
      exact ⟨away, _, _, rfl, queue_of_poll polled⟩
    · cases stepped
  · cases stepped

theorem of_step_disarm (stepped : s.step .disarm = some s') :
    s.progress = .cleared ∧ ∃ mem, s' =
      { s with record := { s.record with armed := false }, mem, progress := .away } := by
  dsimp only [Shared.step, after] at stepped
  split at stepped
  · rename_i cleared
    split at stepped
    · rename_i disarmed
      cases stepped
      cases record_of_disarm disarmed
      exact ⟨cleared, _, rfl⟩
    · cases stepped
  · cases stepped

theorem of_step_take (stepped : s.step .take = some s') :
    (s.progress = .away ∧ s.record.armed = true) ∧ s' = { s with
      record := { s.record with queue := [] }, progress := .running s.record.queue } := by
  dsimp only [Shared.step] at stepped
  split at stepped
  · rename_i taken
    cases stepped
    exact ⟨taken, rfl⟩
  · cases stepped

theorem of_step_run (stepped : s.step .run = some s') :
    ∃ name rest, s.progress = .running (name :: rest) ∧ s' = { s with
      record := { s.record with operationsRun := s.record.operationsRun + 1 }
      progress := .running rest, ran := s.ran ++ [name] } := by
  dsimp only [Shared.step] at stepped
  split at stepped
  · rename_i name rest running
    cases stepped
    exact ⟨name, rest, running, rfl⟩
  · cases stepped

theorem of_step_clear (stepped : s.step .clear = some s') :
    s.progress = .running [] ∧ s' = { s with
      record := { s.record with requested := false, taken := s.record.taken + 1 }
      progress := .cleared } := by
  dsimp only [Shared.step] at stepped
  split at stepped
  · rename_i running
    cases stepped
    exact ⟨running, rfl⟩
  · cases stepped

theorem of_step_flag (stepped : s.step .flag = some s') :
    0 < s.halfway ∧ s' = { s with record := s.record.begin, halfway := s.halfway - 1 } := by
  dsimp only [Shared.step] at stepped
  split at stepped
  · cases stepped
  · rename_i halfway
    cases stepped
    exact ⟨Nat.pos_of_ne_zero halfway, rfl⟩

/-! ## Order -/

/-- Whatever was queued has been run, or is to be run, or still waits, in this order. -/
def InOrder (s : Shared) : Prop := s.asked = s.ran ++ s.progress.rest ++ s.record.queue

theorem InOrder.step (h : s.InOrder) (stepped : s.step p = some s') : s'.InOrder := by
  unfold InOrder at h ⊢
  cases p with
  | enqueue name =>
    cases stepped
    dsimp only [Safepoints.enqueue]
    rw [h, List.append_assoc _ _ [name]]
  | flag =>
    obtain ⟨-, rfl⟩ := of_step_flag stepped
    exact h
  | begin =>
    cases stepped
    exact h
  | poll =>
    obtain ⟨-, record, mem, rfl, queue, -⟩ := of_step_poll stepped
    exact queue ▸ h
  | take =>
    obtain ⟨⟨away, -⟩, rfl⟩ := of_step_take stepped
    rw [away] at h
    simpa [Progress.rest] using h
  | run =>
    obtain ⟨name, rest, running, rfl⟩ := of_step_run stepped
    rw [running] at h
    simpa [Progress.rest] using h
  | clear =>
    obtain ⟨running, rfl⟩ := of_step_clear stepped
    rw [running] at h
    exact h
  | disarm =>
    obtain ⟨cleared, mem, rfl⟩ := of_step_disarm stepped
    rw [cleared] at h
    exact h

/-- Each operation is run at most once and in the order of the queue, whatever comes between. -/
theorem InOrder.interleave (h : s.InOrder) (run : interleave ps s = some s') : s'.InOrder := by
  induction ps generalizing s with
  | nil =>
    cases run
    exact h
  | cons p ps ih =>
    obtain ⟨t, stepped, run⟩ := Option.bind_eq_some_iff.mp run
    exact ih (h.step stepped) run

/-! ## Operations that wait -/

/-- Something will be done about what waits: the flag is set, or will be by a request that is
    halfway, or a safepoint is still at it. -/
def Pending (s : Shared) : Prop :=
  s.record.queue ≠ [] →
    s.record.requested = true ∨ 0 < s.halfway ∨ ∃ rest, s.progress = .running rest

/-- Only the piece that clears the flag can leave an operation behind. -/
theorem Pending.step (h : s.Pending) (stepped : s.step p = some s')
    (clears : p = .clear → s.record.queue = [] ∨ 0 < s.halfway) : s'.Pending := by
  unfold Pending at h ⊢
  cases p with
  | enqueue name =>
    cases stepped
    exact fun _ => .inr (.inl (Nat.succ_pos _))
  | flag =>
    obtain ⟨-, rfl⟩ := of_step_flag stepped
    exact fun _ => .inl rfl
  | begin =>
    cases stepped
    exact fun _ => .inl rfl
  | poll =>
    obtain ⟨-, record, mem, rfl, queue, requested, -⟩ := of_step_poll stepped
    dsimp only
    rw [queue, requested]
    exact h
  | take =>
    obtain ⟨-, rfl⟩ := of_step_take stepped
    exact fun waits => absurd rfl waits
  | run =>
    obtain ⟨name, rest, -, rfl⟩ := of_step_run stepped
    exact fun _ => .inr (.inr ⟨rest, rfl⟩)
  | clear =>
    obtain ⟨-, rfl⟩ := of_step_clear stepped
    exact fun waits => .inr (.inl ((clears rfl).resolve_left waits))
  | disarm =>
    obtain ⟨cleared, mem, rfl⟩ := of_step_disarm stepped
    intro waits
    obtain requested | halfway | ⟨rest, running⟩ := h waits
    · exact .inl requested
    · exact .inr (.inl halfway)
    · rw [cleared] at running
      cases running

/-- Nothing is ever left behind if nothing waits, or a request is halfway, whenever the flag is
    cleared. -/
theorem Pending.interleave (h : s.Pending) (run : interleave ps s = some s')
    (clears : ∀ qs rest t, ps = qs ++ .clear :: rest → Shared.interleave qs s = some t →
      t.record.queue = [] ∨ 0 < t.halfway) : s'.Pending := by
  induction ps generalizing s with
  | nil =>
    cases run
    exact h
  | cons p ps ih =>
    obtain ⟨t, stepped, run⟩ := Option.bind_eq_some_iff.mp run
    refine ih (h.step stepped fun clear => clears [] ps s (by rw [clear]; rfl) rfl) run ?_
    intro qs rest u split reached
    refine clears (p :: qs) rest u (by rw [split]; rfl) ?_
    rw [Shared.interleave, stepped]
    exact reached

/-- No safepoint is under way, and nobody has asked for one. -/
structure Unnoticed (s : Shared) : Prop where
  away : s.progress = .away
  idle : s.record.armed = false
  unasked : s.record.requested = false

/-- A safepoint clears the flag over whatever was queued since it took the queue, by another thread
    or by one of the operations it has run. -/
theorem unnoticed_of_clear (tables : s.mem.Clear 0x1000 0x1f000)
    (running : s.progress = .running []) :
    ∃ s', interleave [.clear, .disarm] s = some s' ∧ s'.Unnoticed ∧
      s'.record.queue = s.record.queue ∧ s'.halfway = s.halfway ∧ s'.ran = s.ran := by
  have cleared : s.step .clear = some { s with
      record := { s.record with requested := false, taken := s.record.taken + 1 }
      progress := .cleared } := if_pos running
  obtain ⟨m', disarmed⟩ := disarm_runs
    (r := { s.record with requested := false, taken := s.record.taken + 1 }) tables
  rw [interleave, cleared, Option.bind_some]
  simp only [interleave, step, if_true, after]
  rw [disarmed]
  exact ⟨_, rfl, ⟨rfl, rfl, rfl⟩, rfl, rfl, rfl⟩

theorem Unnoticed.step (h : s.Unnoticed) (stepped : s.step p = some s') (flag : p ≠ .flag)
    (begin : p ≠ .begin) :
    s'.Unnoticed ∧ s'.ran = s.ran ∧ ∃ names, s'.record.queue = s.record.queue ++ names := by
  cases p with
  | enqueue name =>
    cases stepped
    exact ⟨⟨h.away, h.idle, h.unasked⟩, rfl, [name], rfl⟩
  | flag => exact absurd rfl flag
  | begin => exact absurd rfl begin
  | poll =>
    obtain ⟨-, record, mem, rfl, queue, requested, armed⟩ := of_step_poll stepped
    refine ⟨⟨h.away, (armed h.unasked).trans h.idle, requested.trans h.unasked⟩, rfl, [], ?_⟩
    rw [List.append_nil]
    exact queue
  | take =>
    obtain ⟨⟨-, armed⟩, -⟩ := of_step_take stepped
    rw [h.idle] at armed
    cases armed
  | run =>
    obtain ⟨name, rest, running, -⟩ := of_step_run stepped
    rw [h.away] at running
    cases running
  | clear =>
    obtain ⟨running, -⟩ := of_step_clear stepped
    rw [h.away] at running
    cases running
  | disarm =>
    obtain ⟨cleared, -⟩ := of_step_disarm stepped
    rw [h.away] at cleared
    cases cleared

/-- What has been left behind is not run until somebody sets the flag again. -/
theorem Unnoticed.interleave (h : s.Unnoticed) (run : interleave ps s = some s')
    (flag : .flag ∉ ps) (begin : .begin ∉ ps) :
    s'.Unnoticed ∧ s'.ran = s.ran ∧ ∃ names, s'.record.queue = s.record.queue ++ names := by
  induction ps generalizing s with
  | nil =>
    cases run
    exact ⟨h, rfl, [], (List.append_nil _).symm⟩
  | cons p ps ih =>
    obtain ⟨t, stepped, run⟩ := Option.bind_eq_some_iff.mp run
    rw [List.mem_cons, not_or] at flag begin
    obtain ⟨unnoticed, ran, names, queue⟩ :=
      h.step stepped (Ne.symm flag.1) (Ne.symm begin.1)
    obtain ⟨unnoticed', ran', names', queue'⟩ := ih unnoticed run flag.2 begin.2
    refine ⟨unnoticed', ran'.trans ran, names ++ names', ?_⟩
    rw [queue', queue, List.append_assoc]

/-- One thread is enough: an operation that asks for another one while it is run leaves it in the
    queue without a flag. -/
theorem unnoticed_of_nested {outer inner : String} (shown : s.record.Shown s.mem)
    (away : s.progress = .away) (armed : s.record.armed = true) (queue : s.record.queue = [outer]) :
    ∃ s', interleave [.take, .run, .enqueue inner, .flag, .clear, .disarm] s = some s' ∧
      s'.Unnoticed ∧ s'.record.queue = [inner] ∧ s'.halfway = s.halfway ∧
      s'.ran = s.ran ++ [outer] := by
  have taken : s.step .take = some { s with
      record := { s.record with queue := [] }, progress := .running [outer] } := by
    rw [← queue]
    exact if_pos ⟨away, armed⟩
  let asked : Shared := { s with
    record := ({ s.record with
      queue := [], operationsRun := s.record.operationsRun + 1 } : Safepoints).request inner
    progress := .running [], asked := s.asked ++ [inner], ran := s.ran ++ [outer] }
  obtain ⟨s', cleared, unnoticed, queue', halfway, ran⟩ :=
    unnoticed_of_clear (s := asked) shown.clear rfl
  refine ⟨s', ?_, unnoticed, queue', halfway, ran⟩
  rw [interleave, taken]
  exact cleared

end Shared
end TemplateVm.Safepoints
