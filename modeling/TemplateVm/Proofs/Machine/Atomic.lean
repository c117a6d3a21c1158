import TemplateVm.Proofs.Machine.Turns
import TemplateVm.Proofs.Memory.Access
import TemplateVm.Proofs.Results

set_option autoImplicit false

/-!
# Instructions that fail

`effect` decides what an instruction does before any of it is done. `perform` carries an instruction
out piece by piece instead: each access is checked when its turn comes, a word is written before the
next one is checked, and the base register follows the accesses. Both come to the same, because of
the order of the pieces: what can fail comes first, and the second word of a pair is probed before
the first is written. So an instruction that fails leaves nothing half done, and can be tried again.
-/
namespace TemplateVm.Machine
open Memory (Guarded)
open Vm (bind_ok bind_error)

/-- A piece of the work of an instruction. -/
abbrev Work := EStateM Failure Machine

def access {α : Type} : Guarded.Action α → Work α := zoom mem fun m s => { s with mem := m }

/-- The registers, the flags and the next address, once all accesses are made. -/
def complete (e : Effect) : Work Event := do
  modify fun s => { s with processor := { s.processor with cpu := s.processor.cpu.applyEffect e } }
  pure e.event

/-- An instruction piece by piece. One without accesses is a single piece. -/
def perform (i : Instruction UInt64) : Work Event := do
  let s ← get
  let c := s.processor.cpu
  let next := c.pc + Instruction.size
  match i with
  | .load rt addr width signed =>
    let (a, base) := c.address addr
    let n ← access (Guarded.readA a width.bytes)
    complete { next, registers := base ++ [(rt, if signed then width.signExtend n else n)] }
  | .store rt addr width =>
    let (a, base) := c.address addr
    access (Guarded.write a width.bytes (c.reg rt))
    complete { next, registers := base }
  | .loadPair r1 r2 addr =>
    let (a, base) := c.address addr
    let n1 ← access (Guarded.readA a 8)
    let n2 ← access (Guarded.readA (a + 8) 8)
    complete { next, registers := base ++ [(r1, n1), (r2, n2)] }
  | .storePair r1 r2 addr =>
    let (a, base) := c.address addr
    let _ ← access (Guarded.readA (a + 8) 8)
    access (Guarded.write a 8 (c.reg r1))
    access (Guarded.write (a + 8) 8 (c.reg r2))
    complete { next, registers := base }
  | .loadFloat vt addr precision =>
    let (a, base) := c.address addr
    let n ← access (Guarded.readA a precision.bytes)
    complete { next, registers := base, floats := [(vt, n)] }
  | .storeFloat vt addr precision =>
    let (a, base) := c.address addr
    access (Guarded.write a precision.bytes (c.float vt))
    complete { next, registers := base }
  | .fetchAdd rs rt rn width =>
    let a := c.reg rn
    let old ← access (Guarded.readA a width.bytes)
    access (Guarded.write a width.bytes (old + c.reg rs))
    complete { next, registers := [(rt, old)] }
  | .breakpoint _ =>
    let count ← access (Guarded.readA Place.bytecodeCounter 8)
    throw (.breakpoint c.pc count)
  | i =>
    match i.effect c s.mem with
    | .ok e => complete e
    | .error failure => throw failure

/-- What comes of an effect that is applied as a whole, or of a failure that leaves all as it is. -/
def outcome (s : Machine) : Except Failure Effect → EStateM.Result Failure Machine Event
  | .error failure => .error failure s
  | .ok e =>
    .ok e.event
      { s with
        processor := { s.processor with cpu := s.processor.cpu.applyEffect e }
        mem := e.writes.foldl write s.mem }

section
variable {s : Machine} {a w v : UInt64}

theorem access_write (h : s.mem.fault? a w .write = none) :
    access (Guarded.write a w v) s = .ok () { s with mem := s.mem.put a w v } := by
  unfold access zoom
  simp only [Guarded.write, h]

/-- A piece that reads leads to the outcome of the effect if what follows it does. -/
theorem read_bind {k : UInt64 → Work Event} {k' : UInt64 → Except Failure Effect}
    (next : ∀ n, readOr s.mem a w = .ok n → k n s = s.outcome (k' n)) :
    (access (Guarded.readA a w) >>= k) s = s.outcome (readOr s.mem a w >>= k') := by
  unfold readOr at next ⊢
  cases h : s.mem.read a w with
  | error fault =>
    have failed : access (Guarded.readA a w) s = .error (.memoryFault fault) s := by
      unfold access zoom
      simp only [Guarded.readA, h]
    exact bind_error failed
  | ok n =>
    have done : access (Guarded.readA a w) s = .ok n s := by
      unfold access zoom
      simp only [Guarded.readA, h]
    rw [bind_ok done]
    exact next n (by rw [h]; rfl)

/-- A piece that writes does so as well; what follows it finds the number written. -/
theorem write_bind {k : Unit → Work Event} {k' : Unit → Except Failure Effect}
    (next : k () { s with mem := s.mem.put a w v } = s.outcome (k' ())) :
    (access (Guarded.write a w v) >>= k) s = s.outcome (checkWrite s.mem a w >>= k') := by
  unfold checkWrite
  cases h : s.mem.fault? a w .write with
  | some fault =>
    have failed : access (Guarded.write a w v) s = .error (.memoryFault fault) s := by
      unfold access zoom
      simp only [Guarded.write, h]
    exact bind_error failed
  | none =>
    rw [bind_ok (access_write h)]
    exact next

/-- Nothing is left half done: an instruction is carried out in full, or it fails and no piece of it
    remains. -/
theorem perform_eq (i : Instruction UInt64) (s : Machine) :
    perform i s = s.outcome (i.effect s.processor.cpu s.mem) := by
  cases i with
  | load rt addr width signed => exact read_bind fun n _ => rfl
  | store rt addr width => exact write_bind rfl
  | loadPair r1 r2 addr => exact read_bind fun n1 _ => read_bind fun n2 _ => rfl
  | storePair r1 r2 addr =>
    refine read_bind fun _ probe => write_bind ?_
    -- the first word is written by now; what the probe has shown of the second still holds
    rw [bind_ok (access_write ((Guarded.Open.of_readOr probe).put .write))]
    rfl
  | loadFloat vt addr precision => exact read_bind fun n _ => rfl
  | storeFloat vt addr precision => exact write_bind rfl
  | fetchAdd rs rt rn width => exact read_bind fun old _ => write_bind rfl
  | breakpoint imm => exact read_bind fun count _ => rfl
  | _ => rfl

end

/-- A step whose instruction is carried out piece by piece. -/
def attempt (code : CodeCache) : Work Event := fun s =>
  let pc := s.processor.cpu.pc
  if pc = Place.hostReturn then .ok .hostReturn s
  else if Place.isRuntime pc then
    match Service.ofAddress? pc with
    | some service => .ok (.service service) s
    | none => .error (executeFault pc) s
  else if s.processor.maxSteps ≤ s.processor.steps then
    .error (.stepLimitExceeded s.processor.maxSteps) s
  else
    match code.instruction? pc with
    | none => .error (executeFault pc) s
    | some i => perform i { s with processor := s.processor.count pc }

theorem attempt_eq (code : CodeCache) : attempt code = step code := by
  funext s
  unfold attempt step
  simp only [perform_eq]
  rfl

/-! ## Failed steps -/

def withGuards (s : Machine) (guards : List Memory.GuardRange) : Machine :=
  { s with mem := { s.mem with guards } }

/-- The machine after a try that is counted and does nothing else. -/
def tried (s : Machine) : Machine :=
  { s with processor := s.processor.count s.processor.cpu.pc }

/-- What a step at `pc` comes to if there was a try before it that is counted as well. -/
def recounted (pc : UInt64) :
    EStateM.Result Failure Machine Event → EStateM.Result Failure Machine Event
  | .ok event s => .ok event { s with processor := s.processor.count pc }
  | .error failure s => .error failure { s with processor := s.processor.count pc }

section
variable {code : CodeCache} {s s' : Machine} {failure : Failure}

/-- A step that fails has executed nothing, or it has come to an instruction. -/
theorem of_step_error (h : step code s = .error failure s') :
    s' = s ∨ s' = s.tried ∧ s.processor.steps < s.processor.maxSteps ∧
      s.processor.cpu.pc ≠ Place.hostReturn ∧ ¬ Place.isRuntime s.processor.cpu.pc ∧
      ∃ i, code.instruction? s.processor.cpu.pc = some i := by
  unfold step at h
  dsimp only at h
  split at h
  · cases h
  next stays =>
  split at h
  · split at h <;> cases h
    exact .inl rfl
  next generated =>
  split at h
  · cases h
    exact .inl rfl
  next left =>
  split at h
  · cases h
    exact .inl rfl
  next i instr =>
  split at h
  · cases h
    exact .inr ⟨rfl, UInt64.not_le.mp left, stays, generated, i, instr⟩
  · cases h

theorem unchanged (h : step code s = .error failure s') :
    s'.processor.cpu = s.processor.cpu ∧ s'.mem = s.mem := by
  obtain rfl | ⟨rfl, -⟩ := of_step_error h <;> exact ⟨rfl, rfl⟩

/-- An instruction does the same whether or not it has been tried before, as long as steps are
    left. -/
theorem step_tried {i : Instruction UInt64} (stays : s.processor.cpu.pc ≠ Place.hostReturn)
    (generated : ¬ Place.isRuntime s.processor.cpu.pc)
    (instr : code.instruction? s.processor.cpu.pc = some i)
    (left : s.processor.steps < s.processor.maxSteps) :
    step code s.tried =
      if s.tried.processor.maxSteps ≤ s.tried.processor.steps then
        .error (.stepLimitExceeded s.tried.processor.maxSteps) s.tried
      else recounted s.processor.cpu.pc (step code s) := by
  unfold step
  dsimp only [tried, Processor.count]
  rw [if_neg stays, if_neg stays, if_neg generated, if_neg generated,
    if_neg (UInt64.not_le.mpr left)]
  refine if_congr Iff.rfl rfl ?_
  rw [instr]
  dsimp only
  cases i.effect s.processor.cpu s.mem <;> rfl

/-- A step that fails changes no register, no flag and no byte, also when its instruction is carried
    out piece by piece. If there was no instruction to be executed it changes nothing at all. If
    there was one, the try is counted, and a second try under any other guards comes to what the
    first would have come to under them, with the first one counted as well; if the first one was
    the last within the limit, the second is refused like every other step. -/
theorem restartable (h : step code s = .error failure s') :
    attempt code s = .error failure s' ∧ s'.processor.cpu = s.processor.cpu ∧ s'.mem = s.mem ∧
      (s' = s ∨ s' = s.tried ∧ ∀ guards, step code (s'.withGuards guards) =
        if s'.processor.maxSteps ≤ s'.processor.steps then
          .error (.stepLimitExceeded s'.processor.maxSteps) (s'.withGuards guards)
        else recounted s.processor.cpu.pc (step code (s.withGuards guards))) := by
  refine ⟨by rw [attempt_eq, h], (unchanged h).1, (unchanged h).2, ?_⟩
  obtain rfl | ⟨rfl, left, stays, generated, i, instr⟩ := of_step_error h
  · exact .inl rfl
  · exact .inr ⟨rfl, fun guards =>
      step_tried (s := s.withGuards guards) stays generated instr left⟩

end

def pairStore : CodeCache where
  blobs := #[{
    name := "pair"
    start := 0x40000000
    code := #[.storePair .x1 .x2 (.pre .x0 8)] }]
  nextBase := 0
  limit := 0

/-- A pair is stored to two words of which the second is guarded. -/
def halfGuarded (maxSteps : UInt64) : Machine where
  processor := { cpu := { Cpu.zero with pc := 0x40000000 }, maxSteps }
  mem := { bytes := ⟨.replicate 24 0⟩, guards := [⟨16, 24, 7⟩] }

/-- With two steps the second try stores the pair, with one step there is no second try. -/
theorem restartable_halfGuarded : ∃ s' t',
    step pairStore (halfGuarded 2) = .error (.memoryFault ⟨16, .read, some 7⟩) s' ∧
      s'.processor.cpu = (halfGuarded 2).processor.cpu ∧ s'.mem = (halfGuarded 2).mem ∧
      step pairStore (s'.withGuards []) =
        recounted 0x40000000 (step pairStore ((halfGuarded 2).withGuards [])) ∧
    step pairStore (halfGuarded 1) = .error (.memoryFault ⟨16, .read, some 7⟩) t' ∧
      step pairStore (t'.withGuards []) = .error (.stepLimitExceeded 1) (t'.withGuards []) := by
  have fails : step pairStore (halfGuarded 2) = .error (.memoryFault ⟨16, .read, some 7⟩)
      (halfGuarded 2).tried := by rfl
  have failsLast : step pairStore (halfGuarded 1) = .error (.memoryFault ⟨16, .read, some 7⟩)
      (halfGuarded 1).tried := by rfl
  obtain ⟨-, cpu, mem, same | ⟨-, again⟩⟩ := restartable fails
  · exact absurd (congrArg (·.processor.steps) same) (by decide)
  obtain ⟨-, -, -, same | ⟨-, refused⟩⟩ := restartable failsLast
  · exact absurd (congrArg (·.processor.steps) same) (by decide)
  exact ⟨_, _, fails, cpu, mem, again [], failsLast, refused []⟩

/-! ## Steps that stop -/

/-- Only instructions after which the processor goes on write. -/
theorem writes_of_event {c : Cpu} {m : Guarded} {i : Instruction UInt64} {e : Effect}
    (h : i.effect c m = .ok e) (stops : e.event ≠ .next) : e.writes = [] := by
  have goesOn {n : UInt64} {registers floats flags writes}
      (h : (.ok ⟨n, registers, floats, flags, writes, .next⟩ : Except Failure Effect) = .ok e) :
      e.writes = [] := by
    cases h
    exact absurd rfl stops
  cases i with
  | callNative target format =>
    cases h
    rfl
  | load _ _ _ _ | store _ _ _ | loadFloat _ _ _ | storeFloat _ _ _ =>
    obtain ⟨_, -, h⟩ := ok_of_bind h
    exact goesOn h
  | loadPair _ _ _ | fetchAdd _ _ _ _ | storePair _ _ _ =>
    obtain ⟨_, -, h⟩ := ok_of_bind h
    obtain ⟨_, -, h⟩ := ok_of_bind h
    exact goesOn h
  | breakpoint _ =>
    obtain ⟨_, -, h⟩ := ok_of_bind h
    cases h
  | stop _ => cases h
  | _ => exact goesOn h

/-- A step that asks for a service, or for a function of the host, leaves the memory as it is. -/
theorem of_step_event {code : CodeCache} {s s' : Machine} {event : Event}
    (h : step code s = .ok event s') (stops : event ≠ .next) : s'.mem = s.mem := by
  unfold step at h
  dsimp only at h
  split at h
  · cases h
    rfl
  split at h
  · split at h <;> cases h
    rfl
  split at h
  · cases h
  split at h
  · cases h
  split at h
  · cases h
  next e effect =>
    cases h
    rw [writes_of_event effect stops]
    rfl

/-! ## Failed runs -/

/-- Steps after which the machine goes on by itself. -/
inductive Runs (code : CodeCache) : Machine → Nat → Machine → Prop
  | refl (s : Machine) : Runs code s 0 s
  | next {s t u : Machine} {n : Nat} (h : step code s = .ok .next t) (rest : Runs code t n u) :
    Runs code s (n + 1) u

/-- A run that fails stands where its last instruction began. -/
theorem run_error {code : CodeCache} {n k : Nat} {s s' : Machine} {failure : Failure}
    (h : run code n s = ((k, .error failure), s')) :
    ∃ t j, j + k = n ∧ Runs code s j t ∧ step code t = .error failure s' ∧
      s'.processor.cpu = t.processor.cpu ∧ s'.mem = t.mem := by
  induction n generalizing s with
  | zero => cases h
  | succ n ih =>
    unfold run at h
    cases stepped : step code s with
    | ok event t =>
      rw [stepped] at h
      cases event with
      | next =>
        obtain ⟨u, j, sum, runs, fails, same⟩ := ih h
        exact ⟨u, j + 1, by omega, .next stepped runs, fails, same⟩
      | _ => cases h
    | error failure' t =>
      rw [stepped] at h
      cases h
      exact ⟨s, 0, by omega, .refl s, stepped, unchanged stepped⟩

end TemplateVm.Machine
