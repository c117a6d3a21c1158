import Mathlib.Data.List.Induction
import TemplateVm.Proofs.Activation.Returning
import TemplateVm.Proofs.Layout.Generated
import TemplateVm.Proofs.Machine.Paths

set_option autoImplicit false
set_option synthInstance.maxSize 100000

/-!
# Arguments of services

Generated code moves the arguments of a service into their registers one after the other. The
service gets what the sources held before exactly where no move takes a register that an earlier one
has overwritten: then both ways to call a service come to it with the right arguments, and one list
with two registers exchanged does not.
-/
namespace TemplateVm

open Memory (Guarded)

/-! ## Moves one after the other -/

/-- No move takes what an earlier one has overwritten. -/
def Untangled (moves : List (Register × Register)) : Prop :=
  moves.Pairwise fun earlier later => later.2 = earlier.1 → earlier.1 = earlier.2

instance (moves : List (Register × Register)) : Decidable (Untangled moves) :=
  inferInstanceAs (Decidable (List.Pairwise _ _))

namespace Cpu

variable {c : Cpu} {moves : List (Register × Register)} {r : Register}

theorem pc_setReg (c : Cpu) (r : Register) (n : UInt64) : (c.setReg r n).pc = c.pc := by
  unfold setReg
  split <;> rfl

theorem reg_passed_of_notMem (other : r ∉ moves.map (·.1)) : (c.passed moves).reg r = c.reg r := by
  induction moves generalizing c with
  | nil => rfl
  | cons move moves ih =>
    rw [List.map_cons, List.mem_cons, not_or] at other
    exact (ih other.2).trans (c.reg_setReg_ne _ other.1)

/-- Moves that are not tangled do what they would do at once. -/
theorem reg_passed (untangled : Untangled moves) (targets : (moves.map (·.1)).Nodup)
    (some : ∀ move ∈ moves, move.1 ≠ .zero) :
    ∀ move ∈ moves, (c.passed moves).reg move.1 = c.reg move.2 := by
  induction moves generalizing c with
  | nil => nofun
  | cons first moves ih =>
    obtain ⟨later, untangled⟩ := List.pairwise_cons.mp untangled
    obtain ⟨apart, targets⟩ := List.nodup_cons.mp targets
    obtain ⟨nonzero, some⟩ := List.forall_mem_cons.mp some
    refine List.forall_mem_cons.mpr ⟨?_, fun move mem => ?_⟩
    · exact (reg_passed_of_notMem apart).trans (c.reg_setReg_self _ nonzero)
    · refine (ih untangled targets some move mem).trans ?_
      change (c.setReg first.1 (c.reg first.2)).reg move.2 = c.reg move.2
      by_cases taken : move.2 = first.1
      · rw [← later move mem taken, c.setReg_reg]
      · exact c.reg_setReg_ne _ taken

theorem passed_concat (c : Cpu) (moves : List (Register × Register)) (last : Register × Register) :
    c.passed (moves ++ [last]) =
      (c.passed moves).setReg last.1 ((c.passed moves).reg last.2) := by
  simp only [passed, List.foldl_append, List.foldl_cons, List.foldl_nil]

/-- If moves are right whatever is in one of their targets, they are not tangled: the first one that
    is takes what an earlier one has moved there, and not what was there. -/
theorem untangled_of_reg_passed (targets : (moves.map (·.1)).Nodup)
    (some : ∀ move ∈ moves, move.1 ≠ .zero)
    (right : ∀ r ∈ moves.map (·.1), ∀ n, ∀ move ∈ moves,
      ((c.setReg r n).passed moves).reg move.1 = (c.setReg r n).reg move.2) : Untangled moves := by
  induction moves using List.reverseRecOn with
  | nil => exact .nil
  | append_singleton moves last ih =>
    have mem_last : last ∈ moves ++ [last] := List.mem_append_right _ List.mem_cons_self
    have mem_of {move : Register × Register} (mem : move ∈ moves) : move ∈ moves ++ [last] :=
      List.mem_append_left _ mem
    have some' : ∀ move ∈ moves, move.1 ≠ .zero := fun move mem => some move (mem_of mem)
    rw [List.map_append] at targets right
    obtain ⟨distinct, -, apart⟩ := List.nodup_append.mp targets
    have before : Untangled moves := by
      refine ih distinct some' fun r hr n move mem => ?_
      have other : move.1 ≠ last.1 :=
        apart _ (List.mem_map_of_mem mem) _ (List.mem_map_of_mem List.mem_cons_self)
      rw [← right r (List.mem_append_left _ hr) n move (mem_of mem), passed_concat,
        reg_setReg_ne _ _ other]
    refine List.pairwise_append.mpr ⟨before, .cons nofun .nil, fun move mem _ single taken => ?_⟩
    obtain rfl := List.mem_singleton.mp single
    refine Classical.byContradiction fun other => ?_
    -- the target of the earlier move holds something else than its source
    have here := right move.1 (List.mem_append_left _ (List.mem_map_of_mem mem)) (c.reg move.2 + 1)
      _ mem_last
    rw [passed_concat, reg_setReg_self _ _ (some _ mem_last), taken,
      reg_passed before distinct some' move mem, reg_setReg_self _ _ (some' move mem),
      reg_setReg_ne _ _ (Ne.symm other)] at here
    exact absurd here (by simp)

end Cpu

/-! ## Runs of the processor -/

namespace Machine

section
variable {code : CodeCache} {P : Cpu → Guarded → Prop} {n : Nat} {p q : UInt64} {c : Cpu}
  {m : Guarded}

theorem Comes.passArguments {place : CodeLabel → UInt64} {ctx : CodeContext} {inStub : Bool}
    {K S : List CodeLabel} {rs args : List Register}
    (lay : Lays ⟨code, place⟩ ctx inStub K S (Emit.passArguments rs args) p q ())
    (next : Comes code P n q (c.passed (rs.zip args)) m) :
    Comes code P (n + (rs.zip args).length) p c m := by
  unfold Emit.passArguments at lay
  revert next
  generalize rs.zip args = moves at lay
  induction moves generalizing c p with
  | nil =>
    obtain ⟨rfl, -⟩ := lay.ended
    exact id
  | cons move moves ih =>
    intro next
    have each (x : Register × Register) :
        Orderly ctx inStub K S S 1 (if x.1 = x.2 then pure () else Emit.mov x.1 x.2) :=
      Orderly.upto inferInstance (by decide)
    obtain ⟨r, first, rest⟩ := Lays.forM_cons (o := each) lay
    by_cases same : move.1 = move.2
    · obtain ⟨rfl, -⟩ := (first.ite_pos same).ended
      refine (ih rest ?_).mono (Nat.le_succ _)
      rwa [Cpu.passed, List.foldl_cons, ← same, Cpu.setReg_reg] at next
    · obtain ⟨i, rfl⟩ := (first.ite_neg same).emit
      exact .mov i (ih rest next)

/-- What is executed before an event does not matter for it. -/
theorem run_of_runs {s t : Machine} {k : Nat} (runs : Runs code s k t) (j : Nat) :
    run code (k + j) s = run code j t := by
  induction runs with
  | refl s => rw [Nat.zero_add]
  | @next s t u k step rest ih =>
    rw [Nat.add_right_comm, run, step]
    exact ih

end

def setReg (s : Machine) (r : Register) (n : UInt64) : Machine :=
  { s with processor := { s.processor with cpu := s.processor.cpu.setReg r n } }

/-- The service is the next event of the machine, with the property for the registers. -/
def Calls (s : Machine) (code : CodeCache) (service : Service) (Q : Cpu → Prop) : Prop :=
  ∃ (k : Nat) (t : Machine), (∀ j, run code (k + j) s = ((j, .ok (.service service)), t)) ∧
    Q t.processor.cpu

section
variable {code : CodeCache} {s : Machine} {service : Service} {Q : Cpu → Prop} {n : Nat}
  {p : UInt64} {c : Cpu} {m : Guarded}

theorem calls_of_comes (here : s.processor.cpu.pc = p)
    (left : s.processor.steps.toNat + n ≤ s.processor.maxSteps.toNat)
    (h : Comes code (fun c _ => c.pc = service.address ∧ Q c) n p s.processor.cpu s.mem) :
    s.Calls code service Q := by
  obtain ⟨k, t, runs, there, holds⟩ := h s (by rw [← here]) rfl left
  obtain ⟨runtime, host, found⟩ := Vm.ofAddress?_address service
  have event : step code t = .ok (.service service) t := by
    simp only [Machine.step, there, host, runtime, found, ↓reduceIte]
  refine ⟨k + 1, t, fun j => ?_, holds⟩
  rw [Nat.add_assoc, run_of_runs runs, Nat.add_comm, run, event]

/-- There is only one next event. -/
theorem Calls.unique {service' : Service} {Q' : Cpu → Prop} (h : s.Calls code service Q)
    (h' : s.Calls code service' Q') : s.Calls code service fun c => Q c ∧ Q' c := by
  obtain ⟨k, t, runs, holds⟩ := h
  obtain ⟨k', t', runs', holds'⟩ := h'
  have same := (runs k').symm.trans ((congrArg (run code · s) (Nat.add_comm ..)).trans (runs' k))
  cases same
  exact ⟨k, t, runs, holds, holds'⟩

end
end Machine

/-! ## The two ways to call a service -/

/-- How generated code calls a service. -/
inductive ServiceCall where
  /-- The service needs neither the frame nor the bytecode. -/
  | leaf
  /-- The service may inspect frames; its result is taken from the thread. -/
  | vm (result : Option Register)

namespace ServiceCall

def emit (call : ServiceCall) (service : Service) (args : List Register) : Emit Unit :=
  match call with
  | leaf => Emit.callLeaf service args
  | vm result => Emit.callVm result service args

/-- The registers that take the arguments; the first one is for the thread where it is passed. -/
def registers : ServiceCall → List Register
  | leaf => Register.arguments
  | vm _ => Register.arguments.drop 1

/-- The words that are written before the service is entered. -/
def written (c : Cpu) : ServiceCall → List UInt64
  | leaf => []
  | vm _ => [c.reg .frame + Frame.bytecode, c.reg .thread + ThreadBlock.lastSp,
      c.reg .thread + ThreadBlock.lastFp, c.reg .thread + ThreadBlock.lastPc]

/-- The arguments are where the service expects them, and the thread if it expects one. -/
structure Passed (call : ServiceCall) (args : List Register) (c c' : Cpu) : Prop where
  arguments : ∀ (i : Nat) (arg : Register), args[i]? = some arg →
    ∃ r, call.registers[i]? = some r ∧ c'.reg r = c.reg arg
  thread : call ≠ leaf → c'.reg .x0 = c.reg .thread

variable {call : ServiceCall} {service : Service} {args : List Register} {code : CodeCache}
  {place : CodeLabel → UInt64} {ctx : CodeContext} {inStub : Bool} {K S : List CodeLabel}
  {p q : UInt64} {c : Cpu} {m : Guarded} {P : Cpu → Guarded → Prop} {n : Nat}

theorem length_registers (call : ServiceCall) : call.registers.length ≤ 8 := by
  cases call with
  | leaf => exact Nat.le_refl 8
  | vm result => exact Nat.le_succ 7

/-- The registers that take arguments are different, and none is used otherwise until then. -/
theorem targets (call : ServiceCall) (args : List Register) :
    ((call.registers.zip args).map (·.1)).Nodup ∧
      ∀ move ∈ call.registers.zip args, move.1 ∈ Register.arguments := by
  have sub : call.registers.Sublist Register.arguments := by
    cases call with
    | leaf => exact .refl _
    | vm result => exact List.drop_sublist ..
  refine ⟨?_, fun move mem => sub.subset (List.of_mem_zip mem).1⟩
  rw [List.zip_eq_zip_take_min]
  change (List.map Prod.fst _).Nodup
  rw [List.map_fst_zip (by simp)]
  exact (by decide : Register.arguments.Nodup).sublist ((List.take_sublist ..).trans sub)

theorem reg_passed_other (call : ServiceCall) (args : List Register) (c : Cpu) {r : Register}
    (other : r ∉ Register.arguments) : (c.passed (call.registers.zip args)).reg r = c.reg r := by
  refine Cpu.reg_passed_of_notMem fun mem => other ?_
  obtain ⟨move, moves, rfl⟩ := List.mem_map.mp mem
  exact (call.targets args).2 move moves

/-- Both ways come to the service with the arguments moved one after the other. -/
theorem comes (call : ServiceCall)
    (lay : Lays ⟨code, place⟩ ctx inStub K S (call.emit service args) p q ())
    (writable : ∀ a ∈ call.written c, m.Open a 8) :
    Machine.Comes code (fun c' _ => c'.pc = service.address ∧
      (∀ r ∈ call.registers, c'.reg r = (c.passed (call.registers.zip args)).reg r) ∧
      (call ≠ leaf → c'.reg .x0 = c.reg .thread)) 16 p c m := by
  have length : (call.registers.zip args).length ≤ 8 := by
    rw [List.length_zip]
    exact Nat.le_trans (Nat.min_le_left ..) call.length_registers
  have same {r : Register} (other : r ∉ Register.arguments) := call.reg_passed_other args c other
  cases call with
  | leaf =>
    unfold emit Emit.callLeaf at lay
    obtain ⟨⟨⟩, r, moved, lay⟩ := lay.split
    obtain ⟨i₁, lay⟩ := lay.emit_bind
    obtain ⟨i₂, rfl⟩ := lay.emit
    refine (Machine.Comes.passArguments moved (.movImm i₁ (.callTo i₂ (.here
      ⟨Cpu.reg_setReg_self _ service.address (r := .scratch1) (by decide), fun r mem => ?_,
        absurd rfl⟩)))).mono
      (Nat.le_trans (Nat.add_le_add_left length 2) (by decide))
    have free : r ≠ .link ∧ r ≠ .scratch1 :=
      (by decide : ∀ r ∈ Register.arguments, r ≠ .link ∧ r ≠ .scratch1) r mem
    change (((c.passed _).setReg _ _).setReg _ _).reg r = _
    rw [Cpu.reg_setReg_ne _ _ free.1, Cpu.reg_setReg_ne _ _ free.2]
    rfl
  | vm result =>
    unfold emit Emit.callVm Emit.saveBytecode at lay
    obtain ⟨i₁, lay⟩ := lay.emit_bind
    obtain ⟨⟨⟩, q₁, moved, lay⟩ := lay.split
    obtain ⟨i₂, lay⟩ := lay.emit_bind
    obtain ⟨resume, lay⟩ := lay.newLabel_bind
    obtain ⟨⟨⟩, q₂, setup, lay⟩ := lay.split
    obtain ⟨i₇, lay⟩ := lay.emit_bind
    obtain ⟨i₈, lay⟩ := lay.emit_bind
    unfold Emit.setLastFrame at setup
    obtain ⟨i₃, setup⟩ := setup.emit_bind
    obtain ⟨i₄, setup⟩ := setup.emit_bind
    obtain ⟨i₅, setup⟩ := setup.emitTo_bind
    obtain ⟨i₆, rfl⟩ := setup.emit
    have own := same (r := .thread) (by decide)
    have slot := writable _ List.mem_cons_self
    have sp := writable (c.reg .thread + ThreadBlock.lastSp) (by simp [written])
    have fp := writable (c.reg .thread + ThreadBlock.lastFp) (by simp [written])
    have pc := writable (c.reg .thread + ThreadBlock.lastPc) (by simp [written])
    rw [← own] at sp fp pc
    have kept (c : Cpu) (n k : UInt64) :
        ((c.setReg .x0 n).setReg .scratch1 k).reg .thread = c.reg .thread :=
      (Cpu.reg_setReg_ne _ _ (by decide)).trans (Cpu.reg_setReg_ne _ _ (by decide))
    have count : 7 + ((vm result).registers.zip args).length + 1 ≤ 16 := by omega
    refine (Machine.Comes.store i₁ slot <| .passArguments moved <| .mov i₂ <|
      .store i₃ ?_ <| .store i₄ ?_ <| .adr i₅ <| .store i₆ ?_ <| .movImm i₇ <| .callTo i₈ <|
      .here ⟨?_, fun r mem => ?_, fun _ => ?_⟩).mono count
    · rw [Cpu.reg_setReg_ne _ _ (by decide)]
      exact sp.put
    · rw [Cpu.reg_setReg_ne _ _ (by decide)]
      exact fp.put.put
    · rw [kept]
      exact pc.put.put.put
    · exact Cpu.reg_setReg_self _ service.address (r := .scratch1) (by decide)
    · have free : r ≠ .link ∧ r ≠ .scratch1 ∧ r ≠ .x0 :=
        (by decide : ∀ r ∈ Register.arguments.drop 1, r ≠ .link ∧ r ≠ .scratch1 ∧ r ≠ .x0) r mem
      change (((((c.passed _).setReg _ _).setReg _ _).setReg _ _).setReg _ _).reg r = _
      rw [Cpu.reg_setReg_ne _ _ free.1, Cpu.reg_setReg_ne _ _ free.2.1,
        Cpu.reg_setReg_ne _ _ free.2.1, Cpu.reg_setReg_ne _ _ free.2.2]
      rfl
    · change (((((c.passed _).setReg _ _).setReg _ _).setReg _ _).setReg _ _).reg .x0 = _
      rw [Cpu.reg_setReg_ne _ _ (by decide), Cpu.reg_setReg_ne _ _ (by decide),
        Cpu.reg_setReg_ne _ _ (by decide), Cpu.reg_setReg_self _ _ (by decide), ← own]
      rfl

theorem written_setReg (call : ServiceCall) {r : Register} (taker : r ∈ Register.arguments)
    (value : UInt64) : call.written (c.setReg r value) = call.written c := by
  have other : .frame ≠ r ∧ .thread ≠ r :=
    (by decide : ∀ r ∈ Register.arguments, .frame ≠ r ∧ .thread ≠ r) r taker
  cases call with
  | leaf => rfl
  | vm result =>
    rw [written, written, Cpu.reg_setReg_ne _ _ other.1, Cpu.reg_setReg_ne _ _ other.2]

section
variable {s : Machine}
  (lay : Lays ⟨code, place⟩ ctx inStub K S (call.emit service args) p q ())
  (here : s.processor.cpu.pc = p)
  (left : s.processor.steps.toNat + 16 ≤ s.processor.maxSteps.toNat)
  (writable : ∀ a ∈ call.written s.processor.cpu, s.mem.Open a 8)
include lay here left writable

/-- The service is the next event, and finds what the moves have come to. -/
theorem calls : s.Calls code service fun c' =>
    (∀ move ∈ call.registers.zip args,
      c'.reg move.1 = (s.processor.cpu.passed (call.registers.zip args)).reg move.1) ∧
    (call ≠ leaf → c'.reg .x0 = s.processor.cpu.reg .thread) := by
  obtain ⟨k, t, runs, passed, thread⟩ := Machine.calls_of_comes here left (call.comes lay writable)
  exact ⟨k, t, runs, fun move mem => passed _ (List.of_mem_zip mem).1, thread⟩

/-- A service that is called with arguments that are not tangled gets what their registers held
    before, in the registers for its arguments, and the thread in the first register if its code
    asks for it. With arguments that are tangled, what is in one of the registers decides whether it
    does. -/
theorem passes_arguments (few : args.length ≤ call.registers.length) :
    (Untangled (call.registers.zip args) →
      s.Calls code service (call.Passed args s.processor.cpu)) ∧
    (¬ Untangled (call.registers.zip args) → ∃ r ∈ Register.arguments, ∃ value,
      ¬ (s.setReg r value).Calls code service
        (call.Passed args (s.setReg r value).processor.cpu)) := by
  obtain ⟨distinct, targets⟩ := call.targets args
  have nonzero : ∀ move ∈ call.registers.zip args, move.1 ≠ .zero := fun move mem zero =>
    absurd (zero ▸ targets move mem) (by decide)
  have moves {i : Nat} {r arg : Register} (taker : call.registers[i]? = some r)
      (source : args[i]? = some arg) : (r, arg) ∈ call.registers.zip args :=
    List.mem_of_getElem? (List.getElem?_zip_eq_some.mpr ⟨taker, source⟩)
  refine ⟨fun untangled => ?_, fun tangled => ?_⟩
  · obtain ⟨k, t, runs, passed, thread⟩ := calls lay here left writable
    refine ⟨k, t, runs, fun i arg source => ?_, thread⟩
    obtain ⟨inside, -⟩ := List.getElem?_eq_some_iff.mp source
    have taker := List.getElem?_eq_getElem (Nat.lt_of_lt_of_le inside few)
    have move := moves taker source
    exact ⟨_, taker, (passed _ move).trans (Cpu.reg_passed untangled distinct nonzero _ move)⟩
  · refine Classical.byContradiction fun none => tangled ?_
    refine Cpu.untangled_of_reg_passed (c := s.processor.cpu) distinct nonzero
      fun r mem value move move_mem => ?_
    obtain ⟨taker, taker_mem, rfl⟩ := List.mem_map.mp mem
    have argument := targets taker taker_mem
    have entered : (s.setReg taker.1 value).Calls code service
        (call.Passed args (s.setReg taker.1 value).processor.cpu) :=
      Classical.byContradiction fun other => none ⟨_, argument, value, other⟩
    have same : (s.setReg taker.1 value).processor.cpu.pc = p := (Cpu.pc_setReg ..).trans here
    have writable' : ∀ a ∈ call.written (s.setReg taker.1 value).processor.cpu, s.mem.Open a 8 := by
      change ∀ a ∈ call.written (s.processor.cpu.setReg taker.1 value), _
      rwa [call.written_setReg argument]
    obtain ⟨k, t, -, ⟨passed, -⟩, right⟩ :=
      (calls (s := s.setReg taker.1 value) lay same left writable').unique entered
    obtain ⟨i, at_move⟩ := List.mem_iff_getElem?.mp move_mem
    obtain ⟨target, source⟩ := List.getElem?_zip_eq_some.mp at_move
    obtain ⟨r, target', got⟩ := right.arguments i move.2 source
    obtain rfl : move.1 = r := Option.some.inj (target.symm.trans target')
    exact (passed move move_mem).symm.trans got

end

/-! ## Two calls -/

/-- The code of a call can be placed. -/
theorem exists_lays (call : ServiceCall) (service : Service) (args : List Register)
    (few : args.length ≤ call.registers.length) : ∃ (code : CodeCache) (place : CodeLabel → UInt64)
      (p q : UInt64), Lays ⟨code, place⟩ { settings := {} } false [] [] (call.emit service args) p
        q () := by
  have length := Nat.le_trans few call.length_registers
  have : Orderly { settings := {} } false [] [] [] 40 (call.emit service args) := by
    cases call with
    | leaf =>
      have orderly : Orderly { settings := {} } false [] [] [] (2 + args.length)
        (Emit.callLeaf service args) := inferInstance
      exact orderly.upto (by omega)
    | vm result =>
      have orderly : Orderly { settings := {} } false [] [] [] (28 + args.length)
        (Emit.callVm result service args) := inferInstance
      exact orderly.upto (by omega)
  have without : ({ settings := {} } : CodeContext).popFrame = none := rfl
  obtain ⟨blob, ⟨⟩, made, start, size⟩ :=
    toBlob_ok (m := call.emit service args) without "call" Place.codeBase
  obtain ⟨code, installed⟩ := Image.install_ok Image.ordered_empty start size (by decide)
  obtain ⟨-, place, lay⟩ := toBlob_lays rfl made Image.ordered_empty installed (by decide)
  exact ⟨code, place, _, _, lay⟩

/-- A machine with a number in each of the first registers. -/
def numbered (p : UInt64) : Machine where
  processor := {
    cpu := { (((((Cpu.zero.setReg .x0 10).setReg .x1 11).setReg .x2 12).setReg .x3 13).setReg .frame
      0x80).setReg .thread 0x90 with pc := p }
    maxSteps := 100 }
  mem := { bytes := ⟨.replicate 256 0⟩, guards := [] }

theorem numbered_left (p : UInt64) : (numbered p).processor.steps.toNat + 16 ≤
    (numbered p).processor.maxSteps.toNat :=
  (by decide : (0 : UInt64).toNat + 16 ≤ (100 : UInt64).toNat)

/-- A list that takes each argument from the next register, and the last one from the register for
    the thread. -/
theorem passes_arguments_rotated : ∃ code place p q,
    Lays ⟨code, place⟩ { settings := {} } false [] [] ((vm none).emit .newArray [.x2, .x3, .x0]) p q
      () ∧
    Untangled ((vm none).registers.zip [.x2, .x3, .x0]) ∧
    (∀ a ∈ (vm none).written (numbered p).processor.cpu, (numbered p).mem.Open a 8) ∧
    (numbered p).Calls code .newArray
      ((vm none).Passed [.x2, .x3, .x0] (numbered p).processor.cpu) := by
  obtain ⟨code, place, p, q, lay⟩ := exists_lays (vm none) .newArray [.x2, .x3, .x0] (by decide)
  have untangled : Untangled ((vm none).registers.zip [.x2, .x3, .x0]) := by decide
  have writable : ∀ a ∈ (vm none).written (numbered p).processor.cpu,
      (numbered p).mem.Open a 8 := by
    have size : (Array.replicate 256 (0 : UInt8)).size = 256 := Array.size_replicate
    have clear : (numbered p).mem.Clear 0 256 := ⟨Nat.le_of_eq size.symm, nofun⟩
    have frame : (numbered p).processor.cpu.reg .frame = 0x80 := rfl
    have thread : (numbered p).processor.cpu.reg .thread = 0x90 := rfl
    have inside : ∀ a ∈ [0x80 + Frame.bytecode, 0x90 + ThreadBlock.lastSp,
      0x90 + ThreadBlock.lastFp, 0x90 + ThreadBlock.lastPc], a.toNat + 8 ≤ 256 := by
      simp only [List.forall_mem_cons]
      exact ⟨by decide, by decide, by decide, by decide, nofun⟩
    rw [written, frame, thread]
    exact fun a mem => clear.open (Nat.zero_le _) (inside a mem)
  exact ⟨code, place, p, q, lay, untangled, writable,
    (passes_arguments lay rfl (numbered_left p) writable (by decide)).1 untangled⟩

/-- Two arguments that change places are moved one after the other: both become the second one. -/
theorem exchanged_not_passed : ∃ code place p q,
    Lays ⟨code, place⟩ { settings := {} } false [] [] (leaf.emit .markBarrier [.x1, .x0]) p q () ∧
    (numbered p).processor.cpu.reg .x0 = 10 ∧ (numbered p).processor.cpu.reg .x1 = 11 ∧
    (numbered p).Calls code .markBarrier (fun c => c.reg .x0 = 11 ∧ c.reg .x1 = 11) ∧
    ¬ (numbered p).Calls code .markBarrier
      (leaf.Passed [.x1, .x0] (numbered p).processor.cpu) := by
  obtain ⟨code, place, p, q, lay⟩ := exists_lays leaf .markBarrier [.x1, .x0] (by decide)
  obtain ⟨k, t, runs, moved, -⟩ := Machine.calls_of_comes (s := numbered p) rfl
    (numbered_left p)
    (leaf.comes lay nofun)
  have first := moved .x0 (by decide)
  have second := moved .x1 (by decide)
  have calls : (numbered p).Calls code .markBarrier (fun c => c.reg .x0 = 11 ∧ c.reg .x1 = 11) :=
    ⟨k, t, runs, first, second⟩
  refine ⟨code, place, p, q, lay, rfl, rfl, calls, fun passed => ?_⟩
  obtain ⟨-, t, -, ⟨-, both⟩, passed⟩ := calls.unique passed
  obtain ⟨r, taker, value⟩ := passed.arguments 1 .x0 rfl
  obtain rfl : Register.x1 = r := Option.some.inj taker
  have value : t.processor.cpu.reg .x1 = 10 := value
  exact absurd (both.symm.trans value) (by decide)

end ServiceCall
end TemplateVm
