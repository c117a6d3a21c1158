import TemplateVm.Proofs.Layout.Tables
import TemplateVm.Proofs.Simulation.Step

set_option autoImplicit false

/-!
# Runs of bytecodes

The machine follows a guest method for any number of bytecodes that raise no exception and stay in
the activation.
-/
namespace TemplateVm

open Memory (Guarded load)
open Guest

variable {a : Activation} {b : Program} {s : Settings} {i : Image} {tos : TopOfStack}
  {t t' : State} {v w : Vm} {n : Nat}

/-- Bytecode by bytecode; references stay known, and after the first bytecode the value that is held
    has one of the states that templates leave. The marker is told what the run overwrites, and what
    the run executes is counted. -/
theorem Enters.continues (h : Enters a b i tos t w) (generated : Image.Generated s i)
    (closed : t.Closed) (roomy : a.Roomy s b.maxStack)
    (wide : tos.ofResult = tos ∨ ∀ op, b.operation? t.bci = some op → op.opcode.takes = .none)
    (run : Guest.steps b n t = some t') :
    Vm.Arrives (fun w' => (∃ tos', Enters a b i tos' t' w') ∧
      w.Continues s (overwrittenIn? b n t) (executedIn b n t) w.world.store.mem w'
        w'.world.store.mem) (n * b.stepTurns) w := by
  induction n generalizing tos t w with
  | zero =>
    cases run
    exact .here ⟨⟨tos, h⟩, .refl w _⟩
  | succ n ih =>
    obtain ⟨t₁, first, rest⟩ := Option.bind_eq_some_iff.mp run
    rw [Nat.succ_mul]
    refine (h.step generated closed roomy wide first).trans ?_
    rintro w₁ ⟨tos₁, wide₁, h₁, told₁⟩
    refine (ih h₁ (step_closed closed first) (.inl wide₁) rest).mono ?_
    rintro w₂ ⟨h₂, told₂⟩
    rw [executedIn, first]
    refine ⟨h₂, told₁.join told₂ fun l known => ?_⟩
    obtain ⟨l₁, hl₁, known⟩ := Option.bind_eq_some_iff.mp known
    obtain ⟨t₁', first', known⟩ := Option.bind_eq_some_iff.mp known
    cases first.symm.trans first'
    obtain ⟨l₂, hl₂, known⟩ := Option.bind_eq_some_iff.mp known
    exact ⟨l₁, l₂, hl₁, hl₂, (Option.some.inj known).symm⟩

theorem Enters.steps (h : Enters a b i tos t w) (generated : Image.Generated s i)
    (closed : t.Closed) (roomy : a.Roomy s b.maxStack)
    (wide : tos.ofResult = tos ∨ ∀ op, b.operation? t.bci = some op → op.opcode.takes = .none)
    (run : Guest.steps b n t = some t') :
    Vm.Arrives (fun w' => ∃ tos', Enters a b i tos' t' w') (n * b.stepTurns) w :=
  (h.continues generated closed roomy wide run).mono fun _ arrived => arrived.1

/-- What the machine stands for does not depend on how many instructions were executed. -/
theorem Enters.counted (h : Enters a b i tos t w) (steps : UInt64)
    (watched : List (UInt64 × UInt64)) : Enters a b i tos t (w.counted steps watched) := by
  obtain ⟨op, v, c, m, current, rfl, image, bounded, rest, p, unheld, h⟩ := h
  exact ⟨op, v.counted steps watched, c, m, current, rfl, image, bounded, rest, p, unheld,
    { h with
      loaded := h.loaded
      inhabits := ⟨h.inhabits.thread, h.inhabits.classes, h.inhabits.method, h.inhabits.objects,
        h.inhabits.slots⟩ }⟩

/-- From the entry that the dispatch table has for a bytecode and for the state in which the topmost
    operand is held, generated code does what the bytecodes do. The turns that this takes are
    bounded by the number of the bytecodes, so that every run that has them left comes there if no
    breakpoint is asked for; no run ends before but with a limit of the settings. -/
theorem Enters.simulates (h : Enters a b i tos t w) (generated : Image.Generated s i)
    (closed : t.Closed) (roomy : a.Roomy s b.maxStack)
    (wide : tos.ofResult = tos ∨ ∀ op, b.operation? t.bci = some op → op.opcode.takes = .none)
    (quiet : w.Quiet) (run : Guest.steps b n t = some t') :
    (¬ w.Limited (n * b.stepTurns) → ∃ k ≤ n * b.stepTurns, ∃ w', Vm.Turns k w w' ∧ w'.Quiet ∧
      ∃ tos', Enters a b i tos' t' w') ∧
    ∀ turns left, 0 < left →
      (∃ failure w', Vm.Limit failure ∧
        (turns < n * b.stepTurns ∨ w.Limited (n * b.stepTurns)) ∧
        Vm.runTurns turns left w = .error failure w') ∨
      ∃ w' turns' left', (w'.Quiet ∧ ∃ tos', Enters a b i tos' t' w') ∧ 0 < left' ∧
        turns ≤ turns' + n * b.stepTurns ∧
        Vm.runTurns turns left w = Vm.runTurns turns' left' w' := by
  have arrives := h.steps generated closed roomy wide run quiet w.processor.steps
    w.processor.watched
  have leads : Vm.Leads (fun w' => w'.Quiet ∧ ∃ tos', Enters a b i tos' t' w')
      (n * b.stepTurns) w := by
    refine arrives.mono ?_
    rintro - ⟨w', steps, watched, ⟨tos', h'⟩, quiet', rfl⟩
    exact ⟨quiet', tos', h'.counted steps watched⟩
  exact ⟨leads.reaches, leads.runTurns⟩

/-! ## A sum

A method that adds two and three, in a memory with nothing but its body, its frame and the dispatch
table. -/

namespace Sum

def program : Program where
  classes := { metaspace := default, methods := #[default], entries := [], policy := default }
  holder := 0
  code := [0x05, 0x06, 0x60, 0x00]
  maxLocals := 0
  maxStack := 2

def activation : Activation where
  thread := 0x30000
  heap := 0x30000
  method := 0
  code := 0x20000
  cache := 0x20010
  frame := 0x31050
  top := 0x31010
  locals := 0x31048
  sp := 0x31000
  low := 0x31000

def start : State where
  locals _ := none
  stack := []
  heap _ := none
  bci := 0

def finish : State := { start with stack := [.int 5], bci := 3 }

def blank : Guarded := ⟨⟨Array.replicate 0x32000 0⟩, []⟩

/-- Of the body only the last byte is zero. -/
def body : Guarded := ((blank.put 0x20000 1 0x05).put 0x20001 1 0x06).put 0x20002 1 0x60

def framed : Guarded := ((body.put 0x31028 8 0x20010).put 0x31020 8 0x31048).put 0x31010 8 0x31010

def stateAfter (r : EStateM.Result Failure Guarded Unit) : Guarded :=
  match r with
  | .ok _ m => m
  | .error _ m => m

def memory (i : Image) : Guarded :=
  stateAfter (Image.writeWords Place.activeTable i.normalTable.words framed)

def cpu : Cpu :=
  [(Register.thread, activation.thread), (.frame, activation.frame), (.locals, activation.locals),
    (.cache, activation.cache), (.dispatch, Place.activeTable), (.sp, activation.sp),
    (.bytecode, activation.code), (.operands, activation.top)].foldl
      (fun c (r, n) => c.setReg r n) Cpu.zero

def vm (i : Image) : Vm :=
  { (default : Vm) with
    image := i
    processor := { maxSteps := 50000000 }
    map := { (default : MemoryMap) with thread := activation.thread }
    world := { (default : World) with classes := program.classes } }

def machine (i : Image) : Vm :=
  (vm i).moved (i.normalTable.get .none Opcode.iconst2.byte) cpu (memory i)

theorem byteAt_blank (j : Nat) : Memory.byteAt blank.bytes j = 0 := Memory.byteAt_replicate _ j

theorem load_blank (j w : Nat) : load blank.bytes j w = 0 := Memory.load_of_zero byteAt_blank j w

theorem size_blank : blank.bytes.size = 0x32000 := by
  simp only [blank, ByteArray.size, Array.size_replicate]

theorem changed_body : blank.Changed body 0x20000 0x20003 :=
  (((Guarded.Changed.refl blank _ _).put (by decide) (by decide)).put (by decide)
    (by decide)).put (by decide) (by decide)

theorem changed_framed : body.Changed framed 0x31010 0x31030 :=
  (((Guarded.Changed.refl body _ _).put (by decide) (by decide)).put (by decide)
    (by decide)).put (by decide) (by decide)

theorem clear_body : body.Clear 0x1000 0x32000 := by
  have clear : blank.Clear 0x1000 0x32000 :=
    ⟨Nat.le_of_eq size_blank.symm, fun g hg => by simp [blank] at hg⟩
  exact clear.changed changed_body

theorem byteAt_body {k : Nat} {byte : UInt8} (hk : program.code[k]? = some byte) :
    Memory.byteAt body.bytes (0x20000 + k) = byte := by
  have stored (b : ByteArray) (j : Nat) (n : UInt64) :
      Memory.store b j n 1 = Memory.setByte b j n.toUInt8 := rfl
  have one : (1 : UInt64).toNat = 1 := rfl
  have bound : k < 4 := (List.getElem?_eq_some_iff.mp hk).1
  simp only [body, Guarded.bytes_put, one, stored, Memory.byteAt_setByte, Memory.size_setByte,
    size_blank, byteAt_blank]
  match k, bound, hk with
  | 0, _, hk | 1, _, hk | 2, _, hk | 3, _, hk => cases hk; decide

theorem load_framed : load framed.bytes 0x31028 8 = 0x20010 ∧
    load framed.bytes 0x31020 8 = 0x31048 ∧ load framed.bytes 0x31010 8 = 0x31010 := by
  have opens {a : UInt64} (h₁ : 0x1000 ≤ a.toNat) (h₂ : a.toNat + 8 ≤ 0x32000) : body.Open a 8 :=
    clear_body.open h₁ h₂
  refine ⟨?_, ?_, ?_⟩
  · refine (Guarded.load_put_of_disjoint (by decide)).trans ?_
    refine (Guarded.load_put_of_disjoint (by decide)).trans ?_
    exact Guarded.load_put (a := 0x31028) (opens (by decide) (by decide))
  · refine (Guarded.load_put_of_disjoint (by decide)).trans ?_
    exact Guarded.load_put (a := 0x31020) (opens (by decide) (by decide)).put
  · exact Guarded.load_put (a := 0x31010) (opens (by decide) (by decide)).put.put

section
variable {i : Image} (generated : Image.Generated {} i)
include generated

theorem memory_table : framed.Changed (memory i) 0x10000 0x15000 ∧
    i.normalTable.In (memory i) Place.activeTable := by
  obtain ⟨m, run, table⟩ := DispatchTable.write_ok Place.activeTable generated.rows
    (clear_body.changed changed_framed) (by decide) (by decide) (by decide)
  have same : memory i = m := congrArg stateAfter run
  exact same ▸ table

theorem clear_memory : (memory i).Clear 0x1000 0x32000 :=
  (clear_body.changed changed_framed).changed (memory_table generated).1

/-- Above the tables, what is in the frame is found there. -/
theorem load_memory {j w : Nat} (h : 0x15000 ≤ j) :
    load (memory i).bytes j w = load framed.bytes j w :=
  ((memory_table generated).1.agrees (s := j) (t := j + w) (.inr h)).load (Nat.le_refl _)
    (Nat.le_refl _)

theorem load_memory_blank {j w : Nat} (h : 0x20003 ≤ j) (h' : j + w ≤ 0x31010 ∨ 0x31030 ≤ j) :
    load (memory i).bytes j w = 0 := by
  rw [load_memory generated (by omega), ← load_blank j w]
  exact ((changed_framed.agrees (s := j) (t := j + w) h').load (Nat.le_refl _)
    (Nat.le_refl _)).trans ((changed_body.agrees (s := j) (t := j + w) (.inr h)).load
      (Nat.le_refl _) (Nat.le_refl _))

theorem byteAt_memory {j : Nat} (h : 0x15000 ≤ j) (h' : j < 0x31010) :
    Memory.byteAt (memory i).bytes j = Memory.byteAt body.bytes j :=
  ((memory_table generated).1.other j (.inr h)).trans (changed_framed.other j (.inl h'))

theorem loaded : activation.Loaded i program (memory i) where
  table tos o := (memory_table generated).2 tos o.byte
  code := by
    refine ⟨program.code, rfl, by decide, fun k byte hk => ?_⟩
    have bound : k < 4 := (List.getElem?_eq_some_iff.mp hk).1
    change Memory.byteAt _ (0x20000 + k) = byte
    rw [byteAt_memory generated (by omega) (by omega)]
    exact byteAt_body hk
  codeAbove := by decide
  cacheAbove := by decide
  linked := by
    have unlinked : ∀ op ∈ Bytecode.decode program.code, op.opcode.isLinked = false := by decide
    intro op hop linked
    rw [unlinked op hop] at linked
    cases linked
  classes _ h := absurd h (Nat.not_lt_zero _)

theorem stands : Stands activation program activation.code activation.top start.toContents (vm i)
    cpu (memory i) where
  registers := by constructor <;> decide
  fits :=
    { records := by decide
      heap := by decide
      thread := by decide
      operands := by decide
      top := by decide
      frame := by decide
      locals := by decide
      clear := (clear_memory generated).mono (by decide) (by decide)
      clearStack := (clear_memory generated).mono (by decide) (by decide) }
  loaded := loaded generated
  idle :=
    { pending := load_memory_blank generated (by decide) (by decide)
      pop := by
        rw [load_memory_blank generated (by decide) (by decide)]
        rfl }
  framed :=
    { method := load_memory_blank generated (by decide) (by decide)
      cache := (load_memory generated (by decide)).trans load_framed.1
      locals := (load_memory generated (by decide)).trans load_framed.2.1
      top := (load_memory generated (by decide)).trans load_framed.2.2 }
  locals := nofun
  stack := trivial
  top := rfl
  bounded := by decide
  heap := ⟨nofun, nofun, nofun, nofun, nofun⟩
  inhabits :=
    { thread := rfl
      classes := rfl
      method := by
        have found : (default : LoadedMethod).address = activation.method := rfl
        simp [ClassTable.methodAt?, program, found]
      objects := nofun
      slots := fun id k slot h => by
        have none : (program.classes.get id).fields = [] := rfl
        rw [none] at h
        cases h }

theorem enters : Enters activation program i .none start (machine i) :=
  ⟨⟨0, .iconst2, 0⟩, vm i, cpu, memory i, by decide, rfl, rfl, Nat.zero_le _, [], activation.top,
    rfl, stands generated⟩

end

end Sum

/-- Three bytecodes push two and three and add them. -/
theorem Enters.simulates_sum : ∃ i, Image.generate {} = .ok i ∧
    Guest.steps Sum.program 3 Sum.start = some Sum.finish ∧
    ∃ k ≤ 3 * Sum.program.stepTurns, ∃ w', Vm.Turns k (Sum.machine i) w' ∧ w'.Quiet ∧
      ∃ tos', Enters Sum.activation Sum.program i tos' Sum.finish w' := by
  obtain ⟨i, hi⟩ := Image.generate_ok (s := {}) (by decide)
  have generated := Image.generated_of_generate hi (by decide)
  have run : Guest.steps Sum.program 3 Sum.start = some Sum.finish := rfl
  have settings : i.settings = {} := by
    obtain ⟨i₀, -, same, -⟩ := generated.image
    exact same
  have free : ¬ (Sum.machine i).Limited (3 * Sum.program.stepTurns) := by
    rintro (few | asked)
    · change (50000000 : UInt64).toNat < (0 : UInt64).toNat + 3 * Sum.program.stepTurns at few
      exact absurd few (by decide)
    · refine asked ?_
      change i.settings.stopAt = 0
      rw [settings]
  exact ⟨i, hi, run, ((Sum.enters generated).simulates generated ⟨nofun, nofun, nofun⟩ nofun
    (.inl rfl) rfl run).1 free⟩

end TemplateVm
