import TemplateVm.Proofs.Layout.Closed

set_option autoImplicit false
-- an instance counts as twice the size with every further instruction
set_option synthInstance.maxSize 1000000000000000000000000

/-!
# The entries of bytecoded methods

Both entries, with and without a lock, first look for the arguments and check the stack, then clear
the locals behind the arguments in a loop, and then build the frame. The mark of each entry is where
its loop stores a zero.
-/
namespace TemplateVm

open Assembly Aims

namespace Emit

open Register

/-! ## Pieces -/

/-- Finds the arguments, checks the stack and makes room for the other locals. -/
def openLocals (throwStackOverflow : UInt64) : Emit UInt64 := do
  let entry ← pc
  ldr x3 (method.at MethodRecord.constMethod)
  ldrh x2 (x3.at ConstMethodRecord.parameterWords)
  ldrh x3 (x3.at ConstMethodRecord.maxLocals)
  sub x3 x3 x2
  checkStack throwStackOverflow
  add locals operands (x2.lsl 3)
  sub locals locals 8
  sub scratch1 operands (x3.lsl 3)
  and sp scratch1 (.imm (-16))
  pure entry

/-- Clears as many words as `x3` says. -/
def clearLocals (name : String) : Emit Unit := do
  let cleared ← newLabel
  let next ← newLabel
  cbz x3 cleared
  bind next
  mark name
  str zero (.post scratch1 8)
  sub x3 x3 1
  cbnz x3 next
  bind cleared

/-- Builds the frame below the locals and goes to the first bytecode. -/
def enterFrame (synchronized : Bool) : Emit Unit := do
  loadDispatch
  buildFrame sender false
  let overflow ← newLabel
  let continuation ← newLabel
  prologue false synchronized overflow continuation
  verifyFrame
  notifyEntry
  dispatchNext .none 0
  bind overflow
  if (← settings).countsInvocations then reportOverflow continuation

/-- The mark of the store that clears a local. -/
def clearingMark (synchronized : Bool) : String :=
  if synchronized then "zero_local_synchronized" else "zero_local"

theorem ite_bind_pure {c : Prop} [Decidable c] {α : Type} (m : Emit Unit) (x : α) :
    ((if c then m else pure ()) >>= fun _ => (pure x : Emit α)) =
      if c then m >>= fun _ => pure x else pure x := by
  split <;> rfl

theorem normalEntry_eq (synchronized : Bool) (p : UInt64) : normalEntry synchronized p = (do
    let entry ← openLocals p
    clearLocals (clearingMark synchronized)
    enterFrame synchronized
    pure entry) := by
  simp only [normalEntry, openLocals, clearLocals, clearingMark, enterFrame, bind_assoc, pure_bind,
    ite_bind_pure]

end Emit

section
variable {ctx : CodeContext} {b : Bool} {K S : List CodeLabel}

instance (p : UInt64) : Orderly ctx b K S S 100 (Emit.openLocals p) := by
  unfold Emit.openLocals
  exact Orderly.upto inferInstance (by decide)

instance (name : String) : Orderly ctx b K S S 10 (Emit.clearLocals name) := by
  unfold Emit.clearLocals
  exact Orderly.upto inferInstance (by decide)

instance (synchronized : Bool) :
    Orderly ctx b K S S (Orderly.bangs ctx + 300) (Emit.enterFrame synchronized) := by
  unfold Emit.enterFrame
  exact Orderly.upto inferInstance (by omega)

variable {G : UInt64 → Prop}

instance (p : UInt64) [Code G p] : Aims G handed true ctx (Emit.openLocals p) := by
  unfold Emit.openLocals; infer_instance

instance (name : String) : Aims G handed true ctx (Emit.clearLocals name) := by
  unfold Emit.clearLocals; infer_instance

instance (synchronized : Bool) [Code G ctx.forwardException] :
    Aims G handed true ctx (Emit.enterFrame synchronized) := by
  unfold Emit.enterFrame; infer_instance

end

/-! ## The loop -/

/-- From `p` to `q` the locals are cleared, by the store at `k`. -/
structure Clears (F : Finished) (p k q : UInt64) : Prop where
  none : F.code.Fetches p (.branchZero .x3 q)
  first : k = p + 4
  store : F.code.Fetches k (.store .zero (.post .scratch1 8) .double)
  count : F.code.Fetches (k + 4) (.binary .sub .x3 .x3 (.imm 1))
  again : F.code.Fetches (k + 4 + 4) (.branchNonzero .x3 k)
  last : q = k + 4 + 4 + 4

section
variable {F : Finished} {R : List Register} {ctx : CodeContext} {b : Bool} {K S : List CodeLabel}
  {a a' : Assembly} {p q : UInt64} {name : String}

/-- The code that pops frames is where its label is bound. -/
theorem Lays.popFrame {l : CodeLabel} [Taken l S []] {e : ExceptionEntries}
    (h : Lays F ctx false K S (ExceptionEntries.all l) p q e) : F.place l = e.popFrame := by
  unfold ExceptionEntries.all at h
  obtain ⟨⟨⟩, _, popping, h⟩ := h.stub_bind
  dsimp only at h
  obtain ⟨⟨_, _, _⟩, _, -, h⟩ := h.stub_bind
  dsimp only at h
  obtain ⟨⟨⟩, _, -, h⟩ := h.stub_bind
  dsimp only at h
  obtain ⟨⟨⟩, _, -, h⟩ := h.stub_bind
  dsimp only at h
  obtain ⟨⟨⟩, _, -, h⟩ := h.stub_bind
  dsimp only at h
  obtain ⟨⟨⟩, _, -, h⟩ := h.stub_bind
  dsimp only at h
  obtain ⟨⟨⟩, _, -, h⟩ := h.stub_bind
  obtain ⟨-, rfl⟩ := h.ended
  unfold ExceptionEntries.popFrameCode at popping
  exact popping.bind_bind.1

theorem Lays.mark_bind {β : Type} {T : List CodeLabel} {n : Nat} {f : Unit → Emit β} {y : β}
    [∀ u, Orderly ctx b K S T n (f u)] (h : Lays F ctx b K S (Emit.mark name >>= f) p q y) :
    Lays F ctx b K S (f ()) p q y := by
  obtain ⟨⟨⟩, r, ⟨a, a', rfl, rfl, -, run, -⟩, h₂⟩ := h.split
  cases run
  exact h₂

/-- The entry is where its code begins. -/
theorem Lays.openLocals_entry {t entry : UInt64}
    (h : Lays F ctx b K S (Emit.openLocals t) p q entry) : entry = p := by
  unfold Emit.openLocals at h
  replace h := h.pc_bind
  obtain ⟨-, h⟩ := h.emit_bind
  obtain ⟨-, h⟩ := h.emit_bind
  obtain ⟨-, h⟩ := h.emit_bind
  obtain ⟨-, h⟩ := h.emit_bind
  obtain ⟨⟨⟩, r, -, h⟩ := h.split
  obtain ⟨-, h⟩ := h.emit_bind
  obtain ⟨-, h⟩ := h.emit_bind
  obtain ⟨-, h⟩ := h.emit_bind
  obtain ⟨-, h⟩ := h.emit_bind
  exact h.ended.2

theorem Lays.clearLocals (h : Lays F ctx b K S (Emit.clearLocals name) p q ()) :
    Clears F p (p + 4) q := by
  unfold Emit.clearLocals at h
  obtain ⟨cleared, h⟩ := h.newLabel_bind
  obtain ⟨next, h⟩ := h.newLabel_bind
  obtain ⟨i₁, h⟩ := h.emitTo_bind
  obtain ⟨top, h⟩ := h.bind_bind
  replace h := h.mark_bind
  obtain ⟨i₂, h⟩ := h.emit_bind
  obtain ⟨i₃, h⟩ := h.emit_bind
  obtain ⟨i₄, h⟩ := h.emitTo_bind
  obtain ⟨stop, rfl⟩ := h.bind
  rw [stop] at i₁
  rw [top] at i₄
  exact ⟨i₁, rfl, i₂, i₃, i₄, rfl⟩

theorem marks_clearLocals (run : Emit.clearLocals name ctx a = .ok () a') :
    (name, a.pc + 4) ∈ a'.marks := by
  let opened := a.newLabel.2.newLabel.2
  have here := Lays.pc_succ a (.branchZero .x3 (opened.target a.newLabel.1))
  rw [← here]
  cases run
  exact Array.mem_push_self

end

/-! ## The entries of an image -/

/-- The kind of a bytecoded method. -/
def EntryKind.normalOf (synchronized : Bool) : EntryKind :=
  if synchronized then .normalSynchronized else .normal

namespace Emitted

section
variable {F : Finished} {R : List Register} {ctx : CodeContext} {b : Bool} {K S T : List CodeLabel}
  {n : Nat} {a a' : Assembly}

/-- The code inside of a stub, with the marks that are set there. -/
theorem stub {α : Type} {name : String} {m : Emit α} {x : UInt64 × α}
    [hm : Orderly ctx true K S T n m] [Aims F.code.Has R true ctx m]
    (h : Emitted F R ctx false K S (Emit.stub name m) a a' x) :
    ∃ a₁ a₂, Emitted F R ctx true K S m a₁ a₂ x.2 ∧ a₁.pc = x.1 ∧ a₁.marks = a.marks ∧
      a'.marks = a₂.marks := by
  have closed := h.ready.stub rfl
  obtain ⟨-, tiled⟩ := h.aimed.outside rfl
  let a₁ : Assembly := { a with openStub := some (name, a.pc) }
  have ready : Ready ctx true K S a₁ :=
    ⟨h.ready.known, h.ready.popFrame, h.ready.unbound, h.ready.nodup, (by simp)⟩
  have aimed : Aimed F.code.Has R true a₁ :=
    ⟨h.aimed.lands.congr rfl rfl rfl rfl, h.aimed.registers, h.aimed.free, (by simp),
      fun _ => ⟨name, a.code.size, rfl, Nat.le_refl _, tiled⟩⟩
  obtain ⟨y, a₂, run, g⟩ := hm.runs a₁ ready
  have start : a.beginStub name = .ok a₁ := by simp [beginStub, closed, a₁]
  have stop : a₂.endStub =
      .ok { a₂ with openStub := none, stubs := a₂.stubs.push ⟨name, a.pc, a₂.pc⟩ } := by
    simp [endStub, g.openStub, a₁]
  have within := h.within
  cases (Orderly.stub_run start run stop).symm.trans h.run
  exact ⟨a₁, a₂, ⟨ready, run, ⟨within.fetch, within.bound⟩, aimed⟩, rfl, rfl, rfl⟩

/-- Code for an item of a list comes before the end. -/
theorem mapM {ι β : Type} [Nonempty β] {f : ι → Emit β} [∀ x, Orderly ctx b K S S n (f x)]
    [∀ x, Aims F.code.Has R b ctx (f x)] {xs : List ι} {ys : List β}
    (h : Emitted F R ctx b K S (xs.mapM f) a a' ys) {j : Nat} {x : ι} (at_ : xs[j]? = some x) :
    ∃ y a₁ a₂, ys[j]? = some y ∧ Emitted F R ctx b K S (f x) a₁ a₂ y ∧ Precedes a₂ a' := by
  induction xs generalizing a ys j with
  | nil => simp at at_
  | cons z xs ih =>
    rw [List.mapM_cons] at h
    obtain ⟨y, a₁, first, -, h⟩ := h.step
    obtain ⟨ys, a₂, rest, -, ended⟩ := h.step
    have last := rest.aims.2
    cases ended.run
    cases j with
    | zero =>
      obtain rfl : z = x := by simpa using at_
      exact ⟨y, _, _, rfl, first, last⟩
    | succ j =>
      obtain ⟨y', a₃, a₄, found, code, precedes⟩ := ih rest (by simpa using at_)
      exact ⟨y', a₃, a₄, by simpa using found, code, precedes⟩

end

section
variable {F : Finished} {ctx : CodeContext} {K : List CodeLabel} {a a' : Assembly}

/-- A normal entry is placed in three pieces, with the mark where its loop stores. -/
theorem normalEntry {synchronized : Bool} {p entry : UInt64} [Code F.code.Has p]
    [Code F.code.Has ctx.forwardException]
    (h : Emitted F handed ctx true K [] (Emit.normalEntry synchronized p) a a' entry) :
    ∃ q₁ k q₂ q₃, Lays F ctx true K [] (Emit.openLocals p) entry q₁ entry ∧ Clears F q₁ k q₂ ∧
      Lays F ctx true K [] (Emit.enterFrame synchronized) q₂ q₃ () ∧
      (Emit.clearingMark synchronized, k) ∈ a'.marks := by
  rw [Emit.normalEntry_eq] at h
  obtain ⟨entry', a₁, first, -, h⟩ := h.step
  obtain ⟨⟨⟩, a₂, clear, -, h⟩ := h.step
  obtain ⟨⟨⟩, a₃, build, precedes, h⟩ := h.step
  have mark := marks_clearLocals clear.run
  have lay := first.lays
  rw [← lay.openLocals_entry] at lay
  cases h.run
  exact ⟨a₁.pc, _, a₂.pc, _, lay, clear.lays.clearLocals, build.lays, precedes.marks _ mark⟩

/-- The code of an entry that is listed. -/
theorem methodEntry {stubs : Stubs} {p normal entry : UInt64} {kind : EntryKind}
    [Aims F.code.Has handed true ctx (Emit.entryCode stubs p normal kind)]
    (h : Emitted F handed ctx false K [] (Emit.methodEntry stubs p normal kind) a a' entry) :
    ∃ b b', Emitted F handed ctx true K [] (Emit.entryCode stubs p normal kind) b b' entry ∧
      ∀ mark ∈ b'.marks, mark ∈ a'.marks := by
  unfold Emit.methodEntry at h
  obtain ⟨⟨_, _⟩, a₁, body, -, ended⟩ := h.step
  cases ended.run
  obtain ⟨b, b', code, -, -, same⟩ := body.stub
  exact ⟨b, b', code, fun mark mem => same ▸ mem⟩

/-- Both normal entries of an image are placed so. -/
theorem normalEntries {stubs : Stubs} [Throwing F.code.Has stubs]
    [Code F.code.Has ctx.forwardException] {p : UInt64} {entries : List UInt64}
    (h : Emitted F handed ctx false K [] (Emit.methodEntries stubs p) a a' entries)
    (synchronized : Bool) : ∃ entry b b', Emitted F handed ctx true K []
        (Emit.normalEntry synchronized stubs.throwStackOverflow) b b' entry ∧
      entries.getD (EntryKind.normalOf synchronized).index 0 = entry ∧
      ∀ mark ∈ b'.marks, mark ∈ a'.marks := by
  unfold Emit.methodEntries at h
  obtain ⟨normal, a₁, first, -, h⟩ := h.step
  have code := first.methodEntry_code
  obtain ⟨others, a₂, rest, precedes, ended⟩ := h.step
  cases ended.run
  cases synchronized with
  | false =>
    have : Aims F.code.Has handed true ctx (Emit.entryCode stubs p 0 .normal) := by
      unfold Emit.entryCode; infer_instance
    obtain ⟨b, b', body, marks⟩ := first.methodEntry
    exact ⟨normal, b, b', body, rfl, fun mark mem => precedes.marks _ (marks _ mem)⟩
  | true =>
    obtain ⟨entry, b₁, b₂, found, code, after⟩ := rest.mapM (j := 0) rfl
    obtain ⟨b, b', body, marks⟩ := code.methodEntry
    refine ⟨entry, b, b', body, ?_, fun mark mem => after.marks _ (marks _ mem)⟩
    change others.getD 0 0 = entry
    rw [List.getD_eq_getElem?_getD, found]
    rfl

/-- The interpreter has its exceptions before its entries. -/
theorem entries {stubs : Stubs} [Throwing F.code.Has stubs] [Code F.code.Has ctx.forwardException]
    {popFrame : CodeLabel} {parts : Image.Parts}
    (h : Emitted F handed ctx false K [popFrame] (Image.parts stubs popFrame) a a' parts) :
    (∃ p q, Lays F ctx false K [popFrame] (ExceptionEntries.all popFrame) p q parts.exceptions) ∧
      ∃ p b b', Emitted F handed ctx false K [] (Emit.methodEntries stubs p) b b'
        parts.methodEntries ∧ ∀ mark ∈ b'.marks, mark ∈ a'.marks := by
  unfold Image.parts at h
  obtain ⟨⟨illegal, _⟩, a₁, -, -, h⟩ := h.step
  dsimp only at h
  obtain ⟨⟨unimplemented, _⟩, a₂, -, -, h⟩ := h.step
  dsimp only at h
  obtain ⟨trace, a₃, traces, -, h⟩ := h.step
  obtain ⟨⟨calls, sites⟩, a₄, -, -, h⟩ := h.step
  obtain ⟨results, a₅, -, -, h⟩ := h.step
  obtain ⟨safepoints, a₆, -, -, h⟩ := h.step
  obtain ⟨e, a₇, throwing, h⟩ := h.split
  replace h := h throwing.exceptions
  obtain ⟨methods, a₈, entering, h⟩ := h.split
  replace h := h entering.methodEntries
  have traced : Traced F.code.Has ctx (.ofList trace) := ⟨traces.lays.traces_have⟩
  have have_entries := throwing.lays.exceptions_have
  have : Entries F.code.Has e := ⟨have_entries.throwException, have_entries.throwArrayIndex,
    have_entries.throwClassCast, have_entries.throwArithmetic, have_entries.throwNullPointer⟩
  obtain ⟨templates, a₉, -, precedes, h⟩ := h.step
  cases h.run
  exact ⟨⟨_, _, throwing.lays⟩, _, _, _, entering, fun mark mem => precedes.marks _ mem⟩

/-- The interpreter is emitted with a label for the code that pops frames. -/
theorem interpreter {s : Settings} {stubs : Stubs} {parts : Image.Parts}
    (h : Emitted F handed { settings := s, forwardException := stubs.forwardException } false [] []
      (Image.interpreter stubs) a a' parts) :
    ∃ l a₁, Emitted F handed (Image.context s stubs l) false [l] [l] (Image.parts stubs l) a₁ a'
      parts := by
  obtain ⟨l, a₁, first, rest⟩ := run_of_bind h.run
  cases first
  have labels : Aims F.code.Has handed false (Image.context s stubs ⟨a.labels.size⟩)
      Emit.newLabel := inferInstance
  have labelled : Aimed F.code.Has handed false a.newLabel.2 := (labels.aims a _ _ h.aimed rfl).1
  exact ⟨⟨a.labels.size⟩, a.newLabel.2,
    ⟨Orderly.ready_popFrame (Orderly.ready_newLabel h.ready), rest, h.within, labelled⟩⟩

end
end Emitted

namespace Image

/-- The normal entries of generated code, with the code that pops frames in its place. -/
theorem normalEntry_of_generate {s : Settings} {i : Image} (h : generate s = .ok i)
    (pages : s.shadowPages.toNat < 2 ^ 54) (synchronized : Bool) :
    ∃ place l q₁ k q₂ q₃, place l = i.exceptions.popFrame ∧
      Lays ⟨i.code, place⟩ (context s i.stubs l) true [l] []
        (Emit.openLocals i.stubs.throwStackOverflow)
        (i.methodEntry (.normalOf synchronized)) q₁ (i.methodEntry (.normalOf synchronized)) ∧
      Clears ⟨i.code, place⟩ q₁ k q₂ ∧
      Lays ⟨i.code, place⟩ (context s i.stubs l) true [l] [] (Emit.enterFrame synchronized) q₂ q₃
        () ∧
      ∃ b ∈ i.code.blobs, (Emit.clearingMark synchronized, k) ∈ b.marks := by
  obtain ⟨stubBlob, c, blob, parts, h₁, h₂, h₃, h₄, -, -, -, exceptions, entries, -⟩ :=
    generate_run h
  have small : Place.codeBase.toNat + 4 * stubBlob.code.size < 2 ^ 64 := by
    have bytes : Place.codeBase.toNat = 0x40000000 := rfl
    have := (size_le_of_toBlob rfl h₁).2
    omega
  have ranged := ranged_empty.install h₂ small
  obtain ⟨_, stubsRun, -, -⟩ := Emitted.of_toBlob (R := passed) rfl h₁ ordered_empty h₂ small
  have have_stubs := stubsRun.stubs.2.2.mono
    (CodeCache.Has.keeps fun p j => ranged.ordered.keeps h₄ (p := p) (i := j))
  have room : c.nextBase.toNat + 4 * blob.code.size < 2 ^ 64 := by
    have size := (size_le_of_toBlob rfl h₃).2
    have bound := bangs_lt pages c.nextBase (nextBase_le ordered_empty h₂)
      { settings := s, forwardException := i.stubs.forwardException } rfl
    omega
  obtain ⟨a, run, finish, -⟩ := Emitted.of_toBlob (R := handed) rfl h₃ ranged.ordered h₄ room
  obtain ⟨l, a₁, interpreter⟩ := run.interpreter
  have : Code (Finished.code ⟨i.code, a.places⟩).Has (context s i.stubs l).forwardException :=
    ⟨have_stubs.forwardException⟩
  have : Throwing (Finished.code ⟨i.code, a.places⟩).Has i.stubs :=
    ⟨have_stubs.throwStackOverflow, have_stubs.throwAbstractMethod, have_stubs.throwNullPointer⟩
  obtain ⟨⟨p, q, throwing⟩, r, a₂, a₃, entering, marks⟩ := interpreter.entries
  obtain ⟨entry, b, b', normal, found, marks'⟩ := entering.normalEntries synchronized
  have : Code (Finished.code ⟨i.code, a.places⟩).Has i.stubs.throwStackOverflow :=
    ⟨have_stubs.throwStackOverflow⟩
  obtain ⟨q₁, k, q₂, q₃, room, clears, build, mark⟩ := normal.normalEntry
  have here : i.methodEntry (.normalOf synchronized) = entry := by
    rw [methodEntry, entries, found]
  obtain ⟨-, -, pushed⟩ := CodeCache.install_eq h₄
  refine ⟨a.places, l, q₁, k, q₂, q₃, ?_, here ▸ room, clears, build, blob, ?_, ?_⟩
  · rw [exceptions]
    exact throwing.popFrame
  · rw [pushed]
    exact Array.mem_push_self
  · rw [(finish_names finish).1]
    exact marks _ (marks' _ mark)

end Image
end TemplateVm
