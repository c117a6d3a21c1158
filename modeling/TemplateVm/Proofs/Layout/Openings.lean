import TemplateVm.Proofs.Layout.Aims
import TemplateVm.Proofs.Layout.Entries
import TemplateVm.Proofs.Natives.Handlers

set_option autoImplicit false
-- an instance counts as twice the size with every further instruction
set_option synthInstance.maxSize 1000000000000000000000000

/-!
# Entries have code

Every entry that generated code leaves behind is the address of an instruction: the code of the
entry begins there and is not empty.
-/
namespace TemplateVm

open Assembly Emit

/-- There is an instruction at the address. -/
def CodeCache.Has (c : CodeCache) (p : UInt64) : Prop := ∃ i, c.Fetches p i

/-- All entries of exceptions are code. -/
structure ExceptionEntries.Have (e : ExceptionEntries) (G : UInt64 → Prop) : Prop where
  rethrow : G e.rethrow
  throwException : G e.throwException
  removeActivation : G e.removeActivation
  popFrame : G e.popFrame
  throwStackOverflow : G e.throwStackOverflow
  throwArrayIndex : G e.throwArrayIndex
  throwClassCast : G e.throwClassCast
  throwArithmetic : G e.throwArithmetic
  throwNullPointer : G e.throwNullPointer

theorem EntryPoint.get_uniform (a : UInt64) (tos : TopOfStack) :
    (EntryPoint.uniform a).get tos = a := by
  have bound : tos.index < 10 := by cases tos <;> decide
  simp [EntryPoint.get, EntryPoint.uniform, bound]

namespace Lays

/-- Code that has an instruction. -/
class Filled (ctx : CodeContext) (b : Bool) (K S : List CodeLabel) {α : Type} (m : Emit α) :
    Prop where
  fills : ∀ a x a', Ready ctx b K S a → m ctx a = .ok x a' → a.code.size < a'.code.size

/-- Code that always gives the same. -/
class Gives (ctx : CodeContext) {α : Type} (m : Emit α) (x : outParam α) : Prop where
  gives : ∀ a y a', m ctx a = .ok y a' → y = x

section
variable {F : Finished} {ctx : CodeContext} {b : Bool} {K S T U : List CodeLabel} {n k : Nat}
  {α β : Type}

theorem size_le {m : Emit α} [hm : Orderly ctx b K S T n m] {a a' : Assembly} {x : α}
    (h : Ready ctx b K S a) (run : m ctx a = .ok x a') :
    a.code.size ≤ a'.code.size ∧ Ready ctx b K T a' := by
  obtain ⟨y, a₁, run', g⟩ := hm.runs a h
  cases run.symm.trans run'
  obtain ⟨added, code, -⟩ := g.code
  refine ⟨?_, g.ready h hm.sub⟩
  rw [code, ← Array.length_toList, ← Array.length_toList]
  simp

/-! ## Code with instructions -/

instance (i : Instruction Target) : Filled ctx b K S (Emit.emit i) where
  fills a x a' _ run := by
    cases run
    simp [Assembly.emit]

instance (l : CodeLabel) (i : Target → Instruction Target) :
    Filled ctx b K S (Emit.emitTo l i) where
  fills a x a' _ run := by
    cases run
    simp [Assembly.emitTo, Assembly.emit]

instance first_bind (m : Emit α) (f : α → Emit β) [Orderly ctx b K S T n m]
    [hm : Filled ctx b K S m] [∀ x, Orderly ctx b K T U k (f x)] :
    Filled ctx b K S (m >>= f) where
  fills a y a' h run := by
    obtain ⟨x, a₁, first, rest⟩ := run_of_bind run
    exact Nat.lt_of_lt_of_le (hm.fills a x a₁ h first) (size_le (size_le h first).2 rest).1

instance (priority := low) rest_bind (m : Emit α) (f : α → Emit β) [Orderly ctx b K S T n m]
    [hf : ∀ x, Filled ctx b K T (f x)] : Filled ctx b K S (m >>= f) where
  fills a y a' h run := by
    obtain ⟨x, a₁, first, rest⟩ := run_of_bind run
    obtain ⟨le, ready⟩ := size_le h first
    exact Nat.lt_of_le_of_lt le ((hf x).fills a₁ y a' ready rest)

instance newLabel_filled (f : CodeLabel → Emit β) [hf : ∀ l, Filled ctx b (l :: K) (l :: S) (f l)] :
    Filled ctx b K S (Emit.newLabel >>= f) where
  fills a y a' h run := (hf ⟨a.labels.size⟩).fills a.newLabel.2 y a' (Orderly.ready_newLabel h) run

instance read_filled (f : CodeContext → Emit β) [h : Filled ctx b K S (f ctx)] :
    Filled ctx b K S (read >>= f) := ⟨h.fills⟩

instance settings_filled (f : Settings → Emit β) [h : Filled ctx b K S (f ctx.settings)] :
    Filled ctx b K S (Emit.settings >>= f) := ⟨h.fills⟩

instance ite_filled (c : Prop) [Decidable c] (m m' : Emit α) [h : Filled ctx b K S m]
    [h' : Filled ctx b K S m'] : Filled ctx b K S (if c then m else m') := by
  split
  · exact h
  · exact h'

/-- Where code with an instruction is placed, there is an instruction. -/
theorem first {m : Emit α} [hm : Orderly ctx b K S T n m] [filled : Filled ctx b K S m]
    {p q : UInt64} {x : α} (h : Lays F ctx b K S m p q x) : F.code.Has p := by
  obtain ⟨a, a', rfl, rfl, ready, run, within⟩ := h
  have lt := filled.fills a x a' ready run
  obtain ⟨y, a₁, run', g⟩ := hm.runs a ready
  cases run.symm.trans run'
  obtain ⟨i, hi⟩ : ∃ i, a'.code[a.code.size]? = some i := ⟨_, Array.getElem?_eq_getElem lt⟩
  refine ⟨i.placed F.place, ?_⟩
  have fetch := within.fetch _ i hi
  rwa [g.base] at fetch

/-! ## Fixed results -/

instance (x : α) : Gives ctx (pure x : Emit α) x where
  gives a y a' run := by
    cases run
    rfl

instance (priority := low) (m : Emit α) (f : α → Emit β) (v : β) [hf : ∀ x, Gives ctx (f x) v] :
    Gives ctx (m >>= f) v where
  gives _ y a' run :=
    let ⟨x, a₁, _, rest⟩ := run_of_bind run
    (hf x).gives a₁ y a' rest

instance (c : Prop) [Decidable c] (m m' : Emit α) (v : α) [h : Gives ctx m v]
    [h' : Gives ctx m' v] : Gives ctx (if c then m else m') v := by
  split
  · exact h
  · exact h'

theorem gives {m : Emit α} {v : α} [hm : Gives ctx m v] {p q : UInt64} {x : α}
    (h : Lays F ctx b K S m p q x) : x = v := by
  obtain ⟨a, a', -, -, -, run, -⟩ := h
  exact hm.gives a x a' run

/-- Code that gives the address at which it begins. -/
class Opens (ctx : CodeContext) (b : Bool) (K S : List CodeLabel) (m : Emit UInt64) : Prop where
  opens : ∀ (F : Finished) (p q x : UInt64), Lays F ctx b K S m p q x → F.code.Has x

instance (f : UInt64 → Emit UInt64) [∀ p, Orderly ctx b K S T n (f p)]
    [∀ p, Filled ctx b K S (f p)] [∀ p, Gives ctx (f p) p] :
    Opens ctx b K S (Emit.pc >>= f) where
  opens F p q x h := by
    have h := h.pc_bind
    rw [h.gives]
    exact h.first

/-! ## Entries -/

instance (r : Register) : Filled ctx b K S (loadMethod r) := by unfold loadMethod; infer_instance
instance (r : Register) : Filled ctx b K S (popWord r) := by unfold popWord; infer_instance
instance : Filled ctx b K S restoreBytecode := by unfold restoreBytecode; infer_instance
instance : Filled ctx b K S emptyOperands := by unfold emptyOperands; infer_instance

instance (t : TopOfStack) : Opens ctx b K S (traceEntry t) := by
  unfold traceEntry; infer_instance

instance (t : TopOfStack) (length : UInt64) (bytes : Nat) :
    Opens ctx b K S (returnEntry t length bytes) := by
  unfold returnEntry; infer_instance

instance (r : Option Register) (s : Service) (args : List Register) :
    Filled ctx b K S (callVm r s args) := by
  unfold callVm saveBytecode; infer_instance

instance (t : TopOfStack) : Opens ctx b K S (safepointEntry t) := by
  unfold safepointEntry; infer_instance

instance (t : TypeTag) : Opens ctx b K S (resultHandler t) := by
  cases t <;> simp only [resultHandler] <;> infer_instance

instance (sync : Bool) (p : UInt64) : Opens ctx b K S (normalEntry sync p) := by
  unfold normalEntry; infer_instance

instance (sync : Bool) (p : UInt64) : Opens ctx b K S (Emit.nativeEntry sync p) := by
  unfold Emit.nativeEntry; infer_instance

instance (p : UInt64) : Opens ctx b K S (abstractEntry p) := by
  unfold abstractEntry; infer_instance

instance (p : UInt64) : Opens ctx b K S (methodHandleEntry p) := by
  unfold methodHandleEntry; infer_instance

instance (op : FloatUnary) : Opens ctx b K S (unaryMathEntry op) := by
  unfold unaryMathEntry; infer_instance

instance (s : Service) : Opens ctx b K S (mathEntry s) := by
  unfold mathEntry; infer_instance

instance (p : UInt64) : Opens ctx b K S (referenceGetEntry p) := by
  unfold referenceGetEntry; infer_instance

theorem opened {m : Emit UInt64} [hm : Opens ctx b K S m] {p q x : UInt64}
    (h : Lays F ctx b K S m p q x) : F.code.Has x := hm.opens F p q x h

/-! ## Method entries -/

variable {p q x normal : UInt64}

theorem emptyEntry (h : Lays F ctx b K S (Emit.emptyEntry normal) p q x) (hn : F.code.Has normal) :
    F.code.Has x := by
  unfold Emit.emptyEntry at h
  have h := h.settings_bind
  by_cases fast : ctx.settings.fastEmptyMethods = true
  · exact (h.ite_neg (by simp [fast])).opened
  · obtain ⟨-, rfl⟩ := (h.ite_pos (by simp [fast])).ended
    exact hn

theorem accessorEntry (h : Lays F ctx b K S (Emit.accessorEntry normal) p q x)
    (hn : F.code.Has normal) : F.code.Has x := by
  unfold Emit.accessorEntry at h
  have h := h.settings_bind
  by_cases fast : ctx.settings.fastAccessorMethods = true
  · exact (h.ite_neg (by simp [fast])).opened
  · obtain ⟨-, rfl⟩ := (h.ite_pos (by simp [fast])).ended
    exact hn

/-- The entry of a kind is code if the one of ordinary methods is, which some take instead. -/
theorem entryCode {stubs : Stubs} {objectHandler : UInt64} {kind : EntryKind}
    (h : Lays F ctx b K S (Emit.entryCode stubs objectHandler normal kind) p q x)
    (hn : kind ≠ .normal → F.code.Has normal) : F.code.Has x := by
  cases kind
  case empty => exact h.emptyEntry (hn nofun)
  case accessor => exact h.accessorEntry (hn nofun)
  all_goals
    simp only [Emit.entryCode] at h
    exact h.opened

theorem methodEntries_have {stubs : Stubs} {objectHandler : UInt64} {entries : List UInt64}
    (h : Lays F ctx false K [] (Emit.methodEntries stubs objectHandler) p q entries)
    (kind : EntryKind) : F.code.Has (entries.getD kind.index 0) := by
  have normal : F.code.Has (entries.getD EntryKind.normal.index 0) := by
    unfold Emit.methodEntries at h
    obtain ⟨normal, r, first, h⟩ := h.split
    obtain ⟨rest, t, -, h⟩ := h.split
    obtain ⟨-, rfl⟩ := h.ended
    unfold Emit.methodEntry at first
    obtain ⟨entry, r', code, ended⟩ := first.stub_bind
    obtain ⟨-, rfl⟩ := ended.ended
    exact code.entryCode nofun
  by_cases same : kind = .normal
  · exact same ▸ normal
  · obtain ⟨r, t, code⟩ := h.methodEntries kind same
    exact code.entryCode fun _ => normal

/-! ## Entries for the states -/

/-- Entries that are made for each state are code. -/
theorem mapM_have {ι : Type} {f : ι → Emit UInt64} [∀ y, Orderly ctx b K S S n (f y)]
    [∀ y, Opens ctx b K S (f y)] {xs : List ι} {ys : List UInt64}
    (h : Lays F ctx b K S (xs.mapM f) p q ys) :
    ys.length = xs.length ∧ ∀ y ∈ ys, F.code.Has y := by
  obtain ⟨length, each⟩ := h.mapM
  refine ⟨length, fun y hy => ?_⟩
  obtain ⟨j, hj⟩ := List.mem_iff_getElem?.mp hy
  have lt : j < xs.length := length ▸ (List.getElem?_eq_some_iff.mp hj).1
  obtain ⟨y', r, t, hy', code⟩ := each j _ (List.getElem?_eq_getElem lt)
  cases hj.symm.trans hy'
  exact code.opened

theorem returns_have {l : List UInt64 × List UInt64}
    (h : Lays F ctx false K S Emit.returnEntries p q l) :
    (l.1.length = 10 ∧ ∀ y ∈ l.1, F.code.Has y) ∧ l.2.length = 10 ∧ ∀ y ∈ l.2, F.code.Has y := by
  unfold Emit.returnEntries at h
  obtain ⟨calls, r, calling, h⟩ := h.stub_bind
  obtain ⟨sites, t, siting, h⟩ := h.stub_bind
  obtain ⟨-, rfl⟩ := h.ended
  exact ⟨calling.mapM_have, siting.mapM_have⟩

theorem results_have {l : List UInt64} (h : Lays F ctx false K S Emit.resultHandlers p q l) :
    l.length = 10 ∧ ∀ y ∈ l, F.code.Has y := by
  unfold Emit.resultHandlers at h
  obtain ⟨handlers, r, code, h⟩ := h.stub_bind
  obtain ⟨-, rfl⟩ := h.ended
  exact code.mapM_have

theorem safepoints_have {l : List UInt64} (h : Lays F ctx false K S safepointEntries p q l)
    (tos : TopOfStack) : F.code.Has ((EntryPoint.ofList l).get tos) := by
  obtain ⟨r, t, code⟩ := h.perState tos
  exact code.opened

theorem traces_have {l : List UInt64} (h : Lays F ctx false K S traceEntries p q l)
    (on : ctx.settings.traceBytecodes = true) (tos : TopOfStack) :
    F.code.Has ((EntryPoint.ofList l).get tos) := by
  unfold traceEntries at h
  obtain ⟨r, t, code⟩ := (h.settings_bind.ite_pos on).perState tos
  exact code.opened

/-! ## Exceptions -/

theorem handling_have {x : UInt64 × UInt64 × UInt64}
    (h : Lays F ctx b K S ExceptionEntries.handling p q x) :
    F.code.Has x.1 ∧ F.code.Has x.2.1 ∧ F.code.Has x.2.2 := by
  unfold ExceptionEntries.handling at h
  have h₁ := h.pc_bind
  obtain ⟨-, h⟩ := h₁.emit_bind
  obtain ⟨⟨⟩, _, -, h⟩ := h.split
  obtain ⟨⟨⟩, _, -, h⟩ := h.split
  obtain ⟨⟨⟩, _, -, h⟩ := h.split
  obtain ⟨⟨⟩, _, -, h⟩ := h.split
  have h₂ := h.pc_bind
  obtain ⟨⟨⟩, _, -, h⟩ := h₂.split
  obtain ⟨⟨⟩, _, -, h⟩ := h.split
  obtain ⟨-, h⟩ := h.emit_bind
  obtain ⟨⟨⟩, _, -, h⟩ := h.split
  obtain ⟨⟨⟩, _, -, h⟩ := h.split
  obtain ⟨⟨⟩, _, -, h⟩ := h.split
  obtain ⟨⟨⟩, _, -, h⟩ := h.split
  obtain ⟨-, h⟩ := h.emit_bind
  have h₃ := h.pc_bind
  rw [h₃.gives]
  exact ⟨h₁.first, h₂.first, h₃.first⟩

/-- A stub that begins with code is code itself. -/
theorem stub_have {name : String} {m : Emit α} {r : UInt64} [Orderly ctx true K S T n m]
    [Filled ctx true K S m] {y : α} (h : Lays F ctx false K S (Emit.stub name m) p q (r, y)) :
    F.code.Has r := by
  obtain ⟨rfl, h⟩ := h.stub
  exact h.first

instance (here : CodeLabel) [Taken here S T] :
    Filled ctx b K S (ExceptionEntries.popFrameCode here) := by
  unfold ExceptionEntries.popFrameCode; infer_instance

instance (e : BuiltinException) (message p : UInt64) :
    Filled ctx b K S (ExceptionEntries.creating e message p) := by
  unfold ExceptionEntries.creating; infer_instance

theorem exceptions_have {popFrame : CodeLabel} [Taken popFrame S T] {e : ExceptionEntries}
    (h : Lays F ctx false K S (ExceptionEntries.all popFrame) p q e) : e.Have F.code.Has := by
  unfold ExceptionEntries.all at h
  obtain ⟨⟨popFrame, _⟩, _, pop, h⟩ := h.split
  obtain ⟨⟨_, rethrow, throwException, removeActivation⟩, _, handling, h⟩ := h.split
  obtain ⟨⟨throwStackOverflow, _⟩, _, overflow, h⟩ := h.split
  obtain ⟨⟨throwArrayIndex, _⟩, _, index, h⟩ := h.split
  obtain ⟨⟨throwClassCast, _⟩, _, cast, h⟩ := h.split
  obtain ⟨⟨throwArithmetic, _⟩, _, arithmetic, h⟩ := h.split
  obtain ⟨⟨throwNullPointer, _⟩, _, null, h⟩ := h.split
  obtain ⟨-, rfl⟩ := h.ended
  obtain ⟨h₁, h₂, h₃⟩ := handling.stub.2.handling_have
  exact ⟨h₁, h₂, h₃, pop.stub_have, overflow.stub_have, index.stub_have, cast.stub_have,
    arithmetic.stub_have, null.stub_have⟩

/-! ## Stubs -/

instance : Filled ctx b K S Stubs.callCode := by unfold Stubs.callCode; infer_instance
instance : Filled ctx b K S Stubs.forward := by unfold Stubs.forward; infer_instance

instance (s : Service) (p : UInt64) : Filled ctx b K S (Stubs.throwing s p) := by
  unfold Stubs.throwing; infer_instance

instance (s : Signature) (p : UInt64) : Filled ctx b K S (s.code p) := by
  unfold Signature.code; infer_instance

/-! ## Templates -/

instance (s : TopOfStack) : Filled ctx b K S (dispatchOn s) := by unfold dispatchOn; infer_instance

instance (s : TopOfStack) (step : UInt64) : Filled ctx b K S (dispatchNext s step) := by
  unfold dispatchNext; infer_instance

section
open Template

instance : Filled ctx b K S takeBranch := by unfold takeBranch signedPair; infer_instance

instance (s : TopOfStack) : Filled ctx b K S (returnValue s) := by
  unfold returnValue; infer_instance

instance : Filled ctx b K S jumpToMethod := by unfold jumpToMethod; infer_instance

instance (o : Opcode) (row : UInt64) : Filled ctx b K S (invoke o row) := by
  unfold invoke; infer_instance

instance : Filled ctx b K S invokeSite := by unfold invokeSite; infer_instance

instance (e : ExceptionEntries) : Filled ctx b K S (throwObject e) := by
  unfold throwObject; infer_instance

instance (e : ExceptionEntries) : Filled ctx b K S (enterMonitor e) := by
  unfold enterMonitor; infer_instance

/-- A template without code goes on with the next bytecode. -/
theorem filled_of_dispatches (e : ExceptionEntries) (o : Opcode)
    (h : (ofOpcode e o).dispatches = true) : Filled ctx b K S (ofOpcode e o).code := by
  cases o <;> first
    | (simp only [ofOpcode, leaving]; infer_instance)
    | cases h

end

instance (e : ExceptionEntries) (o : Opcode) (trace : EntryPoint) :
    Filled ctx b K S (templateCode o (Template.ofOpcode e o) trace) := by
  unfold templateCode
  cases leaves : (Template.ofOpcode e o).dispatches with
  | false =>
    simp only [Emit.whenM, Bool.not_false, if_true]
    infer_instance
  | true =>
    have : Filled ctx b K S (Template.ofOpcode e o).code := filled_of_dispatches e o leaves
    infer_instance

instance (r : Register) : Filled ctx b K S (pushWord r) := by unfold pushWord; infer_instance
instance (r : Register) : Filled ctx b K S (pushLong r) := by unfold pushLong; infer_instance
instance (v : FloatRegister) : Filled ctx b K S (pushFloat v) := by unfold pushFloat; infer_instance
instance (v : FloatRegister) : Filled ctx b K S (pushDouble v) := by
  unfold pushDouble; infer_instance

/-- An entry for each state, of which the last one does nothing but go on. -/
theorem pushingEntries_have {entries : EntryPoint}
    (h : Lays F ctx b K S pushingEntries p q entries) (after : F.code.Has q) (tos : TopOfStack) :
    F.code.Has (entries.get tos) := by
  unfold pushingEntries at h
  obtain ⟨ready, h⟩ := h.newLabel_bind
  have object := h.pc_bind
  obtain ⟨⟨⟩, _, -, h⟩ := object.split
  obtain ⟨-, h⟩ := h.emitTo_bind
  have float := h.pc_bind
  obtain ⟨⟨⟩, _, -, h⟩ := float.split
  obtain ⟨-, h⟩ := h.emitTo_bind
  have double := h.pc_bind
  obtain ⟨⟨⟩, _, -, h⟩ := double.split
  obtain ⟨-, h⟩ := h.emitTo_bind
  have long := h.pc_bind
  obtain ⟨⟨⟩, _, -, h⟩ := long.split
  obtain ⟨-, h⟩ := h.emitTo_bind
  have int := h.pc_bind
  obtain ⟨⟨⟩, _, -, h⟩ := int.split
  have h := h.pc_bind
  obtain ⟨⟨⟩, _, bound, h⟩ := h.split
  obtain ⟨-, rfl⟩ := bound.bind
  obtain ⟨rfl, rfl⟩ := h.ended
  rw [EntryPoint.get_ofList]
  cases tos
  case long => exact long.first
  case float => exact float.first
  case double => exact double.first
  case object => exact object.first
  case none => exact after
  all_goals exact int.first

theorem filled_pop {s : TopOfStack} (held : s ≠ .none) : Filled ctx b K S (pop s) := by
  cases s
  case none => exact absurd rfl held
  all_goals
    simp only [pop, popInt, popLong, popFloat, popDouble]
    infer_instance

theorem stateEntries_have {illegal : UInt64} {tosIn : TopOfStack} {entries : EntryPoint}
    (h : Lays F ctx b K S (stateEntries illegal tosIn) p q entries)
    (illegal_have : F.code.Has illegal) (after : F.code.Has q) (tos : TopOfStack) :
    F.code.Has (entries.get tos) := by
  unfold stateEntries at h
  by_cases none : tosIn = .none
  · exact (h.ite_pos none).pushingEntries_have after tos
  · have h := (h.ite_neg none).pc_bind
    obtain ⟨⟨⟩, _, popped, h⟩ := h.split
    have h := h.pc_bind
    obtain ⟨rfl, rfl⟩ := h.ended
    have : Filled ctx b K S (pop tosIn) := filled_pop none
    rw [EntryPoint.get_set, EntryPoint.get_set, EntryPoint.get_uniform]
    split
    · exact after
    · split
      · exact popped.first
      · exact illegal_have

/-- All entries of an opcode are code. -/
theorem entryPoint_have {e : ExceptionEntries} {illegal : UInt64} {trace : EntryPoint} {o : Opcode}
    {entry : EntryPoint} (h : Lays F ctx false K S (Emit.entryPoint e illegal trace o) p q entry)
    (illegal_have : F.code.Has illegal) (tos : TopOfStack) : F.code.Has (entry.get tos) := by
  unfold Emit.entryPoint at h
  obtain ⟨entries, _, h, ended⟩ := h.stub_bind
  obtain ⟨-, rfl⟩ := ended.ended
  obtain ⟨entries', _, states, h⟩ := h.split
  obtain ⟨⟨⟩, _, code, ended⟩ := h.split
  obtain ⟨-, rfl⟩ := ended.ended
  exact states.stateEntries_have illegal_have code.first tos

end
end Lays
end TemplateVm
