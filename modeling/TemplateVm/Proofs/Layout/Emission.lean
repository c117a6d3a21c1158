import TemplateVm.Proofs.Layout.Openings

set_option autoImplicit false
-- an instance counts as twice the size with every further instruction
set_option synthInstance.maxSize 1000000000000000000000000

/-!
# The code of an image as it is emitted

`Emitted` follows a run of emitting code piece by piece. Later pieces branch to addresses that
earlier ones have left behind: those are code by then, and so the later pieces go where they should,
too.
-/
namespace TemplateVm

open Assembly Aims

/-! ## Marks -/

/-- Code that sets a mark. -/
class Marks (G : UInt64 → Prop) (R : List Register) (b : Bool) (ctx : CodeContext) {α : Type}
    (name : String) (m : Emit α) : Prop where
  marks : ∀ a x a', Aimed G R b a → m ctx a = .ok x a' → ∃ p, (name, p) ∈ a'.marks

namespace Marks

variable {G : UInt64 → Prop} {R : List Register} {b : Bool} {ctx : CodeContext} {α β : Type}
  {name : String}

instance mark_bind (f : Unit → Emit β) [hf : ∀ x, Aims G R b ctx (f x)] :
    Marks G R b ctx name (Emit.mark name >>= f) where
  marks a y a' h run := by
    obtain ⟨⟨⟩, a₁, first, h₁, -, rest⟩ := Aims.split h run
    cases first
    exact ⟨a.pc, ((hf ()).aims _ y a' h₁ rest).2.marks _ Array.mem_push_self⟩

instance (priority := low) rest_bind (m : Emit α) (f : α → Emit β) [Aims G R b ctx m]
    [hf : ∀ x, Marks G R b ctx name (f x)] : Marks G R b ctx name (m >>= f) where
  marks a y a' h run := by
    obtain ⟨x, a₁, -, h₁, -, rest⟩ := Aims.split h run
    exact (hf x).marks a₁ y a' h₁ rest

instance settings_bind (f : Settings → Emit β) [h : Marks G R b ctx name (f ctx.settings)] :
    Marks G R b ctx name (Emit.settings >>= f) := ⟨h.marks⟩

instance ite (c : Prop) [Decidable c] (m m' : Emit α) [h : Marks G R b ctx name m]
    [h' : Marks G R b ctx name m'] : Marks G R b ctx name (if c then m else m') := by
  split
  · exact h
  · exact h'

instance : Marks G passed true ctx "call_stub_return" Stubs.callCode := by
  unfold Stubs.callCode; infer_instance

instance : Marks G passed true ctx "catch_exception" Stubs.callCode := by
  unfold Stubs.callCode; infer_instance

end Marks

/-- A mark that is set is where an instruction is. -/
theorem Assembly.Lands.marked {a : Assembly} {G : UInt64 → Prop} {name : String}
    (h : a.Lands G a.code.size) (code : ∀ k < a.code.size, G (a.address k))
    (set : ∃ p, (name, p) ∈ a.marks) :
    G (((a.marks.find? (·.1 == name)).map (·.2)).getD 0) := by
  obtain ⟨p, mem⟩ := set
  cases found : a.marks.find? (·.1 == name) with
  | none => simpa using Array.find?_eq_none.mp found _ mem
  | some m =>
    obtain ⟨k, lt, same⟩ := h.marks m (Array.mem_of_find?_eq_some found)
    simpa only [Option.map_some, Option.getD_some, same] using code k lt

/-- The stubs are code, and the two places inside of the call stub. -/
structure Stubs.Have (stubs : Stubs) (G : UInt64 → Prop) : Prop where
  callStub : G stubs.callStub
  callStubReturn : G stubs.callStubReturn
  catchException : G stubs.catchException
  forwardException : G stubs.forwardException
  throwStackOverflow : G stubs.throwStackOverflow
  throwAbstractMethod : G stubs.throwAbstractMethod
  throwNullPointer : G stubs.throwNullPointer

/-- What the interpreter leaves behind is code. -/
structure Image.Parts.Have (parts : Image.Parts) (G : UInt64 → Prop) : Prop where
  exceptions : parts.exceptions.Have G
  methodEntries : ∀ kind : EntryKind, G (parts.methodEntries.getD kind.index 0)
  callReturns : parts.callReturns.length = 10 ∧ ∀ p ∈ parts.callReturns, G p
  siteReturns : parts.siteReturns.length = 10 ∧ ∀ p ∈ parts.siteReturns, G p
  resultHandlers : parts.resultHandlers.length = 10 ∧ ∀ p ∈ parts.resultHandlers, G p
  safepoints : ∀ tos, G (parts.safepoints.get tos)
  templates : ∀ o : Opcode, ∃ entry,
    (parts.templates.find? (·.1 = o)).map (·.2) = some entry ∧ ∀ tos, G (entry.get tos)
  illegalSequence : G parts.illegalSequence
  unimplementedBytecode : G parts.unimplementedBytecode

/-! ## Code as it was run -/

/-- A piece of code with the assemblies before and behind it. The finished code is what becomes of
    these, and goes where it should up to the piece. -/
structure Emitted (F : Finished) (R : List Register) (ctx : CodeContext) (b : Bool)
    (K S : List CodeLabel) {α : Type} (m : Emit α) (a a' : Assembly) (x : α) : Prop where
  ready : Ready ctx b K S a
  run : m ctx a = .ok x a'
  within : Within F a'
  aimed : Aimed F.code.Has R b a

namespace Emitted

section
variable {F : Finished} {R : List Register} {ctx : CodeContext} {b : Bool}
  {K S T U : List CodeLabel} {n k : Nat} {α β : Type} {m : Emit α} {f : α → Emit β}
  {a a' : Assembly} {x : α} {y : β}

theorem lays (h : Emitted F R ctx b K S m a a' x) : Lays F ctx b K S m a.pc a'.pc x :=
  ⟨a, a', rfl, rfl, h.ready, h.run, h.within⟩

theorem aims [hm : Aims F.code.Has R b ctx m] (h : Emitted F R ctx b K S m a a' x) :
    Aimed F.code.Has R b a' ∧ Precedes a a' := hm.aims a x a' h.aimed h.run

/-- A piece of code, and what comes behind it if the piece goes where it should. -/
theorem split [hm : Orderly ctx b K S U n m] [hf : ∀ x, Orderly ctx b K U T k (f x)]
    (h : Emitted F R ctx b K S (m >>= f) a a' y) : ∃ x a₁, Emitted F R ctx b K S m a a₁ x ∧
      (Aimed F.code.Has R b a₁ → Emitted F R ctx b K U (f x) a₁ a' y) := by
  obtain ⟨x, a₁, first, rest⟩ := run_of_bind h.run
  obtain ⟨x', a₁', first', g⟩ := hm.runs a h.ready
  cases first.symm.trans first'
  have ready := g.ready h.ready hm.sub
  obtain ⟨y', a'', rest', g'⟩ := (hf x).runs a₁ ready
  cases rest.symm.trans rest'
  exact ⟨x, a₁, ⟨h.ready, first, h.within.of_grown ready g', h.aimed⟩,
    fun aimed => ⟨ready, rest, h.within, aimed⟩⟩

/-- A piece of code that goes where it should, and what comes behind it. -/
theorem step [hm : Orderly ctx b K S U n m] [hf : ∀ x, Orderly ctx b K U T k (f x)]
    [Aims F.code.Has R b ctx m] (h : Emitted F R ctx b K S (m >>= f) a a' y) :
    ∃ x a₁, Emitted F R ctx b K S m a a₁ x ∧ Precedes a a₁ ∧
      Emitted F R ctx b K U (f x) a₁ a' y := by
  obtain ⟨x, a₁, first, rest⟩ := h.split
  obtain ⟨aimed, precedes⟩ := first.aims
  exact ⟨x, a₁, first, precedes, rest aimed⟩

end

/-! ### Parts of the interpreter -/

section
variable {F : Finished} {ctx : CodeContext} {K S T : List CodeLabel} {a a' : Assembly}

/-- The entry of a method that is not native begins with code. -/
theorem methodEntry_code {stubs : Stubs} {p entry : UInt64}
    (h : Emitted F handed ctx false K S (Emit.methodEntry stubs p 0 .normal) a a' entry) :
    Code F.code.Has entry := by
  have lay := h.lays
  unfold Emit.methodEntry at lay
  obtain ⟨entry, _, code, ended⟩ := lay.stub_bind
  obtain ⟨-, rfl⟩ := ended.ended
  exact ⟨code.entryCode nofun⟩

variable [Code F.code.Has ctx.forwardException]

/-- The handlers of exceptions go where they should: those that come later to earlier ones. -/
theorem exceptions {popFrame : CodeLabel} [Taken popFrame S T] {e : ExceptionEntries}
    (h : Emitted F handed ctx false K S (ExceptionEntries.all popFrame) a a' e) :
    Aimed F.code.Has handed false a' := by
  unfold ExceptionEntries.all at h
  obtain ⟨⟨_, _⟩, a₁, -, -, h⟩ := h.step
  obtain ⟨⟨_, rethrow, throwException, removeActivation⟩, a₂, handling, -, h⟩ := h.step
  have code : Code F.code.Has throwException := ⟨handling.lays.stub.2.handling_have.2.1⟩
  exact h.aims.1

theorem methodEntries {stubs : Stubs} [Throwing F.code.Has stubs] {p : UInt64}
    {entries : List UInt64}
    (h : Emitted F handed ctx false K [] (Emit.methodEntries stubs p) a a' entries) :
    Aimed F.code.Has handed false a' := by
  unfold Emit.methodEntries at h
  obtain ⟨normal, a₁, first, -, h⟩ := h.step
  have code := first.methodEntry_code
  exact h.aims.1

/-- The template that comes last closes the code. -/
instance (e : ExceptionEntries) [Entries F.code.Has e] (trace : EntryPoint)
    [Traced F.code.Has ctx trace] (p : UInt64) :
    Closes F.code.Has handed false ctx (Emit.entryPoints e p trace) := by
  have last : Opcode.all.toList = Opcode.all.toList.dropLast ++ [.ifnonnull] := by
    decide +kernel
  unfold Emit.entryPoints
  rw [last, List.mapM_append]
  simp only [List.mapM_cons, List.mapM_nil, pure_bind, bind_assoc]
  infer_instance

theorem parts {stubs : Stubs} [Throwing F.code.Has stubs] {popFrame : CodeLabel}
    {parts : Image.Parts}
    (h : Emitted F handed ctx false K [popFrame] (Image.parts stubs popFrame) a a' parts) :
    Aimed F.code.Has handed false a' ∧ a'.Lands F.code.Has a'.code.size ∧
      parts.Have F.code.Has := by
  unfold Image.parts at h
  obtain ⟨⟨illegal, _⟩, a₁, first, -, h⟩ := h.step
  have illegal_have := first.lays.stub_have
  dsimp only at h
  obtain ⟨⟨unimplemented, _⟩, a₂, second, -, h⟩ := h.step
  have unimplemented_have := second.lays.stub_have
  dsimp only at h
  obtain ⟨trace, a₃, traces, -, h⟩ := h.step
  have traced : Traced F.code.Has ctx (.ofList trace) := ⟨traces.lays.traces_have⟩
  obtain ⟨⟨calls, sites⟩, a₄, returns, -, h⟩ := h.step
  obtain ⟨results, a₅, finishing, -, h⟩ := h.step
  obtain ⟨safepoints, a₆, safe, -, h⟩ := h.step
  obtain ⟨e, a₇, throwing, h⟩ := h.split
  replace h := h throwing.exceptions
  have entries := throwing.lays.exceptions_have
  have : Entries F.code.Has e := ⟨entries.throwException, entries.throwArrayIndex,
    entries.throwClassCast, entries.throwArithmetic, entries.throwNullPointer⟩
  obtain ⟨methods, a₈, entering, h⟩ := h.split
  replace h := h entering.methodEntries
  obtain ⟨templates, a₉, executing, -, h⟩ := h.step
  cases h.run
  refine ⟨executing.aims.1, (Closes.closes _ _ _ executing.aimed executing.run).1, ?_⟩
  refine ⟨entries, entering.lays.methodEntries_have, returns.lays.returns_have.1,
    returns.lays.returns_have.2, finishing.lays.results_have, safe.lays.safepoints_have,
    fun o => ?_, illegal_have, unimplemented_have⟩
  obtain ⟨entry, _, _, found, code⟩ := executing.lays.entryPoints o
  exact ⟨entry, found, code.entryPoint_have illegal_have⟩

end

/-! ### Stubs -/

section
variable {F : Finished} {ctx : CodeContext} {a a' : Assembly}

/-- Where finished code holds an assembly, every instruction of it has its place. -/
theorem code (h : Within F a) (k : Nat) (lt : k < a.code.size) : F.code.Has (a.address k) :=
  ⟨_, h.fetch k _ (Array.getElem?_eq_getElem lt)⟩

theorem stubs {stubs : Stubs} (h : Emitted F passed ctx false [] [] Stubs.all a a' stubs) :
    Aimed F.code.Has passed false a' ∧ a'.Lands F.code.Has a'.code.size ∧
      stubs.Have F.code.Has := by
  unfold Stubs.all at h
  obtain ⟨⟨callStub, _⟩, a₁, calling, -, h⟩ := h.step
  obtain ⟨⟨forwardException, _⟩, a₂, forwarding, le₂, h⟩ := h.step
  have forward_have := forwarding.lays.stub_have
  have : Code F.code.Has forwardException := ⟨forward_have⟩
  obtain ⟨⟨overflow, _⟩, a₃, first, le₃, h⟩ := h.step
  obtain ⟨⟨abstract, _⟩, a₄, second, le₄, h⟩ := h.step
  obtain ⟨⟨null, _⟩, a₅, third, le₅, h⟩ := h.step
  have within := h.within
  cases h.run
  have lands := (Closes.closes _ _ _ third.aimed third.run).1
  have marked (name : String) [hm : Marks F.code.Has passed true ctx name Stubs.callCode] :
      ∃ p, (name, p) ∈ a'.marks := by
    obtain ⟨b₁, b₂, aimed, -, -, body, -, after⟩ := Aims.of_stub calling.aimed calling.run
    obtain ⟨p, mem⟩ := hm.marks b₁ _ b₂ aimed body
    have behind := (after (Aims.aims b₁ _ b₂ aimed body).1).2.1
    exact ⟨p, le₅.marks _ <| le₄.marks _ <| le₃.marks _ <| le₂.marks _ <| behind.marks _ mem⟩
  exact ⟨third.aims.1, lands, calling.lays.stub_have, lands.marked (code within) (marked _),
    lands.marked (code within) (marked _), forward_have, first.lays.stub_have,
    second.lays.stub_have, third.lays.stub_have⟩

end
end Emitted
end TemplateVm
