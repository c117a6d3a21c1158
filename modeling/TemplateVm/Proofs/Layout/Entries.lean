import TemplateVm.Proofs.Guest.Operations
import TemplateVm.Proofs.Layout.Generated

set_option autoImplicit false
set_option synthInstance.maxSize 100000

/-!
# Where the dispatch table leads

The entry that the table has for an opcode and a state is one of the entries of that opcode's
template, and the code of the template is behind it.
-/
namespace TemplateVm

open Emit

theorem DispatchTable.get_ofOpcodes (entry : Opcode → EntryPoint) (otherwise : EntryPoint)
    (tos : TopOfStack) (o : Opcode) :
    (DispatchTable.ofOpcodes entry otherwise).get tos o.byte = (entry o).get tos := by
  have bound : o.byte.toNat < 256 := o.byte.toNat_lt
  simp [DispatchTable.get, DispatchTable.ofOpcodes, bound, Opcode.ofByte?_byte]

section
variable {F : Finished} {ctx : CodeContext} {K : List CodeLabel} {p q : UInt64}

/-- The first entry of an opcode in the list of all is one at which its code is placed. -/
theorem Lays.entryPoints {e : ExceptionEntries} {illegal : UInt64} {trace : EntryPoint}
    {templates : List (Opcode × EntryPoint)}
    (h : Lays F ctx false K [] (Emit.entryPoints e illegal trace) p q templates) (o : Opcode) :
    ∃ entry r t, (templates.find? (·.1 = o)).map (·.2) = some entry ∧
      Lays F ctx false K [] (entryPoint e illegal trace o) r t entry := by
  obtain ⟨length, each⟩ := h.mapM
  have pair (j : Nat) (o' : Opcode) (hj : Opcode.all.toList[j]? = some o') : ∃ entry r t,
      templates[j]? = some (o', entry) ∧
        Lays F ctx false K [] (entryPoint e illegal trace o') r t entry := by
    obtain ⟨⟨o'', entry⟩, r, t, hy, h⟩ := each j o' hj
    obtain ⟨entry', r', h, ended⟩ := h.split
    obtain ⟨-, same⟩ := ended.ended
    cases same
    exact ⟨entry, r, r', hy, h⟩
  obtain ⟨entry, r, t, hy, -⟩ := pair _ o o.getElem?_all
  cases hf : templates.find? (·.1 = o) with
  | none =>
    have := List.find?_eq_none.mp hf _ (List.mem_of_getElem? hy)
    simp at this
  | some found =>
    obtain ⟨o', entry'⟩ := found
    obtain rfl : o' = o := by simpa using List.find?_some hf
    obtain ⟨k, hk⟩ := List.mem_iff_getElem?.mp (List.mem_of_find?_eq_some hf)
    have lt : k < Opcode.all.toList.length := by
      rw [← length]
      exact (List.getElem?_eq_some_iff.mp hk).1
    obtain ⟨entry'', r', t', hy', h⟩ := pair k _ (List.getElem?_eq_getElem lt)
    rw [hk] at hy'
    simp only [Option.some.injEq, Prod.mk.injEq] at hy'
    obtain ⟨same, rfl⟩ := hy'
    rw [← same] at h
    exact ⟨entry', r', t', rfl, h⟩

end

theorem EntryPoint.get_ofList (l : List UInt64) (tos : TopOfStack) :
    (EntryPoint.ofList l).get tos = l.getD tos.index 0 := by
  have bound : tos.index < 10 := by cases tos <;> decide
  simp [EntryPoint.get, EntryPoint.ofList, bound]

theorem TopOfStack.index_inj {t t' : TopOfStack} (h : t.index = t'.index) : t = t' := by
  cases t <;> cases t' <;> first | rfl | cases h

theorem EntryPoint.get_set (e : EntryPoint) (t t' : TopOfStack) (a : UInt64) :
    (e.set t a).get t' = if t' = t then a else e.get t' := by
  have bound : t'.index < 10 := by cases t' <;> decide
  by_cases same : t' = t
  · subst same
    simp [get, set, bound]
  · have other : t.index ≠ t'.index := fun h => same (TopOfStack.index_inj h.symm)
    simp [get, set, same, other]

/-- Of entries that are made for each state, every one is placed where the list says. -/
theorem Lays.perState {F : Finished} {ctx : CodeContext} {K S : List CodeLabel} {p q : UInt64}
    {n : Nat} {name : String} {entry : TopOfStack → Emit UInt64} {l : List UInt64}
    [∀ tos, Orderly ctx true K S S n (entry tos)]
    (h : Lays F ctx false K S (do
      let (_, entries) ← Emit.stub name (TopOfStack.all.mapM entry)
      pure entries) p q l) (tos : TopOfStack) :
    ∃ r t, Lays F ctx true K S (entry tos) r t ((EntryPoint.ofList l).get tos) := by
  obtain ⟨entries, r, h, ended⟩ := h.stub_bind
  obtain ⟨-, rfl⟩ := ended.ended
  obtain ⟨-, each⟩ := h.mapM
  obtain ⟨y, r, t, hy, h⟩ := each tos.index tos (by cases tos <;> rfl)
  refine ⟨r, t, ?_⟩
  rwa [EntryPoint.get_ofList, List.getD_eq_getElem?_getD, hy]

/-- There is a return entry for each state, of either length. -/
theorem Lays.returnEntries {F : Finished} {ctx : CodeContext} {K S : List CodeLabel} {p q : UInt64}
    {l : List UInt64 × List UInt64} (h : Lays F ctx false K S Emit.returnEntries p q l) :
    (l.1 ++ l.2).length = 20 := by
  unfold Emit.returnEntries at h
  obtain ⟨calls, r, calling, h⟩ := h.stub_bind
  obtain ⟨sites, t, siting, h⟩ := h.stub_bind
  obtain ⟨-, rfl⟩ := h.ended
  rw [List.length_append, calling.mapM.1, siting.mapM.1]
  rfl

namespace Image

/-- The code of the parts of an interpreter that are reached from elsewhere. -/
structure Placed (F : Finished) (ctx : CodeContext) (K : List CodeLabel) (stubs : Stubs)
    (popFrame : CodeLabel) (parts : Parts) : Prop where
  exceptions : ∃ p q, Lays F ctx false K [popFrame] (ExceptionEntries.all popFrame) p q
    parts.exceptions
  entries : ∃ p q, Lays F ctx false K [] (Emit.methodEntries stubs
    (parts.resultHandlers.getD (TypeTag.resultHandlerIndex .object) 0)) p q parts.methodEntries
  templates : ∃ p q trace illegal, (ctx.settings.traceBytecodes = true → ∀ tos, ∃ r t,
      Lays F ctx true K [popFrame] (traceEntry tos) r t (trace.get tos)) ∧
    Lays F ctx false K [] (entryPoints parts.exceptions illegal trace) p q parts.templates
  safepoints : ∀ tos, ∃ r t,
    Lays F ctx true K [popFrame] (safepointEntry tos) r t (parts.safepoints.get tos)
  returns : (parts.callReturns ++ parts.siteReturns).length = 20
  results : ∃ p q, Lays F ctx false K [popFrame] Emit.resultHandlers p q parts.resultHandlers

theorem placed_of_lays {F : Finished} {ctx : CodeContext} {stubs : Stubs} {l : CodeLabel}
    {p q : UInt64} {parts : Parts}
    (h : Lays F ctx false [l] [l] (Image.parts stubs l) p q parts) :
    Placed F ctx [l] stubs l parts := by
  unfold Image.parts at h
  obtain ⟨_, _, -, h⟩ := h.stub_bind
  dsimp only at h
  obtain ⟨_, _, -, h⟩ := h.stub_bind
  dsimp only at h
  obtain ⟨trace, r₁, traced, h⟩ := h.split
  obtain ⟨⟨calls, sites⟩, r₂, returns, h⟩ := h.split
  obtain ⟨handlers, r₃, finishing, h⟩ := h.split
  obtain ⟨safepoints, r₄, h₄, h⟩ := h.split
  obtain ⟨exceptions, r₅, h₅, h⟩ := h.split
  obtain ⟨entries, r₆, h₆, h⟩ := h.split
  obtain ⟨templates, r₇, h₇, h⟩ := h.split
  obtain ⟨-, rfl⟩ := h.ended
  unfold traceEntries at traced
  exact ⟨⟨_, _, h₅⟩, ⟨_, _, h₆⟩,
    ⟨_, _, .ofList trace, _, fun on => Lays.perState (traced.settings_bind.ite_pos on), h₇⟩,
    Lays.perState h₄, returns.returnEntries, ⟨_, _, finishing⟩⟩

/-- The image has the code and the tables that are generated for the settings. Code may have been
    added to it since. -/
structure Generated (s : Settings) (i : Image) : Prop where
  image : ∃ i₀, generate s = .ok i₀ ∧ i.settings = s ∧ i.normalTable = i₀.normalTable ∧
    i.exceptions = i₀.exceptions ∧ ∀ p j, i₀.code.Fetches p j → i.code.Fetches p j
  pages : s.shadowPages.toNat < 2 ^ 54

theorem generated_of_generate {s : Settings} {i : Image} (h : generate s = .ok i)
    (pages : s.shadowPages.toNat < 2 ^ 54) : Generated s i := by
  obtain ⟨parts, laid⟩ := laid_of_generate h pages
  exact ⟨⟨i, h, laid.settings, rfl, rfl, fun _ _ fetch => fetch⟩, pages⟩

/-- Where the template of an opcode is placed, and how the table leads to it. -/
structure Entry (i : Image) (place : CodeLabel → UInt64) (ctx : CodeContext) (o : Opcode)
    (K S : List CodeLabel) (trace entry : EntryPoint) (illegal p q : UInt64) : Prop where
  settings : ctx.settings = i.settings
  code : Lays ⟨i.code, place⟩ ctx false K [] (entryPoint i.exceptions illegal trace o) p q entry
  traced : ctx.settings.traceBytecodes = true → ∀ tos, ∃ r t,
    Lays ⟨i.code, place⟩ ctx true K S (traceEntry tos) r t (trace.get tos)
  table : ∀ tos, i.normalTable.get tos o.byte = entry.get tos

/-- The parts of the interpreter are the code of the image, or are placed by themselves. -/
theorem Entry.of_lays {s : Settings} {i i₀ : Image} {parts : Parts} (laid : Laid s i₀ parts)
    (settings : i.settings = s) (table : i.normalTable = i₀.normalTable)
    (exceptions : i.exceptions = i₀.exceptions) {place : CodeLabel → UInt64} {l : CodeLabel}
    {p q : UInt64} (lay : Lays ⟨i.code, place⟩ (context s i₀.stubs l) false [l] [l]
      (Image.parts i₀.stubs l) p q parts) (o : Opcode) :
    ∃ place ctx K S trace entry illegal p q,
      Entry i place ctx o K S trace entry illegal p q := by
  have placed := placed_of_lays lay
  obtain ⟨p, q, trace, illegal, traced, templates⟩ := placed.templates
  obtain ⟨entry, r, t, found, code⟩ := templates.entryPoints o
  refine ⟨place, context s i₀.stubs l, [l], [l], trace, entry, illegal, r, t, settings.symm, ?_,
    traced, fun tos => ?_⟩
  · rw [exceptions, laid.exceptions]
    exact code
  · rw [table, laid.normalTable, DispatchTable.get_ofOpcodes, found]
    rfl

theorem Generated.entry {s : Settings} {i : Image} (h : Generated s i) (o : Opcode) :
    ∃ place ctx K S trace entry illegal p q,
      Entry i place ctx o K S trace entry illegal p q := by
  obtain ⟨i₀, generated, settings, table, exceptions, keeps⟩ := h.image
  obtain ⟨parts, laid⟩ := laid_of_generate generated h.pages
  obtain ⟨place, l, lay⟩ := laid.interpreter
  exact Entry.of_lays laid settings table exceptions (lay.mono rfl keeps) o

/-- Every image has the code of each template, followed by what goes on with the next bytecode. -/
theorem Generated.template {s : Settings} {i : Image} (h : Generated s i) (o : Opcode) :
    ∃ place ctx K q q' q'', ctx.settings = s ∧
      Lays ⟨i.code, place⟩ ctx true K [] (Template.ofOpcode i.exceptions o).code q q' () ∧
      Lays ⟨i.code, place⟩ ctx true K [] (whenM (!(Template.ofOpcode i.exceptions o).dispatches)
        (dispatchNext (Template.ofOpcode i.exceptions o).tosOut o.length.toUInt64)) q' q'' () := by
  obtain ⟨i₀, -, settings, -⟩ := h.image
  obtain ⟨place, ctx, K, S, trace, entry, illegal, p, q, E⟩ := h.entry o
  have code := E.code
  unfold entryPoint at code
  obtain ⟨entries, r₁, lay, -⟩ := code.stub_bind
  obtain ⟨entries', r₂, -, lay⟩ := lay.split
  obtain ⟨⟨⟩, r₃, lay, -⟩ := lay.split
  unfold templateCode at lay
  obtain ⟨⟨⟩, r₄, -, lay⟩ := lay.split
  obtain ⟨⟨⟩, r₅, code, next⟩ := lay.split
  exact ⟨place, ctx, K, r₄, r₅, _, E.settings.trans settings, code, next⟩

/-- The interpreter is where it was generated. -/
structure Bounded (s : Settings) (i : Image) : Prop where
  generated : Generated s i
  bounds : ∀ i₀, generate s = .ok i₀ → i.start = i₀.start ∧ i.stop = i₀.stop

theorem bounded_of_generate {s : Settings} {i : Image} (h : generate s = .ok i)
    (pages : s.shadowPages.toNat < 2 ^ 54) : Bounded s i := by
  refine ⟨generated_of_generate h pages, fun i₀ h₀ => ?_⟩
  rw [h] at h₀
  cases h₀
  exact ⟨rfl, rfl⟩

/-- The interpreter is code of which all addresses belong to it. -/
theorem Bounded.alone {s : Settings} {i i₀ : Image} (h : Bounded s i) (generated : generate s = .ok i₀)
    (keeps : ∀ p j, i₀.code.Fetches p j → i.code.Fetches p j) : ∃ parts, Laid s i₀ parts ∧
      ∃ code place l, Lays ⟨code, place⟩ (context s i₀.stubs l) false [l] [l]
        (Image.parts i₀.stubs l) i₀.start i₀.stop parts ∧
        ∀ p j, code.Fetches p j → i.code.Fetches p j ∧ i.contains p = true := by
  obtain ⟨parts, laid, code, place, l, lay, inside⟩ := alone_of_generate generated h.generated.pages
  obtain ⟨start, stop⟩ := h.bounds i₀ generated
  refine ⟨parts, laid, code, place, l, lay, fun p j fetch => ?_⟩
  obtain ⟨fetched, within⟩ := inside p j fetch
  rw [contains] at within ⊢
  rw [start, stop]
  exact ⟨keeps p j fetched, within⟩

/-- The templates are part of it. -/
theorem Bounded.entry {s : Settings} {i : Image} (h : Bounded s i) (o : Opcode) :
    ∃ code place ctx K S trace entry illegal p q,
      Entry { i with code } place ctx o K S trace entry illegal p q ∧
      ∀ p j, code.Fetches p j → i.code.Fetches p j ∧ i.contains p = true := by
  obtain ⟨i₀, generated, settings, table, exceptions, keeps⟩ := h.generated.image
  obtain ⟨parts, laid, code, place, l, lay, inside⟩ := h.alone generated keeps
  obtain ⟨place, ctx, K, S, trace, entry, illegal, p, q, E⟩ :=
    Entry.of_lays (i := { i with code }) laid settings table exceptions lay o
  exact ⟨code, place, ctx, K, S, trace, entry, illegal, p, q, E, inside⟩

/-- The table of safepoint entries is the one that is generated for the settings, too. -/
structure Armable (s : Settings) (i : Image) : Prop where
  generated : Generated s i
  safepointTable : ∀ i₀, generate s = .ok i₀ → i.safepointTable = i₀.safepointTable

theorem armable_of_generate {s : Settings} {i : Image} (h : generate s = .ok i)
    (pages : s.shadowPages.toNat < 2 ^ 54) : Armable s i := by
  refine ⟨generated_of_generate h pages, fun i₀ h₀ => ?_⟩
  rw [h] at h₀
  cases h₀
  rfl

/-- The table for safepoints leads every opcode to the safepoint entry of the state. -/
theorem Armable.safepoint {s : Settings} {i : Image} (h : Armable s i) (tos : TopOfStack)
    (o : Opcode) : ∃ place ctx K S p q, ctx.settings = s ∧
      Lays ⟨i.code, place⟩ ctx true K S (safepointEntry tos) p q
        (i.safepointTable.get tos o.byte) := by
  obtain ⟨i₀, generated, -, -, -, keeps⟩ := h.generated.image
  obtain ⟨parts, laid⟩ := laid_of_generate generated h.generated.pages
  obtain ⟨place, l, lay⟩ := laid.interpreter
  obtain ⟨r, t, code⟩ := (placed_of_lays lay).safepoints tos
  refine ⟨place, context s i₀.stubs l, [l], [l], r, t, rfl, ?_⟩
  rw [h.safepointTable i₀ generated, laid.safepointTable, DispatchTable.get_ofOpcodes]
  exact code.mono rfl keeps

/-- A safepoint entry begins with pushing what is held. -/
theorem Armable.pushed {s : Settings} {i : Image} (h : Armable s i) (tos : TopOfStack)
    (o : Opcode) : ∃ place ctx K S q, Lays ⟨i.code, place⟩ ctx true K S (push tos)
      (i.safepointTable.get tos o.byte) q () := by
  obtain ⟨place, ctx, K, S, p, q, -, lay⟩ := h.safepoint tos o
  unfold safepointEntry at lay
  replace lay := lay.pc_bind
  obtain ⟨⟨⟩, q₁, pushed, lay⟩ := lay.split
  obtain ⟨⟨⟩, q₂, -, lay⟩ := lay.split
  obtain ⟨-, lay⟩ := lay.emit_bind
  obtain ⟨⟨⟩, q₃, -, ended⟩ := lay.split
  obtain ⟨-, entry⟩ := ended.ended
  exact ⟨place, ctx, K, S, q₁, entry ▸ pushed⟩

/-- The tables differ: the one for safepoints tells two states from each other that a template can
    take neither of. -/
theorem Armable.tables_ne {s : Settings} {i : Image} (h : Armable s i) :
    ∃ (tos : TopOfStack) (o : Opcode),
      i.safepointTable.get tos o.byte ≠ i.normalTable.get tos o.byte := by
  refine Classical.by_contradiction fun none => ?_
  have same (tos : TopOfStack) :
      i.safepointTable.get tos Opcode.ineg.byte = i.normalTable.get tos Opcode.ineg.byte :=
    Classical.not_not.mp fun other => none ⟨tos, _, other⟩
  have unsuited : i.normalTable.get .float Opcode.ineg.byte =
      i.normalTable.get .double Opcode.ineg.byte := by
    obtain ⟨place, ctx, K, S, trace, entry, illegal, p, q, E⟩ := h.generated.entry .ineg
    have code := E.code
    unfold entryPoint at code
    obtain ⟨entries, r₁, lay, ended⟩ := code.stub_bind
    obtain ⟨rfl, rfl⟩ := ended.ended
    obtain ⟨entries', r₂, lay, rest⟩ := lay.split
    obtain ⟨⟨⟩, r₃, -, ended⟩ := rest.split
    obtain ⟨rfl, rfl⟩ := ended.ended
    unfold stateEntries at lay
    replace lay := (lay.ite_neg (by exact nofun)).pc_bind
    obtain ⟨⟨⟩, r, -, lay⟩ := lay.split
    replace lay := lay.pc_bind
    obtain ⟨rfl, rfl⟩ := lay.ended
    rw [E.table, E.table]
    rfl
  obtain ⟨_, _, _, _, _, float⟩ := h.pushed .float .ineg
  obtain ⟨_, _, _, _, _, double⟩ := h.pushed .double .ineg
  have first := float.emit.1.1
  rw [same, unsuited, ← same, double.emit.1.1] at first
  cases first

end Image
end TemplateVm
