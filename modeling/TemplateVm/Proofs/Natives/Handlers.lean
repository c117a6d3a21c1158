import TemplateVm.Proofs.Layout.Entries

set_option autoImplicit false
set_option synthInstance.maxSize 100000

/-!
# Signature handlers in an image

Every signature that an image keeps has its handler where it says, and adding the handler of another
signature leaves all code where it is. The native entries of the image are those that were generated
for its settings.
-/
namespace TemplateVm

open Emit

/-- The signature of a method with few parameters. -/
def Signature.shaped (d : MethodDescriptor) (isStatic : Bool) : Signature :=
  ⟨isStatic, d.parameters.map shape, shape d.result⟩

/-- What a method with more parameters than registers is refused with. -/
def Failure.tooMany (d : MethodDescriptor) : Failure :=
  .nativeBridge s!"{d.text}: native methods take at most {Signature.maxParameters} parameters"

/-! ## Handlers are orderly -/

namespace Orderly

variable {ctx : CodeContext} {b : Bool} {K S : List CodeLabel}

instance (index : UInt64) (r : Register) :
    Orderly ctx b K S S 4 (Signature.passObject index r) := by
  unfold Signature.passObject; infer_instance

/-- A parameter takes four instructions at most. -/
instance (index : UInt64) (words : List Register) (floats : List FloatRegister)
    (ts : List TypeTag) :
    Orderly ctx b K S S (4 * ts.length) (Signature.passParameters index words floats ts) := by
  induction ts generalizing index words floats with
  | nil => exact (inferInstance : Orderly ctx b K S S 0 (Pure.pure ()))
  | cons t ts ih =>
    have : 4 * (t :: ts).length = 4 + 4 * ts.length := by rw [List.length_cons]; omega
    rw [this]
    unfold Signature.passParameters
    cases t <;> cases words <;> cases floats <;>
      exact upto (by first | exact ih .. | infer_instance) (by omega)

instance (s : Signature) (p : UInt64) :
    Orderly ctx b K S S (4 * s.parameters.length + 6) (s.code p) := by
  unfold Signature.code
  exact upto inferInstance (by omega)

end Orderly

namespace Image

variable {s : Settings} {i i' : Image} {d : MethodDescriptor} {isStatic : Bool}
  {signature : Signature} {handler : UInt64}

/-- The address is that of a handler for the signature. -/
structure Handler (i : Image) (signature : Signature) (handler : UInt64) : Prop where
  code : ∃ place q result, Lays ⟨i.code, place⟩ { settings := i.settings } true [] []
    (signature.code result) handler q ()
  present : handler ≠ 0

/-- The image was generated for the settings, and handlers have been added to it. -/
structure Extended (s : Settings) (i : Image) : Prop where
  generated : Generated s i
  entries : ∀ i₀, generate s = .ok i₀ → i.methodEntries = i₀.methodEntries
  ordered : i.code.Ordered
  above : Place.codeBase.toNat ≤ i.code.nextBase.toNat
  below : i.code.nextBase.toNat ≤ 0x50002000
  few : ∀ p ∈ i.signatures, p.1.parameters.length ≤ Signature.maxParameters
  handlers : ∀ p ∈ i.signatures, i.Handler p.1 p.2

/-- More code has been installed, with everything else as it was. -/
structure Grows (i i' : Image) : Prop where
  settings : i'.settings = i.settings
  fetches : ∀ p j, i.code.Fetches p j → i'.code.Fetches p j
  signatures : ∀ p ∈ i.signatures, p ∈ i'.signatures
  contains : i'.contains = i.contains
  tables : i'.normalTable = i.normalTable ∧ i'.safepointTable = i.safepointTable

theorem Grows.refl (i : Image) : Grows i i := ⟨rfl, fun _ _ h => h, fun _ h => h, rfl, rfl, rfl⟩

theorem Handler.grows (h : i.Handler signature handler) (grows : Grows i i') :
    i'.Handler signature handler := by
  obtain ⟨place, q, result, lay⟩ := h.code
  refine ⟨⟨place, q, result, ?_⟩, h.present⟩
  rw [grows.settings]
  exact lay.mono rfl grows.fetches

theorem nextBase_ge {c c' : CodeCache} {b : Blob} (ordered : c.Ordered) (fits : b.Fits)
    (h : c.install b = .ok c') : c.nextBase.toNat ≤ c'.nextBase.toNat := by
  obtain ⟨start, limit, rfl⟩ := CodeCache.install_eq h
  rw [ordered.limit] at limit
  rw [← start, CodeCache.baseAfter_of_le limit]
  unfold Blob.Fits at fits
  omega

theorem size_le_of_toBlob {α : Type} {ctx : CodeContext} {m : Emit α} {n : Nat} {name : String}
    {base : UInt64} {blob : Blob} {x : α} [Orderly ctx false [] [] [] n m]
    (hpop : ctx.popFrame = none) (h : Emit.toBlob name base ctx m = .ok (blob, x)) :
    blob.start = base ∧ blob.code.size ≤ n := by
  obtain ⟨blob', x', run, start, size⟩ := toBlob_ok (m := m) hpop name base
  rw [h] at run
  cases run
  exact ⟨start, size⟩

theorem toBlob_fits {α : Type} {ctx : CodeContext} {m : Emit α} {n : Nat} {name : String}
    {base : UInt64} {blob : Blob} {x : α} [Orderly ctx false [] [] [] n m]
    (hpop : ctx.popFrame = none) (hb : Emit.toBlob name base ctx m = .ok (blob, x))
    (hn : base.toNat + 4 * n < 2 ^ 64) : blob.start = base ∧ blob.Fits := by
  obtain ⟨start, size⟩ := size_le_of_toBlob hpop hb
  exact ⟨start, fits_of_start start (by omega)⟩

theorem nextBase_le_of_size {c c' : CodeCache} {b : Blob} {n : Nat} (ho : c.Ordered)
    (start : b.start = c.nextBase) (size : b.code.size ≤ n)
    (small : c.nextBase.toNat + 4 * n < 2 ^ 64)
    (h : c.install b = .ok c') : c'.nextBase.toNat ≤ c.nextBase.toNat + 4 * n + 0x2000 := by
  obtain ⟨-, limit, rfl⟩ := CodeCache.install_eq h
  have stop : b.stop.toNat = b.start.toNat + 4 * b.code.size := by
    rw [Blob.stop]
    exact Blob.address_toNat (by rw [start]; omega)
  rw [ho.limit] at limit
  rw [CodeCache.baseAfter_of_le limit, stop, start]
  omega

theorem extended_of_generate (h : generate s = .ok i) (pages : s.shadowPages.toNat < 2 ^ 54) :
    Extended s i := by
  obtain ⟨parts, laid⟩ := laid_of_generate h pages
  have fresh : i.signatures = [] := by
    unfold generate at h
    obtain ⟨_, -, h⟩ := ok_of_bind h
    obtain ⟨_, -, h⟩ := ok_of_bind h
    obtain ⟨_, -, h⟩ := ok_of_bind h
    obtain ⟨_, -, h⟩ := ok_of_bind h
    cases h
    rfl
  obtain ⟨stubBlob, c, blob, parts', h₁, h₂, h₃, h₄, -⟩ := generate_run h
  have small : Place.codeBase.toNat + 4 * 150 < 2 ^ 64 := by decide
  obtain ⟨-, fits⟩ := toBlob_fits rfl h₁ small
  obtain ⟨ordered, -⟩ := toBlob_lays rfl h₁ ordered_empty h₂ small
  obtain ⟨-, fits'⟩ := toBlob_fits rfl h₃ (bangs_lt pages _ (nextBase_le ordered_empty h₂) _ rfl)
  have first := nextBase_ge ordered_empty fits h₂
  have second := nextBase_ge ordered fits' h₄
  have base : (CodeCache.ofRange Place.codeBase Place.codeLimit).nextBase = Place.codeBase := rfl
  rw [base] at first
  refine ⟨generated_of_generate h pages, fun i₀ h₀ => ?_, laid.ordered, by omega,
    nextBase_le ordered h₄, ?_, ?_⟩
  · rw [h] at h₀
    cases h₀
    rfl
  · simp [fresh]
  · simp [fresh]

/-! ## A new handler -/

/-- Bytes that the code of a handler takes at most. -/
def handlerBytes : Nat := 4 * 30

/-- Behind the code that is generated there is room for handlers. -/
theorem room_of_generate {s : Settings} {i : Image} (h : generate s = .ok i)
    (hs : s.shadowPages.toNat ≤ 2 ^ 19) :
    i.code.nextBase.toNat + handlerBytes ≤ Place.codeLimit.toNat := by
  obtain ⟨stubBlob, c, blob, parts, h₁, h₂, h₃, h₄, -⟩ := generate_run h
  obtain ⟨start, size⟩ := size_le_of_toBlob rfl h₁
  obtain ⟨start', size'⟩ := size_le_of_toBlob rfl h₃
  obtain ⟨ordered, -⟩ := toBlob_lays rfl h₁ ordered_empty h₂ (by decide)
  have base : (CodeCache.ofRange Place.codeBase Place.codeLimit).nextBase.toNat = 0x40000000 := rfl
  have limit : Place.codeLimit.toNat = 0x50000000 := rfl
  have bytes : handlerBytes = 120 := rfl
  have bangs : Orderly.bangs { settings := s, forwardException := i.stubs.forwardException } =
    3 * s.shadowPages.toNat + 3 := rfl
  have next := nextBase_le_of_size ordered_empty start size (by decide) h₂
  have next' := nextBase_le_of_size ordered start' size' (by rw [bangs]; omega) h₄
  rw [bangs] at next'
  omega

/-- A signature with few parameters, as every native method has one that can be called. -/
theorem signature_few (h : Signature.ofDescriptor d isStatic = .ok signature) :
    d.parameters.length ≤ Signature.maxParameters ∧ signature = .shaped d isStatic := by
  unfold Signature.ofDescriptor at h
  split at h
  · cases h
  · next few =>
    cases h
    exact ⟨Nat.le_of_not_lt few, rfl⟩

/-- The blob of a handler is made of its stub. -/
theorem stub_of_blob {base result : UInt64} {settings : Settings} {blob : Blob}
    (made : signature.blob base settings result = .ok blob) :
    ∃ p, Emit.toBlob signature.blobName base { settings }
      (stub signature.blobName (signature.code result)) = .ok (blob, p, ()) := by
  unfold Signature.blob at made
  cases run : Emit.toBlob signature.blobName base { settings }
      (stub signature.blobName (signature.code result)) with
  | error e =>
    rw [run] at made
    cases made
  | ok x =>
    rw [run] at made
    cases made
    exact ⟨x.2.1, rfl⟩

/-- What becomes of an image when a handler is asked for. -/
structure Supplied (s : Settings) (i : Image) (signature : Signature) (handler : UInt64)
    (i' : Image) : Prop where
  grows : Grows i i'
  extended : Extended s i'
  kept : (signature, handler) ∈ i'.signatures

section
variable (h : Extended s i) (few : signature.parameters.length ≤ Signature.maxParameters)
  (result : UInt64)
include h few

omit h in
theorem handler_orderly (ctx : CodeContext) : Orderly ctx false [] [] [] 30
    (stub signature.blobName (signature.code result)) := by
  have parameters : signature.parameters.length ≤ 6 := few
  exact Orderly.upto inferInstance (by omega)

/-- A handler that is installed is one that can be called, and nothing else moves. -/
theorem Extended.add {blob : Blob} {c : CodeCache}
    (made : signature.blob i.code.nextBase i.settings result = .ok blob)
    (installed : i.code.install blob = .ok c) :
    Supplied s i signature blob.start
      { i with code := c, signatures := (signature, blob.start) :: i.signatures } := by
  have orderly := handler_orderly few result { settings := i.settings }
  have room : i.code.nextBase.toNat + 4 * 30 < 2 ^ 64 := by
    have := h.below
    omega
  obtain ⟨p, run⟩ := stub_of_blob made
  obtain ⟨start, fits⟩ := toBlob_fits rfl run room
  obtain ⟨ordered, place, lay⟩ := toBlob_lays rfl run h.ordered installed room
  have base := nextBase_ge h.ordered fits installed
  have above := h.above
  have code : Place.codeBase.toNat = 0x40000000 := rfl
  have orderly' : Orderly { settings := i.settings } true [] [] [] (4 * signature.parameters.length
    + 6) (signature.code result) := inferInstance
  have grows : Grows i
      { i with code := c, signatures := (signature, blob.start) :: i.signatures } :=
    ⟨rfl, fun p j => h.ordered.keeps installed, fun _ => List.mem_cons_of_mem _, rfl, rfl, rfl⟩
  obtain ⟨i₀, generated, settings, table, exceptions, fetches⟩ := h.generated.image
  refine ⟨grows, ⟨⟨⟨i₀, generated, settings, table, exceptions,
    fun p j hj => grows.fetches p j (fetches p j hj)⟩, h.generated.pages⟩, h.entries, ordered,
    Nat.le_trans above base, nextBase_le h.ordered installed, ?_, ?_⟩, List.mem_cons_self⟩
  · intro p hp
    rcases List.mem_cons.mp hp with rfl | hp
    · exact few
    · exact h.few p hp
  · intro p hp
    rcases List.mem_cons.mp hp with rfl | hp
    · refine ⟨⟨place, _, result, lay.stub.2⟩, fun (zero : blob.start = 0) => ?_⟩
      have start' : i.code.nextBase.toNat = 0 := by rw [← start, zero]; rfl
      omega
    · exact (h.handlers p hp).grows grows

/-- A handler is made where the code has room for one. -/
theorem Extended.make (room : i.code.nextBase.toNat + handlerBytes ≤ Place.codeLimit.toNat) :
    ∃ blob c, signature.blob i.code.nextBase i.settings result = .ok blob ∧
      i.code.install blob = .ok c := by
  have orderly := handler_orderly few result { settings := i.settings }
  obtain ⟨blob, x, run, start, size⟩ := toBlob_ok (m := stub signature.blobName
    (signature.code result)) (show CodeContext.popFrame { settings := i.settings } = none from rfl)
    signature.blobName i.code.nextBase
  obtain ⟨c, installed⟩ := install_ok h.ordered start size room
  exact ⟨blob, c, by rw [Signature.blob, run]; rfl, installed⟩

end

/-- A handler is one that the image keeps for the signature of the method, or it is added. -/
theorem signatureHandler_cases (run : i.signatureHandler d isStatic = .ok (handler, i')) :
    ∃ signature, Signature.ofDescriptor d isStatic = .ok signature ∧
      signature.parameters.length ≤ Signature.maxParameters ∧
      (i' = i ∧ (signature, handler) ∈ i.signatures ∨
        ∃ blob c, signature.blob i.code.nextBase i.settings (i.resultHandler d.result) = .ok blob ∧
          i.code.install blob = .ok c ∧ handler = blob.start ∧
          i' = { i with code := c, signatures := (signature, blob.start) :: i.signatures }) := by
  unfold signatureHandler at run
  obtain ⟨signature, described, run⟩ := ok_of_bind run
  obtain ⟨few, shape⟩ := signature_few described
  refine ⟨signature, described, shape ▸ by simpa [Signature.shaped] using few, ?_⟩
  cases found : i.signatures.find? (·.1 = signature) with
  | some p =>
    simp only [found] at run
    cases run
    have same : p.1 = signature := by simpa using List.find?_some found
    refine .inl ⟨rfl, ?_⟩
    rw [← same]
    exact List.mem_of_find?_eq_some found
  | none =>
    simp only [found] at run
    split at run
    · next added =>
      cases run
      obtain ⟨blob, made, added⟩ := ok_of_bind added
      obtain ⟨c, installed, added⟩ := ok_of_bind added
      cases added
      exact .inr ⟨blob, c, made, installed, rfl, rfl⟩
    · cases run

/-- The handler that is found or made is one of the signature of the method. -/
theorem Extended.of_signatureHandler (h : Extended s i)
    (run : i.signatureHandler d isStatic = .ok (handler, i')) :
    ∃ signature, Signature.ofDescriptor d isStatic = .ok signature ∧
      Supplied s i signature handler i' := by
  obtain ⟨signature, described, few, known | new⟩ := signatureHandler_cases run
  · obtain ⟨rfl, known⟩ := known
    exact ⟨signature, described, .refl i', h, known⟩
  · obtain ⟨blob, c, made, installed, rfl, rfl⟩ := new
    exact ⟨signature, described, h.add few _ made installed⟩

end Image

/-! ## Native entries -/

section
variable {F : Finished} {ctx : CodeContext} {K : List CodeLabel} {p q : UInt64}

theorem EntryKind.getElem?_all (kind : EntryKind) (other : kind ≠ .normal) :
    (EntryKind.all.drop 1)[kind.index - 1]? = some kind := by
  cases kind <;> first | rfl | exact absurd rfl other

/-- The entry that is listed for a kind is where the code for the kind is placed. -/
theorem Lays.methodEntries {stubs : Stubs} {objectHandler : UInt64} {entries : List UInt64}
    (h : Lays F ctx false K [] (Emit.methodEntries stubs objectHandler) p q entries)
    (kind : EntryKind) (other : kind ≠ .normal) :
    ∃ r t, Lays F ctx true K []
      (entryCode stubs objectHandler (entries.getD EntryKind.normal.index 0) kind) r t
        (entries.getD kind.index 0) := by
  unfold Emit.methodEntries at h
  obtain ⟨normal, r, -, h⟩ := h.split
  obtain ⟨rest, t, each, h⟩ := h.split
  obtain ⟨-, rfl⟩ := h.ended
  obtain ⟨entry, r', t', found, h⟩ := each.mapM.2 _ kind (kind.getElem?_all other)
  have index : (normal :: rest).getD kind.index 0 = entry := by
    have positive : kind.index = (kind.index - 1) + 1 := by
      cases kind <;> first | rfl | exact absurd rfl other
    rw [positive, List.getD_cons_succ, List.getD_eq_getElem?_getD, found]
    rfl
  unfold Emit.methodEntry at h
  obtain ⟨entry', t'', code, h⟩ := h.stub_bind
  obtain ⟨-, rfl⟩ := h.ended
  exact ⟨r', t'', index ▸ code⟩

end

namespace Image

variable {s : Settings} {i : Image}

/-- A native entry links its function at the address, and calls it then. -/
structure LinksAt (i : Image) (q : UInt64) : Prop where
  code : ∃ place ctx K S q₁ q₂ q₃, Lays ⟨i.code, place⟩ ctx true K S linkNative q q₁ () ∧
    Lays ⟨i.code, place⟩ ctx true K S passNativeArguments q₁ q₂ () ∧
    Lays ⟨i.code, place⟩ ctx true K S leaveMachine q₂ q₃ ()

/-- Moreover an exception of the linking goes on at the other address. -/
structure LinksOr (i : Image) (forward q : UInt64) : Prop where
  code : ∃ place ctx K S q₁ q₂ q₃, CodeContext.forwardException ctx = forward ∧
    Lays ⟨i.code, place⟩ ctx true K S linkNative q q₁ () ∧
    Lays ⟨i.code, place⟩ ctx true K S passNativeArguments q₁ q₂ () ∧
    Lays ⟨i.code, place⟩ ctx true K S leaveMachine q₂ q₃ ()

theorem LinksOr.linksAt {i : Image} {forward q : UInt64} (h : i.LinksOr forward q) :
    i.LinksAt q := by
  obtain ⟨place, ctx, K, S, q₁, q₂, q₃, -, code⟩ := h.code
  exact ⟨place, ctx, K, S, q₁, q₂, q₃, code⟩

theorem LinksOr.grows {i i' : Image} {forward q : UInt64} (h : i.LinksOr forward q)
    (grows : Grows i i') : i'.LinksOr forward q := by
  obtain ⟨place, ctx, K, S, q₁, q₂, q₃, goal, link, pass, leave⟩ := h.code
  exact ⟨place, ctx, K, S, q₁, q₂, q₃, goal, link.mono (G := ⟨i'.code, place⟩) rfl grows.fetches,
    pass.mono (G := ⟨i'.code, place⟩) rfl grows.fetches,
    leave.mono (G := ⟨i'.code, place⟩) rfl grows.fetches⟩

end Image

theorem Lays.nativeEntry {i : Image} {place : CodeLabel → UInt64} {ctx : CodeContext}
    {K : List CodeLabel} {p q entry objectHandler : UInt64} {synchronized : Bool}
    (h : Lays ⟨i.code, place⟩ ctx true K [] (Emit.nativeEntry synchronized objectHandler) p q
      entry) : ∃ r, i.LinksOr ctx.forwardException r := by
  unfold Emit.nativeEntry at h
  replace h := h.pc_bind
  obtain ⟨-, h⟩ := h.emit_bind
  obtain ⟨-, h⟩ := h.emit_bind
  obtain ⟨-, h⟩ := h.emit_bind
  obtain ⟨-, h⟩ := h.emit_bind
  obtain ⟨-, h⟩ := h.emit_bind
  obtain ⟨⟨⟩, _, -, h⟩ := h.split
  obtain ⟨overflow, h⟩ := h.newLabel_bind
  obtain ⟨continuation, h⟩ := h.newLabel_bind
  obtain ⟨⟨⟩, _, -, h⟩ := h.split
  obtain ⟨⟨⟩, _, -, h⟩ := h.split
  obtain ⟨⟨⟩, _, link, h⟩ := h.split
  obtain ⟨⟨⟩, _, pass, h⟩ := h.split
  obtain ⟨⟨⟩, _, leave, -⟩ := h.split
  exact ⟨_, place, ctx, _, _, _, _, _, rfl, link, pass, leave⟩

namespace Image

variable {s : Settings} {i : Image}

/-- The entry for a kind is where the code for the kind is placed, for the settings, with the normal
    entry of the image and with exceptions forwarded to where they are in generated code. -/
theorem Extended.entryLaid (h : Extended s i) (kind : EntryKind) (other : kind ≠ .normal) :
    ∃ place ctx K stubs objectHandler p q, CodeContext.settings ctx = s ∧
      (∀ i₀, generate s = .ok i₀ → ctx.forwardException = i₀.stubs.forwardException) ∧
      Lays ⟨i.code, place⟩ ctx true K []
        (Emit.entryCode stubs objectHandler (i.methodEntry .normal) kind) p q
        (i.methodEntry kind) := by
  obtain ⟨i₀, generated, -, -, -, fetches⟩ := h.generated.image
  obtain ⟨parts, laid⟩ := laid_of_generate generated h.generated.pages
  obtain ⟨place, l, lay⟩ := laid.interpreter
  obtain ⟨p, q, entries⟩ := (placed_of_lays lay).entries
  obtain ⟨r, t, code⟩ := entries.methodEntries kind other
  rw [← laid.methodEntries, ← h.entries i₀ generated] at code
  refine ⟨place, _, _, _, _, r, t, rfl, fun i₁ same => ?_,
    code.mono (G := ⟨i.code, place⟩) rfl fetches⟩
  cases generated.symm.trans same
  rfl

theorem Extended.entryCode (h : Extended s i) (kind : EntryKind) (other : kind ≠ .normal) :
    ∃ place ctx K stubs objectHandler p q, CodeContext.settings ctx = s ∧
      Lays ⟨i.code, place⟩ ctx true K []
        (Emit.entryCode stubs objectHandler (i.methodEntry .normal) kind) p q
        (i.methodEntry kind) := by
  obtain ⟨place, ctx, K, stubs, objectHandler, p, q, settings, -, code⟩ := h.entryLaid kind other
  exact ⟨place, ctx, K, stubs, objectHandler, p, q, settings, code⟩

/-- The native entries of an image link their functions. -/
theorem Extended.linksOr (h : Extended s i) {i₀ : Image} (generated : generate s = .ok i₀)
    (synchronized : Bool) : ∃ q, i.LinksOr i₀.stubs.forwardException q := by
  cases synchronized with
  | false =>
    obtain ⟨_, _, _, _, _, _, _, -, forward, code⟩ := h.entryLaid .native (by decide)
    exact forward i₀ generated ▸ code.nativeEntry
  | true =>
    obtain ⟨_, _, _, _, _, _, _, -, forward, code⟩ := h.entryLaid .nativeSynchronized (by decide)
    exact forward i₀ generated ▸ code.nativeEntry

theorem Extended.linksAt (h : Extended s i) (synchronized : Bool) : ∃ q, i.LinksAt q := by
  obtain ⟨i₀, generated, -⟩ := h.generated.image
  obtain ⟨q, links⟩ := h.linksOr generated synchronized
  exact ⟨q, links.linksAt⟩

end Image
end TemplateVm
