import TemplateVm.Proofs.Layout.Emission

set_option autoImplicit false

/-!
# Generated code is closed

Whatever the settings, code that has its place can be generated, and it leads nowhere but to
instructions and services: the targets of its branches, the constants that it branches to, its
tables and its entries. The handlers that are added later keep it so.
-/
namespace TemplateVm

open Assembly Aims

/-! ## Blobs -/

/-- The stubs lie one behind the other, from one address up to another. -/
inductive Stub.Span (p : UInt64) : List Stub → UInt64 → Prop
  | nil : Span p [] p
  | snoc {stubs : List Stub} {q : UInt64} {s : Stub} : Span p stubs q → s.start = q → q ≤ s.stop →
    Span p (stubs ++ [s]) s.stop

/-- Branches of the blob, direct ones and those to constants, go to known code, and all of its code
    is in stubs. -/
structure Blob.Closed (G : UInt64 → Prop) (b : Blob) : Prop where
  targets : ∀ i ∈ b.code, ∀ p, i.target? = some p → G p
  registers : ∀ (j : Nat) i r n, b.code[j]? = some i → i.register? = some r →
    Instruction.Carries b.code j r n → G n ∨ (Service.ofAddress? n).isSome
  marks : ∀ m ∈ b.marks, G m.2
  stubs : Stub.Span b.start b.stubs.toList b.stop

theorem Blob.Closed.mono {G G' : UInt64 → Prop} {b : Blob} (h : b.Closed G)
    (sub : ∀ p, G p → G' p) : b.Closed G' where
  targets i hi p hp := sub p (h.targets i hi p hp)
  registers j i r n hj hr carried := (h.registers j i r n hj hr carried).imp_left (sub n)
  marks m hm := sub m.2 (h.marks m hm)
  stubs := h.stubs

namespace Instruction

variable (place : CodeLabel → UInt64) (i : Instruction Target)

theorem target?_placed : (i.placed place).target? = i.target?.map (·.resolve place) := by
  cases i <;> rfl

theorem register?_placed : (i.placed place).register? = i.register? := by cases i <;> rfl

theorem constant?_placed : (i.placed place).constant? = i.constant? := by cases i <;> rfl

theorem renewed_placed : (i.placed place).renewed = i.renewed := by cases i <;> rfl

theorem eq_of_constant {τ : Type} {i : Instruction τ} {r : Register} {n : UInt64}
    (h : i.constant? = some (r, n)) : i = .movImm r n := by
  cases i <;> cases h
  rfl

end Instruction

namespace Assembly

variable {a : Assembly} {name : String} {blob : Blob} {G : UInt64 → Prop} {R : List Register}

/-- An instruction of finished code comes from one of the assembly. -/
theorem finish_get (h : a.finish name = .ok blob) {k : Nat} {i' : Instruction UInt64}
    (hk : blob.code[k]? = some i') : ∃ i, a.code[k]? = some i ∧ i' = i.placed a.places := by
  obtain ⟨-, size, code⟩ := finish_code h
  have lt : k < a.code.size := size ▸ (Array.getElem?_eq_some_iff.mp hk).1
  refine ⟨_, Array.getElem?_eq_getElem lt, ?_⟩
  exact Option.some.inj (hk.symm.trans (code k _ (Array.getElem?_eq_getElem lt)))

theorem finish_carries (h : a.finish name = .ok blob) {j : Nat} {r : Register} {n : UInt64}
    (carried : Instruction.Carries blob.code j r n) : Instruction.Carries a.code j r n := by
  obtain ⟨k, lt, put, kept⟩ := carried
  obtain ⟨i, hi, same⟩ := finish_get h put
  have constant : i.constant? = some (r, n) := by rw [← i.constant?_placed a.places, ← same]
  refine ⟨k, lt, (Instruction.eq_of_constant constant) ▸ hi, fun m above below x hx => ?_⟩
  have := kept m above below _ ((finish_code h).2.2 m x hx)
  rwa [Instruction.renewed_placed] at this

theorem finish_names (h : a.finish name = .ok blob) :
    blob.marks = a.marks ∧ blob.stubs = a.stubs := by
  unfold Assembly.finish at h
  split at h
  · cases h
  · obtain ⟨code, -, h⟩ := ok_of_bind h
    cases h
    exact ⟨rfl, rfl⟩

theorem Tiled.span {base : UInt64} {stubs : List Stub} {k : Nat} (h : Tiled base stubs k)
    (fits : base.toNat + 4 * k < 2 ^ 64) :
    Stub.Span base stubs (base + k.toUInt64 * Instruction.size) := by
  induction h with
  | nil => simpa using Stub.Span.nil
  | @snoc stubs j k name tiled le ih =>
    refine .snoc (ih (by omega)) rfl ?_
    rw [UInt64.le_iff_toNat_le]
    simp only [Blob.address_toNat fits, Blob.address_toNat (s := base) (k := j) (by omega)]
    omega

/-- Finished code is closed if the assembly is aimed and ends with an instruction. -/
theorem Aimed.closed (h : a.finish name = .ok blob) (complete : a.Complete)
    (aimed : Aimed G R false a) (lands : a.Lands G a.code.size)
    (code : ∀ k < a.code.size, G (a.address k))
    (fits : a.base.toNat + 4 * a.code.size < 2 ^ 64) : blob.Closed G := by
  have inside (p : UInt64) (hp : ∃ k < a.code.size, p = a.address k) : G p := by
    obtain ⟨k, lt, rfl⟩ := hp
    exact code k lt
  obtain ⟨start, size, -⟩ := finish_code h
  obtain ⟨marks, stubs⟩ := finish_names h
  refine ⟨fun i' hi' p hp => ?_, fun j i' r n hj hr carried => ?_, fun m hm => ?_, ?_⟩
  · obtain ⟨k, hk⟩ := Array.mem_iff_getElem?.mp hi'
    obtain ⟨i, hi, rfl⟩ := finish_get h hk
    have mem : i ∈ a.code := Array.mem_of_getElem? hi
    rw [Instruction.target?_placed, Option.map_eq_some_iff] at hp
    obtain ⟨t, ht, rfl⟩ := hp
    cases t with
    | address p => exact (lands.targets i mem p ht).elim id (inside p)
    | pending l =>
      obtain ⟨p, bound⟩ := Option.isSome_iff_exists.mp (complete.bound i mem l ht)
      rw [Target.resolve, places, bound]
      exact inside p (lands.labels l.id p (Option.join_eq_some_iff.mp bound))
  · obtain ⟨i, hi, rfl⟩ := finish_get h hj
    rw [Instruction.register?_placed] at hr
    exact aimed.registers j i r n hi hr (finish_carries h carried)
  · exact inside m.2 (lands.marks m (marks ▸ hm))
  · rw [stubs, Blob.stop, start, size]
    exact (aimed.outside rfl).2.span fits

end Assembly

/-! ## Signature handlers -/

/-- Code in which there is no constant but the given one. -/
class Sole (ctx : CodeContext) (n : UInt64) {α : Type} (m : Emit α) : Prop where
  sole : ∀ a x a', m ctx a = .ok x a' →
    ∀ i ∈ a'.code, i ∈ a.code ∨ ∀ r k, i.constant? = some (r, k) → k = n

namespace Sole

open Orderly (Absent)

variable {ctx : CodeContext} {n : UInt64} {α β : Type}

instance (x : α) : Sole ctx n (pure x : Emit α) where
  sole a y a' run i hi := by
    cases run
    exact .inl hi

instance (m : Emit α) (f : α → Emit β) [hm : Sole ctx n m] [hf : ∀ x, Sole ctx n (f x)] :
    Sole ctx n (m >>= f) where
  sole a y a' run i hi := by
    obtain ⟨x, a₁, first, rest⟩ := run_of_bind run
    exact ((hf x).sole a₁ y a' rest i hi).elim (hm.sole a x a₁ first i) .inr

instance (i : Instruction Target) [h : Absent i.constant?] : Sole ctx n (Emit.emit i) where
  sole a x a' run j hj := by
    cases run
    rcases Array.mem_push.mp hj with hj | rfl
    · exact .inl hj
    · exact .inr fun r k hk => by simp [h.absent] at hk

instance (r : Register) : Sole ctx n (Emit.emit (.movImm r n)) where
  sole a x a' run j hj := by
    cases run
    rcases Array.mem_push.mp hj with hj | rfl
    · exact .inl hj
    · exact .inr fun k m hm => by cases hm; rfl

instance (c : Prop) [Decidable c] (m m' : Emit α) [h : Sole ctx n m] [h' : Sole ctx n m'] :
    Sole ctx n (if c then m else m') := by
  split
  · exact h
  · exact h'

instance (index : UInt64) (r : Register) : Sole ctx n (Signature.passObject index r) := by
  unfold Signature.passObject; infer_instance

instance (index : UInt64) (words : List Register) (floats : List FloatRegister)
    (ts : List TypeTag) : Sole ctx n (Signature.passParameters index words floats ts) := by
  induction ts generalizing index words floats with
  | nil => exact (inferInstance : Sole ctx n (pure ()))
  | cons t ts ih =>
    unfold Signature.passParameters
    cases t <;> cases words <;> cases floats <;> first | exact ih .. | infer_instance

instance (s : Signature) : Sole ctx n (s.code n) := by unfold Signature.code; infer_instance

end Sole

/-! ## The image -/

theorem CodeCache.Has.keeps {c c' : CodeCache} (keeps : ∀ p i, c.Fetches p i → c'.Fetches p i)
    (p : UInt64) (h : c.Has p) : c'.Has p :=
  let ⟨i, fetch⟩ := h
  ⟨i, keeps p i fetch⟩

theorem Stubs.Have.mono {stubs : Stubs} {G G' : UInt64 → Prop} (h : stubs.Have G)
    (sub : ∀ p, G p → G' p) : stubs.Have G' :=
  ⟨sub _ h.callStub, sub _ h.callStubReturn, sub _ h.catchException, sub _ h.forwardException,
    sub _ h.throwStackOverflow, sub _ h.throwAbstractMethod, sub _ h.throwNullPointer⟩

theorem ExceptionEntries.Have.mono {e : ExceptionEntries} {G G' : UInt64 → Prop} (h : e.Have G)
    (sub : ∀ p, G p → G' p) : e.Have G' :=
  ⟨sub _ h.rethrow, sub _ h.throwException, sub _ h.removeActivation, sub _ h.popFrame,
    sub _ h.throwStackOverflow, sub _ h.throwArrayIndex, sub _ h.throwClassCast,
    sub _ h.throwArithmetic, sub _ h.throwNullPointer⟩

/-- A word of a table is an entry of an opcode, or the one of bytes that are none. -/
theorem DispatchTable.mem_words {entry : Opcode → EntryPoint} {otherwise : EntryPoint}
    {G : UInt64 → Prop} (opcodes : ∀ o tos, G ((entry o).get tos))
    (others : ∀ tos, G (otherwise.get tos)) : ∀ w ∈ (ofOpcodes entry otherwise).words, G w := by
  intro w hw
  obtain ⟨tos, -, hw⟩ := List.mem_flatMap.mp hw
  obtain ⟨row, hrow, rfl⟩ := List.mem_map.mp hw
  obtain ⟨k, rfl⟩ := Array.mem_ofFn.mp (Array.mem_toList_iff.mp hrow)
  cases Opcode.ofByte? k.val.toUInt8 with
  | none => exact others tos
  | some o => exact opcodes o tos

namespace Image

/-- Whatever the image leads to is one of its instructions. None is at zero, and no service is. -/
structure Closed (i : Image) : Prop where
  absent : ¬ i.code.Has 0 ∧ Service.ofAddress? 0 = none
  blobs : ∀ b ∈ i.code.blobs, b.Closed i.code.Has
  stubs : i.stubs.Have i.code.Has
  exceptions : i.exceptions.Have i.code.Has
  methodEntries : ∀ kind, i.code.Has (i.methodEntry kind)
  returnTable : (i.callReturns ++ i.siteReturns).length = 20 ∧
    ∀ p ∈ i.callReturns ++ i.siteReturns, i.code.Has p
  normalTable : ∀ p ∈ i.normalTable.words, i.code.Has p
  safepointTable : ∀ p ∈ i.safepointTable.words, i.code.Has p
  resultHandlers : ∀ t, i.code.Has (i.resultHandler t)
  errors : i.code.Has i.illegalSequence ∧ i.code.Has i.unimplementedBytecode
  signatures : ∀ p ∈ i.signatures, i.code.Has p.2 ∧ ∃ b ∈ i.code.blobs, b.start = p.2 ∧
    ∀ r n, .movImm r n ∈ b.code → i.code.Has n

/-- The image has been extended by handlers for native methods. -/
inductive Extends (i : Image) : Image → Prop
  | refl : Extends i i
  | add {i' i'' : Image} {d : MethodDescriptor} {isStatic : Bool} {handler : UInt64} :
    Extends i i' → i'.signatureHandler d isStatic = .ok (handler, i'') → Extends i i''

/-- All blobs are in the range of code, in which there is room for more. -/
structure Ranged (c : CodeCache) : Prop where
  ordered : c.Ordered
  above : Place.codeBase.toNat ≤ c.nextBase.toNat
  below : c.nextBase.toNat ≤ 0x50002000
  starts : ∀ b ∈ c.blobs, Place.codeBase ≤ b.start

end Image

/-! ### What is installed -/

section
variable {α : Type} {ctx : CodeContext} {R : List Register} {m : Emit α} {n : Nat} {name : String}
  {base : UInt64} {blob : Blob} {x : α} {c c' : CodeCache}

/-- The code of a blob that has been installed. -/
theorem Emitted.of_toBlob [Orderly ctx false [] [] [] n m] (hpop : ctx.popFrame = none)
    (made : Emit.toBlob name base ctx m = .ok (blob, x)) (ordered : c.Ordered)
    (installed : c.install blob = .ok c') (room : base.toNat + 4 * blob.code.size < 2 ^ 64) :
    ∃ a, Emitted ⟨c', a.places⟩ R ctx false [] [] m { base } a x ∧ a.finish name = .ok blob ∧
      ((Aimed c'.Has R false a ∧ a.Lands c'.Has a.code.size) → blob.Closed c'.Has) := by
  obtain ⟨-, a, run, finish, grown, within⟩ := toBlob_within hpop made ordered installed room
  obtain ⟨start, size, -⟩ := finish_code finish
  refine ⟨a, ⟨ready_nil ctx base hpop, run, within, aimed_nil _ R base⟩, finish, fun h => ?_⟩
  exact h.1.closed finish (grown_complete grown) h.2 (Emitted.code within)
    (by rw [grown.base, ← size]; exact room)

end

/-- The only constant of a handler is the result handler. -/
theorem Emitted.sole {F : Finished} {R : List Register} {ctx : CodeContext} {K S : List CodeLabel}
    {base result : UInt64} {signature : Signature} {a : Assembly} {x : UInt64 × Unit}
    {name : String} {blob : Blob}
    (h : Emitted F R ctx false K S (Emit.stub name (signature.code result)) { base } a x)
    (finish : a.finish name = .ok blob) {r : Register} {n : UInt64}
    (mem : .movImm r n ∈ blob.code) : n = result := by
  obtain ⟨k, hk⟩ := Array.mem_iff_getElem?.mp mem
  obtain ⟨i, hi, same⟩ := finish_get finish hk
  obtain ⟨a₁, a₂, -, -, empty, body, code, -⟩ := Aims.of_stub h.aimed h.run
  have constant : i.constant? = some (r, n) := by rw [← i.constant?_placed a.places, ← same]
  have mem : i ∈ a₂.code := code ▸ Array.mem_of_getElem? hi
  rcases Sole.sole (n := result) _ _ _ body i mem with before | only
  · simp [empty] at before
  · exact only r n constant

namespace Image

theorem Ranged.absent {c : CodeCache} (h : Ranged c) : ¬ c.Has 0 := by
  rintro ⟨i, found, -⟩
  obtain ⟨b, hb, -⟩ := Option.bind_eq_some_iff.mp found
  obtain ⟨mem, contains⟩ := CodeCache.mem_of_blobOf? hb
  have first : b.start ≤ 0 := by
    simp only [Blob.contains, Bool.and_eq_true, decide_eq_true_eq] at contains
    exact contains.1
  exact absurd (UInt64.le_trans (h.starts b mem) first) (by decide)

theorem Ranged.install {c c' : CodeCache} {b : Blob} (h : Ranged c)
    (installed : c.install b = .ok c') (room : c.nextBase.toNat + 4 * b.code.size < 2 ^ 64) :
    Ranged c' := by
  obtain ⟨start, -, pushed⟩ := CodeCache.install_eq installed
  have fits : b.Fits := fits_of_start start room
  refine ⟨h.ordered.install installed fits,
    Nat.le_trans h.above (nextBase_ge h.ordered fits installed), nextBase_le h.ordered installed,
    fun b' hb' => ?_⟩
  rw [pushed] at hb'
  rcases Array.mem_push.mp hb' with hb' | rfl
  · exact h.starts b' hb'
  · rw [start, UInt64.le_iff_toNat_le]
    exact h.above

theorem ranged_empty : Ranged (CodeCache.ofRange Place.codeBase Place.codeLimit) :=
  ⟨ordered_empty, Nat.le_refl _, by decide, by simp [CodeCache.ofRange]⟩

/-- An image that is closed and has its code in range. -/
structure Sound (i : Image) : Prop where
  closed : i.Closed
  ranged : Ranged i.code

/-- The code of the interpreter leaves room below the limit. -/
def Fits (s : Settings) : Prop :=
  ∀ stubBlob stubs c blob parts,
    Emit.toBlob "stubs" Place.codeBase { settings := s } Stubs.all = .ok (stubBlob, stubs) →
    (CodeCache.ofRange Place.codeBase Place.codeLimit).install stubBlob = .ok c →
    Emit.toBlob "interpreter" c.nextBase
      { settings := s, forwardException := stubs.forwardException } (interpreter stubs) =
      .ok (blob, parts) →
    c.nextBase.toNat + 4 * blob.code.size ≤ Place.codeLimit.toNat

theorem emitted_interpreter {F : Finished} {s : Settings} {stubs : Stubs} {a a' : Assembly}
    {parts : Parts} (have_stubs : stubs.Have F.code.Has)
    (h : Emitted F handed { settings := s, forwardException := stubs.forwardException } false [] []
      (interpreter stubs) a a' parts) :
    Aimed F.code.Has handed false a' ∧ a'.Lands F.code.Has a'.code.size ∧
      parts.Have F.code.Has := by
  obtain ⟨l, a₁, first, rest⟩ := run_of_bind h.run
  cases first
  have : Code F.code.Has (context s stubs ⟨a.labels.size⟩).forwardException :=
    ⟨have_stubs.forwardException⟩
  have : Throwing F.code.Has stubs := ⟨have_stubs.throwStackOverflow,
    have_stubs.throwAbstractMethod, have_stubs.throwNullPointer⟩
  have labels : Aims F.code.Has handed false (context s stubs ⟨a.labels.size⟩)
      Emit.newLabel := inferInstance
  have labelled : Aimed F.code.Has handed false a.newLabel.2 := (labels.aims a _ _ h.aimed rfl).1
  have emitted : Emitted F handed (context s stubs ⟨a.labels.size⟩) false [⟨a.labels.size⟩]
      [⟨a.labels.size⟩] (Image.parts stubs ⟨a.labels.size⟩) a.newLabel.2 a' parts :=
    ⟨Orderly.ready_popFrame (Orderly.ready_newLabel h.ready), rest, h.within, labelled⟩
  exact emitted.parts

/-! ### Generation -/

section
variable {parts : Parts} {G : UInt64 → Prop}

theorem Parts.Have.otherwise (h : parts.Have G) (tos : TopOfStack) :
    G ((EntryPoint.uniform parts.unimplementedBytecode).get tos) := by
  rw [EntryPoint.get_uniform]
  exact h.unimplementedBytecode

/-- The entries for returns to calls of either length make one table. -/
theorem Parts.Have.returnTable (h : parts.Have G) :
    (parts.callReturns ++ parts.siteReturns).length = 20 ∧
      ∀ p ∈ parts.callReturns ++ parts.siteReturns, G p := by
  obtain ⟨calls, calls_have⟩ := h.callReturns
  obtain ⟨sites, sites_have⟩ := h.siteReturns
  exact ⟨by rw [List.length_append, calls, sites],
    fun p hp => (List.mem_append.mp hp).elim (calls_have p) (sites_have p)⟩

theorem Parts.Have.resultHandler (h : parts.Have G) (t : TypeTag) :
    G (parts.resultHandlers.getD t.resultHandlerIndex 0) := by
  obtain ⟨length, handlers_have⟩ := h.resultHandlers
  have index : t.resultHandlerIndex < parts.resultHandlers.length := by
    rw [length]
    cases t <;> decide
  rw [List.getD_eq_getElem?_getD, List.getElem?_eq_getElem index]
  exact handlers_have _ (List.getElem_mem index)

/-- An opcode has the entries of its template. -/
theorem Parts.Have.template (h : parts.Have G) (o : Opcode) (tos : TopOfStack) :
    G (EntryPoint.get (((parts.templates.find? (·.1 = o)).map (·.2)).getD
      (.uniform parts.unimplementedBytecode)) tos) := by
  obtain ⟨entry, found, code⟩ := h.templates o
  rw [found]
  exact code tos

end

variable {s : Settings}

/-- Where the code fits, it can be generated. -/
theorem generate_of_fits (fits : Fits s) : ∃ i, generate s = .ok i := by
  obtain ⟨stubBlob, stubs, h₁, start, size⟩ :=
    toBlob_ok (m := Stubs.all) (show CodeContext.popFrame { settings := s } = none from rfl)
      "stubs" Place.codeBase
  have base : (CodeCache.ofRange Place.codeBase Place.codeLimit).nextBase = Place.codeBase := rfl
  have bytes : Place.codeBase.toNat = 0x40000000 := rfl
  obtain ⟨c, h₂⟩ := install_ok ordered_empty start size (by decide)
  obtain ⟨blob, parts, h₃, start', -⟩ :=
    toBlob_ok (m := interpreter stubs)
      (show CodeContext.popFrame
        { settings := s, forwardException := stubs.forwardException } = none from rfl)
      "interpreter" c.nextBase
  have ordered := (ranged_empty.install h₂ (by rw [base]; omega)).ordered
  obtain ⟨c', h₄⟩ :=
    install_ok ordered start' (Nat.le_refl _) (fits stubBlob stubs c blob parts h₁ h₂ h₃)
  exact ⟨_, (bind_of_ok h₁).trans <| (bind_of_ok h₂).trans <| (bind_of_ok h₃).trans <|
    (bind_of_ok h₄).trans rfl⟩

/-- Generated code is closed: the stubs are by themselves, then the interpreter with them. -/
theorem sound_of_generate (fits : Fits s) {i : Image} (h : generate s = .ok i) : i.Sound := by
  unfold generate at h
  obtain ⟨⟨stubBlob, stubs⟩, h₁, h⟩ := ok_of_bind h
  obtain ⟨c, h₂, h⟩ := ok_of_bind h
  obtain ⟨⟨blob, parts⟩, h₃, h⟩ := ok_of_bind h
  obtain ⟨c', h₄, h⟩ := ok_of_bind h
  have room := fits stubBlob stubs c blob parts h₁ h₂ h₃
  have limit : Place.codeLimit.toNat = 0x50000000 := rfl
  have bytes : Place.codeBase.toNat = 0x40000000 := rfl
  have small : Place.codeBase.toNat + 4 * stubBlob.code.size < 2 ^ 64 := by
    have := (size_le_of_toBlob rfl h₁).2
    omega
  have ranged := ranged_empty.install h₂ small
  have ranged' := ranged.install h₄ (by omega)
  obtain ⟨a, stubsRun, -, stubsClosed⟩ :=
    Emitted.of_toBlob (R := passed) rfl h₁ ordered_empty h₂ small
  obtain ⟨aimed, lands, have_stubs⟩ := stubsRun.stubs
  have sub := CodeCache.Has.keeps fun p i => ranged.ordered.keeps h₄ (p := p) (i := i)
  have have_stubs' := have_stubs.mono sub
  obtain ⟨a', interpreterRun, -, interpreterClosed⟩ :=
    Emitted.of_toBlob (R := handed) rfl h₃ ranged.ordered h₄ (by omega)
  obtain ⟨aimed', lands', have_parts⟩ := emitted_interpreter have_stubs' interpreterRun
  have blobs : ∀ b ∈ c'.blobs, b.Closed c'.Has := by
    obtain ⟨-, -, pushed⟩ := CodeCache.install_eq h₂
    obtain ⟨-, -, pushed'⟩ := CodeCache.install_eq h₄
    intro b hb
    have hb : b ∈ #[stubBlob, blob] := by simpa [pushed', pushed, CodeCache.ofRange] using hb
    rcases (by simpa using hb : b = stubBlob ∨ b = blob) with rfl | rfl
    · exact (stubsClosed ⟨aimed, lands⟩).mono sub
    · exact interpreterClosed ⟨aimed', lands'⟩
  cases h
  exact ⟨⟨⟨ranged'.absent, by decide⟩, blobs, have_stubs', have_parts.exceptions,
    have_parts.methodEntries, have_parts.returnTable,
    DispatchTable.mem_words have_parts.template have_parts.otherwise,
    DispatchTable.mem_words (fun _ => have_parts.safepoints) have_parts.otherwise,
    have_parts.resultHandler, ⟨have_parts.illegalSequence, have_parts.unimplementedBytecode⟩,
    by simp⟩, ranged'⟩

section
variable {i : Image} {signature : Signature} {blob : Blob} {c : CodeCache} {t : TypeTag}

/-- A new handler leads to a result handler only. -/
theorem Sound.add (h : i.Sound) (few : signature.parameters.length ≤ Signature.maxParameters)
    (made : signature.blob i.code.nextBase i.settings (i.resultHandler t) = .ok blob)
    (installed : i.code.install blob = .ok c) :
    Sound { i with code := c, signatures := (signature, blob.start) :: i.signatures } ∧
      c.Has blob.start := by
  let ctx : CodeContext := { settings := i.settings }
  have orderly := handler_orderly few (i.resultHandler t) ctx
  obtain ⟨p, run⟩ := stub_of_blob made
  have room : i.code.nextBase.toNat + 4 * blob.code.size < 2 ^ 64 := by
    have size := (size_le_of_toBlob rfl run).2
    have below := h.ranged.below
    omega
  obtain ⟨a, emitted, finish, closed⟩ :=
    Emitted.of_toBlob (R := handed) rfl run h.ranged.ordered installed room
  have sub := CodeCache.Has.keeps fun p j =>
    h.ranged.ordered.keeps installed (p := p) (i := j)
  have code : c.Has blob.start := by
    obtain ⟨start, -⟩ := size_le_of_toBlob rfl run
    obtain ⟨first, -⟩ := emitted.lays.stub
    have here : p = i.code.nextBase := by simpa [Assembly.pc] using first
    rw [start, ← here]
    exact emitted.lays.stub_have
  have pushed : c.blobs = i.code.blobs.push blob := by
    obtain ⟨-, -, rfl⟩ := CodeCache.install_eq installed
    rfl
  have aimed : Aimed c.Has handed false a := emitted.aims.1
  have lands : a.Lands c.Has a.code.size := (Closes.closes _ _ _ emitted.aimed emitted.run).1
  have ranged := h.ranged.install installed room
  refine ⟨⟨⟨⟨ranged.absent, h.closed.absent.2⟩, fun b hb => ?_, h.closed.stubs.mono sub,
    h.closed.exceptions.mono sub, fun kind => sub _ (h.closed.methodEntries kind),
    ⟨h.closed.returnTable.1, fun p hp => sub p (h.closed.returnTable.2 p hp)⟩,
    fun p hp => sub p (h.closed.normalTable p hp),
    fun p hp => sub p (h.closed.safepointTable p hp), fun t => sub _ (h.closed.resultHandlers t),
    h.closed.errors.imp (sub _) (sub _), fun p hp => ?_⟩, ranged⟩, code⟩
  · rcases Array.mem_push.mp (pushed ▸ hb) with hb | rfl
    · exact (h.closed.blobs b hb).mono sub
    · exact closed ⟨aimed, lands⟩
  · rcases List.mem_cons.mp hp with rfl | hp
    · refine ⟨code, blob, pushed ▸ Array.mem_push_self, rfl, fun r n hn => ?_⟩
      rw [emitted.sole finish hn]
      exact sub _ (h.closed.resultHandlers t)
    · obtain ⟨known, b, hb, start, constants⟩ := h.closed.signatures p hp
      exact ⟨sub _ known, b, pushed ▸ Array.mem_push_of_mem _ hb, start,
        fun r n hn => sub n (constants r n hn)⟩

end

/-- A handler for a native method keeps the image closed, whatever its signature is. -/
theorem Sound.signatureHandler {i i' : Image} (h : i.Sound) {d : MethodDescriptor} {isStatic : Bool}
    {handler : UInt64} (run : i.signatureHandler d isStatic = .ok (handler, i')) :
    i'.Sound ∧ i'.code.Has handler := by
  obtain ⟨signature, -, few, ⟨rfl, known⟩ | ⟨blob, c, made, installed, rfl, rfl⟩⟩ :=
    signatureHandler_cases run
  · exact ⟨h, (h.closed.signatures _ known).1⟩
  · exact h.add few made installed

theorem Sound.extends {i i' : Image} (h : i.Sound) (more : i.Extends i') : i'.Sound := by
  induction more with
  | refl => exact h
  | add _ run ih => exact (ih.signatureHandler run).1

/-- The code has its place for all numbers of shadow pages that a stack can have. -/
theorem fits_of_pages (pages : s.shadowPages.toNat ≤ 2 ^ 19) : Fits s := by
  intro stubBlob stubs c blob parts h₁ h₂ h₃
  obtain ⟨start, size⟩ := size_le_of_toBlob rfl h₁
  obtain ⟨-, size'⟩ := size_le_of_toBlob rfl h₃
  have base : (CodeCache.ofRange Place.codeBase Place.codeLimit).nextBase.toNat = 0x40000000 := rfl
  have limit : Place.codeLimit.toNat = 0x50000000 := rfl
  have bangs : Orderly.bangs { settings := s, forwardException := stubs.forwardException } =
    3 * s.shadowPages.toNat + 3 := rfl
  have next := nextBase_le_of_size ordered_empty start size (by decide) h₂
  rw [bangs] at size'
  omega

/-- Whatever the settings are, code that fits is generated, and it is closed, along with the
    handlers of native methods that are added to it. -/
theorem generate_closed (fits : Fits s) :
    ∃ i, generate s = .ok i ∧ ∀ i', i.Extends i' → i'.Closed ∧
      ∀ d isStatic handler i'', i'.signatureHandler d isStatic = .ok (handler, i'') →
        i''.code.Has handler := by
  obtain ⟨i, generated⟩ := generate_of_fits fits
  refine ⟨i, generated, fun i' more => ?_⟩
  have sound := (sound_of_generate fits generated).extends more
  exact ⟨sound.closed, fun _ _ _ _ run => (sound.signatureHandler run).2⟩

theorem generate_closed_tracing :
    Fits { traceBytecodes := true } ∧ ∃ i, generate { traceBytecodes := true } = .ok i ∧
      ∀ i', i.Extends i' → i'.Closed ∧
        ∀ d isStatic handler i'', i'.signatureHandler d isStatic = .ok (handler, i'') →
          i''.code.Has handler :=
  have fits : Fits { traceBytecodes := true } := fits_of_pages (by decide)
  ⟨fits, generate_closed fits⟩

end Image
end TemplateVm
