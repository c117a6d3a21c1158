import TemplateVm.Proofs.Activation.Linked
import TemplateVm.Proofs.Activation.Places
import TemplateVm.Proofs.Templates.Constants

set_option autoImplicit false
set_option synthInstance.maxSize 100000

/-!
# The template for casts

The walk up the superclasses visits the lineage of the object's class, and so comes to the record of
every class that the object is an instance of.
-/
namespace TemplateVm

open Memory (Guarded load)
open Bytecode (Operation)
open Guest Emit Template

variable {P : Vm → Prop} {turns : Nat} {v : Vm} {q q' : UInt64} {c : Cpu} {m : Guarded}
  {a : Activation} {b : Program} {s : Settings} {bcp p : UInt64} {x x' : Contents}
  {e : ExceptionEntries} {op : Operation} {id target : ClassId} {place : CodeLabel → UInt64}
  {ctx : CodeContext} {inStub : Bool} {K S : List CodeLabel}

/-- The record of an object's class is loaded. -/
theorem Stands.runClassRecord {r : UInt64} {o : Object} {rd object : Register}
    (h : Stands a b bcp p x v c m) (hr : x.heap r = some o) (base : c.reg object = r)
    (fetch : v.image.code.Fetches q
      (.load rd (.base object Memory.ObjectShape.classRecord) .double false))
    (next : Vm.Arrives P turns
      (v.moved (q + 4) (c.setReg rd (b.classes.get o.classId).address) m)) :
    Vm.Arrives P (turns + 1) (v.moved q c m) := by
  obtain ⟨ok, record⟩ := h.classRecord hr
  exact .loadAt base fetch rfl ok record next

/-- The code at `walk` goes up the superclasses of the record in `x2` until it is that in `x1`. -/
structure Walks (F : Finished) (walk out : UInt64) : Prop where
  compare : F.code.Fetches walk (.compare .x2 (.reg .x1))
  found : F.code.Fetches (walk + 4) (.branchIf .eq out)
  super : F.code.Fetches (walk + 4 + 4) (.load .x2 (.base .x2 ClassRecord.super) .double false)
  again : F.code.Fetches (walk + 4 + 4 + 4) (.branchNonzero .x2 walk)

namespace ClassTable

variable {t : ClassTable}

theorem isSubclass_super (h : t.isSubclass id target = true) (other : id ≠ target) :
    ∃ super, (t.get id).superId = some super ∧ super < id ∧ t.isSubclass super target = true := by
  unfold isSubclass at h
  rw [lineage, List.contains_cons] at h
  cases up : (t.get id).superId with
  | none =>
    simp [up, other.symm] at h
  | some super =>
    by_cases before : super < id
    · refine ⟨super, rfl, before, ?_⟩
      simpa [up, before, other.symm, isSubclass] using h
    · simp [up, before, other.symm] at h

/-- What is no subclass of a class has no superclass that is one. -/
theorem not_isSubclass_super {super : ClassId} (h : t.isSubclass id target = false)
    (up : (t.get id).superId = some super) (before : super < id) :
    id ≠ target ∧ t.isSubclass super target = false := by
  unfold isSubclass at h ⊢
  rw [lineage, List.contains_cons, up, Bool.or_eq_false_iff] at h
  obtain ⟨other, rest⟩ := h
  refine ⟨fun same => ?_, ?_⟩
  · rw [same, beq_self_eq_true] at other
    cases other
  · simpa [before] using rest

theorem length_lineage_super {super : ClassId} (up : (t.get id).superId = some super)
    (before : super < id) : (t.lineage id).length = (t.lineage super).length + 1 := by
  rw [lineage, up]
  simp only [before, ↓reduceIte, List.length_cons]

/-- A lineage has the class itself, and besides it classes with smaller numbers only. -/
theorem exists_length_lineage (t : ClassTable) (id : ClassId) :
    ∃ n ≤ id, (t.lineage id).length = n + 1 := by
  induction id using Nat.strongRecOn with
  | ind id ih =>
    rw [lineage]
    cases (t.get id).superId with
    | none => exact ⟨0, Nat.zero_le id, rfl⟩
    | some super =>
      by_cases before : super < id
      · obtain ⟨n, le, length⟩ := ih super before
        simp only [before, ↓reduceIte, List.length_cons, length]
        exact ⟨n + 1, Nat.lt_of_le_of_lt le before, rfl⟩
      · simp only [before, ↓reduceIte]
        exact ⟨0, Nat.zero_le id, rfl⟩

theorem isSubclass_self (t : ClassTable) (id : ClassId) : t.isSubclass id id = true := by
  rw [isSubclass, lineage, List.contains_cons, beq_self_eq_true, Bool.true_or]

/-- The records of the classes lead up to one without a superclass, and never to that of a class
    that is not on the way. -/
structure Rooted (t : ClassTable) (m : Guarded) (target : ClassId) : Prop where
  below : ∀ id < t.size, ∀ super, (t.get id).superId = some super → super < id
  root : ∀ id < t.size, (t.get id).superId = none → load m.bytes (t.get id).address.toNat 8 = 0
  distinct : ∀ id < t.size, (t.get id).address = (t.get target).address → id = target

theorem Rooted.agrees {a : Activation} {m' : Guarded} (h : t.Rooted m target)
    (recorded : ∀ id < t.size, a.Recorded t m' id) (same : m.Agrees m' 0x20000 a.heap.toNat) :
    t.Rooted m' target where
  below := h.below
  root id known none :=
    (same.load (recorded id known).above (recorded id known).below).trans (h.root id known none)
  distinct := h.distinct

end ClassTable

/-- At a class of the walk: it is the one that is looked for, or the walk goes on with its
    superclass, or it has none. -/
theorem Stands.runWalkStep {F : Finished} {walk out super : UInt64} (code : F.code = v.image.code)
    (w : Walks F walk out) (h : Stands a b bcp p x v c m) (known : id < b.classes.size)
    (x2 : c.reg .x2 = (b.classes.get id).address)
    (holds : load m.bytes (b.classes.get id).address.toNat 8 = super)
    (found : (b.classes.get id).address = c.reg .x1 → ∀ c', Stands a b bcp p x v c' m →
      Vm.Arrives P turns (v.moved out c' m))
    (up : (b.classes.get id).address ≠ c.reg .x1 → super ≠ 0 → ∀ c', Stands a b bcp p x v c' m →
      c'.reg .x2 = super → c'.reg .x1 = c.reg .x1 → Vm.Arrives P turns (v.moved walk c' m))
    (last : (b.classes.get id).address ≠ c.reg .x1 → super = 0 → ∀ c', Stands a b bcp p x v c' m →
      Vm.Arrives P turns (v.moved (walk + 4 + 4 + 4 + 4) c' m)) :
    Vm.Arrives P (turns + 4) (v.moved walk c m) := by
  have record := h.loaded.classes id known
  refine .compare (code ▸ w.compare) (.branchIf (code ▸ w.found) (fun same => ?_) fun other => ?_)
  · change (Cpu.reg c .x2 - Cpu.reg c .x1 == 0) = true at same
    rw [x2, beq_iff_eq, UInt64.sub_eq_iff_eq_add, UInt64.zero_add] at same
    exact (found same _ (h.setFlags _)).le (by omega)
  have differ : (b.classes.get id).address ≠ c.reg .x1 := by
    change (Cpu.reg c .x2 - Cpu.reg c .x1 == 0) = false at other
    rw [x2] at other
    intro same
    simp [same] at other
  have start : (b.classes.get id).address + ClassRecord.super = (b.classes.get id).address :=
    UInt64.add_zero _
  have below := record.below
  have high := record.above
  replace h := h.setFlags (.ofCompare (c.reg .x2) (c.operand (.reg .x1)))
  have fetch : v.image.code.Fetches (walk + 4 + 4)
      (.load .x2 (.base .x2 ClassRecord.super) .double false) := code ▸ w.super
  refine .loadAt ((Cpu.reg_setFlags ..).trans x2) fetch (congrArg _ start) ?_ holds ?_
  · rw [start]
    exact h.open_below (by omega) (by change _ + 8 ≤ _; omega)
  replace h := h.setReg .x2 super rfl
  refine .branchNonzero (code ▸ w.again) (fun some => ?_) fun zero => ?_
  · rw [Cpu.reg_setReg_self _ _ (by decide)] at some
    refine up differ some _ h (Cpu.reg_setReg_self _ _ (by decide)) ?_
    rw [Cpu.reg_setReg_ne _ _ (by decide)]
    rfl
  · rw [Cpu.reg_setReg_self _ _ (by decide)] at zero
    exact last differ zero _ h

/-- The walk ends at every class of the lineage, after one step for each class at most. -/
theorem Stands.runWalk {F : Finished} {walk out : UInt64} (code : F.code = v.image.code)
    (w : Walks F walk out) (h : Stands a b bcp p x v c m) (known : id < b.classes.size)
    (above : b.classes.isSubclass id target = true)
    (x2 : c.reg .x2 = (b.classes.get id).address)
    (x1 : c.reg .x1 = (b.classes.get target).address)
    (next : ∀ c', Stands a b bcp p x v c' m → Vm.Arrives P turns (v.moved out c' m)) :
    Vm.Arrives P (turns + 4 * (b.classes.lineage id).length) (v.moved walk c m) := by
  induction id using Nat.strongRecOn generalizing c with
  | ind id ih =>
    obtain ⟨n, -, length⟩ := b.classes.exists_length_lineage id
    rw [length]
    have higher (differ : (b.classes.get id).address ≠ c.reg .x1) :=
      ClassTable.isSubclass_super above fun same => differ (by rw [same, x1])
    refine h.runWalkStep code w known x2 rfl (fun _ c' h' => (next c' h').le (Nat.le_add_right ..))
      (fun differ _ c' h' x2' x1' => ?_) fun differ zero => ?_
    · obtain ⟨super, up, before, above⟩ := higher differ
      obtain rfl := Nat.succ.inj (length.symm.trans (ClassTable.length_lineage_super up before))
      refine ih super before h' (Nat.lt_trans before known) above ?_ (x1'.trans x1)
      exact x2'.trans ((h.loaded.classes id known).super super up)
    · obtain ⟨super, up, before, -⟩ := higher differ
      have far := (h.loaded.classes super (Nat.lt_trans before known)).above
      rw [← (h.loaded.classes id known).super super up, zero] at far
      exact absurd far (by decide)

/-- Without the class in the lineage the walk ends behind the root. -/
theorem Stands.runWalkOut {F : Finished} {walk out : UInt64} (code : F.code = v.image.code)
    (w : Walks F walk out) (h : Stands a b bcp p x v c m) (known : id < b.classes.size)
    (rooted : b.classes.Rooted m target) (outside : b.classes.isSubclass id target = false)
    (x2 : c.reg .x2 = (b.classes.get id).address)
    (x1 : c.reg .x1 = (b.classes.get target).address)
    (next : ∀ c', Stands a b bcp p x v c' m →
      Vm.Arrives P turns (v.moved (walk + 4 + 4 + 4 + 4) c' m)) :
    Vm.Arrives P (turns + 4 * (b.classes.lineage id).length) (v.moved walk c m) := by
  induction id using Nat.strongRecOn generalizing c with
  | ind id ih =>
    obtain ⟨n, -, length⟩ := b.classes.exists_length_lineage id
    rw [length]
    refine h.runWalkStep code w known x2 rfl (fun same => ?_) (fun _ some c' h' x2' x1' => ?_)
      fun _ _ c' h' => (next c' h').le (Nat.le_add_right ..)
    · obtain rfl := rooted.distinct id known (same.trans x1)
      rw [ClassTable.isSubclass_self] at outside
      cases outside
    · cases up : (b.classes.get id).superId with
      | none => exact absurd (rooted.root id known up) some
      | some super =>
        have before := rooted.below id known super up
        obtain rfl := Nat.succ.inj (length.symm.trans (ClassTable.length_lineage_super up before))
        refine ih super before h' (Nat.lt_trans before known)
          (ClassTable.not_isSubclass_super outside up before).2 ?_ (x1'.trans x1)
        exact x2'.trans ((h.loaded.classes id known).super super up)

/-- The entry of the operation's constant is resolved for casts to the class. -/
structure Activation.CastsTo (a : Activation) (t : ClassTable) (op : Operation) (target : ClassId)
    (m : Guarded) : Prop where
  resolved : load m.bytes (a.entry op.operand.toNat + 2) 1 = Opcode.checkcast.byte.toUInt64
  record : load m.bytes (a.entry op.operand.toNat + 8) 8 = (t.get target).address

theorem Activation.CastsTo.agrees {t : ClassTable} {m' : Guarded} (h : a.CastsTo t op target m)
    (same : m.Agrees m' (a.entry op.operand.toNat) (a.entry op.operand.toNat + 32)) :
    a.CastsTo t op target m' :=
  ⟨(same.load (by omega) (by omega)).trans h.resolved,
    (same.load (by omega) (by omega)).trans h.record⟩

/-- The object of a cast is loaded with the record of its class and the one that is looked for. -/
theorem Stands.runLoadCast {r : UInt64} {rest : List Value} {o : Object}
    (h : Stands a b bcp p x v c m) (stack : x.stack = .object r :: rest) (hr : x.heap r = some o)
    (base : (c.reg .x2).toNat + 16 = a.entry op.operand.toNat)
    (below : a.entry op.operand.toNat + 32 ≤ a.heap.toNat)
    (entry : a.CastsTo b.classes op target m)
    (i₁ : v.image.code.Fetches q (.load .x1 (cacheField .x2 CacheRecord.f1) .double false))
    (i₂ : v.image.code.Fetches (q + 4) (.load .x0 Register.operands.at .double false))
    (i₃ : v.image.code.Fetches (q + 4 + 4)
      (.load .x2 (.base .x0 Memory.ObjectShape.classRecord) .double false))
    (next : ∀ c', Stands a b bcp p x v c' m → c'.reg .x1 = (b.classes.get target).address →
      c'.reg .x2 = (b.classes.get o.classId).address →
      Vm.Arrives P turns (v.moved (q + 4 + 4 + 4) c' m)) :
    Vm.Arrives P (turns + 3) (v.moved q c m) := by
  refine h.runCacheField i₁ base below (by decide) entry.record ?_
  replace h := h.setReg .x1 (b.classes.get target).address rfl
  obtain ⟨ok, holds, -⟩ := h.loaded_top stack 8 rfl
  have top : p + 0 = p := UInt64.add_zero p
  refine .loadAt h.registers.operands i₂ (congrArg _ top) (top.symm ▸ ok 8 (by decide)) holds ?_
  replace h := h.setReg .x0 r rfl
  refine h.runClassRecord hr (Cpu.reg_setReg_self _ _ (by decide)) i₃ ?_
  refine next _ (h.setReg .x2 _ rfl) ?_ (Cpu.reg_setReg_self _ _ (by decide))
  rw [Cpu.reg_setReg_ne _ _ (by decide), Cpu.reg_setReg_ne _ _ (by decide),
    Cpu.reg_setReg_self _ _ (by decide)]

/-- Null passes, and an object whose class is below the target passes. With every other object the
    code for exceptions is entered, with the object on the operand stack. Every class in the lineage
    of the object's class takes four turns. -/
theorem Represents.runCheckCast {r : UInt64} {rest : List Value} {n : Nat}
    (hm : op ∈ Bytecode.decode b.code) (hb : bcp = a.code + op.bci.toUInt64)
    (is : op.opcode = .checkcast) (h : Represents a b .object bcp x v c m)
    (stack : x.stack = .object r :: rest)
    (lay : Lays ⟨v.image.code, place⟩ ctx inStub K S (Template.checkCast e) q q' ())
    (null : r = 0 → Vm.Arrives P turns (v.moved q' c m))
    (casts : r ≠ 0 → ∃ o, x.heap r = some o ∧ (b.classes.lineage o.classId).length ≤ n ∧
      a.CastsTo b.classes op target m ∧
      (b.classes.isSubclass o.classId target = true ∧
          (∀ c' m', m.Changed m' a.low a.top.toNat → Represents a b .object bcp x v c' m' →
            Vm.Arrives P turns (v.moved q' c' m')) ∨
        b.classes.isSubclass o.classId target = false ∧ b.classes.Rooted m target ∧
          ∀ p c' m', m.Changed m' a.low a.top.toNat → Stands a b bcp p x v c' m' →
            Vm.Arrives P turns (v.moved e.throwClassCast c' m'))) :
    Vm.Arrives P (turns + 4 * n + 11) (v.moved q c m) := by
  have length : op.opcode.length = 3 := by rw [is]; rfl
  have linked : op.opcode.isLinked = true := by rw [is]; rfl
  unfold Template.checkCast at lay
  obtain ⟨done, lay⟩ := lay.newLabel_bind
  obtain ⟨isSubtype, lay⟩ := lay.newLabel_bind
  obtain ⟨walk, lay⟩ := lay.newLabel_bind
  obtain ⟨i₁, lay⟩ := lay.emitTo_bind
  obtain ⟨⟨⟩, r₁, lay₁, lay⟩ := lay.split
  obtain ⟨⟨⟩, r₂, lay₂, lay⟩ := lay.split
  obtain ⟨i₃, lay⟩ := lay.emit_bind
  obtain ⟨i₄, lay⟩ := lay.emit_bind
  obtain ⟨i₅, lay⟩ := lay.emit_bind
  obtain ⟨here, lay⟩ := lay.bind_bind
  obtain ⟨i₆, lay⟩ := lay.emit_bind
  obtain ⟨i₇, lay⟩ := lay.emitTo_bind
  obtain ⟨i₈, lay⟩ := lay.emit_bind
  obtain ⟨i₉, lay⟩ := lay.emitTo_bind
  obtain ⟨out, lay⟩ := lay.emit_bind
  obtain ⟨there, lay⟩ := lay.bind_bind
  obtain ⟨⟨⟩, r₃, lay₃, lay⟩ := lay.split
  obtain ⟨last, rfl⟩ := lay.bind
  rw [last] at i₁
  rw [here] at i₉
  rw [there] at i₇
  obtain ⟨i₂, rfl⟩ := Lays.emit (i := .store .x0 (.pre .operands (-8)) .double) lay₁
  obtain ⟨i₁₀, rfl⟩ := Lays.emit (i := .load .x0 (.post .operands 8) .double false) lay₃
  obtain ⟨bounded, -⟩ := id h
  obtain ⟨p, held, stands⟩ := h.held (by decide) stack
  refine .branchZero i₁ (fun zero => (null (held.symm.trans zero)).le (by omega)) fun some => ?_
  obtain ⟨o, hr, few, entry, decided⟩ := casts fun null => some (held.trans null)
  have words : depth rest + 1 = depth x.stack := by
    simp [depth, stack, Value.words, Value.type, TypeTag.words, Nat.add_comm]
  have heap := stands.fits.heap
  have thread := stands.fits.thread
  have top := stands.top
  refine stands.runStore (w := .object r) i₂ rfl (by decide)
    (fun k ok => held ▸ Value.object_in_put ok _) (by change depth rest + 1 ≤ _; omega)
    fun m₁ h changed => ?_
  have changed : m.Changed m₁ a.low a.top.toNat := changed.mono (Nat.le_refl _) (by omega)
  have whole : Contents.push { x with stack := rest } (.object r) = x := by
    rw [Contents.push, ← stack]
  rw [whole] at h
  obtain ⟨below, -⟩ := h.loaded.linked op hm linked
  have entry := entry.agrees (changed.agrees (by omega))
  rw [← is] at lay₂
  refine h.runResolveEntry hm hb linked length (by decide) (by rw [is]; exact entry.resolved) lay₂
    fun c₂ h base _ _ => ?_
  refine h.runLoadCast stack hr base below entry i₃ i₄ i₅ fun c₃ h x1 x2 => ?_
  have known := h.heap.known r o hr
  have walks : Walks ⟨v.image.code, place⟩ _ _ := ⟨i₆, i₇, i₈, i₉⟩
  suffices walked : Vm.Arrives P (turns + 1 + 4 * (b.classes.lineage o.classId).length)
      (v.moved (r₂ + 4 + 4 + 4) c₃ m₁) from walked.le (by omega)
  rcases decided with ⟨above, next⟩ | ⟨outside, rooted, next⟩
  · refine h.runWalk (F := ⟨v.image.code, place⟩) rfl walks known above x2 x1 fun c₄ h => ?_
    refine h.runLoad stack i₁₀ rfl (by decide) rfl fun h holds => next _ m₁ changed ?_
    exact ⟨bounded, rest, _, .of_held stack ((Cpu.reg_setReg_self _ _ (by decide)).trans holds), h⟩
  · refine h.runWalkOut (F := ⟨v.image.code, place⟩) rfl walks known
      (rooted.agrees (fun id known => h.loaded.classes id known) (changed.agrees (by omega)))
      outside x2 x1 fun c₄ h => ?_
    exact .branch out (next _ c₄ m₁ changed h)

namespace Implements

/-- Null passes, and an object whose class is below the target passes. -/
theorem checkCast (hm : op ∈ Bytecode.decode b.code) (hb : bcp = a.code + op.bci.toUInt64)
    (is : op.opcode = .checkcast) (found : b.class? op.operand.toNat = some target)
    (hx : x.checkCast b target = some x') :
    Implements a b s bcp (4 * b.classes.size + 11) .object .object (Template.checkCast e) x x' := by
  intro P turns v c m place ctx inStub K S q q' settings lay h next
  unfold Contents.checkCast at hx
  split at hx
  case h_2 => cases hx
  next r rest stack =>
  obtain ⟨-, _, _, -, stands⟩ := id h
  have entry : a.CastsTo b.classes op target m := by
    obtain ⟨-, entry⟩ := stands.loaded.linked op hm (by rw [is]; rfl)
    simp only [Activation.Linked, is] at entry
    exact ⟨(entry target found).1, (entry target found).2⟩
  by_cases null : r = 0
  · rw [if_pos null] at hx
    cases hx
    exact h.runCheckCast hm hb is stack lay (fun _ => next v c m (.refl v m) h)
      fun real => ⟨⟨target, .fields []⟩, absurd null real, absurd null real, entry,
        absurd null real⟩
  · rw [if_neg null] at hx
    split at hx
    case h_2 => cases hx
    next o hr =>
    obtain ⟨above, hx⟩ := Option.ite_none_right_eq_some.mp hx
    cases hx
    have few : (b.classes.lineage o.classId).length ≤ b.classes.size := by
      obtain ⟨n, le, length⟩ := b.classes.exists_length_lineage o.classId
      exact length ▸ Nat.lt_of_le_of_lt le (stands.heap.known r o hr)
    exact h.runCheckCast hm hb is stack lay (fun zero => absurd zero null) fun _ =>
      ⟨o, hr, few, entry, .inl ⟨above, fun c' m' changed h =>
        next v c' m' (stands.continues changed stands.fits.low) h⟩⟩

end Implements

end TemplateVm
