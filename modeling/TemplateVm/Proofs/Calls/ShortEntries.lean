import TemplateVm.Proofs.Natives.Handlers
import TemplateVm.Proofs.Templates.Fields

set_option autoImplicit false
set_option synthInstance.maxSize 100000

/-!
# Short entries

Empty methods, methods that give a field, and the method that gives the object of a reference have
entries that do without a frame. Such an entry returns to the caller with the answer, or gives way
to the normal entry, which finds everything as it was when the method was called.
-/
namespace TemplateVm

open Memory (Guarded load)
open Guest Emit

/-- The registers that a short entry makes use of. -/
def Register.temporaries : List Register := [.x0, .x1, .x2, .x3, .scratch1, .scratch2]

variable {a : Activation} {b : Program} {s : Settings} {bcp p : UInt64} {x : Contents} {v : Vm}
  {c c' : Cpu} {m : Guarded} {slow : Prop} {answer : Cpu → Prop}

/-- The caller stands, and the other registers are what they were at the call. -/
structure Asks (a : Activation) (b : Program) (bcp p : UInt64) (x : Contents) (v : Vm) (c c' : Cpu)
    (m : Guarded) : Prop where
  stands : Stands a b bcp p x v c' m
  kept : ∀ r, r ∉ Register.temporaries → c'.reg r = c.reg r

/-- What a short entry comes to: it gives way to the normal entry, or returns to the caller. A
    reference may have been marked, and nothing has been written but below the operands. -/
inductive Short (a : Activation) (b : Program) (bcp p : UInt64) (x : Contents) (v : Vm) (c : Cpu)
    (m : Guarded) (slow : Prop) (answer : Cpu → Prop) : Vm → Prop
  | gaveWay {c' : Cpu} (reason : slow) (asks : Asks a b bcp p x v c c' m) :
    Short a b bcp p x v c m slow answer (v.moved (v.image.methodEntry .normal) c' m)
  | answered (marks : Memory.MarkQueue) {c' : Cpu} {m' : Guarded} (fast : ¬slow) (gives : answer c')
    (asks : Asks a b bcp p x { v with marks := marks } c c' m')
    (below : m.Changed m' a.low p.toNat) :
    Short a b bcp p x v c m slow answer
      (({ v with marks := marks } : Vm).moved (c.reg .link) c' m')

/-- What the normal entry comes to from wherever the short entry may give way to it, and what the
    answer is enough for, the short entry comes to. -/
theorem Vm.Arrives.ofShort {P : Vm → Prop} {turns others : Nat} {w : Vm}
    (h : Vm.Arrives (Short a b bcp p x v c m slow answer) others w)
    (normal : slow → ∀ c', Asks a b bcp p x v c c' m →
      Vm.Arrives P turns (v.moved (v.image.methodEntry .normal) c' m))
    (answered : ¬slow → ∀ marks c' m', answer c' →
      Asks a b bcp p x { v with marks := marks } c c' m' → m.Changed m' a.low p.toNat →
      Vm.Arrives P turns (({ v with marks := marks } : Vm).moved (c.reg .link) c' m')) :
    Vm.Arrives P (turns + others) w := by
  refine h.trans fun u short => ?_
  cases short with
  | gaveWay reason asks => exact normal reason _ asks
  | answered _ fast gives asks below => exact answered fast _ _ _ gives asks below

namespace Asks

theorem refl (h : Stands a b bcp p x v c m) : Asks a b bcp p x v c c m := ⟨h, fun _ _ => rfl⟩

theorem setReg (h : Asks a b bcp p x v c c' m) (r : Register) (n : UInt64)
    (free : r ∈ Register.temporaries) : Asks a b bcp p x v c (c'.setReg r n) m where
  stands := h.stands.setReg r n (by revert r; decide)
  kept s hs := by
    have other : s ≠ r := fun e => hs (e ▸ free)
    exact (Cpu.reg_setReg_ne _ _ other).trans (h.kept s hs)

theorem setFlags (h : Asks a b bcp p x v c c' m) (f : Flags) :
    Asks a b bcp p x v c (c'.setFlags f) m := ⟨h.stands.setFlags f, h.kept⟩

section
variable {P : Vm → Prop} {turns : Nat} {q q' : UInt64} {place : CodeLabel → UInt64}
  {ctx : CodeContext} {inStub : Bool} {K S : List CodeLabel}

/-- A word of the records is loaded. -/
theorem runLoad (h : Asks a b bcp p x v c c' m) {r base : Register} {k w : UInt64} {n : Width}
    {j : Nat} (i : v.image.code.Fetches q (.load r (.base base k) n false))
    (address : (c'.reg base).toNat + k.toNat = j) (above : 0x1000 ≤ j)
    (below : j + n.bytes.toNat ≤ a.heap.toNat) (free : r ∈ Register.temporaries)
    (holds : load m.bytes j n.bytes.toNat = w)
    (next : Asks a b bcp p x v c (c'.setReg r w) m →
      Vm.Arrives P turns (v.moved (q + 4) (c'.setReg r w) m)) :
    Vm.Arrives P (turns + 1) (v.moved q c' m) := by
  have bound := a.heap.toNat_lt
  have target : (c'.reg base + k).toNat = j := (toNat_add_of_lt (by omega)).trans address
  exact .loadAt rfl i target (h.stands.open_below (by omega) (by omega)) holds
    (next (h.setReg r w free))

/-- The entry goes on unless a safepoint is requested. -/
theorem runUnlessSafepoint (h : Asks a b bcp p x v c c' m) {l : CodeLabel} [Known l K]
    (lay : Lays ⟨v.image.code, place⟩ ctx inStub K S (unlessSafepoint l) q q' ())
    (requested : ∀ c', load m.bytes Place.safepointState.toNat 4 ≠ 0 → Asks a b bcp p x v c c' m →
      Vm.Arrives P turns (v.moved (place l) c' m))
    (next : ∀ c', load m.bytes Place.safepointState.toNat 4 = 0 → Asks a b bcp p x v c c' m →
      Vm.Arrives P turns (v.moved q' c' m)) : Vm.Arrives P (turns + 3) (v.moved q c' m) := by
  unfold unlessSafepoint at lay
  obtain ⟨i₁, lay⟩ := lay.emit_bind
  obtain ⟨i₂, lay⟩ := lay.emit_bind
  obtain ⟨i₃, rfl⟩ := lay.emitTo
  have records := h.stands.fits.records
  refine .movImm i₁ ((h.setReg .scratch2 _ (by decide)).runLoad i₂ (j := Place.safepointState.toNat)
    ?_ (by decide) ?_ (by decide) rfl fun h => ?_)
  · rw [Cpu.reg_setReg_self _ _ (by decide)]
    rfl
  · change 0x1000 + 4 ≤ _
    omega
  · refine .branchNonzero i₃ (fun some => requested _ ?_ h) fun none => next _ ?_ h
    · rw [Cpu.reg_setReg_self _ _ (by decide)] at some
      exact some
    · rw [Cpu.reg_setReg_self _ _ (by decide)] at none
      exact none

/-- The stack pointer of the machine is where the caller has left it. -/
theorem runReturn (h : Asks a b bcp p x v c c' m) (sender : c.reg .sender = a.sp)
    (i₁ : v.image.code.Fetches q (.mov .sp .sender))
    (i₂ : v.image.code.Fetches (q + 4) (.ret .link))
    (next : Vm.Arrives P turns (v.moved (c.reg .link) c' m)) :
    Vm.Arrives P (turns + 2) (v.moved q c' m) := by
  refine .mov i₁ (.ret i₂ ?_)
  rw [h.kept .sender (by decide), sender, ← h.stands.registers.sp, Cpu.setReg_reg,
    h.kept .link (by decide)]
  exact next

end
end Asks

/-- A short entry ends with the return, and with the way to the normal entry. -/
theorem Lays.shortEnd {F : Finished} {ctx : CodeContext} {inStub : Bool} {K S T : List CodeLabel}
    {q q' normal entry e : UInt64} {l : CodeLabel} [Taken l S T]
    (lay : Lays F ctx inStub K S (do
      mov Register.sp Register.sender
      ret Register.link
      Emit.bind l
      bTo normal
      pure entry) q q' e) :
    F.code.Fetches q (.mov .sp .sender) ∧ F.code.Fetches (q + 4) (.ret .link) ∧
      F.code.Fetches (F.place l) (.branch normal) ∧ e = entry := by
  obtain ⟨i₁, lay⟩ := lay.emit_bind
  obtain ⟨i₂, lay⟩ := lay.emit_bind
  obtain ⟨here, lay⟩ := lay.bind_bind
  obtain ⟨i₃, lay⟩ := lay.emit_bind
  rw [← here] at i₃
  exact ⟨i₁, i₂, i₃, lay.ended.2⟩

/-! ## Empty methods -/

/-- The entry of empty methods returns at once, if it is in use and no safepoint is requested. -/
theorem Stands.runEmptyEntry (h : Stands a b bcp p x v c m) (extended : Image.Extended s v.image)
    (sender : c.reg .sender = a.sp) :
    Vm.Arrives (Short a b bcp p x v c m (s.fastEmptyMethods = false ∨
      load m.bytes Place.safepointState.toNat 4 ≠ 0) fun _ => True)
      5 (v.moved (v.image.methodEntry .empty) c m) := by
  obtain ⟨place, ctx, K, stubs, objectHandler, q, q', rfl, lay⟩ :=
    extended.entryCode .empty (by decide)
  generalize v.image.methodEntry .empty = entry at lay ⊢
  unfold Emit.entryCode emptyEntry at lay
  replace lay := lay.settings_bind
  cases on : ctx.settings.fastEmptyMethods with
  | false =>
    obtain ⟨-, rfl⟩ := (lay.ite_pos (by simp [on])).ended
    exact .here (.gaveWay (.inl rfl) (.refl h))
  | true =>
    replace lay := (lay.ite_neg (by simp [on])).pc_bind
    obtain ⟨l, lay⟩ := lay.newLabel_bind
    obtain ⟨⟨⟩, q₁, safepoint, lay⟩ := lay.split
    obtain ⟨i₁, i₂, i₃, rfl⟩ := lay.shortEnd
    refine (Asks.refl h).runUnlessSafepoint safepoint
      (fun c' some h => .branch i₃ (.here (.gaveWay (.inr some) h))) fun c' none h => ?_
    refine h.runReturn sender i₁ i₂ (.here (.answered v.marks ?_ trivial h (.refl ..)))
    simp [none]

/-! ## Fields -/

/-- The places of a method that gives the field of its receiver. -/
structure Getter where
  method : UInt64
  constMethod : UInt64
  pool : UInt64
  cache : UInt64
  /-- The constant of the field. -/
  index : Nat

namespace Getter

/-- Where the cache entry of the field begins. -/
def entry (g : Getter) : Nat := g.cache.toNat + 16 + 32 * g.index

/-- The method's record leads to the cache entry of the field, below the objects. -/
structure Recorded (g : Getter) (top : UInt64) (m : Guarded) : Prop where
  method : 0x1000 ≤ g.method.toNat ∧ g.method.toNat + 8 ≤ top.toNat
  constMethod : 0x1000 ≤ g.constMethod.toNat ∧ g.constMethod.toNat + 20 ≤ top.toNat
  pool : 0x1000 ≤ g.pool.toNat ∧ g.pool.toNat + 16 ≤ top.toNat
  cache : 0x1000 ≤ g.cache.toNat ∧ g.entry + 32 ≤ top.toNat
  constant : load m.bytes g.method.toNat 8 = g.constMethod
  operand : load m.bytes (g.constMethod.toNat + 18) 2 = g.index.toUInt64
  constants : load m.bytes g.constMethod.toNat 8 = g.pool
  entries : load m.bytes (g.pool.toNat + 8) 8 = g.cache

/-- The field has been resolved. -/
def Resolved (g : Getter) (m : Guarded) : Prop :=
  load m.bytes (g.entry + 2) 1 = Opcode.getfield.byte.toUInt64

/-- The resolved field of the receiver is the cell. -/
def Finds (g : Getter) (h : Heap) (r : UInt64) (m : Guarded) (cell : Cell) : Prop :=
  ∃ (id : ClassId) (cells : List Cell) (k : Nat) (slot : FieldSlot),
    h r = some ⟨id, .fields cells⟩ ∧ cells[k]? = some cell ∧ cell.state = .ofType slot.type ∧
      slot.offset.toNat = 16 + 8 * k ∧ load m.bytes (g.entry + 16) 8 = slot.offset ∧
      load m.bytes (g.entry + 24) 8 = packFlags 0 (.ofType slot.type)

end Getter

section
variable {P : Vm → Prop} {turns : Nat} {q : UInt64} {g : Getter}

/-- The cache entry of the field is found by way of the method's record. -/
theorem Asks.runEntryAddress (h : Asks a b bcp p x v c c' m) (recorded : g.Recorded a.heap m)
    (method : c.reg .method = g.method)
    (i₁ : v.image.code.Fetches q
      (.load .x3 (.base .method MethodRecord.constMethod) .double false))
    (i₂ : v.image.code.Fetches (q + 4)
      (.load .x2 (.base .x3 (ConstMethodRecord.code + 2)) .half false))
    (i₃ : v.image.code.Fetches (q + 4 + 4)
      (.load .x3 (.base .x3 ConstMethodRecord.constants) .double false))
    (i₄ : v.image.code.Fetches (q + 4 + 4 + 4)
      (.load .x3 (.base .x3 PoolRecord.cache) .double false))
    (i₅ : v.image.code.Fetches (q + 4 + 4 + 4 + 4)
      (.binary .add .x3 .x3 (Register.x2.lsl CacheRecord.entryShift)))
    (next : ∀ c₁, (c₁.reg .x3).toNat + 16 = g.entry → c₁.reg .x0 = c'.reg .x0 →
      Asks a b bcp p x v c c₁ m → Vm.Arrives P turns (v.moved (q + 4 + 4 + 4 + 4 + 4) c₁ m)) :
    Vm.Arrives P (turns + 5) (v.moved q c' m) := by
  obtain ⟨above₁, below₁⟩ := recorded.method
  obtain ⟨above₂, below₂⟩ := recorded.constMethod
  obtain ⟨above₃, below₃⟩ := recorded.pool
  obtain ⟨above₄, below₄⟩ := recorded.cache
  have eight : Width.double.bytes.toNat = 8 := rfl
  have two : Width.half.bytes.toNat = 2 := rfl
  refine h.runLoad i₁ (j := g.method.toNat) ?_ above₁ (by omega) (by decide) recorded.constant
    fun h => ?_
  · rw [h.kept .method (by decide), method]
    rfl
  refine h.runLoad i₂ (j := g.constMethod.toNat + 18) ?_ (by omega) (by omega) (by decide)
    recorded.operand fun h => ?_
  · rw [Cpu.reg_setReg_self _ _ (by decide)]
    rfl
  refine h.runLoad i₃ (j := g.constMethod.toNat) ?_ above₂ (by omega) (by decide)
    recorded.constants fun h => ?_
  · rw [Cpu.reg_setReg_ne _ _ (by decide), Cpu.reg_setReg_self _ _ (by decide)]
    rfl
  refine h.runLoad i₄ (j := g.pool.toNat + 8) ?_ (by omega) (by omega) (by decide)
    recorded.entries fun h => ?_
  · rw [Cpu.reg_setReg_self _ _ (by decide)]
    rfl
  refine .binary i₅ (next _ ?_ ?_ (h.setReg .x3 _ (by decide)))
  · have entry : g.entry = g.cache.toNat + 16 + 32 * g.index := rfl
    have bound := a.heap.toNat_lt
    have shifted : (g.index.toUInt64 <<< CacheRecord.entryShift.toUInt64).toNat = 32 * g.index :=
      toNat_shiftLeft (by decide) (by change 32 * _ < _; omega)
    simp +decide only [Cpu.operand, Cpu.reg_setReg, ↓reduceIte]
    change (g.cache + _ <<< _).toNat + 16 = _
    rw [toNat_add_of_lt (by rw [shifted]; omega), shifted]
    omega
  · simp +decide only [Cpu.reg_setReg, ↓reduceIte]

/-- A field of the cache entry is loaded. -/
theorem Asks.runEntryField (h : Asks a b bcp p x v c c' m) (recorded : g.Recorded a.heap m)
    (base : (c'.reg .x3).toNat + 16 = g.entry) {r : Register} {k w : UInt64} {n : Width}
    (i : v.image.code.Fetches q (.load r (cacheField .x3 k) n false))
    (inside : k.toNat + n.bytes.toNat ≤ 32) (free : r ∈ Register.temporaries)
    (holds : load m.bytes (g.entry + k.toNat) n.bytes.toNat = w)
    (next : Asks a b bcp p x v c (c'.setReg r w) m →
      Vm.Arrives P turns (v.moved (q + 4) (c'.setReg r w) m)) :
    Vm.Arrives P (turns + 1) (v.moved q c' m) := by
  obtain ⟨above, below⟩ := recorded.cache
  have entry : g.entry = g.cache.toNat + 16 + 32 * g.index := rfl
  have sixteen : CacheRecord.base.toNat = 16 := rfl
  have offset : (CacheRecord.base + k).toNat = CacheRecord.base.toNat + k.toNat :=
    toNat_add_of_lt (by omega)
  exact h.runLoad i (by omega) (by omega) (by omega) free holds next

/-- The cache entry says whether the field has been resolved. -/
theorem Asks.runResolved (h : Asks a b bcp p x v c c' m) (recorded : g.Recorded a.heap m)
    (base : (c'.reg .x3).toNat + 16 = g.entry) {other : UInt64}
    (i₁ : v.image.code.Fetches q
      (.load .scratch1 (cacheField .x3 CacheRecord.opcode1) .byte false))
    (i₂ : v.image.code.Fetches (q + 4) (.compare .scratch1 (.imm Opcode.getfield.byte.toUInt64)))
    (i₃ : v.image.code.Fetches (q + 4 + 4) (.branchIf .ne other))
    (unresolved : ¬g.Resolved m → ∀ c₁, Asks a b bcp p x v c c₁ m →
      Vm.Arrives P turns (v.moved other c₁ m))
    (next : g.Resolved m → ∀ c₁, c₁.reg .x3 = c'.reg .x3 → c₁.reg .x0 = c'.reg .x0 →
      Asks a b bcp p x v c c₁ m → Vm.Arrives P turns (v.moved (q + 4 + 4 + 4) c₁ m)) :
    Vm.Arrives P (turns + 3) (v.moved q c' m) := by
  refine h.runEntryField recorded base i₁ (by decide) (by decide) rfl fun h => .compare i₂ ?_
  have asks := h.setFlags (.ofCompare (load m.bytes (g.entry + 2) 1) Opcode.getfield.byte.toUInt64)
  rw [Cpu.reg_setReg_self _ _ (by decide)]
  refine .branchIf i₃ (fun differs => unresolved (fun same => ?_) _ asks) fun same =>
    next ?_ _ ?_ ?_ asks
  · rw [Cpu.flags_setFlags, Condition.holds_ne, bne_iff_ne] at differs
    exact differs same
  · rw [Cpu.flags_setFlags, Condition.holds_ne, bne_eq_false_iff_eq] at same
    exact same
  · rw [Cpu.reg_setFlags, Cpu.reg_setReg_ne _ _ (by decide)]
  · rw [Cpu.reg_setFlags, Cpu.reg_setReg_ne _ _ (by decide)]

/-- The receiver is taken from the operands, where it stays. -/
theorem Asks.runReceiver {r : UInt64} {rest : List Value} {null : UInt64}
    (h : Asks a b bcp p x v c c' m) (receiver : x.stack = .object r :: rest)
    (i₁ : v.image.code.Fetches q (.load .x0 (.base .operands 0) .double false))
    (i₂ : v.image.code.Fetches (q + 4) (.branchZero .x0 null))
    (missing : r = 0 → ∀ c₁, Asks a b bcp p x v c c₁ m → Vm.Arrives P turns (v.moved null c₁ m))
    (next : r ≠ 0 → ∀ c₁, c₁.reg .x0 = r → Asks a b bcp p x v c c₁ m →
      Vm.Arrives P turns (v.moved (q + 4 + 4) c₁ m)) :
    Vm.Arrives P (turns + 2) (v.moved q c' m) := by
  obtain ⟨ok, holds, -⟩ := h.stands.loaded_top receiver 8 rfl
  have top : p + 0 = p := UInt64.add_zero p
  refine .loadAt h.stands.registers.operands i₁ (congrArg _ top)
    (top.symm ▸ ok 8 (Nat.le_refl _)) holds ?_
  have asks := h.setReg .x0 r (by decide)
  have held : (c'.setReg .x0 r).reg .x0 = r := Cpu.reg_setReg_self _ _ (by decide)
  exact .branchZero i₂ (fun zero => missing (held ▸ zero) _ asks)
    fun some => next (held ▸ some) _ held asks

/-- The field is held, and nothing has been written but for a check of it. -/
theorem Asks.runLoadField {q' r : UInt64} {place : CodeLabel → UInt64} {ctx : CodeContext}
    {inStub : Bool} {K S : List CodeLabel} {id : ClassId} {cells : List Cell} {cell : Cell}
    {k : Nat} (h : Asks a b bcp p x v c c' m) (roomy : a.Roomy ctx.settings b.maxStack)
    (closed : x.Closed) (hr : x.heap r = some ⟨id, .fields cells⟩) (hc : cells[k]? = some cell)
    (x0 : c'.reg .x0 = r) (x1 : (c'.reg .x1).toNat = 16 + 8 * k)
    (x2 : c'.reg .x2 = cell.state.index.toUInt64)
    (lay : Lays ⟨v.image.code, place⟩ ctx inStub K S (loadField .x2 false) q q' ())
    (next : ∀ c₁ m₁, Asks a b bcp p x v c c₁ m₁ → cell.value.Held c₁ cell.state →
      m.Changed m₁ a.low p.toNat → Vm.Arrives P turns (v.moved q' c₁ m₁)) :
    Vm.Arrives P (turns + 25) (v.moved q c' m) := by
  unfold loadField at lay
  refine Vm.Arrives.switch (fun _ _ fetch => fetch) lay x2
    (TopOfStack.mem_fieldStates cell.state_ne_none)
    fun K S w w' f lay done => ?_
  obtain ⟨⟨⟩, q₁, read, lay⟩ := lay.split
  replace lay := lay.ite_neg Bool.false_ne_true
  refine (h.stands.setFlags f).runReadField hr hc x0 x1 read fun c₁ stands held other => ?_
  have kept (r : Register) (hr : r ∉ Register.temporaries) : c₁.reg r = c.reg r :=
    (other r fun e => hr (e ▸ by decide)).trans (h.kept r hr)
  by_cases object : cell.state = .object
  · replace lay := lay.ite_pos object
    have known : x.heap.Knows (c₁.reg .x0) := by
      cases cell with
      | object reference =>
        rw [show c₁.reg .x0 = reference from held]
        exact closed.fields r id cells reference hr (List.mem_of_getElem? hc)
      | _ => cases object
    refine stands.verifyReference lay roomy (stands.known known)
      fun c₂ m₂ stands same floats below =>
        done v c₂ m₂ _ rfl (next c₂ m₂ ⟨stands, fun r hr => ?_⟩ ?_ below)
    · exact (same r fun e => hr (e ▸ by decide)).trans (kept r hr)
    · exact held.mono (same _ (by decide)) (floats _)
  · obtain ⟨rfl, -⟩ := (lay.ite_neg object).ended
    exact done v c₁ m _ rfl ((next c₁ m ⟨stands, kept⟩ held (.refl ..)).le (by omega))

/-- The field that has been found is held. -/
theorem Asks.runFound {q' r : UInt64} {place : CodeLabel → UInt64} {ctx : CodeContext}
    {inStub : Bool} {K S : List CodeLabel} {cell : Cell} (h : Asks a b bcp p x v c c' m)
    (roomy : a.Roomy ctx.settings b.maxStack) (closed : x.Closed) (recorded : g.Recorded a.heap m)
    (finds : g.Finds x.heap r m cell) (x0 : c'.reg .x0 = r)
    (base : (c'.reg .x3).toNat + 16 = g.entry)
    (i₁ : v.image.code.Fetches q (.load .x1 (cacheField .x3 CacheRecord.f2) .double false))
    (i₂ : v.image.code.Fetches (q + 4)
      (.load .x2 (cacheField .x3 CacheRecord.flags) .double false))
    (i₃ : v.image.code.Fetches (q + 4 + 4) (.shiftRight .x2 .x2 CacheRecord.tosShift))
    (lay : Lays ⟨v.image.code, place⟩ ctx inStub K S (loadField .x2 false) (q + 4 + 4 + 4) q' ())
    (next : ∀ c₁ m₁, Asks a b bcp p x v c c₁ m₁ → cell.value.Held c₁ cell.state →
      m.Changed m₁ a.low p.toNat → Vm.Arrives P turns (v.moved q' c₁ m₁)) :
    Vm.Arrives P (turns + 28) (v.moved q c' m) := by
  obtain ⟨id, cells, k, slot, hr, hc, state, distance, offset, flags⟩ := finds
  refine h.runEntryField recorded base i₁ (by decide) (by decide) offset fun h => ?_
  refine h.runEntryField recorded (by rw [Cpu.reg_setReg_ne _ _ (by decide), base]) i₂ (by decide)
    (by decide) flags fun h => .shiftRight i₃ ?_
  refine (h.setReg .x2 _ (by decide)).runLoadField roomy closed hr hc ?_ ?_ ?_ lay next
  · simpa +decide only [Cpu.reg_setReg, ↓reduceIte] using x0
  · simpa +decide only [Cpu.reg_setReg, ↓reduceIte] using distance
  · rw [Cpu.reg_setReg_self _ _ (by decide), Cpu.reg_setReg_self _ _ (by decide), state]
    cases slot.type <;> decide

end

/-- The entry of methods that give a field gives the field of a receiver that is there, if it is in
    use, no safepoint is requested and the field has been resolved. -/
theorem Stands.runAccessorEntry {g : Getter} {r : UInt64} {rest : List Value}
    (h : Stands a b bcp p x v c m) (extended : Image.Extended s v.image)
    (roomy : a.Roomy s b.maxStack) (closed : x.Closed) (sender : c.reg .sender = a.sp)
    (method : c.reg .method = g.method) (recorded : g.Recorded a.heap m)
    (receiver : x.stack = .object r :: rest)
    (typed : r ≠ 0 → g.Resolved m → ∃ cell, g.Finds x.heap r m cell) :
    Vm.Arrives (Short a b bcp p x v c m (s.fastAccessorMethods = false ∨
      load m.bytes Place.safepointState.toNat 4 ≠ 0 ∨ r = 0 ∨ ¬g.Resolved m)
      fun c' => ∃ cell, g.Finds x.heap r m cell ∧ cell.value.Held c' cell.state)
      43 (v.moved (v.image.methodEntry .accessor) c m) := by
  obtain ⟨place, ctx, K, stubs, objectHandler, q, q', rfl, lay⟩ :=
    extended.entryCode .accessor (by decide)
  generalize v.image.methodEntry .accessor = entry at lay ⊢
  unfold Emit.entryCode accessorEntry at lay
  replace lay := lay.settings_bind
  cases on : ctx.settings.fastAccessorMethods with
  | false =>
    obtain ⟨-, rfl⟩ := (lay.ite_pos (by simp [on])).ended
    exact .here (.gaveWay (.inl rfl) (.refl h))
  | true =>
    replace lay := (lay.ite_neg (by simp [on])).pc_bind
    obtain ⟨l, lay⟩ := lay.newLabel_bind
    obtain ⟨⟨⟩, q₁, safepoint, lay⟩ := lay.split
    obtain ⟨i₁, lay⟩ := lay.emit_bind
    obtain ⟨i₂, lay⟩ := lay.emitTo_bind
    obtain ⟨i₃, lay⟩ := lay.emit_bind
    obtain ⟨i₄, lay⟩ := lay.emit_bind
    obtain ⟨i₅, lay⟩ := lay.emit_bind
    obtain ⟨i₆, lay⟩ := lay.emit_bind
    obtain ⟨i₇, lay⟩ := lay.emit_bind
    obtain ⟨i₈, lay⟩ := lay.emit_bind
    obtain ⟨i₉, lay⟩ := lay.emit_bind
    obtain ⟨i₁₀, lay⟩ := lay.emitTo_bind
    obtain ⟨i₁₁, lay⟩ := lay.emit_bind
    obtain ⟨i₁₂, lay⟩ := lay.emit_bind
    obtain ⟨i₁₃, lay⟩ := lay.emit_bind
    obtain ⟨⟨⟩, q₂, field, lay⟩ := lay.split
    obtain ⟨j₁, j₂, j₃, rfl⟩ := lay.shortEnd
    refine (Asks.refl h).runUnlessSafepoint safepoint
      (fun c' some h => .branch j₃ (.here (.gaveWay (.inr (.inl some)) h))) fun c' none h => ?_
    refine h.runReceiver receiver i₁ i₂
      (fun null _ h => .branch j₃ (.here (.gaveWay (.inr (.inr (.inl null))) h)))
      fun some c₁ x0 h => ?_
    refine h.runEntryAddress recorded method i₃ i₄ i₅ i₆ i₇ fun c₂ base same h => ?_
    refine h.runResolved recorded base i₈ i₉ i₁₀
      (fun other _ h => .branch j₃ (.here (.gaveWay (.inr (.inr (.inr other))) h)))
      fun resolved c₃ same₃ same₀ h => ?_
    obtain ⟨cell, finds⟩ := typed some resolved
    refine h.runFound roomy closed recorded finds (same₀.trans (same.trans x0))
      (by rw [same₃, base]) i₁₁ i₁₂ i₁₃ field fun c₄ m₄ h held below => ?_
    refine h.runReturn sender j₁ j₂
      (.here (.answered v.marks ?_ ⟨cell, finds, held⟩ h below))
    simp [none, some, resolved]

/-! ## The object of a reference -/

/-- While marking is active the object is handed to the marker, and is in its register
    afterwards. -/
theorem Asks.runMarking {P : Vm → Prop} {turns : Nat} {q q' stop : UInt64}
    {place : CodeLabel → UInt64}
    {ctx : CodeContext} {inStub : Bool} {K S : List CodeLabel} (h : Asks a b bcp p x v c c' m)
    (on : ctx.settings.markBarrier = true) (roomy : a.Roomy ctx.settings b.maxStack)
    (i₁ : v.image.code.Fetches q (.movImm .scratch2 Place.markingActive))
    (i₂ : v.image.code.Fetches (q + 4) (.load .scratch2 (.base .scratch2 0) .byte false))
    (i₃ : v.image.code.Fetches (q + 4 + 4) (.branchZero .scratch2 stop))
    (i₄ : v.image.code.Fetches (q + 4 + 4 + 4) (.branchZero .x0 stop))
    (i₅ : v.image.code.Fetches (q + 4 + 4 + 4 + 4) (.storePair .x0 .link (.pre .sp (-16))))
    (call : Lays ⟨v.image.code, place⟩ ctx inStub K S (callLeaf .markBarrier [.x0])
      (q + 4 + 4 + 4 + 4 + 4) q' ())
    (i₆ : v.image.code.Fetches q' (.loadPair .x0 .link (.post .sp 16))) (here : stop = q' + 4)
    (next : ∀ marks c₁ m₁,
      v.Continues ctx.settings (some [c'.reg .x0]) [] m { v with marks := marks } m₁ →
      Asks a b bcp p x { v with marks := marks } c c₁ m₁ →
      c₁.reg .x0 = c'.reg .x0 → m.Changed m₁ a.low p.toNat →
      Vm.Arrives P turns (({ v with marks := marks } : Vm).moved (q' + 4) c₁ m₁)) :
    Vm.Arrives P (turns + 9) (v.moved q c' m) := by
  subst here
  have records := h.stands.fits.records
  have same (c₁ : Cpu) (none : load m.bytes Place.markingActive.toNat 1 = 0 ∨ c'.reg .x0 = 0)
      (h₁ : Asks a b bcp p x v c c₁ m) (x0 : c₁.reg .x0 = c'.reg .x0) :
      Vm.Arrives P turns (v.moved (q' + 4) c₁ m) :=
    next v.marks c₁ m (.of_unqueued (none.imp_left fun off _ => off)) h₁ x0 (.refl ..)
  refine .movImm i₁ ((h.setReg .scratch2 _ (by decide)).runLoad i₂ (j := Place.markingActive.toNat)
    ?_ (by decide) ?_ (by decide) rfl fun h₁ => ?_)
  · rw [Cpu.reg_setReg_self _ _ (by decide)]
    rfl
  · change 0x1010 + 1 ≤ _
    omega
  change Asks a b bcp p x v c
    (Cpu.setReg _ .scratch2 (load m.bytes Place.markingActive.toNat 1)) m at h₁
  change Vm.Arrives P _
    (v.moved _ (Cpu.setReg _ .scratch2 (load m.bytes Place.markingActive.toNat 1)) m)
  generalize hactive : load m.bytes Place.markingActive.toNat 1 = active at h₁ ⊢
  have x0 : ((c'.setReg .scratch2 Place.markingActive).setReg .scratch2 active).reg .x0 =
      c'.reg .x0 := by simp +decide only [Cpu.reg_setReg, ↓reduceIte]
  have flag : ((c'.setReg .scratch2 Place.markingActive).setReg .scratch2 active).reg .scratch2 =
      active := Cpu.reg_setReg_self _ _ (by decide)
  generalize (c'.setReg .scratch2 Place.markingActive).setReg .scratch2 active = c₁ at h₁ x0 flag ⊢
  rw [← hactive] at flag
  refine .branchZero i₃
    (fun off => (same c₁ (.inl (flag.symm.trans off)) h₁ x0).le (by omega)) fun marking =>
    .branchZero i₄
      (fun null => (same c₁ (.inr (x0.symm.trans null)) h₁ x0).le (by omega)) fun _ => ?_
  rw [flag] at marking
  have uses : ctx.settings.usesStack = true := by simp [Settings.usesStack, on]
  obtain ⟨-, low, high, top⟩ := h₁.stands.room roomy uses (k := 16) (by decide)
  refine h₁.stands.runSavePair i₅ (by omega) high top fun m₂ _ h₂ first last changed => ?_
  unfold Emit.callLeaf at call
  obtain ⟨⟨⟩, q₁, passed, call⟩ := call.split
  obtain rfl := passed.passed (by simp [Register.arguments])
  obtain ⟨j₁, call⟩ := call.emit_bind
  obtain ⟨j₂, rfl⟩ := call.emit
  refine .movImm j₁ (.callTo j₂ ?_)
  rw [Cpu.reg_setReg_self _ _ (by decide)]
  refine .service Vm.serve_markBarrier ⟨fun quiet => quiet, rfl, rfl⟩ ?_
  have reference (n : UInt64) : (((c₁.setReg .sp (a.sp + -16)).setReg .scratch1
      Service.markBarrier.address).setReg .link n).reg .x0 = c'.reg .x0 := by
    simp +decide only [Cpu.reg_setReg, ↓reduceIte, x0]
  rw [Cpu.reg_setReg_self _ _ (by decide), reference]
  generalize hmarks : v.marks.enqueue _ = marks
  refine Stands.runRestorePair (a := a)
    (((h₂.setReg .scratch1 _ rfl).setReg .link _ rfl).marked marks) i₆ (by omega) top first last
    (by decide) fun h₃ => ?_
  have low := h₁.stands.fits.low
  have continues : v.Continues ctx.settings (some [c'.reg .x0]) [] m { v with marks } m₂ := by
    refine .of_marks rfl changed.guards ?_ (changed.agrees (.inl (by omega)))
    unfold Vm.queueing
    rw [if_pos ⟨on, marking⟩]
    exact hmarks.symm
  refine next marks _ m₂ continues ⟨h₃, fun r hr => ?_⟩ ?_ (changed.mono (by omega) high)
  · have free : r ≠ .x0 ∧ r ≠ .scratch1 :=
      ⟨fun e => hr (e ▸ by decide), fun e => hr (e ▸ by decide)⟩
    rw [← h₁.kept r hr]
    by_cases link : r = .link
    · rw [link, Cpu.reg_setReg_self _ _ (by decide)]
    rw [Cpu.reg_setReg_ne _ _ link, Cpu.reg_setReg_ne _ _ free.1]
    by_cases sp : r = .sp
    · rw [sp, Cpu.reg_setReg_self _ _ (by decide), h₁.stands.registers.sp]
    · rw [Cpu.reg_setReg_ne _ _ sp, Cpu.reg_setReg_ne _ _ link, Cpu.reg_setReg_ne _ _ free.2,
        Cpu.reg_setReg_ne _ _ sp]
  · rw [Cpu.reg_setReg_ne _ _ (by decide), Cpu.reg_setReg_self _ _ (by decide), x0]

/-- The object of a reference that is there is in its register. -/
theorem Asks.runReferent {P : Vm → Prop} {turns : Nat} {q r null : UInt64} {rest : List Value}
    {id : ClassId} {o : UInt64} {cells : List Cell} (h : Asks a b bcp p x v c c' m)
    (receiver : x.stack = .object r :: rest)
    (refers : r ≠ 0 → x.heap r = some ⟨id, .fields (.object o :: cells)⟩)
    (i₁ : v.image.code.Fetches q (.load .x0 (.base .operands 0) .double false))
    (i₂ : v.image.code.Fetches (q + 4) (.branchZero .x0 null))
    (i₃ : v.image.code.Fetches (q + 4 + 4) (.load .x0 (.base .x0 firstField) .double false))
    (missing : r = 0 → ∀ c₁, Asks a b bcp p x v c c₁ m → Vm.Arrives P turns (v.moved null c₁ m))
    (next : r ≠ 0 → ∀ c₁, c₁.reg .x0 = o → Asks a b bcp p x v c c₁ m →
      Vm.Arrives P turns (v.moved (q + 4 + 4 + 4) c₁ m)) :
    Vm.Arrives P (turns + 3) (v.moved q c' m) := by
  refine h.runReceiver receiver i₁ i₂ (fun null c₁ h => (missing null c₁ h).le (by omega))
    fun some c₁ x0 h => ?_
  have object := refers some
  obtain ⟨address, ok⟩ := h.stands.open_object object (k := firstField) (n := 8) (by
    change 16 + 8 ≤ 16 + 8 * (cells.length + 1)
    omega)
  obtain ⟨-, holds⟩ := h.stands.heap.holds _ _ object
  have cell : load m.bytes (r.toNat + 16) 8 = o := holds 0 _ rfl
  refine .loadAt x0 i₃ address ok cell ?_
  exact next some _ (Cpu.reg_setReg_self _ _ (by decide)) (h.setReg .x0 o (by decide))

section
variable {r : UInt64} {rest : List Value} {id : ClassId} {o : UInt64} {cells : List Cell}
  (h : Stands a b bcp p x v c m) (extended : Image.Extended s v.image)
  (roomy : a.Roomy s b.maxStack) (sender : c.reg .sender = a.sp)
  (receiver : x.stack = .object r :: rest)
  (refers : r ≠ 0 → x.heap r = some ⟨id, .fields (.object o :: cells)⟩)
include h extended roomy sender receiver refers

/-- The marker is told of the object that the caller gets, and of nothing when the entry gives way. -/
theorem Stands.runReferenceGet {P : Vm → Prop} {turns : Nat}
    (missing : r = 0 → ∀ c', Asks a b bcp p x v c c' m →
      Vm.Arrives P turns (v.moved (v.image.methodEntry .normal) c' m))
    (next : r ≠ 0 → ∀ marks c' m', v.Continues s (some [o]) [] m { v with marks := marks } m' →
      c'.reg .x0 = o → Asks a b bcp p x { v with marks := marks } c c' m' →
      m.Changed m' a.low p.toNat →
      Vm.Arrives P turns (({ v with marks := marks } : Vm).moved (c.reg .link) c' m')) :
    Vm.Arrives P (turns + 14) (v.moved (v.image.methodEntry .referenceGet) c m) := by
  obtain ⟨place, ctx, K, stubs, objectHandler, q, q', rfl, lay⟩ :=
    extended.entryCode .referenceGet (by decide)
  generalize v.image.methodEntry .referenceGet = entry at lay ⊢
  unfold Emit.entryCode referenceGetEntry at lay
  replace lay := lay.pc_bind
  obtain ⟨l, lay⟩ := lay.newLabel_bind
  obtain ⟨i₁, lay⟩ := lay.emit_bind
  obtain ⟨i₂, lay⟩ := lay.emitTo_bind
  obtain ⟨i₃, lay⟩ := lay.emit_bind
  replace lay := lay.settings_bind
  by_cases on : ctx.settings.markBarrier = true
  · replace lay := lay.ite_pos on
    obtain ⟨done, lay⟩ := lay.newLabel_bind
    obtain ⟨i₄, lay⟩ := lay.emit_bind
    obtain ⟨i₅, lay⟩ := lay.emit_bind
    obtain ⟨i₆, lay⟩ := lay.emitTo_bind
    obtain ⟨i₇, lay⟩ := lay.emitTo_bind
    obtain ⟨i₈, lay⟩ := lay.emit_bind
    obtain ⟨⟨⟩, q₁, call, lay⟩ := lay.split
    obtain ⟨i₉, lay⟩ := lay.emit_bind
    obtain ⟨here, lay⟩ := lay.bind_bind
    obtain ⟨j₁, j₂, j₃, rfl⟩ := lay.shortEnd
    refine (Asks.refl h).runReferent receiver refers i₁ i₂ i₃
      (fun null c' h => .branch j₃ ((missing null c' h).le (by omega))) fun some c' x0 h => ?_
    refine h.runMarking on roomy i₄ i₅ i₆ i₇ i₈ call i₉ here
      fun marks c₁ m₁ continues h same below => ?_
    rw [x0] at continues same
    exact h.runReturn sender j₁ j₂ (next some marks c₁ m₁ continues same h below)
  · obtain ⟨j₁, j₂, j₃, rfl⟩ := (lay.ite_neg on).shortEnd
    refine (Asks.refl h).runReferent receiver refers i₁ i₂ i₃
      (fun null c' h => .branch j₃ ((missing null c' h).le (by omega))) fun some c' x0 h => ?_
    exact h.runReturn sender j₁ j₂ ((next some v.marks c' m (.of_unqueued (.inl (absurd · on))) x0 h
      (.refl ..)).le (by omega))

/-- The entry of the method that gives the object of a reference gives it for a reference that is
    there, whether marking is active or not. -/
theorem Stands.runReferenceEntry :
    Vm.Arrives (Short a b bcp p x v c m (r = 0) fun c' => c'.reg .x0 = o)
      14 (v.moved (v.image.methodEntry .referenceGet) c m) :=
  h.runReferenceGet extended roomy sender receiver refers
    (fun null _ h => .here (.gaveWay null h))
    fun some marks _ _ _ x0 h below => .here (.answered marks some x0 h below)

end

end TemplateVm
