import TemplateVm.Proofs.Calls.Hosting
import TemplateVm.Proofs.Memory.Copies

set_option autoImplicit false

/-!
# What a call starts from

Before a call runs it writes words of the thread's block and some registers, whatever is there. So
nothing that an earlier call has left there has any influence, however that call ended: an exception
on its way, the result of a service, handles, arguments, the count of steps, and what was kept of a
frame that was popped. The mark of such a frame and the state of the yellow zone are not written.
-/
namespace TemplateVm

open Memory (Guarded byteAt load)

/-! ## Bytes that are written anyway -/

namespace Memory

variable {b b' : ByteArray} {i j w : Nat} {v : UInt64}

theorem byteAt_store_congr (size : b'.size = b.size)
    (same : j < i ∨ i + w ≤ j → byteAt b' j = byteAt b j) :
    byteAt (store b' i v w) j = byteAt (store b i v w) j := by
  induction w generalizing b b' i v with
  | zero => exact same (by omega)
  | succ w ih =>
    refine ih (by rw [size_setByte, size_setByte, size]) fun beside => ?_
    rw [byteAt_setByte, byteAt_setByte, size]
    split
    · rfl
    · next unset =>
      by_cases here : i = j
      · have outside : ¬ j < b.size := fun inside => unset ⟨here, inside⟩
        rw [byteAt, byteAt, dif_neg outside, dif_neg (size ▸ outside)]
      · exact same (by omega)

end Memory

/-- The byte is one that is written. -/
def Write.Covers (x : Write) (j : Nat) : Prop :=
  x.address.toNat ≤ j ∧ j < x.address.toNat + x.width.toNat

namespace Memory.Guarded

variable {m m' : Guarded} {l : List Write} {j k : Nat}

/-- The memories differ at most in bytes that are about to be written. -/
structure AgreesBut (l : List Write) (m m' : Guarded) : Prop where
  alike : m.Alike m'
  bytes : ∀ j, (∀ x ∈ l, ¬ x.Covers j) → byteAt m'.bytes j = byteAt m.bytes j

/-- Once they are written, the memories are the same. -/
theorem AgreesBut.foldl (h : m.AgreesBut l m') :
    l.foldl Machine.write m' = l.foldl Machine.write m := by
  induction l generalizing m m' with
  | nil =>
    have bytes : m'.bytes = m.bytes := eq_of_byteAt h.alike.size fun j => h.bytes j nofun
    have guards := h.alike.guards
    cases m
    cases m'
    cases bytes
    cases guards
    rfl
  | cons x l ih =>
    refine ih ⟨⟨?_, h.alike.guards⟩, fun j beside => byteAt_store_congr h.alike.size fun out => ?_⟩
    · change (store m'.bytes _ _ _).size = (store m.bytes _ _ _).size
      rw [size_store, size_store, h.alike.size]
    · refine h.bytes j fun y hy covers => ?_
      rcases List.mem_cons.mp hy with rfl | hy
      · obtain ⟨lo, hi⟩ := covers
        omega
      · exact beside y hy covers

theorem alike_foldl : m.Alike (l.foldl Machine.write m) := by
  induction l generalizing m with
  | nil => exact .refl m
  | cons x l ih => exact (Alike.refl m).put.trans ih

theorem load_foldl
    (beside : ∀ x ∈ l, x.address.toNat + x.width.toNat ≤ j ∨ j + k ≤ x.address.toNat) :
    load (l.foldl Machine.write m).bytes j k = load m.bytes j k := by
  induction l generalizing m with
  | nil => rfl
  | cons x l ih =>
    have here := beside x List.mem_cons_self
    refine (ih fun y hy => beside y (List.mem_cons_of_mem x hy)).trans ?_
    exact load_put_of_disjoint (by omega)

theorem Open.alike {a n : UInt64} (h : m.Open a n) (alike : m.Alike m') : m'.Open a n :=
  fun access => by
    rw [← h access]
    simp only [fault?, guardOf?, alike.guards, alike.size]

theorem forM_write_ok {ι : Type} (is : List ι) {f : ι → Write}
    (ok : ∀ i ∈ is, m.Open (f i).address (f i).width) :
    is.forM (fun i => Guarded.write (f i).address (f i).width (f i).value) m =
      .ok () ((is.map f).foldl Machine.write m) := by
  induction is generalizing m with
  | nil => rfl
  | cons i is ih =>
    refine (Vm.bind_ok (m := Guarded.write (f i).address (f i).width (f i).value)
      (ok i List.mem_cons_self).write).trans ?_
    exact ih fun k hk => (ok k (List.mem_cons_of_mem i hk)).put

end Memory.Guarded

/-! ## The block of the thread -/

namespace ThreadBlock

variable {t : ThreadBlock} {words : List UInt64} {m m' : Guarded} {a : UInt64}

/-- The arguments that are passed. -/
def argumentWrites (t : ThreadBlock) (words : List UInt64) : List Write :=
  words.zipIdx.map fun p => ⟨t.argumentSlot (Vm.parameterSlot + p.2.toUInt64), 8, p.1⟩

/-- What is reset, and the state in which the thread runs. -/
def resetWrites (t : ThreadBlock) : List Write :=
  [⟨t.argumentSlot Vm.resultSlot, 8, 0⟩, ⟨t.argumentSlot Vm.resultSlot + 8, 8, 0⟩,
    ⟨t.base + activeHandles, 8, t.base + handles⟩, ⟨t.base + pendingException, 8, 0⟩,
    ⟨t.base + vmResult, 8, 0⟩, ⟨t.base + threadState, 4, ThreadState.inGuest.code.toUInt64⟩]

/-- What a call writes in memory before it runs. -/
def callWrites (t : ThreadBlock) (words : List UInt64) : List Write :=
  t.argumentWrites words ++ t.resetWrites

theorem argumentSlot_toNat (t : ThreadBlock) {i : Nat} (small : i < 384)
    (inside : t.base.toNat + 0x1000 < 2 ^ 64) :
    (t.argumentSlot i.toUInt64).toNat = t.base.toNat + (0x400 + 8 * i) := by
  have index : i.toUInt64.toNat = i := UInt64.toNat_ofNat_of_lt' (by change _ < 2 ^ 64; omega)
  have eight : (8 : UInt64).toNat = 8 := rfl
  have start : arguments.toNat = 0x400 := rfl
  have scaled : (i.toUInt64 * 8).toNat = 8 * i := by
    rw [UInt64.toNat_mul, index, eight]
    omega
  rw [argumentSlot, toNat_add_of_lt (by rw [toNat_add_of_lt (by omega)]; omega),
    toNat_add_of_lt (by omega), scaled, start]
  omega

/-- Where in the block a word is that a call writes. -/
theorem of_mem_callWrites {x : Write} (hx : x ∈ t.callWrites words) (few : words.length ≤ 382)
    (inside : t.base.toNat + 0x1000 < 2 ^ 64) :
    ∃ k, x.address.toNat = t.base.toNat + k ∧ k + x.width.toNat ≤ 0x1000 ∧
      (k + x.width.toNat ≤ 16 ∨ k = 40 ∧ x.width = 4 ∨ 80 ≤ k) := by
  have slot {i : Nat} (small : i < 384) := t.argumentSlot_toNat small inside
  have field {f : UInt64} (hf : f.toNat < 0x1000) :
      (t.base + f).toNat = t.base.toNat + f.toNat := toNat_add_of_lt (by omega)
  simp only [callWrites, argumentWrites, resetWrites, List.mem_append, List.mem_map, List.mem_cons,
    List.not_mem_nil, or_false] at hx
  rcases hx with ⟨p, hp, rfl⟩ | rfl | rfl | rfl | rfl | rfl | rfl
  · have bound := (List.mem_zipIdx hp).2.1
    have index : Vm.parameterSlot + p.2.toUInt64 = (2 + p.2).toUInt64 := (UInt64.ofNat_add 2 p.2).symm
    refine ⟨0x400 + 8 * (2 + p.2), ?_, ?_, .inr (.inr (by omega))⟩
    · dsimp only
      rw [index]
      exact slot (by omega)
    · change _ + 8 ≤ 0x1000
      omega
  · exact ⟨0x400, slot (by decide), by dsimp only; decide, .inr (.inr (by decide))⟩
  · have first : (t.argumentSlot Vm.resultSlot).toNat = t.base.toNat + 0x400 := slot (by decide)
    refine ⟨0x408, ?_, by dsimp only; decide, .inr (.inr (by decide))⟩
    dsimp only
    rw [toNat_add_of_lt (by rw [first]; change _ + 8 < _; omega), first]
    rfl
  · exact ⟨80, field (by decide), by dsimp only; decide, .inr (.inr (by decide))⟩
  · exact ⟨0, field (by decide), by dsimp only; decide, .inl (by dsimp only; decide)⟩
  · exact ⟨8, field (by decide), by dsimp only; decide, .inl (by dsimp only; decide)⟩
  · exact ⟨40, field (by decide), by dsimp only; decide, .inr (.inl ⟨rfl, rfl⟩)⟩

/-- The last frame, the requests to the thread, the mark of a popped frame and the state of the guard
    zones are as they were. -/
theorem load_callWrites {f : UInt64} {k : Nat} (few : words.length ≤ 382)
    (inside : t.base.toNat + 0x1000 < 2 ^ 64)
    (kept : 16 ≤ f.toNat ∧ f.toNat + k ≤ 40 ∨ 44 ≤ f.toNat ∧ f.toNat + k ≤ 80) :
    load ((t.callWrites words).foldl Machine.write m).bytes (t.base + f).toNat k =
      load m.bytes (t.base + f).toNat k := by
  have field : (t.base + f).toNat = t.base.toNat + f.toNat := toNat_add_of_lt (by omega)
  refine Guarded.load_foldl fun x hx => ?_
  obtain ⟨i, address, -, place⟩ := of_mem_callWrites hx few inside
  have four : (4 : UInt64).toNat = 4 := rfl
  rcases place with low | ⟨rfl, width⟩ | high
  · omega
  · rw [width]
    omega
  · omega

/-- No exception is on its way any more. -/
theorem exceptionIn_callWrites (inside : t.base.toNat + 0x1000 < 2 ^ 64)
    (clear : m.Clear t.base.toNat (t.base.toNat + 0x1000)) :
    t.exceptionIn ((t.callWrites words).foldl Machine.write m) = 0 := by
  have eight : (8 : UInt64).toNat = 8 := rfl
  have four : (4 : UInt64).toNat = 4 := rfl
  have zero : (t.base + pendingException).toNat = t.base.toNat := congrArg _ (UInt64.add_zero _)
  have first : (t.base + vmResult).toNat = t.base.toNat + 8 := toNat_add_of_lt (by
    change _ + 8 < _
    omega)
  have second : (t.base + threadState).toNat = t.base.toNat + 40 := toNat_add_of_lt (by
    change _ + 40 < _
    omega)
  have split : t.callWrites words = (t.argumentWrites words ++ t.resetWrites.take 3) ++
      [⟨t.base + pendingException, 8, 0⟩] ++ t.resetWrites.drop 4 := by
    rw [callWrites, List.append_assoc, List.append_assoc]
    rfl
  rw [exceptionIn, split, List.foldl_append, List.foldl_append]
  refine (Guarded.load_foldl (j := (t.base + pendingException).toNat) fun x hx => ?_).trans ?_
  · rw [zero]
    simp only [resetWrites, List.drop_succ_cons, List.drop_zero, List.mem_cons, List.not_mem_nil,
      or_false] at hx
    rcases hx with rfl | rfl <;> dsimp only <;> omega
  · have alike := Guarded.alike_foldl (m := m) (l := t.argumentWrites words ++ t.resetWrites.take 3)
    have there := clear.congr alike.size alike.guards
    exact Guarded.load_put (there.open (a := t.base + pendingException) (by omega) (by omega))

/-- Preparing the thread is these writes, if the block is there. -/
theorem prepareThread_ok (few : words.length ≤ 382) (inside : t.base.toNat + 0x1000 < 2 ^ 64)
    (clear : m.Clear t.base.toNat (t.base.toNat + 0x1000))
    (readable : m.Open (a + MethodRecord.fromInterpreted) 8)
    (below : (a + MethodRecord.fromInterpreted).toNat + 8 ≤ t.base.toNat) :
    Vm.prepareThread t a words m =
      .ok (load m.bytes (a + MethodRecord.fromInterpreted).toNat 8)
        ((t.callWrites words).foldl Machine.write m) := by
  have ok {m' : Guarded} (alike : m.Alike m') {x : Write} (hx : x ∈ t.callWrites words) :
      m'.Open x.address x.width := by
    obtain ⟨k, address, bound, -⟩ := of_mem_callWrites hx few inside
    exact (clear.congr alike.size alike.guards).open (by omega) (by omega)
  have reset {m' : Guarded} (alike : m.Alike m') {x : Write} (hx : x ∈ t.resetWrites) :
      Guarded.write x.address x.width x.value m' = .ok () (Machine.write m' x) ∧
        m.Alike (Machine.write m' x) :=
    ⟨(ok alike (List.mem_append_right _ hx)).write, alike.put⟩
  have passed := Guarded.forM_write_ok (m := m) words.zipIdx
    (f := fun p => ⟨t.argumentSlot (Vm.parameterSlot + p.2.toUInt64), 8, p.1⟩) fun p hp =>
      ok (.refl m) (List.mem_append_left _ (List.mem_map_of_mem hp))
  have entry : load ((t.argumentWrites words).foldl Machine.write m).bytes
      (a + MethodRecord.fromInterpreted).toNat 8 =
        load m.bytes (a + MethodRecord.fromInterpreted).toNat 8 := by
    refine Guarded.load_foldl fun x hx => ?_
    obtain ⟨k, address, -, -⟩ := of_mem_callWrites (List.mem_append_left _ hx) few inside
    omega
  have alike := Guarded.alike_foldl (m := m) (l := t.argumentWrites words)
  rw [callWrites, List.foldl_append]
  change _ = EStateM.Result.ok () ((t.argumentWrites words).foldl Machine.write m) at passed
  generalize (t.argumentWrites words).foldl Machine.write m = m₁ at passed entry alike ⊢
  obtain ⟨w₁, alike⟩ := reset alike (x := ⟨t.argumentSlot Vm.resultSlot, 8, 0⟩)
    (by simp [resetWrites])
  obtain ⟨w₂, alike⟩ := reset alike (x := ⟨t.argumentSlot Vm.resultSlot + 8, 8, 0⟩)
    (by simp [resetWrites])
  have read := (readable.alike alike).readA
  obtain ⟨w₃, alike⟩ := reset alike (x := ⟨t.base + activeHandles, 8, t.base + handles⟩)
    (by simp [resetWrites])
  obtain ⟨w₄, alike⟩ := reset alike (x := ⟨t.base + pendingException, 8, 0⟩)
    (by simp [resetWrites])
  obtain ⟨w₅, alike⟩ := reset alike (x := ⟨t.base + vmResult, 8, 0⟩) (by simp [resetWrites])
  obtain ⟨w₆, -⟩ := reset alike
    (x := ⟨t.base + threadState, 4, ThreadState.inGuest.code.toUInt64⟩) (by simp [resetWrites])
  have handled : t.resetHandles _ = .ok (t.base + handles) _ := Vm.bind_ok w₃
  have same : load _ (a + MethodRecord.fromInterpreted).toNat 8 =
      load m.bytes (a + MethodRecord.fromInterpreted).toNat 8 :=
    (Guarded.load_foldl (m := m₁) (l := t.resetWrites.take 2) fun x hx => ?_).trans entry
  · rw [← same]
    exact (Vm.bind_ok (m := words.zipIdx.forM _) passed).trans <| (Vm.bind_ok w₁).trans <|
      (Vm.bind_ok w₂).trans <| (Vm.bind_ok read).trans <| (Vm.bind_ok handled).trans <|
      (Vm.bind_ok w₄).trans <| (Vm.bind_ok w₅).trans <| (Vm.bind_ok w₆).trans rfl
  · have member : x ∈ t.callWrites words :=
      List.mem_append_right _ (List.mem_of_mem_take hx)
    obtain ⟨k, address, -, -⟩ := of_mem_callWrites member few inside
    omega

end ThreadBlock

/-! ## The registers -/

/-- Registers that are set have no influence. -/
theorem Cpu.foldl_setReg_congr {c c' : Cpu} {l : List (Register × UInt64)} (p : UInt64)
    (other : ∀ k : Fin 33, (∀ x ∈ l, x.1 ≠ .zero → x.1.number ≠ k) → c'.x[k] = c.x[k])
    (floats : c'.v = c.v) (flags : c'.flags = c.flags) :
    ({ l.foldl (fun c x => c.setReg x.1 x.2) c' with pc := p } : Cpu) =
      { l.foldl (fun c x => c.setReg x.1 x.2) c with pc := p } := by
  induction l generalizing c c' with
  | nil =>
    have same : c'.x = c.x := Vector.ext fun k hk => other ⟨k, hk⟩ nofun
    simp only [List.foldl_nil, same, floats, flags]
  | cons x l ih =>
    obtain ⟨r, n⟩ := x
    refine ih (fun k beside => ?_) ?_ ?_
    · change (c'.setReg r n).x[k] = (c.setReg r n).x[k]
      unfold setReg
      split
      · next zero =>
        refine other k fun y hy proper => ?_
        rcases List.mem_cons.mp hy with rfl | hy
        · exact absurd zero proper
        · exact beside y hy proper
      · next proper =>
        change (c'.x.set r.number n)[k.val] = (c.x.set r.number n)[k.val]
        rw [Vector.getElem_set, Vector.getElem_set]
        split
        · rfl
        · next apart =>
          refine other k fun y hy proper => ?_
          rcases List.mem_cons.mp hy with rfl | hy
          · exact fun here => apart (congrArg Fin.val here)
          · exact beside y hy proper
    · change (c'.setReg r n).v = (c.setReg r n).v
      unfold setReg
      split <;> exact floats
    · rw [flags_setReg, flags_setReg, flags]

namespace Vm

variable {v v' : Vm} {id : MethodId} {words : List UInt64}

/-- The registers in which the call stub finds its arguments, and those of an empty stack. -/
def setByCall : List Register := [.x0, .x1, .x2, .x3, .x4, .x5, .frame, .sp, .link]

/-- What a call has in them. -/
def callRegisters (v : Vm) (id : MethodId) (words : List UInt64) : List (Register × UInt64) :=
  let t : ThreadBlock := ⟨v.map.thread⟩
  let m := v.world.classes.method id
  [(.x0, t.argumentSlot resultSlot), (.x1, m.address),
    (.x2, load v.world.store.mem.bytes (m.address + MethodRecord.fromInterpreted).toNat 8),
    (.x3, t.argumentSlot parameterSlot), (.x4, words.length.toUInt64), (.x5, t.base), (.frame, 0),
    (.sp, v.map.stackBase &&& ~~~15), (.link, Place.hostReturn)]

/-- The machine as the run of a call begins. -/
def atCall (v : Vm) (id : MethodId) (words : List UInt64) : Vm :=
  { v.withMemory ((ThreadBlock.callWrites ⟨v.map.thread⟩ words).foldl Machine.write
      v.world.store.mem) with
    preserved := none
    processor := { v.processor with
      steps := 0
      cpu := { (v.callRegisters id words).foldl (fun c x => c.setReg x.1 x.2) v.processor.cpu with
        pc := v.image.stubs.callStub } } }

/-- The method is there, and so are the words that it takes, for which the block has room. -/
structure Callable (v : Vm) (id : MethodId) (words : List UInt64) : Prop where
  known : id < v.world.classes.methods.size
  readable : v.world.store.mem.Open
    ((v.world.classes.method id).address + MethodRecord.fromInterpreted) 8
  fits : words.length = (v.world.classes.method id).parameterWords
  few : words.length ≤ 382

theorem Callable.below (h : v.Callable id words) (mapped : v.Mapped) :
    ((v.world.classes.method id).address + MethodRecord.fromInterpreted).toNat + 8 ≤
      v.map.thread.toNat := by
  have record := (mapped.booted.sound.within.methods _ (ClassTable.method_mem h.known)).record
  have top := mapped.booted.sound.writable.region.top_le
  have metaspace := mapped.metaspace
  have limit := v.map.thread.toNat_lt
  have offset : MethodRecord.fromInterpreted.toNat = 16 := rfl
  rw [toNat_add_of_lt (by omega)]
  omega

/-- The block ends before addresses do. -/
theorem Mapped.block_lt (mapped : v.Mapped) : v.map.thread.toNat + 0x1000 < 2 ^ 64 := by
  have thread := mapped.ordered.thread
  have stack := mapped.ordered.stack
  have size := mapped.ordered.size
  have limit := v.map.size.toNat_lt
  have page : Place.threadSize.toNat = 0x1000 := rfl
  omega

/-- A call begins with no exception on its way and with nothing kept, and with the mark of a popped
    frame as it was. -/
theorem Callable.begins (h : v.Callable id words) (mapped : v.Mapped) :
    (v.atCall id words).exception = 0 ∧ (v.atCall id words).preserved = none ∧
      (v.atCall id words).framePop = v.framePop :=
  ⟨ThreadBlock.exceptionIn_callWrites mapped.block_lt mapped.block, rfl,
    ThreadBlock.popIn_congr (ThreadBlock.load_callWrites h.few mapped.block_lt (.inr (by decide)))⟩

/-- A call is a run from there. -/
theorem invoke_eq (mapped : v.Mapped) {arguments : List Value}
    (callable : v.Callable id (arguments.flatMap Value.stackWords)) : invoke id arguments v =
      (do runGuest; outcome (v.world.classes.method id).descriptor.result)
        (v.atCall id (arguments.flatMap Value.stackWords)) := by
  have prepared := ThreadBlock.prepareThread_ok (t := ⟨v.map.thread⟩) callable.few
    mapped.block_lt mapped.block callable.readable (callable.below mapped)
  have entered : onThread (prepareThread · (v.world.classes.method id).address
      (arguments.flatMap Value.stackWords)) v = _ := onThread_withMemory prepared
  unfold invoke
  refine (bind_ok (m := classes) rfl).trans ?_
  refine (congrFun (if_neg (not_not.mpr callable.fits)) v).trans ?_
  exact (bind_ok entered).trans rfl

/-! ## What has no influence -/

/-- The machines differ at most in what a call with these words of arguments writes before it runs:
    words of the block, registers of the call stub and the address, the count of steps, and what was
    kept of a popped frame. -/
structure AlikeBefore (words : List UInt64) (v v' : Vm) : Prop where
  rest : v' = { v.withMemory v'.world.store.mem with
    preserved := v'.preserved
    processor := { v.processor with
      steps := v'.processor.steps
      cpu := v'.processor.cpu } }
  memory : v.world.store.mem.AgreesBut (ThreadBlock.callWrites ⟨v.map.thread⟩ words)
    v'.world.store.mem
  registers : ∀ k : Fin 33, (∀ r ∈ setByCall, r.number ≠ k) →
    v'.processor.cpu.x[k] = v.processor.cpu.x[k]
  floats : v'.processor.cpu.v = v.processor.cpu.v
  flags : v'.processor.cpu.flags = v.processor.cpu.flags

namespace AlikeBefore

variable (h : v.AlikeBefore words v')
include h

theorem map : v'.map = v.map := by rw [h.rest]; rfl

theorem world : v'.world = (v.withMemory v'.world.store.mem).world := by
  conv_lhs => rw [h.rest]

theorem mapped (mapped : v.Mapped) : v'.Mapped :=
  (mapped.alike h.memory.alike).congr h.map h.world

/-- No call writes into the record of its method. -/
theorem entry (callable : v.Callable id words) (mapped : v.Mapped) :
    load v'.world.store.mem.bytes
        ((v.world.classes.method id).address + MethodRecord.fromInterpreted).toNat 8 =
      load v.world.store.mem.bytes
        ((v.world.classes.method id).address + MethodRecord.fromInterpreted).toNat 8 := by
  have below := callable.below mapped
  refine Memory.load_congr fun j _ hj => h.memory.bytes j fun x hx covers => ?_
  obtain ⟨k, address, -, -⟩ := ThreadBlock.of_mem_callWrites hx callable.few mapped.block_lt
  have lo := covers.1
  dsimp only at address
  omega

/-- A call begins in the same way. -/
theorem atCall (callable : v.Callable id words) (mapped : v.Mapped) :
    v'.atCall id words = v.atCall id words := by
  let begun (m : Guarded) (c : Cpu) : Vm :=
    { v.withMemory m with preserved := none, processor := { v.processor with steps := 0, cpu := c } }
  have registers : v'.callRegisters id words = v.callRegisters id words := by
    unfold callRegisters
    rw [h.map, show v'.world.classes = v.world.classes by rw [h.world]; rfl]
    dsimp only
    rw [h.entry callable mapped]
  have start : v'.atCall id words =
      begun ((ThreadBlock.callWrites ⟨v.map.thread⟩ words).foldl Machine.write v'.world.store.mem)
        { (v'.callRegisters id words).foldl (fun c x => c.setReg x.1 x.2) v'.processor.cpu with
          pc := v.image.stubs.callStub } := by
    rw [h.rest]
    rfl
  rw [start, h.memory.foldl, registers]
  refine congrArg (begun _) (Cpu.foldl_setReg_congr _ (fun k beside => ?_) h.floats h.flags)
  refine h.registers k fun r hr => ?_
  have proper : ∀ r ∈ setByCall, r ≠ .zero := by decide
  have all : (v.callRegisters id words).map Prod.fst = setByCall := rfl
  obtain ⟨x, member, rfl⟩ := List.mem_map.mp (all ▸ hr)
  exact beside x member (proper _ hr)

end AlikeBefore

/-- Whatever an earlier call has left there, the next one goes the same way: it ends alike, and the
    machine is the same afterwards. -/
theorem invoke_congr (mapped : v.Mapped) {arguments : List Value}
    (callable : v.Callable id (arguments.flatMap Value.stackWords))
    (alike : v.AlikeBefore (arguments.flatMap Value.stackWords) v') :
    invoke id arguments v' = invoke id arguments v := by
  have world := alike.world
  have classes : v'.world.classes = v.world.classes := by rw [world]; rfl
  have callable' : v'.Callable id (arguments.flatMap Value.stackWords) := by
    refine ⟨?_, ?_, ?_, callable.few⟩
    · rw [classes]
      exact callable.known
    · rw [classes]
      exact callable.readable.alike alike.memory.alike
    · rw [classes]
      exact callable.fits
  rw [invoke_eq mapped callable, invoke_eq (alike.mapped mapped) callable', classes,
    alike.atCall callable mapped]

/-- So it is for all that the host can have done before, calls that failed among it. -/
theorem Hosted.invoke_congr {settings : Settings} (h : Hosted settings v)
    (ordered : (MemoryMap.ofSettings settings).Ordered) {arguments : List Value}
    (callable : v.Callable id (arguments.flatMap Value.stackWords))
    (alike : v.AlikeBefore (arguments.flatMap Value.stackWords) v') :
    invoke id arguments v' = invoke id arguments v :=
  Vm.invoke_congr (h.rests ordered).mapped callable alike

end Vm
end TemplateVm
