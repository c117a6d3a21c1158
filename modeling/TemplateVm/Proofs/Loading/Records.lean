import TemplateVm.Class.Loading
import TemplateVm.Proofs.Memory.Copies

set_option autoImplicit false

/-!
# Writing records

The records of a class and of its methods go into fresh blocks of the metaspace, each of which costs
its size and what aligns it. Writing them either succeeds or finds that the metaspace might not hold
them, and in both cases changes no byte that was handed out before.
-/
namespace TemplateVm

open Memory (Guarded)

namespace World

/-- At most `k` more bytes of the metaspace are in use, and nothing else has changed. -/
structure Fills (k : Nat) (w w' : World) : Prop where
  heap : w'.store.heap = w.store.heap
  table : w'.classes = { w.classes with metaspace := w'.classes.metaspace }
  start : w'.classes.metaspace.start = w.classes.metaspace.start
  stop : w'.classes.metaspace.stop = w.classes.metaspace.stop
  top_le : w.classes.metaspace.top.toNat ≤ w'.classes.metaspace.top.toNat
  inside : w'.classes.metaspace.top.toNat ≤ w.classes.metaspace.stop.toNat
  slack : w'.classes.metaspace.top.toNat ≤ w.classes.metaspace.top.toNat + k
  mem : w.store.mem.Changed w'.store.mem w.classes.metaspace.top.toNat
    w'.classes.metaspace.top.toNat

/-- Records can be written. -/
structure Writable (w : World) : Prop where
  region : w.classes.metaspace.Sound
  clear : w.store.mem.Clear w.classes.metaspace.start.toNat w.classes.metaspace.stop.toNat

/-- The metaspace might not hold `k` more bytes. -/
def Short (k : Nat) (w : World) : Prop :=
  w.classes.metaspace.stop.toNat < w.classes.metaspace.top.toNat + k

variable {w w' w'' : World} {k l : Nat}

theorem Fills.refl (writable : w.Writable) : Fills k w w :=
  ⟨rfl, rfl, rfl, rfl, Nat.le_refl _, writable.region.top_le, by omega, .refl ..⟩

theorem Fills.trans (h : Fills k w w') (h' : Fills l w' w'') : Fills (k + l) w w'' where
  heap := h'.heap.trans h.heap
  table := by rw [h'.table, h.table]
  start := h'.start.trans h.start
  stop := h'.stop.trans h.stop
  top_le := Nat.le_trans h.top_le h'.top_le
  inside := by rw [← h.stop]; exact h'.inside
  slack := by
    have := h.slack
    have := h'.slack
    omega
  mem := (h.mem.mono (Nat.le_refl _) h'.top_le).trans (h'.mem.mono h.top_le (Nat.le_refl _))

theorem Fills.mono (h : Fills k w w') (le : k ≤ l) : Fills l w w' :=
  { h with slack := Nat.le_trans h.slack (Nat.add_le_add_left le _) }

theorem Fills.writable (h : Fills k w w') (writable : w.Writable) : w'.Writable where
  region := by
    have := writable.region.start_le
    have := h.top_le
    refine ⟨?_, ?_, ?_⟩
    · rw [h.start]
      omega
    · rw [h.stop]
      exact h.inside
    · rw [h.stop]
      exact writable.region.below
  clear := by
    rw [h.start, h.stop]
    exact writable.clear.changed h.mem

/-- What is short after some bytes are used was short before, with those bytes. -/
theorem Fills.short (h : Fills k w w') (short : Short l w') : Short (k + l) w := by
  have := h.slack
  unfold Short at short ⊢
  rw [h.stop] at short
  omega

theorem Short.mono (h : Short k w) (le : k ≤ l) : Short l w := by
  unfold Short at h ⊢
  omega

theorem onMemory_ends {α : Type} {action : Guarded.Action α} {P : α → Guarded → Prop}
    {F : Failure → Guarded → Prop} (h : Ends P F (action w.store.mem)) :
    Ends (fun x w' => ∃ m, P x m ∧ w' = { w with store := { w.store with mem := m } })
      (fun e w' => ∃ m, F e m ∧ w' = { w with store := { w.store with mem := m } })
      (World.onMemory action w) := by
  unfold World.onMemory onStore Memory.Store.onMemory
  refine (Ends.zoom (Ends.zoom h)).mono ?_ ?_
  · rintro _ _ ⟨_, ⟨m, holds, rfl⟩, rfl⟩
    exact ⟨m, holds, rfl⟩
  · rintro _ _ ⟨_, ⟨m, holds, rfl⟩, rfl⟩
    exact ⟨m, holds, rfl⟩

/-! ## Blocks -/

/-- What may be left of an action that writes records: they are there, or the metaspace is short. -/
def Refused (k : Nat) (w : World) : Failure → World → Prop
  | e, w' => Fills k w w' ∧ Short k w ∧ ∃ what, e = .internal what

theorem Refused.mono {e : Failure} (h : Refused k w e w') (le : k ≤ l) : Refused l w e w' :=
  ⟨h.1.mono le, h.2.1.mono le, h.2.2⟩

theorem Fills.refused {e : Failure} (h : Fills k w w') (refused : Refused l w' e w'') :
    Refused (k + l) w e w'' :=
  ⟨h.trans refused.1, h.short refused.2.1, refused.2.2⟩

theorem reserve_ends (writable : w.Writable) (size : UInt64) :
    Ends (fun a w' => Fills (size.toNat + 7) w w' ∧ w'.store = w.store ∧
        w.classes.metaspace.top.toNat ≤ a.toNat ∧
        a.toNat + size.toNat = w'.classes.metaspace.top.toNat)
      (Refused (size.toNat + 7) w) (reserve size w) := by
  unfold reserve
  refine Ends.get_bind ?_
  rcases writable.region.allocate? size with ⟨a, r, taken, block⟩ | ⟨refused, short⟩
  · simp only [taken]
    refine Ends.modify_bind ⟨?_, rfl, block.behind, block.block⟩
    exact ⟨rfl, rfl, block.start, block.stop, by
      have := block.behind
      have := block.block
      change _ ≤ r.top.toNat
      omega, block.inside, block.slack, .refl ..⟩
  · simp only [refused]
    exact ⟨.refl writable, short, _, rfl⟩

/-- Writes into the blocks that were taken last. -/
theorem Fills.onMemory {action : Guarded.Action Unit} (h : Fills k w w') (writable : w.Writable)
    (within : Guarded.Within w.classes.metaspace.top.toNat w'.classes.metaspace.top.toNat action) :
    Ends (fun _ w'' => Fills k w w'' ∧ w''.classes = w'.classes) (fun _ _ => False)
      (World.onMemory action w') := by
  have clear := (writable.clear.mono writable.region.start_le h.inside).changed h.mem
  refine (onMemory_ends (within w'.store.mem clear)).mono ?_ fun _ _ ⟨_, nothing, _⟩ => nothing
  rintro _ _ ⟨m, changed, rfl⟩
  exact ⟨{ h with mem := h.mem.trans changed }, rfl⟩

/-! ## Records of a class -/

/-- What the record of a class tells: its superclass, the slots of its instances, and its number. -/
structure HeadedBy (m : Guarded) (a superAddress : UInt64) (slots id : Nat) : Prop where
  super : Memory.load m.bytes a.toNat 8 = superAddress
  slots : Memory.load m.bytes (a.toNat + 16) 4 = slots.toUInt64.toUInt32.toUInt64
  id : Memory.load m.bytes (a.toNat + 20) 4 = id.toUInt64.toUInt32.toUInt64

/-- Between the superclass and the slots is the class object, which may come later. -/
theorem HeadedBy.agrees {m m' : Guarded} {a superAddress : UInt64} {slots id : Nat}
    (h : HeadedBy m a superAddress slots id) (first : m.Agrees m' a.toNat (a.toNat + 8))
    (last : m.Agrees m' (a.toNat + 16) (a.toNat + 24)) : HeadedBy m' a superAddress slots id where
  super := (first.load (Nat.le_refl _) (Nat.le_refl _)).trans h.super
  slots := (last.load (by omega) (by omega)).trans h.slots
  id := (last.load (by omega) (by omega)).trans h.id

theorem write_head (m : Guarded) {a : UInt64} (fits : a.toNat + 24 < 2 ^ 64)
    (superAddress : UInt64) (slots id : Nat) :
    Ends (fun _ m' => HeadedBy m' a superAddress slots id) (fun _ _ => True)
      ((do
        Guarded.write (a + ClassRecord.super) 8 superAddress
        Guarded.write (a + ClassRecord.instanceSlots) 4 slots.toUInt64
        Guarded.write (a + ClassRecord.id) 4 id.toUInt64 : Guarded.Action Unit) m) := by
  have write (m : Guarded) (a w v : UInt64) :
      Ends (fun _ m' => m.Open a w ∧ m' = m.put a w v) (fun _ _ => True)
        (Guarded.write a w v m) := by
    cases ran : Guarded.write a w v m with
    | ok => exact Guarded.of_write ran
    | error => trivial
  have first : (a + ClassRecord.super).toNat = a.toNat := toNat_add_of_lt (k := 0) (by simp; omega)
  have second : (a + ClassRecord.instanceSlots).toNat = a.toNat + 16 :=
    toNat_add_of_lt (k := 16) (by simp; omega)
  have third : (a + ClassRecord.id).toNat = a.toNat + 20 :=
    toNat_add_of_lt (k := 20) (by simp; omega)
  have eight : (8 : UInt64).toNat = 8 := rfl
  have four : (4 : UInt64).toNat = 4 := rfl
  refine (write _ _ _ _).bind (fun _ _ _ => trivial) ?_
  rintro _ m₁ ⟨open₁, rfl⟩
  refine (write _ _ _ _).bind (fun _ _ _ => trivial) ?_
  rintro _ m₂ ⟨open₂, rfl⟩
  refine (write _ _ _ _).mono ?_ fun _ _ _ => trivial
  rintro _ m₃ ⟨open₃, rfl⟩
  refine ⟨?_, ?_, ?_⟩
  · rw [Guarded.load_put_of_disjoint (by omega), Guarded.load_put_of_disjoint (by omega), ← first]
    exact Guarded.load_put open₁
  · rw [Guarded.load_put_of_disjoint (by omega), ← second]
    exact Guarded.load_put_word open₂
  · rw [← third]
    exact Guarded.load_put_word open₃

theorem writeClass_ends (writable : w.Writable) (superAddress : UInt64) (slots id : Nat) :
    Ends (fun a w' => Fills 31 w w' ∧ w.classes.metaspace.top.toNat ≤ a.toNat ∧
        a.toNat + 24 ≤ w'.classes.metaspace.top.toNat ∧
        HeadedBy w'.store.mem a superAddress slots id)
      (Refused 31 w) (writeClass superAddress slots id w) := by
  unfold writeClass
  refine (reserve_ends writable ClassRecord.size).bind (fun _ _ h => h) ?_
  rintro a w₁ ⟨fills, -, behind, block⟩
  have size : ClassRecord.size.toNat = 24 := rfl
  have below := w₁.classes.metaspace.top.toNat_lt
  have inside := (fills.writable writable).region.top_le
  have limit := (fills.writable writable).region.below
  have field {k width v : UInt64} (h : k.toNat + width.toNat ≤ 24) :
      Guarded.Within w.classes.metaspace.top.toNat w₁.classes.metaspace.top.toNat
        (Guarded.write (a + k) width v) := by
    have address : (a + k).toNat = a.toNat + k.toNat := toNat_add_of_lt (by omega)
    exact .write (by omega) (by omega)
  refine Ends.bind (Ends.and (fills.onMemory writable ?_)
    (onMemory_ends (write_head _ (by omega) superAddress slots id))) (fun _ _ h => h.1.elim) ?_
  · exact (field (by decide)).bind fun _ => (field (by decide)).bind fun _ => field (by decide)
  · rintro _ w₂ ⟨⟨fills', table⟩, m, headed, rfl⟩
    refine ⟨fills', behind, ?_, headed⟩
    rw [table]
    omega

theorem entryField_toNat {i : Nat} (h : i < 2 ^ 59 - 1) {k : UInt64} (hk : k.toNat < 32) :
    (CacheRecord.entryField i.toUInt64 k).toNat = 16 + 32 * i + k.toNat := by
  have index : i.toUInt64.toNat = i := UInt64.toNat_ofNat_of_lt' (by change i < 2 ^ 64; omega)
  have base : CacheRecord.base.toNat = 16 := rfl
  have size : CacheRecord.entrySize.toNat = 32 := rfl
  unfold CacheRecord.entryField
  rw [UInt64.toNat_add, UInt64.toNat_add, UInt64.toNat_mul, index, base, size]
  omega

/-- Bytes that the records of a constant pool and of its cache may take. -/
def poolCost (length : Nat) : Nat := 54 + 32 * length

theorem writePool_ends (writable : w.Writable) (holder : UInt64) {length : Nat}
    (small : length < 2 ^ 58) :
    Ends (fun p w' => Fills (poolCost length) w w' ∧
        p.1.toNat + 24 ≤ w'.classes.metaspace.top.toNat ∧
        w.classes.metaspace.top.toNat ≤ p.2.toNat ∧
        p.2.toNat + 16 + 32 * length ≤ w'.classes.metaspace.top.toNat ∧
        ∀ i < length, Memory.load w'.store.mem.bytes (p.2.toNat + 16 + 32 * i) 4 =
          i.toUInt64.toUInt32.toUInt64)
      (Refused (poolCost length) w) (writePool holder length w) := by
  have count : length.toUInt64.toNat = length :=
    UInt64.toNat_ofNat_of_lt' (Nat.lt_trans small (by decide))
  have poolSize : PoolRecord.size.toNat = 24 := rfl
  have cacheSize : (CacheRecord.entryField length.toUInt64 0).toNat = 16 + 32 * length :=
    entryField_toNat (by omega) (by decide)
  unfold writePool
  refine (reserve_ends writable PoolRecord.size).bind
    (fun _ _ h => h.mono (by unfold poolCost; omega)) ?_
  rintro pool w₁ ⟨fills₁, same, behind₁, block₁⟩
  refine (reserve_ends (fills₁.writable writable) _).bind
    (fun _ _ h => (fills₁.refused h).mono (by unfold poolCost; omega)) ?_
  rintro cache w₂ ⟨fills₂, -, behind₂, block₂⟩
  have fills := fills₁.trans fills₂
  have below := w₂.classes.metaspace.top.toNat_lt
  have top := fills₁.top_le
  have poolField {k width v : UInt64} (h : k.toNat + width.toNat ≤ 24) :
      Guarded.Within w.classes.metaspace.top.toNat w₂.classes.metaspace.top.toNat
        (Guarded.write (pool + k) width v) := by
    have address : (pool + k).toNat = pool.toNat + k.toNat := toNat_add_of_lt (by omega)
    exact .write (by omega) (by omega)
  have cacheField {k width v : UInt64} (h : k.toNat + width.toNat ≤ 16 + 32 * length) :
      Guarded.Within w.classes.metaspace.top.toNat w₂.classes.metaspace.top.toNat
        (Guarded.write (cache + k) width v) := by
    have address : (cache + k).toNat = cache.toNat + k.toNat := toNat_add_of_lt (by omega)
    exact .write (by omega) (by omega)
  have place {i : Nat} (h : i < length) :
      (cache + CacheRecord.entryField i.toUInt64 CacheRecord.index).toNat =
        cache.toNat + 16 + 32 * i := by
    have index : CacheRecord.index.toNat = 0 := rfl
    have offset := entryField_toNat (i := i) (by omega) (k := CacheRecord.index) (by decide)
    rw [toNat_add_of_lt (by omega), offset]
    omega
  have apart : (List.range length).Pairwise fun i j =>
      (cache + CacheRecord.entryField i.toUInt64 CacheRecord.index).toNat + 4 ≤
        (cache + CacheRecord.entryField j.toUInt64 CacheRecord.index).toNat := by
    refine List.pairwise_lt_range.imp_of_mem fun hi hj lt => ?_
    rw [place (List.mem_range.mp hi), place (List.mem_range.mp hj)]
    omega
  refine Ends.bind (Ends.and (fills.onMemory writable ?_) (onMemory_ends
    (P := fun _ m => ∀ i ∈ List.range length, Memory.load m.bytes
      (cache + CacheRecord.entryField i.toUInt64 CacheRecord.index).toNat 4 =
        i.toUInt64.toUInt32.toUInt64)
    (F := fun _ _ => True) ?_)) (fun _ _ h => h.1.elim) ?_
  · refine (poolField (by decide)).bind fun _ => (poolField (by decide)).bind fun _ =>
      (poolField (by decide)).bind fun _ => ?_
    refine Guarded.Within.bind (.write (by omega) ?_) fun _ =>
      (cacheField ?_).bind fun _ => .forM fun i hi => ?_
    · change cache.toNat + 8 ≤ _
      omega
    · change 8 + 8 ≤ 16 + 32 * length
      omega
    · have lt := List.mem_range.mp hi
      refine cacheField ?_
      rw [entryField_toNat (by omega) (by decide)]
      change 16 + 32 * i + 0 + 4 ≤ _
      omega
  · exact .next fun _ _ => .next fun _ _ => .next fun _ _ => .next fun _ _ => .next fun _ m =>
      (Guarded.forM_write_holds apart m).mono (fun _ _ h => h.1) fun _ _ _ => trivial
  · rintro _ w₃ ⟨⟨h, table⟩, m, written, rfl⟩
    have top' := fills₂.top_le
    refine ⟨h.mono (by unfold poolCost; omega), ?_, ?_, ?_, fun i hi => ?_⟩
    · rw [table]
      change pool.toNat + 24 ≤ _
      omega
    · change _ ≤ cache.toNat
      omega
    · rw [table]
      change cache.toNat + 16 + _ ≤ _
      omega
    · have loaded := written i (List.mem_range.mpr hi)
      rwa [place hi] at loaded

/-! ## Records of a method -/

/-- Bytes that the constant part of a method with a body of the length may take. -/
def constMethodCost (length : Nat) : Nat := 16 + max length 1 + 7

theorem writeConstMethod_ends (writable : w.Writable) (pool : UInt64)
    (parameters maxLocals maxStack : UInt16) {code : List UInt8} (small : code.length < 2 ^ 63) :
    Ends (fun a w' => Fills (constMethodCost code.length) w w' ∧
        w.classes.metaspace.top.toNat ≤ a.toNat ∧
        a.toNat + 16 + code.length ≤ w'.classes.metaspace.top.toNat ∧
        Memory.bytesFrom w'.store.mem.bytes (a + ConstMethodRecord.code).toNat code.length = code)
      (Refused (constMethodCost code.length) w)
      (writeConstMethod pool parameters maxLocals maxStack code w) := by
  have size : (ConstMethodRecord.code + (max code.length 1).toUInt64).toNat =
      16 + max code.length 1 := by
    have header : ConstMethodRecord.code.toNat = 16 := rfl
    have body : (max code.length 1).toUInt64.toNat = max code.length 1 :=
      UInt64.toNat_ofNat_of_lt' (by change _ < 2 ^ 64; omega)
    rw [toNat_add_of_lt (by omega), header, body]
  unfold writeConstMethod
  refine (reserve_ends writable _).bind
    (fun _ _ h => h.mono (by unfold constMethodCost; omega)) ?_
  rintro a w₁ ⟨fills, -, behind, block⟩
  rw [size] at block
  have below := w₁.classes.metaspace.top.toNat_lt
  have field {k width v : UInt64} (h : k.toNat + width.toNat ≤ 16) :
      Guarded.Within w.classes.metaspace.top.toNat w₁.classes.metaspace.top.toNat
        (Guarded.write (a + k) width v) := by
    have address : (a + k).toNat = a.toNat + k.toNat := toNat_add_of_lt (by omega)
    exact .write (by omega) (by omega)
  have body : Guarded.Within w.classes.metaspace.top.toNat w₁.classes.metaspace.top.toNat
      (Guarded.writeBytes (a + ConstMethodRecord.code) code) := by
    have header : ConstMethodRecord.code.toNat = 16 := rfl
    have address : (a + ConstMethodRecord.code).toNat = a.toNat + 16 :=
      toNat_add_of_lt (by omega)
    exact .writeBytes (Nat.lt_trans small (by decide)) (by omega) (by omega)
  refine Ends.bind (Ends.and (fills.onMemory writable ?_) (onMemory_ends
    (P := fun _ m => Memory.bytesFrom m.bytes (a + ConstMethodRecord.code).toNat code.length = code)
    (F := fun _ _ => True) ?_)) (fun _ _ h => h.1.elim) ?_
  · exact (field (by decide)).bind fun _ => (field (by decide)).bind fun _ =>
      (field (by decide)).bind fun _ => (field (by decide)).bind fun _ =>
      (field (by decide)).bind fun _ => body
  · exact .next fun _ _ => .next fun _ _ => .next fun _ _ => .next fun _ _ => .next fun _ m =>
      Guarded.writeBytes_holds (Nat.lt_trans small (by decide)) m
  · rintro _ w₂ ⟨⟨fills', table⟩, m, held, rfl⟩
    refine ⟨fills'.mono (by unfold constMethodCost; omega), behind, ?_, held⟩
    rw [table]
    omega

end World
end TemplateVm
