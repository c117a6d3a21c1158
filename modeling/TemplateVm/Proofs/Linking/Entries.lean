import TemplateVm.Proofs.Layout.Entries
import TemplateVm.Proofs.Loading.Lookups
import TemplateVm.Proofs.Machine.Turns
import TemplateVm.Proofs.Memory.Access
import TemplateVm.Vm.Linking

set_option autoImplicit false

/-!
# Cache entries

An entry of a constant pool's cache has two bytes that name bytecodes it has been resolved for, and
three words with what these bytecodes need. The words come from the pool entry, and are the same for
all bytecodes that can use it, so that the bytecodes may resolve it one after the other.
-/
namespace TemplateVm

open Memory (Guarded load byteAt)
open Vm (Resolved)

/-! ## What a pool entry stands for -/

/-- The bytecode takes this kind of pool entry. -/
def PoolEntry.UsedBy : PoolEntry → Opcode → Prop
  | .fieldRef _, o => o = .getfield ∨ o = .putfield
  | .methodRef _, o => o = .invokestatic
  | .callSite _, o => o = .invokedynamic
  | .classRef _, o => o = .newInstance ∨ o = .checkcast

namespace ClassTable

variable {t t' : ClassTable} {id : ClassId} {entry : PoolEntry} {r : Resolved}

/-- The static method that a call is linked to. -/
def target? (t : ClassTable) (m : MemberRef) : Option Resolved := do
  let id ← t.find? m.holder
  let target ← t.findMethod? id m.name (some m.descriptor)
  if (t.method target).access.isStatic then some (.method (t.method target)) else none

/-- What a pool entry stands for, if all of it is loaded. -/
def stands? (t : ClassTable) : PoolEntry → Option Resolved
  | .fieldRef m => do
    let id ← t.find? m.holder
    (t.findField? id m.name m.descriptor).map .field
  | .methodRef m => t.target? m
  | .callSite m => t.target? m
  | .classRef name => (t.find? name).map fun id => .classRecord (t.get id).address

theorem lt_of_find? {name : String} (h : t.find? name = some id) : id < t.size :=
  (Array.findIdx?_eq_some_iff_getElem.mp h).1

theorem lt_of_findMethod? (coherent : t.Coherent) (known : id < t.size) {name : String}
    {descriptor : Option String} {m : MethodId}
    (h : t.findMethod? id name descriptor = some m) : m < t.methods.size := by
  obtain ⟨holder, ancestor, declared⟩ := List.exists_of_findSome?_eq_some h
  have listed := List.mem_of_find?_eq_some declared
  exact coherent _ (get_mem (Nat.lt_of_le_of_lt (Extends.le_of_mem_lineage ancestor) known)) m listed

theorem Extends.target?_of_some {m : MemberRef} (h : t.Extends t') (coherent : t.Coherent)
    (found : t.target? m = some r) : t'.target? m = some r := by
  obtain ⟨id, known, found⟩ := Option.bind_eq_some_iff.mp found
  obtain ⟨target, declared, found⟩ := Option.bind_eq_some_iff.mp found
  have size := lt_of_find? known
  refine Option.bind_eq_some_iff.mpr ⟨id, h.find?_of_some known,
    Option.bind_eq_some_iff.mpr ⟨target, ?_, ?_⟩⟩
  · rw [h.findMethod?_eq coherent size]
    exact declared
  · rw [h.method_eq (lt_of_findMethod? coherent size declared)]
    exact found

/-- What a pool entry has stood for, it stands for again, whatever was added since. -/
theorem Extends.stands?_of_some (h : t.Extends t') (coherent : t.Coherent)
    (found : t.stands? entry = some r) : t'.stands? entry = some r := by
  cases entry with
  | fieldRef m =>
    obtain ⟨id, known, found⟩ := Option.bind_eq_some_iff.mp found
    refine Option.bind_eq_some_iff.mpr ⟨id, h.find?_of_some known, ?_⟩
    rw [h.findField?_eq (lt_of_find? known)]
    exact found
  | methodRef m => exact h.target?_of_some coherent found
  | callSite m => exact h.target?_of_some coherent found
  | classRef name =>
    obtain ⟨id, known, rfl⟩ := Option.map_eq_some_iff.mp found
    refine Option.map_eq_some_iff.mpr ⟨id, h.find?_of_some known, ?_⟩
    rw [h.get_eq (lt_of_find? known)]

end ClassTable

/-! ## The words and the bytes -/

/-- The words of the entry at the address are those that are written for it. -/
def Vm.Resolved.Stored (b : ByteArray) (a : Nat) : Resolved → Prop
  | .field slot =>
    load b (a + 16) 8 = slot.offset ∧ load b (a + 24) 8 = packFlags 0 (.ofType slot.type)
  | .method m => load b (a + 8) 8 = m.address ∧
    load b (a + 24) 8 =
      packFlags m.parameterWords.toUInt64 (TopOfStack.ofType m.descriptor.result).ofResult
  | .classRecord address => load b (a + 8) 8 = address

/-- A bytecode named by the entry is one that can use it, and finds there what it stands for. -/
def CoherentAt (t : ClassTable) (b : ByteArray) (entry : PoolEntry) (a : Nat) : Prop :=
  ∀ k ∈ [2, 3], ∀ o : Opcode, o.isLinked = true → byteAt b (a + k) = o.byte →
    entry.UsedBy o ∧ ∃ r, t.stands? entry = some r ∧ r.Stored b a

/-- The entry names a bytecode. -/
def SetAt (b : ByteArray) (a : Nat) : Prop :=
  ∃ k ∈ [2, 3], ∃ o : Opcode, o.isLinked = true ∧ byteAt b (a + k) = o.byte

/-- The words of the entry. -/
def payloadAt (b : ByteArray) (a : Nat) : List UInt64 := [8, 16, 24].map fun k => load b (a + k) 8

variable {t t' : ClassTable} {entry : PoolEntry} {r : Resolved} {o : Opcode} {m m' : Guarded}
  {a : Nat}

/-! ### What keeps them -/

theorem load_word (same : m.Agrees m' (a + 8) (a + 32)) {k : Nat} (hk : 8 ≤ k ∧ k + 8 ≤ 32) :
    load m'.bytes (a + k) 8 = load m.bytes (a + k) 8 := same.load (by omega) (by omega)

theorem Vm.Resolved.Stored.agrees (h : r.Stored m.bytes a) (same : m.Agrees m' (a + 8) (a + 32)) :
    r.Stored m'.bytes a := by
  cases r with
  | field slot =>
    exact ⟨(load_word same (by decide)).trans h.1, (load_word same (by decide)).trans h.2⟩
  | method l =>
    exact ⟨(load_word same (by decide)).trans h.1, (load_word same (by decide)).trans h.2⟩
  | classRecord address => exact (load_word same (by decide)).trans h

theorem payloadAt_agrees (same : m.Agrees m' (a + 8) (a + 32)) :
    payloadAt m'.bytes a = payloadAt m.bytes a :=
  List.map_congr_left fun k hk => load_word same (by revert hk; simp; omega)

theorem CoherentAt.agrees (h : CoherentAt t m.bytes entry a) (same : m.Agrees m' a (a + 32))
    (grown : t.Extends t') (coherent : t.Coherent) : CoherentAt t' m'.bytes entry a := by
  intro k hk o linked named
  have near : k < 32 := by revert hk; simp; omega
  rw [same _ (Nat.le_add_right a k) (by omega)] at named
  obtain ⟨used, r, found, stored⟩ := h k hk o linked named
  exact ⟨used, r, grown.stands?_of_some coherent found,
    stored.agrees (same.mono (Nat.le_add_right a 8) (Nat.le_refl _))⟩

/-! ## Filling in -/

/-- The words of an entry have been written. -/
structure Worded (r : Resolved) (a : Nat) (m m' : Guarded) : Prop where
  changed : m.Changed m' (a + 8) (a + 32)
  stored : r.Stored m'.bytes a
  kept : r.Stored m.bytes a → payloadAt m'.bytes a = payloadAt m.bytes a

/-- The entry has been filled in. -/
structure Filled (entry : PoolEntry) (r : Resolved) (a : Nat) (m m' : Guarded) : Prop where
  changed : m.Changed m' a (a + 32)
  stored : r.Stored m'.bytes a
  kept : r.Stored m.bytes a → payloadAt m'.bytes a = payloadAt m.bytes a
  first : ∃ o, entry.UsedBy o ∧ byteAt m'.bytes (a + 2) = o.byte
  second : byteAt m'.bytes (a + 3) = byteAt m.bytes (a + 3) ∨
    ∃ o, entry.UsedBy o ∧ byteAt m'.bytes (a + 3) = o.byte

section
variable {p v v' : UInt64} (limit : p.toNat + 32 < 2 ^ 64) (clear : m.Clear p.toNat (p.toNat + 32))
include limit clear

theorem entryField {k w : UInt64} (inside : k.toNat + w.toNat ≤ 32) :
    (p + k).toNat = p.toNat + k.toNat ∧ m.Open (p + k) w := by
  have address : (p + k).toNat = p.toNat + k.toNat := toNat_add_of_lt (by omega)
  exact ⟨address, clear.open (by omega) (by omega)⟩

/-- A word that is written again with what it has had is as before. -/
theorem payloadAt_put {k : UInt64} (word : k.toNat ∈ [8, 16, 24])
    (same : load m.bytes (p.toNat + k.toNat) 8 = v) :
    payloadAt (m.put (p + k) 8 v).bytes p.toNat = payloadAt m.bytes p.toNat := by
  have eight : (8 : UInt64).toNat = 8 := rfl
  obtain ⟨address, ok⟩ := entryField limit clear (k := k) (w := 8) (by simp at word; omega)
  refine List.map_congr_left fun j hj => ?_
  by_cases here : j = k.toNat
  · rw [here, ← address, Guarded.load_put ok, address]
    exact same.symm
  · refine Guarded.load_put_of_disjoint ?_
    simp only [List.mem_cons, List.not_mem_nil, or_false] at word hj
    omega

/-- The one word of a class. -/
theorem worded_class (address : UInt64) :
    Worded (.classRecord address) p.toNat m (m.put (p + CacheRecord.f1) 8 address) := by
  obtain ⟨place, ok⟩ := entryField limit clear (k := CacheRecord.f1) (w := 8) (by decide)
  have offset : CacheRecord.f1.toNat = 8 := rfl
  refine ⟨(Guarded.changed_put m _ 8 address).mono (by omega) (by change _ + 8 ≤ _; omega), ?_, ?_⟩
  · have loaded := Guarded.load_put (v := address) ok
    rwa [place, offset] at loaded
  · exact payloadAt_put limit clear (k := CacheRecord.f1) (by decide)

/-- Two different words. -/
theorem worded_pair {j k : UInt64} (hj : j.toNat ∈ [8, 16]) (hk : k.toNat = 24)
    (stored : ∀ b, r.Stored b p.toNat ↔
      load b (p.toNat + j.toNat) 8 = v ∧ load b (p.toNat + 24) 8 = v') :
    Worded r p.toNat m ((m.put (p + j) 8 v).put (p + k) 8 v') := by
  have eight : (8 : UInt64).toNat = 8 := rfl
  have below : 8 ≤ j.toNat ∧ j.toNat ≤ 16 := by simp at hj; omega
  obtain ⟨place, ok⟩ := entryField limit clear (k := j) (w := 8) (by omega)
  obtain ⟨place', ok'⟩ := entryField limit clear (k := k) (w := 8) (by omega)
  have first := (Guarded.changed_put m (p + j) 8 v).mono (s := p.toNat + 8) (t := p.toNat + 32)
    (by omega) (by omega)
  refine ⟨first.put (by omega) (by omega), (stored _).mpr ⟨?_, ?_⟩, fun held => ?_⟩
  · rw [Guarded.load_put_of_disjoint (by omega), ← place, Guarded.load_put ok]
  · rw [← hk, ← place', Guarded.load_put ok'.put]
  · obtain ⟨same, same'⟩ := (stored _).mp held
    refine (payloadAt_put limit clear.put (by rw [hk]; decide) ?_).trans
      (payloadAt_put limit clear (by revert hj; simp; omega) same)
    rw [Guarded.load_put_of_disjoint (by omega), hk]
    exact same'

/-- A byte is written that names a bytecode. -/
theorem named_put {k : UInt64} {o : Opcode} (hk : k.toNat = 2 ∨ k.toNat = 3) :
    m.Changed (m.put (p + k) 1 o.byte.toUInt64) (p.toNat + k.toNat) (p.toNat + k.toNat + 1) ∧
      byteAt (m.put (p + k) 1 o.byte.toUInt64).bytes (p.toNat + k.toNat) = o.byte := by
  have one : (1 : UInt64).toNat = 1 := rfl
  obtain ⟨place, ok⟩ := entryField limit clear (k := k) (w := 1) (by omega)
  have changed := Guarded.changed_put m (p + k) 1 o.byte.toUInt64
  rw [place] at changed
  refine ⟨changed, ?_⟩
  have loaded := Guarded.load_put_byte (v := o.byte.toUInt64) ok
  rw [Memory.load_one, place, UInt8.toUInt8_toUInt64] at loaded
  exact UInt8.toUInt64_inj.mp loaded

end

theorem Worded.name {p : UInt64} (limit : p.toNat + 32 < 2 ^ 64)
    (clear : m.Clear p.toNat (p.toNat + 32)) (h : Worded r p.toNat m m') (used : entry.UsedBy o) :
    Filled entry r p.toNat m (m'.put (p + CacheRecord.opcode1) 1 o.byte.toUInt64) := by
  obtain ⟨changed, named⟩ := named_put limit (clear.changed h.changed) (o := o)
    (k := CacheRecord.opcode1) (.inl rfl)
  have offset : CacheRecord.opcode1.toNat = 2 := rfl
  rw [offset] at changed named
  have same := changed.agrees (s := p.toNat + 8) (t := p.toNat + 32) (by omega)
  refine ⟨?_, h.stored.agrees same, fun held => ?_, ⟨o, used, named⟩, .inl ?_⟩
  · exact (h.changed.mono (by omega) (by omega)).trans (changed.mono (by omega) (by omega))
  · exact (payloadAt_agrees same).trans (h.kept held)
  · rw [changed.other _ (by omega), h.changed.other _ (by omega)]

theorem Filled.name {p : UInt64} (limit : p.toNat + 32 < 2 ^ 64)
    (clear : m.Clear p.toNat (p.toNat + 32)) (h : Filled entry r p.toNat m m')
    (used : entry.UsedBy o) :
    Filled entry r p.toNat m (m'.put (p + CacheRecord.opcode2) 1 o.byte.toUInt64) := by
  obtain ⟨changed, named⟩ := named_put limit (clear.changed h.changed) (o := o)
    (k := CacheRecord.opcode2) (.inr rfl)
  have offset : CacheRecord.opcode2.toNat = 3 := rfl
  rw [offset] at changed named
  have same := changed.agrees (s := p.toNat + 8) (t := p.toNat + 32) (by omega)
  obtain ⟨first, used', named'⟩ := h.first
  refine ⟨h.changed.trans (changed.mono (by omega) (by omega)), h.stored.agrees same,
    fun held => (payloadAt_agrees same).trans (h.kept held), ⟨first, used', ?_⟩,
    .inr ⟨o, used, named⟩⟩
  rw [changed.other _ (by omega)]
  exact named'

/-- A linked call is to a static method. -/
theorem ClassTable.exists_of_target? {ref : MemberRef} (h : t.target? ref = some r) :
    ∃ l, r = .method l ∧ l.access.isStatic = true := by
  obtain ⟨id, -, h⟩ := Option.bind_eq_some_iff.mp h
  obtain ⟨target, -, h⟩ := Option.bind_eq_some_iff.mp h
  obtain ⟨static, h⟩ := Option.ite_none_right_eq_some.mp h
  exact ⟨_, (Option.some.inj h).symm, static⟩

/-- Filling in succeeds, and writes nothing but the entry. -/
theorem fillEntry_ok {p : UInt64} (used : entry.UsedBy o) (found : t.stands? entry = some r)
    (limit : p.toNat + 32 < 2 ^ 64) (clear : m.Clear p.toNat (p.toNat + 32)) :
    ∃ m', Vm.fillEntry p o r m = .ok () m' ∧ Filled entry r p.toNat m m' := by
  have ok {k n : UInt64} (inside : k.toNat + n.toNat ≤ 32) : m.Open (p + k) n :=
    (entryField limit clear inside).2
  have linked (l : LoadedMethod) :
      ∃ m', Vm.fillEntry p o (.method l) m = .ok () m' ∧ Filled entry (.method l) p.toNat m m' :=
    ⟨_, (Vm.bind_ok (ok (by decide)).write).trans
        ((Vm.bind_ok (ok (by decide)).put.write).trans (ok (by decide)).put.put.write),
      (worded_pair limit clear (j := CacheRecord.f1) (k := CacheRecord.flags) (by decide) rfl
        fun _ => Iff.rfl).name limit clear used⟩
  cases entry with
  | fieldRef ref =>
    obtain ⟨id, -, found⟩ := Option.bind_eq_some_iff.mp found
    obtain ⟨slot, -, rfl⟩ := Option.map_eq_some_iff.mp found
    have read : Filled (.fieldRef ref) (.field slot) p.toNat m _ :=
      (worded_pair limit clear (j := CacheRecord.f2) (k := CacheRecord.flags) (by decide) rfl
        fun _ => Iff.rfl).name limit clear (o := .getfield) (.inl rfl)
    obtain rfl | rfl := used
    · exact ⟨_, (Vm.bind_ok (ok (by decide)).write).trans
        ((Vm.bind_ok (ok (by decide)).put.write).trans
          (Vm.bind_ok (ok (by decide)).put.put.write)), read⟩
    · exact ⟨_, (Vm.bind_ok (ok (by decide)).write).trans
        ((Vm.bind_ok (ok (by decide)).put.write).trans
          ((Vm.bind_ok (ok (by decide)).put.put.write).trans (ok (by decide)).put.put.put.write)),
        read.name limit clear (o := .putfield) (.inr rfl)⟩
  | methodRef ref =>
    obtain ⟨l, rfl, -⟩ := ClassTable.exists_of_target? found
    exact linked l
  | callSite ref =>
    obtain ⟨l, rfl, -⟩ := ClassTable.exists_of_target? found
    exact linked l
  | classRef name =>
    obtain ⟨id, -, rfl⟩ := Option.map_eq_some_iff.mp found
    exact ⟨_, (Vm.bind_ok (ok (by decide)).write).trans (ok (by decide)).put.write,
      (worded_class limit clear _).name limit clear used⟩

/-! ## An entry that has been filled in -/

theorem Filled.coherent (h : Filled entry r a m m') (old : CoherentAt t m.bytes entry a)
    (found : t.stands? entry = some r) : CoherentAt t m'.bytes entry a := by
  intro k hk o linked named
  have here (used : ∃ o, entry.UsedBy o ∧ byteAt m'.bytes (a + k) = o.byte) :
      entry.UsedBy o ∧ ∃ r, t.stands? entry = some r ∧ r.Stored m'.bytes a := by
    obtain ⟨o', used, named'⟩ := used
    obtain rfl := Opcode.byte_inj (named.symm.trans named')
    exact ⟨used, r, found, h.stored⟩
  simp only [List.mem_cons, List.not_mem_nil, or_false] at hk
  obtain rfl | rfl := hk
  · exact here h.first
  · rcases h.second with kept | used
    · exact ⟨(old 3 (by simp) o linked (kept ▸ named)).1, r, found, h.stored⟩
    · exact here used

theorem PoolEntry.UsedBy.isLinked (h : entry.UsedBy o) : o.isLinked = true := by
  cases entry with
  | fieldRef ref => rcases h with rfl | rfl <;> rfl
  | methodRef ref => exact h ▸ rfl
  | callSite ref => exact h ▸ rfl
  | classRef name => rcases h with rfl | rfl <;> rfl

theorem Filled.setAt (h : Filled entry r a m m') : SetAt m'.bytes a := by
  obtain ⟨o, used, named⟩ := h.first
  exact ⟨2, by simp, o, used.isLinked, named⟩

/-- Once an entry names a bytecode its words stay, whoever resolves it next. -/
theorem Filled.payloadAt_eq (h : Filled entry r a m m') (old : CoherentAt t m.bytes entry a)
    (found : t.stands? entry = some r) (named : SetAt m.bytes a) :
    payloadAt m'.bytes a = payloadAt m.bytes a := by
  obtain ⟨k, hk, o, linked, named⟩ := named
  obtain ⟨-, r', found', stored⟩ := old k hk o linked named
  obtain rfl := Option.some.inj (found.symm.trans found')
  exact h.kept stored

/-! ## What generated code finds -/

theorem TopOfStack.index_lt (state : TopOfStack) : state.index < 16 := by
  cases state <;> decide

theorem packFlags_toNat {words : Nat} (few : words ≤ 255) (state : TopOfStack) :
    (packFlags words.toUInt64 state).toNat = words + 2 ^ 28 * state.index := by
  have small := state.index_lt
  have value : words.toUInt64.toNat = words :=
    UInt64.toNat_ofNat_of_lt' (by change _ < 2 ^ 64; omega)
  have index : state.index.toUInt64.toNat = state.index :=
    UInt64.toNat_ofNat_of_lt' (by change _ < 2 ^ 64; omega)
  have masked : words &&& 255 = words :=
    (Nat.and_two_pow_sub_one_eq_mod words 8).trans (Nat.mod_eq_of_lt (by omega))
  have shifted : (state.index.toUInt64 <<< CacheRecord.tosShift.toUInt64).toNat =
      state.index <<< 28 := by
    rw [UInt64.toNat_shiftLeft, index]
    change state.index <<< 28 % 2 ^ 64 = _
    rw [Nat.shiftLeft_eq, Nat.mod_eq_of_lt (by omega)]
  rw [packFlags, UInt64.toNat_or, UInt64.toNat_and, value, shifted]
  change (words &&& 255) ||| _ = _
  rw [masked, Nat.or_comm, ← Nat.shiftLeft_add_eq_or_of_lt (by omega), Nat.shiftLeft_eq]
  omega

theorem unpackFlags_packFlags {words : Nat} (few : words ≤ 255) (state : TopOfStack) :
    unpackFlags (packFlags words.toUInt64 state) = (words.toUInt64, some state) := by
  have packed := packFlags_toNat few state
  have small := state.index_lt
  have value : words.toUInt64.toNat = words :=
    UInt64.toNat_ofNat_of_lt' (by change _ < 2 ^ 64; omega)
  have low : packFlags words.toUInt64 state &&& CacheRecord.parameterMask = words.toUInt64 := by
    refine UInt64.toNat_inj.mp ?_
    rw [UInt64.toNat_and, packed, value]
    refine (Nat.and_two_pow_sub_one_eq_mod _ 8).trans ?_
    omega
  have high : ((packFlags words.toUInt64 state >>> CacheRecord.tosShift.toUInt64) &&& 0xf).toNat =
      state.index := by
    rw [UInt64.toNat_and, UInt64.toNat_shiftRight, packed]
    change (words + 2 ^ 28 * state.index) >>> 28 &&& 15 = _
    refine (Nat.and_two_pow_sub_one_eq_mod _ 4).trans ?_
    rw [Nat.shiftRight_eq_div_pow]
    omega
  rw [unpackFlags, low, high]
  cases state <;> rfl
namespace CoherentAt

variable {b : ByteArray} {k : Nat}

/-- One of two bytecodes is named, and which one does not matter. -/
theorem of_named (h : CoherentAt t b entry a) (hk : k ∈ [2, 3]) {o o' : Opcode}
    (linked : o.isLinked = true) (linked' : o'.isLinked = true)
    (named : byteAt b (a + k) = o.byte ∨ byteAt b (a + k) = o'.byte) :
    ∃ x, (x = o ∨ x = o') ∧ entry.UsedBy x ∧ ∃ r, t.stands? entry = some r ∧ r.Stored b a := by
  rcases named with named | named
  · exact ⟨o, .inl rfl, h k hk o linked named⟩
  · exact ⟨o', .inr rfl, h k hk o' linked' named⟩

/-- Code that reads or writes a field finds its offset and its state. -/
theorem field (h : CoherentAt t b entry a) (hk : k ∈ [2, 3])
    (named : byteAt b (a + k) = Opcode.getfield.byte ∨
      byteAt b (a + k) = Opcode.putfield.byte) :
    ∃ ref id slot, entry = .fieldRef ref ∧ t.find? ref.holder = some id ∧
      t.findField? id ref.name ref.descriptor = some slot ∧ load b (a + 16) 8 = slot.offset ∧
      (unpackFlags (load b (a + 24) 8)).2 = some (.ofType slot.type) := by
  obtain ⟨o, either, used, r, found, stored⟩ := h.of_named hk rfl rfl named
  cases entry with
  | fieldRef ref =>
    obtain ⟨id, known, found⟩ := Option.bind_eq_some_iff.mp found
    obtain ⟨slot, declared, rfl⟩ := Option.map_eq_some_iff.mp found
    refine ⟨ref, id, slot, rfl, known, declared, stored.1, ?_⟩
    rw [stored.2]
    exact congrArg Prod.snd (unpackFlags_packFlags (Nat.zero_le _) _)
  | methodRef ref => rcases either with rfl | rfl <;> cases used
  | callSite ref => rcases either with rfl | rfl <;> cases used
  | classRef name => rcases either with rfl | rfl <;> rcases used with used | used <;> cases used

/-- A call finds a static method that is loaded, with the words of its parameters and the state of
    its result. -/
theorem call (h : CoherentAt t b entry a) (hk : k ∈ [2, 3])
    (named : byteAt b (a + k) = Opcode.invokestatic.byte ∨
      byteAt b (a + k) = Opcode.invokedynamic.byte) :
    ∃ ref l, (entry = .methodRef ref ∨ entry = .callSite ref) ∧
      t.target? ref = some (.method l) ∧ l.access.isStatic = true ∧
      load b (a + 8) 8 = l.address ∧
      (l.parameterWords ≤ 255 → unpackFlags (load b (a + 24) 8) =
        (l.parameterWords.toUInt64, some (TopOfStack.ofType l.descriptor.result).ofResult)) := by
  obtain ⟨o, either, used, r, found, stored⟩ := h.of_named hk rfl rfl named
  have linked {ref : MemberRef} (found : t.target? ref = some r) :
      ∃ l, t.target? ref = some (.method l) ∧ l.access.isStatic = true ∧
        load b (a + 8) 8 = l.address ∧
        (l.parameterWords ≤ 255 → unpackFlags (load b (a + 24) 8) =
          (l.parameterWords.toUInt64,
            some (TopOfStack.ofType l.descriptor.result).ofResult)) := by
    obtain ⟨l, rfl, static⟩ := ClassTable.exists_of_target? found
    refine ⟨l, found, static, stored.1, fun few => ?_⟩
    rw [stored.2]
    exact unpackFlags_packFlags few _
  cases entry with
  | fieldRef ref => rcases either with rfl | rfl <;> rcases used with used | used <;> cases used
  | methodRef ref =>
    obtain ⟨l, rest⟩ := linked found
    exact ⟨ref, l, .inl rfl, rest⟩
  | callSite ref =>
    obtain ⟨l, rest⟩ := linked found
    exact ⟨ref, l, .inr rfl, rest⟩
  | classRef name => rcases either with rfl | rfl <;> rcases used with used | used <;> cases used

/-- Code that makes objects or casts them finds the record of the class. -/
theorem classRecord (h : CoherentAt t b entry a) (hk : k ∈ [2, 3])
    (named : byteAt b (a + k) = Opcode.newInstance.byte ∨
      byteAt b (a + k) = Opcode.checkcast.byte) :
    ∃ name id, entry = .classRef name ∧ t.find? name = some id ∧
      load b (a + 8) 8 = (t.get id).address := by
  obtain ⟨o, either, used, r, found, stored⟩ := h.of_named hk rfl rfl named
  cases entry with
  | fieldRef ref => rcases either with rfl | rfl <;> rcases used with used | used <;> cases used
  | methodRef ref => rcases either with rfl | rfl <;> cases used
  | callSite ref => rcases either with rfl | rfl <;> cases used
  | classRef name =>
    obtain ⟨id, known, rfl⟩ := Option.map_eq_some_iff.mp found
    exact ⟨name, id, rfl, known, stored⟩

end CoherentAt
end TemplateVm
