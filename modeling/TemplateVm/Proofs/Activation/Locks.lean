import TemplateVm.Proofs.Activation.Places
import TemplateVm.Proofs.Activation.Services

set_option autoImplicit false
set_option synthInstance.maxSize 100000

/-!
# Lock accounting

The table of locks has an object as often as monitor records name it, and keeps the mark word that
the object had before it was locked. Locking by a record adds the object to those that are held,
unlocking takes it away, and when nothing is held any more every mark word is back in its place.
-/
namespace TemplateVm

open Memory (Guarded load)
open Guest Emit

theorem Guest.Object.sixteen_le_size (o : Object) : 16 ≤ o.size := by
  unfold size
  split <;> omega

namespace Vm

variable {v : Vm} {q record r s : UInt64} {c : Cpu} {m m' : Guarded} {steps : UInt64}
  {watched : List (UInt64 × UInt64)} {l : Lock} {x : Contents} {marks : UInt64 → UInt64}
  {held : List UInt64} {t : ClassTable} {heap : Heap} {a : Activation}

/-! ## The table -/

/-- The machine with another lock for an object, or with none. -/
def relock (v : Vm) (r : UInt64) (lock : Option Lock) : Vm :=
  { v with locks := lock.toList.map (r, ·) ++ v.locks.filter (·.1 ≠ r) }

theorem lookup_filter_ne (locks : List (UInt64 × Lock)) (other : s ≠ r) :
    (locks.filter (·.1 ≠ r)).lookup s = locks.lookup s := by
  induction locks with
  | nil => rfl
  | cons lock locks ih =>
    obtain ⟨r', l⟩ := lock
    by_cases same : r' = r
    · subst same
      have differ : (s == r') = false := beq_false_of_ne other
      simpa [List.lookup_cons, differ] using ih
    · simp only [List.filter_cons, ne_eq, same, not_false_eq_true, decide_true, ↓reduceIte,
        List.lookup_cons, ih]

theorem lookup_filter_self (locks : List (UInt64 × Lock)) (r : UInt64) :
    (locks.filter (·.1 ≠ r)).lookup r = none := by
  rw [List.lookup_eq_none_iff]
  intro entry mem
  have other : entry.1 ≠ r := of_decide_eq_true (List.mem_filter.mp mem).2
  exact bne_iff_ne.mpr other.symm

theorem lock?_relock (v : Vm) (r s : UInt64) (lock : Option Lock) :
    (v.relock r lock).lock? s = if s = r then lock else v.lock? s := by
  rw [lock?, relock, List.lookup_append]
  split
  · next same =>
    subst same
    rw [lookup_filter_self]
    cases lock <;> simp
  · next other =>
    have differ : (s == r) = false := beq_false_of_ne other
    rw [lookup_filter_ne _ other]
    cases lock <;> simp [List.lookup_cons, differ, lock?]

theorem setLock_ok (r : UInt64) (lock : Option Lock) :
    setLock r lock ((v.moved q c m).counted steps watched) =
      .ok () (((v.relock r lock).moved q c m).counted steps watched) := rfl

/-! ## Locking and unlocking -/

/-- The record names no object any more. -/
def freed (record : UInt64) (m : Guarded) : Guarded :=
  (m.put (record + Frame.monitorObject) 8 0).put record 8 0

/-- The record names the object, and both can be accessed. -/
structure Names (m : Guarded) (record r : UInt64) : Prop where
  named : m.Open (record + Frame.monitorObject) 8
  displaced : m.Open record 8
  marked : m.Open r 8
  object : load m.bytes (record + Frame.monitorObject).toNat 8 = r

namespace Names

variable (h : Names m record r)
include h

/-- An object that is locked is locked once more. -/
theorem monitorEnter_again (some : r ≠ 0) (locked : v.lock? r = .some l) :
    monitorEnter record ((v.moved q c m).counted steps watched) =
      .ok () (((v.relock r (.some { l with count := l.count + 1 })).moved q c
        (m.put record 8 0)).counted steps watched) := by
  have found : ((v.moved q c m).counted steps watched).lock? r = .some l := locked
  unfold monitorEnter
  refine (bind_ok (onMemory_ok h.named.readA)).trans ?_
  rw [show (8 : UInt64).toNat = 8 from rfl, h.object, if_neg some]
  refine (bind_ok (m := (get : Action Vm)) rfl).trans ?_
  rw [found]
  exact (bind_ok (setLock_ok r _)).trans (onMemory_ok h.displaced.write)

/-- The first record of an object keeps its mark word, for which the object has the record. -/
theorem monitorEnter_first (some : r ≠ 0) (free : v.lock? r = none) :
    monitorEnter record ((v.moved q c m).counted steps watched) =
      .ok () (((v.relock r (.some ⟨1, load m.bytes r.toNat 8⟩)).moved q c
        ((m.put record 8 (load m.bytes r.toNat 8)).put r 8 record)).counted steps watched) := by
  have found : ((v.moved q c m).counted steps watched).lock? r = none := free
  have zero : r + Memory.ObjectShape.mark = r := UInt64.add_zero r
  unfold monitorEnter
  refine (bind_ok (onMemory_ok h.named.readA)).trans ?_
  rw [show (8 : UInt64).toNat = 8 from rfl, h.object, if_neg some]
  refine (bind_ok (m := (get : Action Vm)) rfl).trans ?_
  rw [found, zero]
  refine (bind_ok (onMemory_ok ?_)).trans (setLock_ok r _)
  exact (bind_ok h.marked.readA).trans <| (bind_ok h.displaced.write).trans <|
    bind_ok (h.marked.put (v := load m.bytes r.toNat 8)).write

theorem monitorExit_start {f : UInt64 → Action Unit} :
    (onMemory (do
        let object ← Guarded.readA (record + Frame.monitorObject) 8
        Guarded.write (record + Frame.monitorObject) 8 0
        Guarded.write record 8 0
        pure object) >>= f) ((v.moved q c m).counted steps watched) =
      f r ((v.moved q c (freed record m)).counted steps watched) := by
  refine bind_ok (onMemory_ok ?_)
  refine (bind_ok h.named.readA).trans <| (bind_ok h.named.write).trans <|
    (bind_ok (h.displaced.put (v := 0)).write).trans ?_
  rw [show (8 : UInt64).toNat = 8 from rfl, h.object]
  rfl

/-- An object that is held by other records as well stays locked. -/
theorem monitorExit_again (locked : v.lock? r = .some l) (several : l.count ≠ 1) :
    monitorExit record ((v.moved q c m).counted steps watched) =
      .ok () (((v.relock r (.some { l with count := l.count - 1 })).moved q c
        (freed record m)).counted steps watched) := by
  have found : ((v.moved q c (freed record m)).counted steps watched).lock? r = .some l := locked
  unfold monitorExit
  refine h.monitorExit_start.trans ?_
  refine (bind_ok (m := (get : Action Vm)) rfl).trans ?_
  rw [found]
  exact (congrFun (if_neg several) _).trans (setLock_ok r _)

/-- The last record gives the object its mark word back. -/
theorem monitorExit_last (locked : v.lock? r = .some l) (one : l.count = 1) :
    monitorExit record ((v.moved q c m).counted steps watched) =
      .ok () (((v.relock r none).moved q c
        ((freed record m).put r 8 l.displacedMark)).counted steps watched) := by
  have found : ((v.moved q c (freed record m)).counted steps watched).lock? r = .some l := locked
  have zero : r + Memory.ObjectShape.mark = r := UInt64.add_zero r
  have ok : (freed record m).Open r 8 := h.marked.put.put
  unfold monitorExit
  refine h.monitorExit_start.trans ?_
  refine (bind_ok (m := (get : Action Vm)) rfl).trans ?_
  rw [found]
  refine (congrFun (if_pos one) _).trans <| (bind_ok (setLock_ok r _)).trans ?_
  rw [zero]
  exact onMemory_ok ok.write

end Names

/-! ## The account -/

/-- The table has the objects that are held, with the number of records that hold them and with the
    mark words from before. Objects that are not held have their mark words. -/
structure Accounts (v : Vm) (m : Guarded) (heap : Heap) (marks : UInt64 → UInt64)
    (held : List UInt64) : Prop where
  free : ∀ r, v.lock? r = none ↔ r ∉ held
  count : ∀ r l, v.lock? r = some l → l.count.toNat = held.count r
  displaced : ∀ r l, v.lock? r = some l → l.displacedMark = marks r
  unlocked : ∀ r o, heap r = some o → r ∉ held → load m.bytes r.toNat 8 = marks r

namespace Accounts

variable {m₁ : Guarded} {held' : List UInt64} {lock : Option Lock} {o o' : Object} {n : Nat}

/-- The account of one object is changed, and memory keeps the mark words of all others. -/
theorem relock (h : v.Accounts m heap marks held)
    (others : ∀ s, s ≠ r → held'.count s = held.count s) (free : lock = none ↔ r ∉ held')
    (count : ∀ l, lock = some l → l.count.toNat = held'.count r ∧ l.displacedMark = marks r)
    (kept : ∀ s o, heap s = some o → s ≠ r → load m'.bytes s.toNat 8 = load m.bytes s.toNat 8)
    (unlocked : r ∉ held' → load m'.bytes r.toNat 8 = marks r) :
    (v.relock r lock).Accounts m' heap marks held' := by
  have mem (s : UInt64) (other : s ≠ r) : s ∈ held' ↔ s ∈ held := by
    rw [← List.count_pos_iff, ← List.count_pos_iff, others s other]
  refine ⟨fun s => ?_, fun s l found => ?_, fun s l found => ?_, fun s o there away => ?_⟩
  · rw [lock?_relock]
    split
    · next same => exact same ▸ free
    · next other => rw [h.free, mem s other]
  · rw [lock?_relock] at found
    split at found
    · next same => exact same ▸ (count l found).1
    · next other => rw [h.count s l found, others s other]
  · rw [lock?_relock] at found
    split at found
    · next same => exact same ▸ (count l found).2
    · exact h.displaced s l found
  · by_cases same : s = r
    · exact same ▸ unlocked (same ▸ away)
    · rw [kept s o there same]
      exact h.unlocked s o there (mt (mem s same).mpr away)

/-- What is written to a record and to the mark word of an object is nothing to other objects. -/
theorem kept (objects : a.HoldsHeap t m heap) (there : heap r = some o)
    (away : a.thread.toNat ≤ record.toNat)
    (changed : m.Changed m₁ record.toNat (record.toNat + n))
    (marked : m₁.Changed m' r.toNat (r.toNat + 8)) (s : UInt64) (o' : Object)
    (there' : heap s = some o') (other : s ≠ r) :
    load m'.bytes s.toNat 8 = load m.bytes s.toNat 8 := by
  have apart := objects.apart s o' r o there' there other
  have below := objects.below s o' there'
  have size := o.sixteen_le_size
  have size' := o'.sixteen_le_size
  rw [(marked.agrees (s := s.toNat) (t := s.toNat + 8) (by omega)).load (Nat.le_refl _)
      (Nat.le_refl _),
    (changed.agrees (s := s.toNat) (t := s.toNat + 8) (by omega)).load (Nat.le_refl _)
      (Nat.le_refl _)]

section
variable (h : v.Accounts m heap marks held) (objects : a.HoldsHeap t m heap)
  (there : heap r = some o) (away : a.thread.toNat ≤ record.toNat) (names : Names m record r)
include h objects there away names

/-- Locking by a record that names the object enters the object once more. -/
theorem enter (some : r ≠ 0) (few : held.count r + 1 < 2 ^ 32) : ∃ locks m₁ m',
    m.Changed m₁ record.toNat (record.toNat + 8) ∧ m₁.Changed m' r.toNat (r.toNat + 8) ∧
      ({ v with locks } : Vm).Accounts m' heap marks (r :: held) ∧
      ∀ q c steps watched, monitorEnter record ((v.moved q c m).counted steps watched) =
        .ok () ((({ v with locks } : Vm).moved q c m').counted steps watched) := by
  have others (s : UInt64) (other : s ≠ r) : (r :: held).count s = held.count s :=
    List.count_cons_of_ne other.symm
  have counted : (r :: held).count r = held.count r + 1 := List.count_cons_self
  have mem : r ∈ r :: held := List.mem_cons_self
  cases locked : v.lock? r with
  | some l =>
    have changed : m.Changed (m.put record 8 0) record.toNat (record.toNat + 8) :=
      Guarded.changed_put m record 8 0
    have same := Guarded.Changed.refl (m.put record 8 0) r.toNat (r.toNat + 8)
    refine ⟨_, _, _, changed, same, h.relock others (by simp) (fun l' new => ?_)
      (kept objects there away changed same) (absurd mem), fun q c steps watched =>
        names.monitorEnter_again some locked⟩
    cases new
    have before := h.count r l locked
    have one : (1 : UInt32).toNat = 1 := rfl
    exact ⟨by rw [UInt32.toNat_add, counted, before, one, Nat.mod_eq_of_lt few],
      h.displaced r l locked⟩
  | none =>
    have out := (h.free r).mp locked
    have mark := h.unlocked r o there out
    have none : held.count r = 0 := List.count_eq_zero.mpr out
    have changed := Guarded.changed_put m record 8 (load m.bytes r.toNat 8)
    have same := Guarded.changed_put (m.put record 8 (load m.bytes r.toNat 8)) r 8 record
    refine ⟨_, _, _, changed, same, h.relock others (by simp) (fun l' new => ?_)
      (kept objects there away changed same) (absurd mem), fun q c steps watched =>
        names.monitorEnter_first some locked⟩
    cases new
    exact ⟨by rw [counted, none]; rfl, mark⟩

/-- Unlocking by a record that names the object takes it from the account once. -/
theorem exit (mem : r ∈ held) (top : record.toNat + 16 ≤ 2 ^ 64) : ∃ locks m₁ m',
    m.Changed m₁ record.toNat (record.toNat + 16) ∧ m₁.Changed m' r.toNat (r.toNat + 8) ∧
      load m₁.bytes (record.toNat + 8) 8 = 0 ∧
      ({ v with locks } : Vm).Accounts m' heap marks (held.erase r) ∧
      ∀ q c steps watched, monitorExit record ((v.moved q c m).counted steps watched) =
        .ok () ((({ v with locks } : Vm).moved q c m').counted steps watched) := by
  have eight : Frame.monitorObject.toNat = 8 := rfl
  have address : (record + Frame.monitorObject).toNat = record.toNat + 8 :=
    toNat_add_of_lt (by omega)
  have changed : m.Changed (freed record m) record.toNat (record.toNat + 16) :=
    ((Guarded.Changed.refl m _ _).put (by omega) (by
      change (record + Frame.monitorObject).toNat + 8 ≤ _
      omega)).put (Nat.le_refl _) (by
      change record.toNat + 8 ≤ _
      omega)
  have empty : load (freed record m).bytes (record.toNat + 8) 8 = 0 := by
    rw [freed, Guarded.load_put_of_disjoint (.inr (Nat.le_refl (record.toNat + 8))), ← address,
      Guarded.load_put names.named]
  have others (s : UInt64) (other : s ≠ r) : (held.erase r).count s = held.count s :=
    List.count_erase_of_ne other
  have counted : (held.erase r).count r = held.count r - 1 := List.count_erase_self
  obtain ⟨l, locked⟩ := Option.ne_none_iff_exists'.mp (mt (h.free r).mp (not_not.mpr mem))
  have before := h.count r l locked
  have some : 0 < held.count r := List.count_pos_iff.mpr mem
  have one : (1 : UInt32).toNat = 1 := rfl
  by_cases last : l.count = 1
  · have marks' := Guarded.changed_put (freed record m) r 8 l.displacedMark
    have gone : r ∉ held.erase r := by
      rw [← List.count_eq_zero, counted, ← before, last]
      rfl
    refine ⟨_, _, _, changed, marks', empty, h.relock others (by simpa using gone)
      (fun _ new => absurd new.symm (Option.some_ne_none _))
      (kept objects there away changed marks') (fun _ => ?_), fun q c steps watched =>
        names.monitorExit_last locked last⟩
    have ok : (freed record m).Open r 8 := names.marked.put.put
    rw [Guarded.load_put ok, h.displaced r l locked]
  · have same := Guarded.Changed.refl (freed record m) r.toNat (r.toNat + 8)
    have more : 1 < l.count.toNat := by
      have : l.count.toNat ≠ 1 := fun e => last (UInt32.toNat_inj.mp e)
      omega
    have stays : r ∈ held.erase r := by
      rw [← List.count_pos_iff, counted]
      omega
    refine ⟨_, _, _, changed, same, empty, h.relock others (by simpa using stays)
      (fun l' new => ?_) (kept objects there away changed same) (absurd stays),
      fun q c steps watched => names.monitorExit_again locked last⟩
    cases new
    refine ⟨?_, h.displaced r l locked⟩
    rw [counted, ← before, UInt32.toNat_sub_of_le _ _ (UInt32.le_iff_toNat_le.mpr (by omega)), one]

end

/-- Only the objects in memory count. -/
theorem agrees (h : v.Accounts m heap marks held) (objects : a.HoldsHeap t m heap)
    (ha : m.Agrees m' a.heap.toNat a.thread.toNat) : v.Accounts m' heap marks held :=
  { h with
    unlocked := fun r o there out => by
      have above := objects.above r o there
      have below := objects.below r o there
      have size := o.sixteen_le_size
      rw [ha.load above (by omega), h.unlocked r o there out] }

/-- Only the number of records for each object counts. -/
theorem congr (h : v.Accounts m heap marks held) (same : ∀ s, held'.count s = held.count s) :
    v.Accounts m heap marks held' := by
  have mem (s : UInt64) : s ∈ held' ↔ s ∈ held := by
    rw [← List.count_pos_iff, ← List.count_pos_iff, same]
  exact {
    free := fun s => by rw [h.free, mem]
    count := fun s l found => by rw [h.count s l found, same]
    displaced := h.displaced
    unlocked := fun s o there out => h.unlocked s o there (mt (mem s).mpr out) }

/-- When nothing is held, nothing is locked, and every object has the mark word it had before. -/
theorem settled (h : v.Accounts m heap marks []) :
    (∀ r, v.lock? r = none) ∧ ∀ r o, heap r = some o → load m.bytes r.toNat 8 = marks r :=
  ⟨fun r => (h.free r).mpr List.not_mem_nil, fun r o there => h.unlocked r o there List.not_mem_nil⟩

end Accounts

end Vm

/-! ## Monitor records -/

namespace Activation

variable {a : Activation} {v v' v'' : Vm} {m m' m'' : Guarded} {t : ClassTable} {heap : Heap}
  {marks : UInt64 → UInt64} {objects held : List UInt64} {k : Nat} {r : UInt64}

/-- Where the record with the number begins, the lowest one has the number zero. -/
def record (a : Activation) (k : Nat) : UInt64 := a.top + (16 * k).toUInt64

/-- The activation has a monitor record for each element of the list, from the lowest one on. A record
    that names no object is free. -/
structure Monitors (a : Activation) (objects : List UInt64) (m : Guarded) : Prop where
  records : a.top.toNat + 16 * objects.length + 64 = a.frame.toNat
  names : ∀ k r, objects[k]? = some r → load m.bytes (a.top.toNat + 16 * k + 8) 8 = r

theorem Monitors.agrees (h : a.Monitors objects m)
    (ha : m.Agrees m' a.top.toNat (a.frame.toNat - 64)) : a.Monitors objects m' where
  records := h.records
  names k r named := by
    have lt := (List.getElem?_eq_some_iff.mp named).1
    have records := h.records
    rw [ha.load (by omega) (by omega), h.names k r named]

theorem Monitors.toNat_record (h : a.Monitors objects m) (inside : k ≤ objects.length) :
    (a.record k).toNat = a.top.toNat + 16 * k := by
  have records := h.records
  have bound := a.frame.toNat_lt
  have word : (16 * k).toUInt64.toNat = 16 * k := Nat.mod_eq_of_lt (by omega)
  rw [record, toNat_add_of_lt (by omega), word]

/-- A write to one record that leaves it with another name. -/
theorem Monitors.set (h : a.Monitors objects m) {lo hi : Nat} (inside : k < objects.length)
    (hc : m.Changed m' lo hi) (above : a.top.toNat + 16 * k ≤ lo)
    (below : hi ≤ a.top.toNat + 16 * k + 16)
    (name : load m'.bytes (a.top.toNat + 16 * k + 8) 8 = r) :
    a.Monitors (objects.set k r) m' where
  records := by rw [List.length_set]; exact h.records
  names j s named := by
    rw [List.getElem?_set] at named
    split at named
    · next same =>
      subst same
      obtain rfl : r = s := by simpa [inside] using named
      exact name
    · next other =>
      rw [(hc.agrees (s := a.top.toNat + 16 * j + 8) (t := a.top.toNat + 16 * j + 16)
        (by omega)).load (Nat.le_refl _) (by omega), h.names j s named]

/-- The monitor records of an activation, and the account of all records. -/
structure Locks (a : Activation) (v : Vm) (m : Guarded) (heap : Heap) (marks : UInt64 → UInt64)
    (objects held : List UInt64) : Prop where
  monitors : a.Monitors objects m
  accounts : v.Accounts m heap marks held

/-- Only the lock table has changed, the mark word of an object and what is `Confined`. -/
structure Relocked (a : Activation) (r : UInt64) (v : Vm) (m : Guarded) (v' : Vm) (m' : Guarded) :
    Prop where
  table : ∃ table, v' = { v with locks := table }
  size : m'.bytes.size = m.bytes.size
  guards : m'.guards = m.guards
  kept : ∀ s t, t ≤ r.toNat ∨ r.toNat + 8 ≤ s → t ≤ a.thread.toNat + 8 ∨
    a.thread.toNat + 48 ≤ s ∧ t ≤ a.thread.toNat + 52 ∨ a.thread.toNat + 53 ≤ s ∧ t ≤ a.low ∨
    a.frame.toNat - 8 ≤ s → m.Agrees m' s t

namespace Relocked

theorem of_confined (h : a.Confined m m') : a.Relocked r v m v m' :=
  ⟨⟨v.locks, rfl⟩, h.size, h.guards, fun _ _ _ away => h.agrees away⟩

theorem trans (h : a.Relocked r v m v' m') (h' : a.Relocked r v' m' v'' m'') :
    a.Relocked r v m v'' m'' where
  table := by
    obtain ⟨_, rfl⟩ := h.table
    obtain ⟨table, rfl⟩ := h'.table
    exact ⟨table, rfl⟩
  size := h'.size.trans h.size
  guards := h'.guards.trans h.guards
  kept s t mark away := (h.kept s t mark away).trans (h'.kept s t mark away)

theorem image (h : a.Relocked r v m v' m') : v'.image = v.image := by
  obtain ⟨_, rfl⟩ := h.table
  rfl

theorem hooks (h : a.Relocked r v m v' m') : v'.hooks = v.hooks := by
  obtain ⟨_, rfl⟩ := h.table
  rfl

end Relocked

theorem Locks.agrees (h : a.Locks v m heap marks objects held) (stored : a.HoldsHeap t m heap)
    (ha : m.Agrees m' a.heap.toNat a.thread.toNat)
    (records : m.Agrees m' a.top.toNat (a.frame.toNat - 64)) :
    a.Locks v m' heap marks objects held where
  monitors := h.monitors.agrees records
  accounts := h.accounts.agrees stored ha

end Activation

namespace Stands

variable {P : Vm → Prop} {turns : Nat} {v : Vm} {q q' r : UInt64} {c : Cpu} {m m' : Guarded}
  {a : Activation} {b : Program} {bcp p : UInt64} {x : Contents} {place : CodeLabel → UInt64}
  {ctx : CodeContext} {inStub : Bool} {K S : List CodeLabel} {marks : UInt64 → UInt64}
  {objects objects' held held' : List UInt64} {o : Object} {k lo hi : Nat}

/-- No object lies at the address zero. -/
theorem ne_zero (h : Stands a b bcp p x v c m) (there : x.heap r = some o) : r ≠ 0 := by
  have records := h.fits.records
  have above := h.heap.above r o there
  rintro rfl
  change a.heap.toNat ≤ 0 at above
  omega

/-- The marker and the counters are nothing to locks. -/
theorem relocked {s : Settings} {v' : Vm} (h : Stands a b bcp p x v c m) (there : x.heap r = some o)
    (relocked : a.Relocked r v m v' m') : v.Continues s (some []) [] m v' m' := by
  have records := h.fits.records
  have heap := h.fits.heap
  have above := h.heap.above r o there
  have agrees := relocked.kept 0x1008 0x1900 (.inl (by omega)) (.inl (by omega))
  have guards := relocked.guards
  obtain ⟨_, rfl⟩ := relocked.table
  exact .of_agrees rfl guards rfl agrees

/-- A write to monitor records. -/
theorem inRecords (h : Stands a b bcp p x v c m) (hc : m.Changed m' lo hi) (above : a.top.toNat ≤ lo)
    (below : hi + 64 ≤ a.frame.toNat) : Stands a b bcp p x v c m' := by
  have heap := h.fits.heap
  have operands := h.fits.operands
  have thread := h.fits.thread
  have idle := h.idle.agrees (hc.agrees (by omega)) (hc.agrees (by omega))
  exact h.changed hc idle (.inr (.inr (.inl ⟨above, below⟩)))

/-- A write to the mark word of an object. -/
theorem inMark (h : Stands a b bcp p x v c m) (there : x.heap r = some o)
    (hc : m.Changed m' r.toNat (r.toNat + 8)) : Stands a b bcp p x v c m' := by
  have size := o.sixteen_le_size
  have holds := (h.heap.holds r o there).agrees_body (hc.agrees (.inr (Nat.le_refl _)))
  have same : x.heap.update r o = x.heap := by
    funext s
    unfold Heap.update
    split
    · next here => exact here ▸ there.symm
    · rfl
  have updated := h.update there hc (Nat.le_refl _) (by omega) rfl rfl holds
  rwa [same] at updated

/-- A service that works on a monitor record and on the mark word of an object. -/
theorem runRecordService {s : Service} (h : Stands a b bcp p x v c m)
    (locks : a.Locks v m x.heap marks objects held) (leaf : s.isLeaf = false)
    (there : x.heap r = some o) (inside : k < objects.length)
    (lay : Lays ⟨v.image.code, place⟩ ctx inStub K S (callVm none s [.x1]) q q' ())
    (serves : ∀ c₁ m₁, Stands a b bcp p x v c₁ m₁ → a.Locks v m₁ x.heap marks objects held →
      c₁.reg .x1 = c.reg .x1 → ∃ table m₂ m₃,
        m₁.Changed m₂ (a.record k).toNat ((a.record k).toNat + 16) ∧
        m₂.Changed m₃ r.toNat (r.toNat + 8) ∧
        a.Locks { v with locks := table } m₃ x.heap marks objects' held' ∧
        ∀ steps watched, Vm.perform s ((v.moved s.address c₁ m₁).counted steps watched) =
          .ok () ((({ v with locks := table } : Vm).moved s.address c₁ m₃).counted steps watched))
    (next : ∀ v' c' m', Stands a b bcp p x v' c' m' → a.Locks v' m' x.heap marks objects' held' →
      a.Relocked r v m v' m' → m.Agrees m' (a.thread.toNat + 8) (a.thread.toNat + 16) →
      Vm.Arrives P turns (v'.moved q' c' m')) : Vm.Arrives P (turns + 24) (v.moved q c m) := by
  have f := h.fits
  have records := f.records
  have heap := f.heap
  have low := f.low
  have thread := f.thread
  have operands := f.operands
  have top := f.top
  have extent := locks.monitors.records
  have address := locks.monitors.toNat_record (k := k) (by omega)
  have above := h.heap.above r o there
  have below := h.heap.below r o there
  have size := o.sixteen_le_size
  refine h.runCallVm lay (by decide)
    fun c₁ m₁ K' q₁ resume h₁ link _ same _ saved _ _ agrees confined => ?_
  have locks₁ := locks.agrees h.heap (agrees _ _ (.inl (by omega)))
    (agrees _ _ (.inr ⟨by omega, .inl (by omega)⟩))
  refine h₁.runInRuntime h₁.inhabits.thread leaf fun m₂ h₂ changed₂ => ?_
  have locks₂ := locks₁.agrees h₁.heap (changed₂.agrees (by omega)) (changed₂.agrees (by omega))
  obtain ⟨table, m₃, m₄, changed₃, changed₄, locks₄, performed⟩ := serves c₁ m₂ h₂ locks₂
    (same .x1 (by decide) (by decide) (by decide))
  have h₄ : Stands a b bcp p x { v with locks := table } c₁ m₄ :=
    ((h₂.inRecords changed₃ (by omega) (by omega)).inMark there changed₄).ofVm rfl
      { h.inhabits with }
  refine ⟨{ v with locks := table }, m₄, ⟨performed, rfl, ⟨fun quiet => quiet, rfl, rfl⟩,
    changed₄.size.trans changed₃.size, changed₄.guards.trans changed₃.guards⟩,
    fun m₅ changed₅ => ?_⟩
  have h₅ := h₄.outside changed₅ (.inr (.inl (by omega)))
  have locks₅ := locks₄.agrees h₄.heap (changed₅.agrees (by omega)) (changed₅.agrees (by omega))
  -- what the service and the state of the thread leave alone
  have kept (s t : Nat) (away : t ≤ 0x20000 ∨ a.frame.toNat ≤ s + 64) : m₁.Agrees m₅ s t :=
    (changed₂.agrees (by omega)).trans <| (changed₃.agrees (by omega)).trans <|
      (changed₄.agrees (by omega)).trans (changed₅.agrees (by omega))
  rw [link]
  have bytecode : load m₅.bytes (a.frame.toNat - 56) 8 = bcp := by
    rw [(kept (a.frame.toNat - 56) (a.frame.toNat - 48) (.inr (by omega))).load (Nat.le_refl _)
      (by omega)]
    exact saved
  refine h₅.runResumeFrom resume bytecode (by simp) (.inr ⟨rfl, rfl⟩)
    fun c' m' h' _ _ _ changed' => ?_
  have guards : m'.guards = m.guards := by
    rw [changed'.guards, changed₅.guards, changed₄.guards, changed₃.guards, changed₂.guards,
      confined.guards]
  refine next { v with locks := table } c' m' h'
    (locks₅.agrees h₅.heap (changed'.agrees (by omega)) (changed'.agrees (by omega)))
    ⟨⟨table, rfl⟩, ?_, guards, fun s t mark away => ?_⟩ ?_
  · rw [changed'.size, changed₅.size, changed₄.size, changed₃.size, changed₂.size, confined.size]
  · exact (agrees s t (by omega)).trans <| (changed₂.agrees (by omega)).trans <|
      (changed₃.agrees (by omega)).trans <| (changed₄.agrees (by omega)).trans <|
      (changed₅.agrees (by omega)).trans (changed'.agrees (by omega))
  · exact (agrees _ _ (.inl (Nat.le_refl _))).trans <| (changed₂.agrees (by omega)).trans <|
      (changed₃.agrees (by omega)).trans <| (changed₄.agrees (by omega)).trans <|
      (changed₅.agrees (by omega)).trans (changed'.agrees (by omega))

/-- The runtime can access a record and the object that it names. -/
theorem names (h : Stands a b bcp p x v c m) (monitors : a.Monitors objects m)
    (there : x.heap r = some o) (named : objects[k]? = some r) :
    Vm.Names m (a.record k) r ∧ a.thread.toNat ≤ (a.record k).toNat ∧
      (a.record k).toNat + 16 ≤ 2 ^ 64 := by
  have lt := (List.getElem?_eq_some_iff.mp named).1
  have thread := h.fits.thread
  have operands := h.fits.operands
  have frame := h.fits.frame
  have bound := a.frame.toNat_lt
  have extent := monitors.records
  have eight : (8 : UInt64).toNat = 8 := rfl
  have start := monitors.toNat_record (k := k) (by omega)
  have name : (a.record k + 8).toNat = a.top.toNat + 16 * k + 8 := by
    rw [toNat_add_of_lt (by omega), start, eight]
  have marked := (h.open_object there (k := 0) (n := 8) (Nat.le_trans (by decide) o.sixteen_le_size)).2
  rw [UInt64.add_zero] at marked
  refine ⟨⟨?_, ?_, marked, ?_⟩, by omega, by omega⟩
  · exact h.fits.clearStack.open (by change _ ≤ (a.record k + 8).toNat; omega)
      (by change (a.record k + 8).toNat + 8 ≤ _; omega)
  · exact h.fits.clearStack.open (by omega) (by omega)
  · exact (congrArg (load m.bytes · 8) name).trans (monitors.names k r named)

section
variable (h : Stands a b bcp p x v c m) (locks : a.Locks v m x.heap marks objects held)
  (there : x.heap r = some o) (named : objects[k]? = some r) (record : c.reg .x1 = a.record k)
include h locks there named record

/-- The object that a record names is locked. -/
theorem runLock (few : held.count r + 1 < 2 ^ 32)
    (lay : Lays ⟨v.image.code, place⟩ ctx inStub K S (lockObject .x1) q q' ())
    (next : ∀ v' c' m', Stands a b bcp p x v' c' m' → a.Locks v' m' x.heap marks objects (r :: held) →
      a.Relocked r v m v' m' → m.Agrees m' (a.thread.toNat + 8) (a.thread.toNat + 16) →
      Vm.Arrives P turns (v'.moved q' c' m')) : Vm.Arrives P (turns + 24) (v.moved q c m) := by
  obtain ⟨inside, same⟩ := List.getElem?_eq_some_iff.mp named
  refine h.runRecordService locks rfl there inside lay (fun c₁ m₁ h₁ locks₁ kept => ?_) next
  have below := h₁.heap.below r o there
  have size := o.sixteen_le_size
  have low := h₁.fits.thread
  have operands := h₁.fits.operands
  have address := locks₁.monitors.toNat_record (k := k) (by omega)
  obtain ⟨names, away, -⟩ := h₁.names locks₁.monitors there named
  obtain ⟨table, m₂, m₃, changed₂, changed₃, accounts, performed⟩ :=
    locks₁.accounts.enter h₁.heap there away names (h₁.ne_zero there) few
  rw [address] at changed₂
  have stays : load m₂.bytes (a.top.toNat + 16 * k + 8) 8 = r := by
    rw [(changed₂.agrees (.inr (Nat.le_refl _))).load (Nat.le_refl _) (Nat.le_refl _)]
    exact locks₁.monitors.names k r named
  have monitors := locks₁.monitors.set inside changed₂ (Nat.le_refl _) (by omega) stays
  rw [← same, List.set_getElem_self] at monitors
  refine ⟨table, m₂, m₃, changed₂.mono (by omega) (by omega), changed₃,
    ⟨monitors.agrees (changed₃.agrees (by omega)), accounts⟩, fun steps watched => ?_⟩
  have performed := performed Service.monitorEnter.address c₁ steps watched
  rw [← record, ← kept] at performed
  exact performed

/-- The record is freed, and the object that it names is unlocked. -/
theorem runUnlock (mem : r ∈ held)
    (lay : Lays ⟨v.image.code, place⟩ ctx inStub K S (unlockObject .x1) q q' ())
    (next : ∀ v' c' m', Stands a b bcp p x v' c' m' →
      a.Locks v' m' x.heap marks (objects.set k 0) (held.erase r) → a.Relocked r v m v' m' → m.Agrees m' (a.thread.toNat + 8) (a.thread.toNat + 16) →
      Vm.Arrives P turns (v'.moved q' c' m')) : Vm.Arrives P (turns + 24) (v.moved q c m) := by
  obtain ⟨inside, -⟩ := List.getElem?_eq_some_iff.mp named
  refine h.runRecordService locks rfl there inside lay (fun c₁ m₁ h₁ locks₁ kept => ?_) next
  have below := h₁.heap.below r o there
  have size := o.sixteen_le_size
  have low := h₁.fits.thread
  have operands := h₁.fits.operands
  have address := locks₁.monitors.toNat_record (k := k) (by omega)
  obtain ⟨names, away, top⟩ := h₁.names locks₁.monitors there named
  obtain ⟨table, m₂, m₃, changed₂, changed₃, freed, accounts, performed⟩ :=
    locks₁.accounts.exit h₁.heap there away names mem top
  rw [address] at changed₂ freed
  have monitors := locks₁.monitors.set inside changed₂ (Nat.le_refl _) (Nat.le_refl _) freed
  refine ⟨table, m₂, m₃, changed₂.mono (by omega) (by omega), changed₃,
    ⟨monitors.agrees (changed₃.agrees (by omega)), accounts⟩, fun steps watched => ?_⟩
  have performed := performed Service.monitorExit.address c₁ steps watched
  rw [← record, ← kept] at performed
  exact performed

end

end Stands
end TemplateVm
