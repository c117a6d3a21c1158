import TemplateVm.Proofs.Loading.Lookups
import TemplateVm.Proofs.Loading.Records

set_option autoImplicit false

/-!
# Worlds that only grow

One world extends another if it has all of its classes and methods, in the same places, and every
byte that the other one had handed out. That a world is sound is kept by all that loading does.
-/
namespace TemplateVm

open Memory (Guarded byteAt)

/-- The records of a class lie in a range. -/
structure LoadedClass.Within (c : LoadedClass) (lo hi : Nat) : Prop where
  first : lo ≤ c.address.toNat
  record : c.address.toNat + 24 ≤ hi
  pool : c.poolAddress.toNat + 24 ≤ hi
  cache : c.cacheAddress.toNat + 16 + 32 * c.pool.size ≤ hi

/-- The record of a method lies in a range, and its code ends in it. -/
structure LoadedMethod.Within (m : LoadedMethod) (lo hi : Nat) : Prop where
  first : lo ≤ m.address.toNat
  record : m.address.toNat + 48 ≤ hi
  code : m.codeBase.toNat + m.codeLength ≤ hi

/-- All that is in the table has its records in a range, and every method has a class. -/
structure ClassTable.Within (t : ClassTable) (lo hi : Nat) : Prop where
  classes : ∀ c ∈ t.classes, c.Within lo hi
  methods : ∀ m ∈ t.methods, m.Within lo hi
  holders : ∀ m ∈ t.methods, m.holder < t.classes.size

theorem ClassTable.Within.mono {t : ClassTable} {lo hi hi' : Nat} (h : t.Within lo hi)
    (le : hi ≤ hi') : t.Within lo hi' where
  classes c hc :=
    have within := h.classes c hc
    ⟨within.first, Nat.le_trans within.record le, Nat.le_trans within.pool le,
      Nat.le_trans within.cache le⟩
  methods m hm :=
    have within := h.methods m hm
    ⟨within.first, Nat.le_trans within.record le, Nat.le_trans within.code le⟩
  holders := h.holders

namespace World

variable {w w' w'' : World} {k : Nat}

/-- The fields of the class of class objects. -/
def FewFields (w : World) : Prop :=
  ∀ id, w.classes.find? KnownClass.classOfClasses = some id →
    (w.classes.get id).fields.length < 2 ^ 60

/-- What loading relies on: room for records and objects apart from each other, and a table that
    tells of nothing that is not there. -/
structure Sound (w : World) : Prop where
  writable : w.Writable
  store : w.store.Sound
  apart : w.classes.metaspace.stop.toNat ≤ w.store.heap.region.start.toNat
  coherent : w.classes.Coherent
  within : w.classes.Within w.classes.metaspace.start.toNat w.classes.metaspace.top.toNat
  few : w.FewFields

/-- The world `w'` has all that `w` has, and where. -/
structure Extends (w w' : World) : Prop where
  table : w.classes.Extends w'.classes
  entries : w'.classes.entries = w.classes.entries
  policy : w'.classes.policy = w.classes.policy
  start : w'.classes.metaspace.start = w.classes.metaspace.start
  stop : w'.classes.metaspace.stop = w.classes.metaspace.stop
  top_le : w.classes.metaspace.top.toNat ≤ w'.classes.metaspace.top.toNat
  heap : w.store.heap.Grows w'.store.heap
  size : w'.store.mem.bytes.size = w.store.mem.bytes.size
  guards : w'.store.mem.guards = w.store.mem.guards
  /-- No byte has changed but those that were free. -/
  bytes : ∀ j, j < w.classes.metaspace.top.toNat ∨ w.classes.metaspace.stop.toNat ≤ j →
    j < w.store.heap.region.top.toNat ∨ w.store.heap.region.stop.toNat ≤ j →
    byteAt w'.store.mem.bytes j = byteAt w.store.mem.bytes j

namespace Extends

theorem refl (sound : w.Sound) : w.Extends w :=
  ⟨.refl _, rfl, rfl, rfl, rfl, Nat.le_refl _, .refl sound.store.region, rfl, rfl,
    fun _ _ _ => rfl⟩

theorem trans (h : w.Extends w') (h' : w'.Extends w'') : w.Extends w'' where
  table := h.table.trans h'.table
  entries := h'.entries.trans h.entries
  policy := h'.policy.trans h.policy
  start := h'.start.trans h.start
  stop := h'.stop.trans h.stop
  top_le := Nat.le_trans h.top_le h'.top_le
  heap := h.heap.trans h'.heap
  size := h'.size.trans h.size
  guards := h'.guards.trans h.guards
  bytes j hm hh := by
    have metaspace := h.top_le
    have heap := h.heap.top_le
    rw [← h.bytes j hm hh, h'.bytes j (by rw [h.stop]; omega) (by rw [h.heap.stop]; omega)]

/-- What lies below the first free byte of the metaspace stays as it is. -/
theorem agrees (h : w.Extends w') (sound : w.Sound) {lo hi : Nat}
    (below : hi ≤ w.classes.metaspace.top.toNat) : w.store.mem.Agrees w'.store.mem lo hi := by
  intro j _ hj
  have := sound.writable.region.top_le
  have := sound.apart
  have := sound.store.region.start_le
  exact h.bytes j (by omega) (by omega)

/-- The records of a class that was there before, its pool and what is cached in it. -/
theorem class_records (h : w.Extends w') (sound : w.Sound) {c : LoadedClass}
    (known : c ∈ w.classes.classes) :
    w.store.mem.Agrees w'.store.mem c.address.toNat (c.address.toNat + 24) ∧
    w.store.mem.Agrees w'.store.mem c.poolAddress.toNat (c.poolAddress.toNat + 24) ∧
    w.store.mem.Agrees w'.store.mem c.cacheAddress.toNat
      (c.cacheAddress.toNat + 16 + 32 * c.pool.size) :=
  have within := sound.within.classes c known
  ⟨h.agrees sound within.record, h.agrees sound within.pool, h.agrees sound within.cache⟩

/-- The record of a method that was there before, and its code. -/
theorem method_records (h : w.Extends w') (sound : w.Sound) {m : LoadedMethod}
    (known : m ∈ w.classes.methods) :
    w.store.mem.Agrees w'.store.mem m.address.toNat (m.address.toNat + 48) ∧
    w.store.mem.Agrees w'.store.mem m.codeBase.toNat (m.codeBase.toNat + m.codeLength) :=
  have within := sound.within.methods m known
  ⟨h.agrees sound within.record, h.agrees sound within.code⟩

end Extends

/-- An object that was there before. -/
theorem Extends.object (h : w.Extends w') (sound : w.Sound) {a size : Nat}
    (start : w.store.heap.region.start.toNat ≤ a)
    (stop : a + size ≤ w.store.heap.region.top.toNat) :
    w.store.mem.Agrees w'.store.mem a (a + size) := by
  intro j _ hj
  have := sound.apart
  exact h.bytes j (by omega) (by omega)

/-! ## Soundness -/

theorem Sound.alike (sound : w.Sound) {m : Guarded} (alike : w.store.mem.Alike m) :
    Sound { w with store := { w.store with mem := m } } :=
  ⟨⟨sound.writable.region, sound.writable.clear.congr alike.size alike.guards⟩,
    ⟨sound.store.region, sound.store.clear.congr alike.size alike.guards⟩, sound.apart,
    sound.coherent, sound.within, sound.few⟩

theorem Sound.changed (sound : w.Sound) {m : Guarded} {lo hi : Nat}
    (changed : w.store.mem.Changed m lo hi) :
    Sound { w with store := { w.store with mem := m } } :=
  sound.alike ⟨changed.size, changed.guards⟩

theorem Fills.extends (h : Fills k w w') (sound : w.Sound) : w.Extends w' where
  table := .of_eq (by rw [h.table]) (by rw [h.table])
  entries := by rw [h.table]
  policy := by rw [h.table]
  start := h.start
  stop := h.stop
  top_le := h.top_le
  heap := by
    rw [h.heap]
    exact .refl sound.store.region
  size := h.mem.size
  guards := h.mem.guards
  bytes j hj _ := by
    have := h.inside
    exact h.mem.other j (by omega)

theorem Fills.sound (h : Fills k w w') (sound : w.Sound) : w'.Sound where
  writable := h.writable sound.writable
  store := by
    constructor
    · rw [h.heap]
      exact sound.store.region
    · rw [h.heap]
      exact sound.store.clear.changed h.mem
  apart := by
    rw [h.stop, h.heap]
    exact sound.apart
  coherent := by
    rw [h.table]
    exact sound.coherent
  within := by
    have within := sound.within.mono h.top_le
    rw [h.start]
    constructor
    · rw [h.table]
      exact within.classes
    · rw [h.table]
      exact within.methods
    · rw [h.table]
      exact within.holders
  few := by
    unfold FewFields
    rw [h.table]
    exact sound.few

theorem Extends.grows {store : Memory.Store} (h : w.store.Grows store) :
    w.Extends { w with store } :=
  ⟨.refl _, rfl, rfl, rfl, rfl, Nat.le_refl _, h.heap, h.mem.size, h.mem.guards,
    fun j _ hj => h.mem.other j hj⟩

theorem Sound.grows {store : Memory.Store} (sound : w.Sound) (h : w.store.Grows store) :
    Sound { w with store } :=
  ⟨⟨sound.writable.region, sound.writable.clear.changed h.mem⟩, h.sound sound.store,
    by change _ ≤ store.heap.region.start.toNat; rw [h.heap.start]; exact sound.apart,
    sound.coherent, sound.within, sound.few⟩

/-- Bytes of the metaspace that were free before may be written at any time. -/
theorem Extends.changed (h : w.Extends w') {m : Guarded} {lo hi : Nat}
    (changed : w'.store.mem.Changed m lo hi) (first : w.classes.metaspace.top.toNat ≤ lo)
    (last : hi ≤ w.classes.metaspace.stop.toNat) :
    w.Extends { w' with store := { w'.store with mem := m } } :=
  { h with
    heap := h.heap
    size := changed.size.trans h.size
    guards := changed.guards.trans h.guards
    bytes := fun j hm hh => by rw [← h.bytes j hm hh, changed.other j (by omega)] }

/-! ### Changes of the table -/

/-- The world with other classes and methods in its table. -/
def withTable (w : World) (classes : Array LoadedClass) (methods : Array LoadedMethod) : World :=
  { w with classes := { w.classes with classes, methods } }

variable {classes : Array LoadedClass} {methods : Array LoadedMethod}

theorem Extends.withTable (h : w.Extends w') (hc : ∃ more, classes = w.classes.classes ++ more)
    (hm : ∃ more, methods = w.classes.methods ++ more) : w.Extends (w'.withTable classes methods) :=
  { h with table := ⟨hc, hm⟩ }

/-- The same classes, with other objects and methods. -/
theorem Sound.withTable (sound : w.Sound)
    (within : ClassTable.Within (w.withTable classes methods).classes
      w.classes.metaspace.start.toNat w.classes.metaspace.top.toNat)
    (coherent : ClassTable.Coherent (w.withTable classes methods).classes)
    (few : (w.withTable classes methods).FewFields) : (w.withTable classes methods).Sound :=
  ⟨⟨sound.writable.region, sound.writable.clear⟩, sound.store, sound.apart, coherent, within, few⟩

theorem findIdx?_name (xs : Array LoadedClass) (name : String) :
    xs.findIdx? (·.name == name) = (xs.map (·.name)).findIdx? (· == name) := by
  rw [Array.findIdx?_map]
  rfl

/-- Whether class objects can be made is a matter of the names and fields of classes only. -/
theorem FewFields.congr (few : w.FewFields)
    (names : classes.map (·.name) = w.classes.classes.map (·.name))
    (fields : classes.map (·.fields) = w.classes.classes.map (·.fields)) :
    (w.withTable classes methods).FewFields := by
  intro id found
  have get (xs : Array LoadedClass) : (xs.getD id default).fields =
      ((xs.map (·.fields))[id]?).getD [] := by
    rw [Array.getD_eq_getD_getElem?, Array.getElem?_map]
    cases xs[id]? <;> rfl
  change (classes.getD id default).fields.length < 2 ^ 60
  rw [get, fields, ← get]
  refine few id ?_
  change w.classes.classes.findIdx? _ = some id
  rw [findIdx?_name, ← names, ← findIdx?_name]
  exact found

theorem FewFields.push (few : w.FewFields) {c : LoadedClass}
    (small : c.name = KnownClass.classOfClasses → c.fields.length < 2 ^ 60) :
    (w.withTable (w.classes.classes.push c) methods).FewFields := by
  intro id found
  change (w.classes.classes.push c).findIdx? _ = some id at found
  change ((w.classes.classes.push c).getD id default).fields.length < 2 ^ 60
  rw [Array.findIdx?_push, Option.or_eq_some_iff] at found
  rw [Array.getD_eq_getD_getElem?]
  rcases found with found | ⟨-, found⟩
  · have known := (Array.findIdx?_eq_some_iff_getElem.mp found).1
    have old := few id found
    rw [ClassTable.get, Array.getD_eq_getD_getElem?] at old
    rw [Array.getElem?_push, if_neg (Nat.ne_of_lt known)]
    exact old
  · by_cases named : c.name == KnownClass.classOfClasses
    · rw [if_pos named, Option.some.injEq] at found
      subst found
      rw [Array.getElem?_push, if_pos rfl]
      exact small (beq_iff_eq.mp named)
    · rw [if_neg named] at found
      cases found

/-- A class is added that has no methods yet. -/
theorem Sound.pushClass (sound : w.Sound) {c : LoadedClass}
    (within : c.Within w.classes.metaspace.start.toNat w.classes.metaspace.top.toNat)
    (empty : c.methods = [])
    (small : c.name = KnownClass.classOfClasses → c.fields.length < 2 ^ 60) :
    (w.withTable (w.classes.classes.push c) w.classes.methods).Sound := by
  refine sound.withTable ⟨fun d hd => ?_, sound.within.methods, fun m hm => ?_⟩
    (fun d hd id hid => ?_) (sound.few.push small)
  · rcases Array.mem_push.mp hd with hd | rfl
    · exact sound.within.classes d hd
    · exact within
  · change _ < (w.classes.classes.push c).size
    rw [Array.size_push]
    exact Nat.lt_succ_of_lt (sound.within.holders m hm)
  · rcases Array.mem_push.mp hd with hd | rfl
    · exact sound.coherent d hd id hid
    · rw [empty] at hid
      cases hid

theorem Sound.pushMethod (sound : w.Sound) {m : LoadedMethod}
    (within : m.Within w.classes.metaspace.start.toNat w.classes.metaspace.top.toNat)
    (holder : m.holder < w.classes.classes.size) :
    (w.withTable w.classes.classes (w.classes.methods.push m)).Sound := by
  refine sound.withTable ⟨sound.within.classes, fun n hn => ?_, fun n hn => ?_⟩
    (fun d hd id hid => ?_) (sound.few.congr rfl rfl)
  · rcases Array.mem_push.mp hn with hn | rfl
    · exact sound.within.methods n hn
    · exact within
  · rcases Array.mem_push.mp hn with hn | rfl
    · exact sound.within.holders n hn
    · exact holder
  · change id < (w.classes.methods.push m).size
    rw [Array.size_push]
    exact Nat.lt_succ_of_lt (sound.coherent d hd id hid)

theorem mem_modify {α : Type} {xs : Array α} {i : Nat} {f : α → α} {x : α}
    (h : x ∈ xs.modify i f) : x ∈ xs ∨ ∃ y ∈ xs, x = f y := by
  obtain ⟨j, hj, rfl⟩ := Array.mem_iff_getElem.mp h
  rw [Array.size_modify] at hj
  rw [Array.getElem_modify]
  split
  · exact .inr ⟨xs[j], Array.getElem_mem hj, rfl⟩
  · exact .inl (Array.getElem_mem hj)

theorem map_modify {α β : Type} {xs : Array α} {i : Nat} {f : α → α} {g : α → β}
    (same : ∀ x, g (f x) = g x) : (xs.modify i f).map g = xs.map g := by
  ext j h₁ h₂
  · simp
  · rw [Array.getElem_map, Array.getElem_map, Array.getElem_modify]
    split
    · exact same _
    · rfl

/-- A class is changed where its records and the search for classes do not show it. -/
theorem Sound.modifyClass (sound : w.Sound) {id : ClassId} {f : LoadedClass → LoadedClass}
    (name : ∀ c, (f c).name = c.name) (fields : ∀ c, (f c).fields = c.fields)
    (within : ∀ c lo hi, c.Within lo hi → (f c).Within lo hi)
    (known : ∀ c, ∀ m ∈ (f c).methods, m ∈ c.methods ∨ m < w.classes.methods.size) :
    (w.withTable (w.classes.classes.modify id f) w.classes.methods).Sound := by
  refine sound.withTable ⟨fun d hd => ?_, sound.within.methods, fun m hm => ?_⟩
    (fun d hd m hm => ?_) (sound.few.congr (map_modify name) (map_modify fields))
  · rcases mem_modify hd with hd | ⟨c, hc, rfl⟩
    · exact sound.within.classes d hd
    · exact within c _ _ (sound.within.classes c hc)
  · change _ < (w.classes.classes.modify id f).size
    rw [Array.size_modify]
    exact sound.within.holders m hm
  · rcases mem_modify hd with hd | ⟨c, hc, rfl⟩
    · exact sound.coherent d hd m hm
    · rcases known c m hm with listed | known
      · exact sound.coherent c hc m listed
      · exact known

/-- A method is added to the table and to a class. -/
theorem Sound.addMethod (sound : w.Sound) (holder : ClassId) {m : LoadedMethod}
    (within : m.Within w.classes.metaspace.start.toNat w.classes.metaspace.top.toNat)
    (known : m.holder < w.classes.classes.size) :
    (w.withTable (w.classes.classes.modify holder
        fun c => { c with methods := c.methods ++ [w.classes.methods.size] })
      (w.classes.methods.push m)).Sound := by
  refine (sound.pushMethod within known).modifyClass (fun _ => rfl) (fun _ => rfl)
    (fun _ _ _ within => ⟨within.first, within.record, within.pool, within.cache⟩)
    fun _ id hid => ?_
  rcases List.mem_append.mp hid with listed | new
  · exact .inl listed
  · rw [List.mem_singleton.mp new]
    refine .inr ?_
    change _ < (w.classes.methods.push m).size
    rw [Array.size_push]
    exact Nat.lt_succ_self _

end World
end TemplateVm
