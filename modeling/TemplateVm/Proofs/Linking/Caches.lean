import TemplateVm.Proofs.Linking.Entries
import TemplateVm.Proofs.Loading.Classes

set_option autoImplicit false

/-!
# Caches of loaded classes

Records and caches lie behind each other in the order in which classes are loaded, so that none is in
the way of another. In the cache of a class that has just been loaded no entry names a bytecode, and
whether loading succeeds or fails, the entries of all other caches are as they were.
-/
namespace TemplateVm

open Memory (byteAt load)

/-! ## Fresh entries -/

theorem Opcode.le_byte_of_isLinked {o : Opcode} (linked : o.isLinked = true) :
    0xb4 ≤ o.byte.toNat := by
  revert linked
  cases o <;> decide

/-- The number of an entry takes the bytes that name bytecodes, and is too small to name any. -/
theorem not_setAt_of_number {b : ByteArray} {a i : Nat} (small : i < 0xb40000)
    (number : load b a 4 = i.toUInt64.toUInt32.toUInt64) : ¬ SetAt b a := by
  rintro ⟨k, hk, o, linked, named⟩
  have value : i.toUInt64.toUInt32.toUInt64.toNat = i := by
    rw [UInt32.toNat_toUInt64, UInt64.toNat_toUInt32,
      UInt64.toNat_ofNat_of_lt' (by change i < 2 ^ 64; omega)]
    exact Nat.mod_eq_of_lt (by omega)
  have bytes := congrArg UInt64.toNat number
  rw [value, Memory.load_succ (by decide), Memory.load_succ (by decide),
    Memory.load_succ (by decide), Memory.load_one, UInt8.toNat_toUInt64] at bytes
  have large := Opcode.le_byte_of_isLinked linked
  simp only [List.mem_cons, List.not_mem_nil, or_false] at hk
  obtain rfl | rfl := hk
  · rw [show a + 1 + 1 = a + 2 by omega, named] at bytes
    omega
  · rw [show a + 1 + 1 + 1 = a + 3 by omega, named] at bytes
    omega

/-- Records and caches lie behind each other. -/
structure ClassTable.Spread (t : ClassTable) : Prop where
  behind : ∀ c ∈ t.classes, c.address.toNat + 24 ≤ c.cacheAddress.toNat
  apart : ∀ (i j : Nat) (c d : LoadedClass), t.classes[i]? = some c → t.classes[j]? = some d →
    i < j → c.entryAt c.pool.size ≤ d.address.toNat

namespace ClassTable.Spread

variable {t t' : ClassTable} {c d : LoadedClass}

/-- Two caches are those of one class, or have no byte in common. -/
theorem caches_apart (h : t.Spread) (hc : c ∈ t.classes) (hd : d ∈ t.classes) :
    c = d ∨ c.entryAt c.pool.size ≤ d.cacheAddress.toNat ∨
      d.entryAt d.pool.size ≤ c.cacheAddress.toNat := by
  obtain ⟨i, hi⟩ := Array.mem_iff_getElem?.mp hc
  obtain ⟨j, hj⟩ := Array.mem_iff_getElem?.mp hd
  have first := h.behind c hc
  have second := h.behind d hd
  rcases Nat.lt_trichotomy i j with lt | rfl | lt
  · have apart := h.apart i j c d hi hj lt
    omega
  · exact .inl (Option.some.inj (hi.symm.trans hj))
  · have apart := h.apart j i d c hj hi lt
    omega

/-- No cache is in the way of the record of a class. -/
theorem record_apart (h : t.Spread) (hc : c ∈ t.classes) (hd : d ∈ t.classes) :
    c.address.toNat + 24 ≤ d.cacheAddress.toNat ∨
      d.entryAt d.pool.size ≤ c.address.toNat := by
  obtain ⟨i, hi⟩ := Array.mem_iff_getElem?.mp hc
  obtain ⟨j, hj⟩ := Array.mem_iff_getElem?.mp hd
  have first := h.behind c hc
  have second := h.behind d hd
  rcases Nat.lt_trichotomy i j with lt | rfl | lt
  · have apart := h.apart i j c d hi hj lt
    unfold LoadedClass.entryAt at apart
    omega
  · obtain rfl := Option.some.inj (hi.symm.trans hj)
    exact .inl first
  · exact .inr (h.apart j i d c hj hi lt)

theorem congr (h : t.Spread) (classes : t'.classes = t.classes) : t'.Spread := by
  constructor
  · rw [classes]
    exact h.behind
  · rw [classes]
    exact h.apart

theorem push (h : t.Spread) (classes : t'.classes = t.classes.push c)
    (behind : c.address.toNat + 24 ≤ c.cacheAddress.toNat)
    (above : ∀ d ∈ t.classes, d.entryAt d.pool.size ≤ c.address.toNat) : t'.Spread where
  behind d hd := by
    rw [classes] at hd
    rcases Array.mem_push.mp hd with hd | rfl
    · exact h.behind d hd
    · exact behind
  apart i j d e hd he lt := by
    rw [classes, Array.getElem?_push] at hd he
    split at he
    · next last =>
      obtain rfl := Option.some.inj he
      rw [if_neg (by omega)] at hd
      exact above d (Array.mem_of_getElem? hd)
    · have inside := (Array.getElem?_eq_some_iff.mp he).1
      rw [if_neg (by omega)] at hd
      exact h.apart i j d e hd he lt

/-- A class is changed, but neither its pool nor where its record and its cache are. -/
theorem modify (h : t.Spread) {id : ClassId} {f : LoadedClass → LoadedClass}
    (classes : t'.classes = t.classes.modify id f) (address : ∀ c, (f c).address = c.address)
    (cache : ∀ c, (f c).cacheAddress = c.cacheAddress) (pool : ∀ c, (f c).pool = c.pool) :
    t'.Spread := by
  have old {i : Nat} {c : LoadedClass} (hc : t'.classes[i]? = some c) :
      ∃ d, t.classes[i]? = some d ∧ d.address = c.address ∧
        d.cacheAddress = c.cacheAddress ∧ d.pool = c.pool := by
    rw [classes, Array.getElem?_modify] at hc
    split at hc
    · obtain ⟨d, hd, rfl⟩ := Option.map_eq_some_iff.mp hc
      exact ⟨d, hd, (address d).symm, (cache d).symm, (pool d).symm⟩
    · exact ⟨c, hc, rfl, rfl, rfl⟩
  constructor
  · intro c hc
    obtain ⟨i, hi⟩ := Array.mem_iff_getElem?.mp hc
    obtain ⟨d, hd, same, same', -⟩ := old hi
    rw [← same, ← same']
    exact h.behind d (Array.mem_of_getElem? hd)
  · intro i j c c' hc hc' lt
    obtain ⟨d, hd, -, same, samePool⟩ := old hc
    obtain ⟨d', hd', same', -⟩ := old hc'
    have apart := h.apart i j d d' hd hd' lt
    unfold LoadedClass.entryAt at apart ⊢
    rw [← same, ← same', ← samePool]
    exact apart

end ClassTable.Spread

theorem LoadedClass.entryAt_le (c : LoadedClass) {i : Nat} (hi : i < c.pool.size) :
    c.cacheAddress.toNat ≤ c.entryAt i ∧ c.entryAt i + 32 ≤ c.entryAt c.pool.size := by
  unfold entryAt
  omega

namespace World

variable {w w₀ w' w'' : World} {c : ClassDefinition} {k : Nat}

/-- Nothing is resolved yet. -/
structure Unlinked (w : World) : Prop where
  spread : w.classes.Spread
  unset : ∀ c ∈ w.classes.classes, ∀ i < c.pool.size, ¬ SetAt w.store.mem.bytes (c.entryAt i)

/-- What is resolved is what the constants stand for. -/
structure Cached (w : World) : Prop where
  spread : w.classes.Spread
  coherent : ∀ c ∈ w.classes.classes, ∀ (i : Nat) (entry : PoolEntry), c.pool[i]? = some entry →
    CoherentAt w.classes w.store.mem.bytes entry (c.entryAt i)

/-- All that is known of the classes stays known, and so do the words of all entries that name a
    bytecode. -/
structure Keeps (w w' : World) : Prop where
  table : w.classes.Extends w'.classes
  entries : ∀ c ∈ w.classes.classes, ∀ i < c.pool.size, SetAt w.store.mem.bytes (c.entryAt i) →
    SetAt w'.store.mem.bytes (c.entryAt i) ∧
      payloadAt w'.store.mem.bytes (c.entryAt i) = payloadAt w.store.mem.bytes (c.entryAt i)

theorem Keeps.refl (w : World) : w.Keeps w := ⟨.refl _, fun _ _ _ _ set => ⟨set, rfl⟩⟩

theorem Keeps.trans (h : w.Keeps w') (h' : w'.Keeps w'') : w.Keeps w'' where
  table := h.table.trans h'.table
  entries c hc i hi set := by
    obtain ⟨more, classes⟩ := h.table.classes
    have hc' : c ∈ w'.classes.classes := by
      rw [classes]
      exact Array.mem_append_left more hc
    obtain ⟨set', same⟩ := h.entries c hc i hi set
    obtain ⟨set'', same'⟩ := h'.entries c hc' i hi set'
    exact ⟨set'', same'.trans same⟩

theorem Unlinked.cached (h : w.Unlinked) : w.Cached where
  spread := h.spread
  coherent c hc i _ there k hk o linked named :=
    absurd ⟨k, hk, o, linked, named⟩
      (h.unset c hc i (Array.getElem?_eq_some_iff.mp there).1)

/-- Entries of a cache are below all that has not been handed out. -/
theorem Sound.entry_below (sound : w.Sound) {c : LoadedClass} (hc : c ∈ w.classes.classes) {i : Nat}
    (hi : i < c.pool.size) : c.entryAt i + 32 ≤ w.classes.metaspace.top.toNat :=
  Nat.le_trans (c.entryAt_le hi).2 (sound.within.classes c hc).cache

/-- What grows keeps the entries that are there. -/
theorem Extends.entry (h : w.Extends w') (sound : w.Sound) {c : LoadedClass}
    (hc : c ∈ w.classes.classes) {i : Nat} (hi : i < c.pool.size) :
    w.store.mem.Agrees w'.store.mem (c.entryAt i) (c.entryAt i + 32) :=
  h.agrees sound (sound.entry_below hc hi)

theorem SetAt.agrees {m m' : Memory.Guarded} {a : Nat} (h : SetAt m.bytes a)
    (same : m.Agrees m' a (a + 32)) : SetAt m'.bytes a := by
  obtain ⟨k, hk, o, linked, named⟩ := h
  refine ⟨k, hk, o, linked, ?_⟩
  rw [same _ (Nat.le_add_right a k) (by revert hk; simp; omega)]
  exact named

theorem Extends.keeps (h : w.Extends w') (sound : w.Sound) : w.Keeps w' where
  table := h.table
  entries _ hc _ hi set :=
    have same := h.entry sound hc hi
    ⟨SetAt.agrees set same, payloadAt_agrees (same.mono (Nat.le_add_right _ 8) (Nat.le_refl _))⟩

/-! ## Loading -/

namespace Underway

/-- The class that is being loaded has its record and its cache behind all others. -/
theorem spread (h : Underway w₀ c k w) (sound : w₀.Sound) (spread : w₀.classes.Spread) :
    w.classes.Spread := by
  obtain ⟨entry, classes, describes⟩ := h.listed
  refine spread.push classes describes.behind fun d hd => ?_
  exact Nat.le_trans (sound.within.classes d hd).cache describes.first

/-- Nothing of it has been resolved. -/
theorem unset (h : Underway w₀ c k w) (small : c.pool.length ≤ 0xb40000) {i : Nat}
    (hi : i < (w.classes.get w₀.classes.size).pool.size) :
    ¬ SetAt w.store.mem.bytes ((w.classes.get w₀.classes.size).entryAt i) := by
  obtain ⟨entry, describes, -, same, -⟩ := h.entry
  refine not_setAt_of_number (Nat.lt_of_lt_of_le hi ?_) (h.numbered i hi)
  rw [same, describes.pool, List.size_toArray]
  exact small

/-- The classes of the world are those of before, and the one that is being loaded. -/
theorem mem_classes (h : Underway w₀ c k w) {d : LoadedClass} (hd : d ∈ w.classes.classes) :
    d ∈ w₀.classes.classes ∨ d = w.classes.get w₀.classes.size := by
  obtain ⟨entry, classes, -⟩ := h.listed
  rw [classes] at hd
  rw [ClassTable.get, classes, ClassTable.size, getD_push]
  exact Array.mem_push.mp hd

theorem unlinked (h : Underway w₀ c k w) (sound : w₀.Sound) (small : c.pool.length ≤ 0xb40000)
    (unlinked : w₀.Unlinked) : w.Unlinked where
  spread := h.spread sound unlinked.spread
  unset d hd i hi := by
    rcases h.mem_classes hd with hd | rfl
    · exact fun set => unlinked.unset d hd i hi
        (SetAt.agrees set fun j h₁ h₂ => (h.grown.entry sound hd hi j h₁ h₂).symm)
    · exact h.unset small hi

theorem cached (h : Underway w₀ c k w) (sound : w₀.Sound) (small : c.pool.length ≤ 0xb40000)
    (cached : w₀.Cached) : w.Cached where
  spread := h.spread sound cached.spread
  coherent d hd i entry there := by
    have inside := (Array.getElem?_eq_some_iff.mp there).1
    rcases h.mem_classes hd with hd | rfl
    · exact (cached.coherent d hd i entry there).agrees (h.grown.entry sound hd inside)
        h.grown.table sound.coherent
    · exact fun k hk o linked named =>
        absurd ⟨k, hk, o, linked, named⟩ (h.unset small inside)

end Underway

theorem Unlinked.kept (h : w.Unlinked) {c : LoadedClass} (hc : c ∈ w.classes.classes)
    (same : w.store.mem.Agrees w'.store.mem c.cacheAddress.toNat (c.entryAt c.pool.size)) {i : Nat}
    (hi : i < c.pool.size) : ¬ SetAt w'.store.mem.bytes (c.entryAt i) := fun set =>
  have inside := c.entryAt_le hi
  h.unset c hc i hi (SetAt.agrees set fun j h₁ h₂ =>
    (same j (Nat.le_trans inside.1 h₁) (Nat.lt_of_lt_of_le h₂ inside.2)).symm)

/-- The classes are the same, and nothing is written into their caches. -/
theorem Unlinked.congr (h : w.Unlinked) (classes : w'.classes.classes = w.classes.classes)
    (same : ∀ c ∈ w.classes.classes,
      w.store.mem.Agrees w'.store.mem c.cacheAddress.toNat (c.entryAt c.pool.size)) :
    w'.Unlinked where
  spread := h.spread.congr classes
  unset c hc i hi := by
    rw [classes] at hc
    exact h.kept hc (same c hc) hi

/-- A class is changed where its cache does not show it. -/
theorem Unlinked.modify (h : w.Unlinked) {id : ClassId} {f : LoadedClass → LoadedClass}
    (classes : w'.classes.classes = w.classes.classes.modify id f)
    (address : ∀ c, (f c).address = c.address)
    (cache : ∀ c, (f c).cacheAddress = c.cacheAddress) (pool : ∀ c, (f c).pool = c.pool)
    (same : ∀ c ∈ w.classes.classes,
      w.store.mem.Agrees w'.store.mem c.cacheAddress.toNat (c.entryAt c.pool.size)) :
    w'.Unlinked where
  spread := h.spread.modify classes address cache pool
  unset c hc i hi := by
    rw [classes] at hc
    rcases mem_modify hc with hc | ⟨d, hd, rfl⟩
    · exact h.kept hc (same c hc) hi
    · rw [pool] at hi
      rw [LoadedClass.entryAt, cache]
      exact h.kept hd (same d hd) hi

/-- Neither the heap nor the record of a class is in the way of a cache. -/
theorem GivesObject.unlinked {id : ClassId} (h : GivesObject id w w') (sound : w.Sound)
    (known : id < w.classes.size) (unlinked : w.Unlinked) : w'.Unlinked := by
  obtain ⟨store, m, object, grows, changed, rfl⟩ := h
  refine unlinked.modify (f := fun c => { c with classObject := object }) rfl (fun _ => rfl)
    (fun _ => rfl) (fun _ => rfl) fun c hc => ?_
  have grown : w.store.mem.Agrees store.mem c.cacheAddress.toNat (c.entryAt c.pool.size) :=
    (Extends.grows grows).agrees sound (sound.within.classes c hc).cache
  refine grown.trans (changed.agrees ?_)
  exact (unlinked.spread.record_apart (ClassTable.get_mem known) hc).symm

/-- What leaves the classes alone leaves their caches alone. -/
theorem Cached.grow (h : w.Cached) (sound : w.Sound) (grown : w.Extends w')
    (classes : w'.classes.classes = w.classes.classes) : w'.Cached where
  spread := h.spread.congr classes
  coherent c hc i entry there := by
    rw [classes] at hc
    exact (h.coherent c hc i entry there).agrees
      (grown.entry sound hc (Array.getElem?_eq_some_iff.mp there).1) grown.table sound.coherent

/-- Whether a class can be loaded or not, caches stay coherent. -/
theorem load_cached (sound : w.Sound) (few : FewNewFields w c) (small : c.pool.length ≤ 0xb40000)
    (cached : w.Cached) :
    Ends (fun _ w' => w'.Cached) (fun _ w' => w'.Cached) (load c w) := by
  refine (load_ends sound (Nat.lt_of_le_of_lt small (by decide)) few).mono
    (fun _ w' ⟨_, known⟩ => known.cached sound small cached) fun e w' failed => ?_
  cases failed with
  | rejected => exact cached
  | refused fills short => exact cached.grow sound (fills.extends sound) (by rw [fills.table])
  | underway known obstacle => exact known.cached sound small cached

end World
end TemplateVm
