import TemplateVm.Proofs.Memory.Regions

set_option autoImplicit false

/-!
# Objects of a heap

Objects whose sizes can be computed without a wrap around lie one after the other in the heap, each
of them cleared but for its header. What fails enters no object and changes no byte; where the rest
of the heap is clear, it changes nothing at all.
-/
namespace TemplateVm.Memory

/-- A call that allocates an object. -/
inductive Allocation where
  | fields (classRecord slots : UInt64)
  | array (classRecord elementSize : UInt64) (length : UInt32)

namespace Allocation

variable {r : Allocation} {s s' : Store} {a : UInt64}

def run : Allocation → Store.Action UInt64
  | fields classRecord slots => Store.allocateInstance classRecord slots
  | array classRecord elementSize length => Store.allocateArray classRecord elementSize length

def classRecord : Allocation → UInt64
  | fields classRecord _ | array classRecord _ _ => classRecord

def length? : Allocation → Option UInt32
  | fields .. => none
  | array _ _ length => some length

/-- The bytes of the header, which are not all zero. -/
def headerSize : Allocation → Nat
  | fields .. => 16
  | array .. => 20

def size : Allocation → Nat
  | fields _ slots => 16 + 8 * slots.toNat
  | array _ elementSize length => 24 + elementSize.toNat * length.toNat

/-- The size as it is computed, modulo `2 ^ 64`. -/
def words : Allocation → UInt64
  | fields _ slots => ObjectShape.fields + slots * ObjectShape.slot
  | array _ elementSize length => ObjectShape.arrayBase + elementSize * length.toUInt64

/-- The allocation is counted among those of its kind. -/
def count (stats : HeapStats) : Allocation → HeapStats
  | fields .. => { stats with objects := stats.objects + 1 }
  | array .. => { stats with arrays := stats.arrays + 1 }

/-! ## Sizes -/

theorem toNat_words (fits : r.size < 2 ^ 64) : r.words.toNat = r.size := by
  cases r with
  | fields c slots =>
    have header : ObjectShape.fields.toNat = 16 := rfl
    have slot : ObjectShape.slot.toNat = 8 := rfl
    simp only [size] at fits
    rw [words, size, UInt64.toNat_add, UInt64.toNat_mul, header, slot]
    omega
  | array c elementSize length =>
    have header : ObjectShape.arrayBase.toNat = 24 := rfl
    simp only [size] at fits
    rw [words, size, UInt64.toNat_add, UInt64.toNat_mul, header, UInt32.toNat_toUInt64]
    omega

/-- A computed size can be smaller than the header, so that the next object lies in this one. -/
example : (fields 64 0x1fffffffffffffff).words = 8 := rfl

/-- Elements of at most eight bytes never get too many. -/
theorem size_array_lt {c elementSize : UInt64} (length : UInt32) (small : elementSize.toNat ≤ 8) :
    (array c elementSize length).size < 2 ^ 64 := by
  have few := length.toNat_lt
  have product := Nat.mul_le_mul small (Nat.le_of_lt few)
  simp only [size]
  omega

theorem size_fields_lt {c slots : UInt64} (few : slots.toNat < 2 ^ 60) :
    (fields c slots).size < 2 ^ 64 := by
  simp only [size]
  omega

theorem headerSize_le_size (r : Allocation) : r.headerSize ≤ r.size := by
  cases r with
  | fields => exact Nat.le_add_right ..
  | array => exact Nat.le_trans (by decide : 20 ≤ 24) (Nat.le_add_right ..)

theorem sixteen_le_headerSize (r : Allocation) : 16 ≤ r.headerSize := by
  cases r with
  | fields => exact Nat.le_refl 16
  | array => exact (by decide : 16 ≤ 20)

/-! ## One allocation -/

theorem calls_count (r : Allocation) {stats : HeapStats}
    (few : stats.objects.toNat + stats.arrays.toNat + 1 < 2 ^ 64) :
    (r.count stats).objects.toNat + (r.count stats).arrays.toNat =
      stats.objects.toNat + stats.arrays.toNat + 1 := by
  have one : (1 : UInt64).toNat = 1 := rfl
  cases r with
  | fields =>
    change (stats.objects + 1).toNat + stats.arrays.toNat = _
    rw [toNat_add_of_lt (by omega), one, Nat.add_right_comm]
  | array =>
    change stats.objects.toNat + (stats.arrays + 1).toNat = _
    rw [toNat_add_of_lt (by omega), one, Nat.add_assoc]

theorem bytes_count (r : Allocation) (stats : HeapStats) :
    (r.count stats).bytes = stats.bytes := by
  cases r <;> rfl

/-- What a new object consists of. -/
structure Fresh (r : Allocation) (a : UInt64) (m : Guarded) : Prop where
  mark : load m.bytes a.toNat 8 = 0
  instanced : load m.bytes (a.toNat + 8) 8 = r.classRecord
  length : ∀ n, r.length? = some n → load m.bytes (a.toNat + 16) 4 = n.toUInt64
  rest : ∀ k, r.headerSize ≤ k → k < r.size → byteAt m.bytes (a.toNat + k) = 0

theorem Fresh.agrees {m m' : Guarded} (h : r.Fresh a m)
    (same : m.Agrees m' a.toNat (a.toNat + r.size)) : r.Fresh a m' where
  mark := by
    have := r.sixteen_le_headerSize
    have := r.headerSize_le_size
    rw [same.load (Nat.le_refl _) (by omega), h.mark]
  instanced := by
    have := r.sixteen_le_headerSize
    have := r.headerSize_le_size
    rw [same.load (by omega) (by omega), h.instanced]
  length n hn := by
    have room : 20 ≤ r.size := by
      cases r with
      | fields => cases hn
      | array c elementSize length => exact (array c elementSize length).headerSize_le_size
    rw [same.load (by omega) (by omega), h.length n hn]
  rest k low high := by rw [same _ (by omega) (by omega), h.rest k low high]

/-- What a successful allocation does to a store. -/
structure Makes (r : Allocation) (s : Store) (a : UInt64) (s' : Store) : Prop where
  taken : s.heap.region.allocate? r.words 8 = some (a, s'.heap.region)
  changed : s.mem.Changed s'.mem a.toNat (a.toNat + r.size)
  fresh : r.Fresh a s'.mem
  starts : s'.heap.starts = s.heap.starts.insert a
  stats : s'.heap.stats = r.count { s.heap.stats with bytes := s.heap.stats.bytes + r.words }

/-- The mark is what the block is cleared to, and the class comes behind it. -/
theorem entered_header {c size : UInt64} {m : Guarded} (entered : s.Enters size a s')
    (room : 16 ≤ size.toNat) (h : m = s'.mem.put (a + ObjectShape.classRecord) 8 c) :
    load m.bytes a.toNat 8 = 0 ∧ load m.bytes (a.toNat + 8) 8 = c ∧
      ∀ k, 16 ≤ k → k < size.toNat → byteAt m.bytes (a.toNat + k) = 0 := by
  have eight : (8 : UInt64).toNat = 8 := rfl
  have offset : ObjectShape.classRecord.toNat = 8 := rfl
  obtain ⟨address, ok⟩ := entered.part (k := ObjectShape.classRecord) (w := 8) (by omega)
  rw [offset] at address
  have changed := s'.mem.changed_put (a + ObjectShape.classRecord) 8 c
  subst h
  refine ⟨?_, ?_, fun k low high => ?_⟩
  · refine load_eq_zero fun j low high => (changed.other j (by omega)).trans ?_
    obtain ⟨k, rfl⟩ := Nat.exists_eq_add_of_le low
    exact entered.zero (by omega)
  · rw [← address]
    exact Guarded.load_put ok
  · exact (changed.other _ (by omega)).trans (entered.zero high)

theorem fields_makes {c slots : UInt64} (fits : (fields c slots).size < 2 ^ 64) (s : Store) :
    Ends ((fields c slots).Makes s) (s.Refuses (fields c slots).words)
      (Store.allocateInstance c slots s) := by
  have room := toNat_words fits
  have header : 16 ≤ (fields c slots).size := Nat.le_add_right ..
  have offset : ObjectShape.classRecord.toNat = 8 := rfl
  have eight : (8 : UInt64).toNat = 8 := rfl
  unfold Store.allocateInstance
  refine (Store.allocate_enters (fields c slots).words s).bind (fun _ _ h => h) fun a s₁ entered => ?_
  obtain ⟨address, ok⟩ := entered.part (k := ObjectShape.classRecord) (w := 8) (by omega)
  refine Ends.bind (Ends.zoom ok.write_ends) (fun _ _ ⟨_, h, _⟩ => h.elim) ?_
  rintro _ _ ⟨m, put, rfl⟩
  obtain ⟨mark, instanced, rest⟩ := entered_header entered (by omega) put
  refine Ends.modify_bind ⟨entered.taken, ?_, ⟨mark, instanced, fun _ none => (nomatch none), ?_⟩,
    entered.starts, ?_⟩
  · rw [← room]
    change s.mem.Changed m _ _
    rw [put]
    exact entered.changed.put (by omega) (by omega)
  · rw [← room]
    exact rest
  · change (fields c slots).count s₁.heap.stats = _
    rw [entered.stats]

theorem array_makes {c elementSize : UInt64} {length : UInt32}
    (fits : (array c elementSize length).size < 2 ^ 64) (s : Store) :
    Ends ((array c elementSize length).Makes s) (s.Refuses (array c elementSize length).words)
      (Store.allocateArray c elementSize length s) := by
  have room := toNat_words fits
  have header : 24 ≤ (array c elementSize length).size := Nat.le_add_right ..
  have offset : ObjectShape.classRecord.toNat = 8 := rfl
  have offset' : ObjectShape.arrayLength.toNat = 16 := rfl
  have eight : (8 : UInt64).toNat = 8 := rfl
  have four : (4 : UInt64).toNat = 4 := rfl
  unfold Store.allocateArray
  refine (Store.allocate_enters (array c elementSize length).words s).bind (fun _ _ h => h)
    fun a s₁ entered => ?_
  obtain ⟨first, ok⟩ := entered.part (k := ObjectShape.classRecord) (w := 8) (by omega)
  obtain ⟨second, ok'⟩ := entered.part (k := ObjectShape.arrayLength) (w := 4) (by omega)
  rw [offset'] at second
  have writes : Ends (fun _ m => m = (s₁.mem.put (a + ObjectShape.classRecord) 8 c).put
        (a + ObjectShape.arrayLength) 4 length.toUInt64) (fun (_ : Failure) _ => False)
      ((do Guarded.write (a + ObjectShape.classRecord) 8 c
           Guarded.write (a + ObjectShape.arrayLength) 4 length.toUInt64) s₁.mem) := by
    refine ok.write_ends.bind (fun _ _ h => h) ?_
    rintro _ _ rfl
    exact ok'.put.write_ends
  refine Ends.bind (Ends.zoom writes) (fun _ _ ⟨_, h, _⟩ => h.elim) ?_
  rintro _ _ ⟨m, put, rfl⟩
  obtain ⟨mark, instanced, rest⟩ := entered_header (c := c) entered (by omega) rfl
  have changed := (s₁.mem.put (a + ObjectShape.classRecord) 8 c).changed_put
    (a + ObjectShape.arrayLength) 4 length.toUInt64
  rw [← put] at changed
  refine Ends.modify_bind ⟨entered.taken, ?_, ⟨?_, ?_, ?_, fun k low high => ?_⟩, entered.starts, ?_⟩
  · rw [← room]
    exact (entered.changed.put (by omega) (by omega)).trans (changed.mono (by omega) (by omega))
  · exact (load_congr fun j _ _ => changed.other j (by omega)).trans mark
  · exact (load_congr fun j _ _ => changed.other j (by omega)).trans instanced
  · rintro _ ⟨⟩
    change load m.bytes _ 4 = _
    rw [put, ← second, Guarded.load_put_word ok'.put, UInt32.toUInt32_toUInt64]
  · change 20 ≤ k at low
    exact (changed.other _ (by omega)).trans (rest k (by omega) (by omega))
  · change (array c elementSize length).count s₁.heap.stats = _
    rw [entered.stats]

/-- An allocation whose size is exact makes its object or enters none. -/
theorem run_makes (fits : r.size < 2 ^ 64) (s : Store) :
    Ends (r.Makes s) (s.Refuses r.words) (r.run s) := by
  cases r with
  | fields => exact fields_makes fits s
  | array => exact array_makes fits s

end Allocation

namespace Store

theorem Sound.makes {s s' : Store} {r : Allocation} {a : UInt64} (sound : s.Sound)
    (fits : r.size < 2 ^ 64) (made : r.Makes s a s') : s.Takes r.words a s' :=
  sound.takes made.taken (by rw [Allocation.toNat_words fits]; exact made.changed) made.starts

theorem allocateInstance_ends {s : Store} (sound : s.Sound) (classRecord : UInt64) {slots : UInt64}
    (small : slots.toNat < 2 ^ 60) :
    Ends (fun a s' => s.Creates classRecord a s')
      (fun e s' => s' = s ∧ e = s.heap.exhausted ∧
        s.heap.region.stop.toNat < s.heap.region.top.toNat + (16 + 8 * slots.toNat + 7) ∧
        s.heap.region.allocate? (ObjectShape.fields + slots * ObjectShape.slot) 8 = none)
      (allocateInstance classRecord slots s) := by
  have fits := Allocation.size_fields_lt (c := classRecord) small
  have words := Allocation.toNat_words fits
  refine (Allocation.fields_makes fits s).mono (fun a s' made => ?_) fun e s' refused => ?_
  · obtain ⟨grows, behind, block, starts⟩ := sound.makes fits made
    rw [words] at block
    exact ⟨grows, behind, Nat.le_trans (Nat.add_le_add_left (Nat.le_add_right 16 _) _) block, starts,
      made.fresh.instanced⟩
  · obtain ⟨same, full, none⟩ := refused.exhausted sound
    have short := sound.region.short none
    rw [words] at short
    exact ⟨same, full, short, none⟩

/-! ## Runs of allocations -/

/-- Allocations whose sizes are exact lead from one store to another. Those that succeeded are
    listed with their objects, the latest first. -/
inductive Allocates (s₀ : Store) : List (Allocation × UInt64) → Store → Prop
  | nil : Allocates s₀ [] s₀
  | made {r : Allocation} {a past s s'} (before : Allocates s₀ past s) (fits : r.size < 2 ^ 64)
      (ran : r.run s = .ok a s') : Allocates s₀ ((r, a) :: past) s'
  | failed {r : Allocation} {e past s s'} (before : Allocates s₀ past s) (fits : r.size < 2 ^ 64)
      (ran : r.run s = .error e s') : Allocates s₀ past s'

/-- The bytes of all objects, without what lies between them. -/
def occupied (past : List (Allocation × UInt64)) : Nat := (past.map (·.1.size)).sum

/-- The heap over the `size` bytes from `start` on holds these objects, and the memory is otherwise
    as it was. -/
structure Populated (m : Guarded) (start size : UInt64) (past : List (Allocation × UInt64))
    (s : Store) : Prop where
  start_eq : s.heap.region.start = start
  stop_eq : s.heap.region.stop = start + size
  sound : s.Sound
  changed : m.Changed s.mem start.toNat s.heap.region.top.toNat
  aligned : ∀ x ∈ past, x.2.toNat % 8 = 0
  inside : ∀ x ∈ past, start.toNat ≤ x.2.toNat ∧
    x.2.toNat + x.1.size ≤ s.heap.region.top.toNat
  apart : past.Pairwise fun later earlier => earlier.2.toNat + earlier.1.size ≤ later.2.toNat
  fresh : ∀ x ∈ past, x.1.Fresh x.2 s.mem
  isObject : ∀ b, s.heap.isObject b = true ↔ b ∈ past.map (·.2)
  calls : s.heap.stats.objects.toNat + s.heap.stats.arrays.toNat = past.length
  bytes : s.heap.stats.bytes.toNat = occupied past
  room : start.toNat + occupied past ≤ s.heap.region.top.toNat

variable {m : Guarded} {start size a : UInt64} {past : List (Allocation × UInt64)} {s s' : Store}
  {r : Allocation} {e : Failure}

theorem populated_nil (below : start.toNat + size.toNat + 8 ≤ 2 ^ 64)
    (clear : m.Clear start.toNat (start.toNat + size.toNat)) :
    Populated m start size [] ⟨m, .ofRange start size⟩ := by
  have stop : (start + size).toNat = start.toNat + size.toNat := toNat_add_of_lt (by omega)
  refine ⟨rfl, rfl, ⟨⟨Nat.le_refl _, ?_, ?_⟩, ?_⟩, .refl m _ _, by simp, by simp, .nil, by simp,
    fun b => ?_, rfl, rfl, Nat.le_refl _⟩
  · change start.toNat ≤ (start + size).toNat
    omega
  · change (start + size).toNat + 8 ≤ 2 ^ 64
    omega
  · change m.Clear start.toNat (start + size).toNat
    rw [stop]
    exact clear
  · change (∅ : Std.HashSet UInt64).contains b = true ↔ _
    simp

/-- Every object takes at least its header. -/
theorem length_le_occupied (past : List (Allocation × UInt64)) :
    16 * past.length ≤ occupied past := by
  induction past with
  | nil => exact Nat.le_refl 0
  | cons x past ih =>
    have header := x.1.sixteen_le_headerSize
    have room := x.1.headerSize_le_size
    have sum : occupied (x :: past) = x.1.size + occupied past := List.sum_cons
    rw [List.length_cons]
    omega

/-- One more object comes behind all others. -/
theorem Populated.made (h : Populated m start size past s) (fits : r.size < 2 ^ 64)
    (made : r.Makes s a s') : Populated m start size ((r, a) :: past) s' := by
  have words := Allocation.toNat_words fits
  have block := h.sound.region.taken made.taken
  have sound := (h.sound.makes fits made).grows.sound h.sound
  obtain ⟨start', stop', behind, sum, -, within⟩ := block
  rw [words] at sum
  have above := h.sound.region.start_le
  have top := h.sound.region.top_le
  rw [h.start_eq] at above
  have room := h.room
  have sum' : occupied ((r, a) :: past) = r.size + occupied past := List.sum_cons
  have long := length_le_occupied ((r, a) :: past)
  have limit := s'.heap.region.top.toNat_lt
  have aligned : a.toNat % 8 = 0 := by
    have below := h.sound.region.below
    rw [(Region.of_allocate? made.taken).1, Region.toNat_alignUp_eight (by omega)]
    exact Nat.mul_mod_left _ 8
  have spared : ∀ x ∈ past, s.mem.Agrees s'.mem x.2.toNat (x.2.toNat + x.1.size) := fun x hx =>
    made.changed.agrees (.inl (Nat.le_trans (h.inside x hx).2 behind))
  exact {
    start_eq := start'.trans h.start_eq
    stop_eq := stop'.trans h.stop_eq
    sound := sound
    changed := (h.changed.mono (Nat.le_refl _) (by omega)).trans
      (made.changed.mono (by omega) (by omega))
    aligned := List.forall_mem_cons.mpr ⟨aligned, h.aligned⟩
    inside := List.forall_mem_cons.mpr ⟨⟨Nat.le_trans above behind, Nat.le_of_eq sum⟩,
      fun x hx => ⟨(h.inside x hx).1, Nat.le_trans (h.inside x hx).2 (by omega)⟩⟩
    apart := List.pairwise_cons.mpr ⟨fun x hx => Nat.le_trans (h.inside x hx).2 behind, h.apart⟩
    fresh := List.forall_mem_cons.mpr ⟨made.fresh, fun x hx => (h.fresh x hx).agrees (spared x hx)⟩
    isObject := fun b => by
      change s'.heap.starts.contains b = true ↔ _
      rw [made.starts, Std.HashSet.contains_insert, Bool.or_eq_true, beq_iff_eq, List.map_cons,
        List.mem_cons, eq_comm]
      exact or_congr Iff.rfl (h.isObject b)
    calls := by
      have calls := h.calls
      rw [List.length_cons] at long ⊢
      rw [made.stats, Allocation.calls_count _ (by dsimp only; omega), calls]
    bytes := by
      have bytes := h.bytes
      rw [made.stats, Allocation.bytes_count, toNat_add_of_lt (by omega), words, bytes, sum',
        Nat.add_comm]
    room := by omega }

/-- Where the rest of the heap is clear, an allocation writes to its own object only, and one that
    fails does nothing: the heap is exhausted. -/
theorem Populated.step (h : Populated m start size past s) (fits : r.size < 2 ^ 64) :
    Ends (fun a s' => Populated m start size ((r, a) :: past) s' ∧
        s.mem.Changed s'.mem a.toNat (a.toNat + r.size))
      (fun e s' => s' = s ∧ e = s.heap.exhausted) (r.run s) :=
  (Allocation.run_makes fits s).mono (fun _ _ made => ⟨h.made fits made, made.changed⟩)
    fun _ _ refused =>
      have ⟨same, full, _⟩ := refused.exhausted h.sound
      ⟨same, full⟩

/-- However many objects are allocated in a clear range, and whatever fails in between, they are all
    there at the end, apart from each other and as they were made. -/
theorem Allocates.populated (h : Allocates ⟨m, .ofRange start size⟩ past s)
    (below : start.toNat + size.toNat + 8 ≤ 2 ^ 64)
    (clear : m.Clear start.toNat (start.toNat + size.toNat)) :
    Populated m start size past s := by
  induction h with
  | nil => exact populated_nil below clear
  | made _ fits ran ih => exact ((ih.step fits).of_ok ran).1
  | failed _ fits ran ih =>
    obtain ⟨rfl, -⟩ := (ih.step fits).of_error ran
    exact ih

theorem Populated.toNat_used (h : Populated m start size past s) :
    start.toNat + s.heap.region.used.toNat = s.heap.region.top.toNat := by
  have above := h.sound.region.start_le
  rw [Region.used, UInt64.toNat_sub_of_le _ _ (UInt64.le_iff_toNat_le.mpr above), ← h.start_eq]
  exact Nat.add_sub_cancel' above

theorem Populated.contains_iff (h : Populated m start size past s) (b : UInt64) :
    s.heap.contains b = true ↔
      start.toNat ≤ b.toNat ∧ b.toNat < start.toNat + s.heap.region.used.toNat := by
  rw [h.toNat_used, ← h.start_eq]
  simp [Heap.contains, Region.contains, UInt64.le_iff_toNat_le, UInt64.lt_iff_toNat_lt]

theorem Populated.bytes_le_used (h : Populated m start size past s) :
    s.heap.stats.bytes.toNat ≤ s.heap.region.used.toNat := by
  have used := h.toNat_used
  have room := h.room
  rw [h.bytes]
  omega

end Store
end TemplateVm.Memory
