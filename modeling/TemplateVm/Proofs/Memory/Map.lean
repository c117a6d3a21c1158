import TemplateVm.Proofs.Loading.Bootstrap

set_option autoImplicit false

/-!
# The map of valid settings

Valid settings whose parts of memory end before addresses do lay the parts out one after the other,
with a red zone, a yellow zone and free memory in the stack.
-/
namespace TemplateVm

/-! ## Settings -/

/-- The parts of memory, with what each loses to the start of a page, end before addresses do, and
    the pages of the zones can be counted. -/
structure Settings.Fits (s : Settings) : Prop where
  memory : 0x21000 + s.metaspaceSize.toNat + s.heapSize.toNat + s.stackSize.toNat +
    4 * s.pageSize.toNat < 2 ^ 64
  pages : s.redPages.toNat + s.yellowPages.toNat + s.shadowPages.toNat + 1 < 2 ^ 64

/-- The parts follow each other, and the zones are there and leave free memory for the pages ahead
    of the stack pointer. -/
structure MemoryMap.Zoned (map : MemoryMap) : Prop where
  ordered : map.Ordered
  tables : map.metaspaceStart = Place.metaspace
  page : 1024 ≤ map.pageSize.toNat
  red : map.redEnd.toNat = map.stackLimit.toNat + map.redPages.toNat * map.pageSize.toNat
  yellow : map.yellowEnd.toNat = map.redEnd.toNat + map.yellowPages.toNat * map.pageSize.toNat
  redPages : 0 < map.redPages.toNat
  yellowPages : 0 < map.yellowPages.toNat
  free : map.yellowEnd.toNat + map.pageSize.toNat ≤ map.stackBase.toNat
  base : map.stackBase.toNat + map.pageSize.toNat = map.size.toNat

/-- What there is no objection to. -/
structure Settings.Accepted (s : Settings) : Prop where
  power : ∃ k, s.pageSize.toNat = 2 ^ k
  page : 1024 ≤ s.pageSize.toNat
  sizes : ∀ size ∈ [s.stackSize, s.heapSize, s.metaspaceSize], s.pageSize.toNat ∣ size.toNat
  zones : ∀ pages ∈ [s.shadowPages, s.redPages, s.yellowPages], 0 < pages.toNat
  room : s.guardPages + 1 < s.stackSize / s.pageSize

namespace Settings

variable {s : Settings}

theorem two_pow_of_isPowerOfTwo {n : UInt64} (h : isPowerOfTwo n = true) :
    ∃ k, n.toNat = 2 ^ k := by
  simp only [isPowerOfTwo, Bool.and_eq_true, bne_iff_ne, beq_iff_eq] at h
  obtain ⟨nonzero, apart⟩ := h
  have positive : n.toNat ≠ 0 := fun zero => nonzero (UInt64.toNat_inj.mp zero)
  have below : (n - 1).toNat = n.toNat - 1 :=
    UInt64.toNat_sub_of_le _ _ (UInt64.le_iff_toNat_le.mpr (Nat.pos_of_ne_zero positive))
  have apart' : n.toNat &&& (n.toNat - 1) = 0 := by
    rw [← below, ← UInt64.toNat_and, apart]
    rfl
  exact (Nat.and_sub_one_eq_zero_iff_isPowerOfTwo positive).mp apart'

theorem of_valid (valid : s.defect? = none) : s.Accepted := by
  unfold defect? at valid
  dsimp only at valid
  split at valid
  · cases valid
  next page =>
  split at valid
  · cases valid
  next aligned =>
  split at valid
  · cases valid
  next pages =>
  split at valid
  · cases valid
  next room =>
  simp only [Bool.or_eq_true, Bool.not_eq_true', decide_eq_true_eq, not_or, Bool.not_eq_false,
    UInt64.not_lt] at page
  have multiple {size : UInt64} (name : String) (mem : (name, size) ∈ [("stack_size", s.stackSize),
      ("heap_size", s.heapSize), ("metaspace_size", s.metaspaceSize)]) :
      s.pageSize.toNat ∣ size.toNat := by
    have fine := List.find?_eq_none.mp aligned _ mem
    simp only [Bool.or_eq_true, beq_iff_eq, bne_iff_ne, not_or, not_not] at fine
    refine Nat.dvd_of_mod_eq_zero ?_
    rw [← UInt64.toNat_mod, fine.2]
    rfl
  have filled {n : UInt64} (name : String) (mem : (name, n) ∈ [("shadow", s.shadowPages),
      ("red", s.redPages), ("yellow", s.yellowPages)]) : 0 < n.toNat :=
    Nat.pos_of_ne_zero fun zero =>
      List.find?_eq_none.mp pages _ mem (beq_iff_eq.mpr (UInt64.toNat_inj.mp zero))
  refine ⟨two_pow_of_isPowerOfTwo page.1, UInt64.le_iff_toNat_le.mp page.2, ?_, ?_,
    UInt64.not_le.mp room⟩
  · simp only [List.forall_mem_cons, List.not_mem_nil, false_implies, implies_true, and_true]
    exact ⟨multiple "stack_size" (by simp), multiple "heap_size" (by simp),
      multiple "metaspace_size" (by simp)⟩
  · simp only [List.forall_mem_cons, List.not_mem_nil, false_implies, implies_true, and_true]
    exact ⟨filled "shadow" (by simp), filled "red" (by simp), filled "yellow" (by simp)⟩

/-! ## Pages -/

/-- The start of the first page from an address on. -/
def roundUp (s : Settings) (a : Nat) : Nat :=
  (a + s.pageSize.toNat - 1) / s.pageSize.toNat * s.pageSize.toNat

theorem Accepted.roundUp (h : s.Accepted) (a : Nat) :
    a ≤ s.roundUp a ∧ s.roundUp a < a + s.pageSize.toNat := by
  have page := h.page
  have whole := Nat.div_add_mod (a + s.pageSize.toNat - 1) s.pageSize.toNat
  have rest := Nat.mod_lt (a + s.pageSize.toNat - 1) (y := s.pageSize.toNat) (by omega)
  rw [Nat.mul_comm] at whole
  unfold Settings.roundUp
  omega

theorem dvd_roundUp (s : Settings) (a : Nat) : s.pageSize.toNat ∣ s.roundUp a :=
  Nat.dvd_mul_left ..

/-- The guarded pages are counted without a wrap around. -/
theorem toNat_guardPages (fits : s.Fits) :
    s.guardPages.toNat = s.redPages.toNat + s.yellowPages.toNat + s.shadowPages.toNat := by
  have pages := fits.pages
  have two : (s.redPages + s.yellowPages).toNat = s.redPages.toNat + s.yellowPages.toNat :=
    toNat_add_of_lt (by omega)
  rw [guardPages, toNat_add_of_lt (by omega), two]

/-- The pages of the zones fit into the stack. -/
theorem pages_le (valid : s.defect? = none) (fits : s.Fits) :
    (s.redPages.toNat + s.yellowPages.toNat + s.shadowPages.toNat + 1 + 1) * s.pageSize.toNat ≤
      s.stackSize.toNat := by
  have accepted := s.of_valid valid
  have page := accepted.page
  have pages := fits.pages
  have one : (1 : UInt64).toNat = 1 := rfl
  have few := UInt64.lt_iff_toNat_lt.mp accepted.room
  rw [toNat_add_of_lt (by rw [toNat_guardPages fits, one]; exact pages), toNat_guardPages fits, one,
    UInt64.toNat_div] at few
  exact (Nat.le_div_iff_mul_le (by omega)).mp few

theorem shadow_lt (valid : s.defect? = none) (fits : s.Fits) : s.shadowPages.toNat < 2 ^ 54 := by
  have page := (s.of_valid valid).page
  have stack := s.pages_le valid fits
  have limit := s.stackSize.toNat_lt
  have least : (s.shadowPages.toNat + 1) * 1024 ≤
      (s.redPages.toNat + s.yellowPages.toNat + s.shadowPages.toNat + 1 + 1) * s.pageSize.toNat :=
    Nat.mul_le_mul (by omega) page
  omega

theorem toNat_maxGuardPages (fits : s.Fits) :
    s.maxGuardPages.toNat = max s.shadowPages.toNat (s.redPages.toNat + s.yellowPages.toNat) := by
  have pages := fits.pages
  have two : (s.redPages + s.yellowPages).toNat = s.redPages.toNat + s.yellowPages.toNat :=
    toNat_add_of_lt (by omega)
  rw [maxGuardPages, UInt64.toNat_max, two]

/-- The bytes that a new frame must leave free are a positive number with a sign. -/
theorem toNat_guardedBytes (valid : s.defect? = none) (fits : s.Fits)
    (small : s.stackSize.toNat < 2 ^ 62) :
    (s.maxGuardPages * s.pageSize * 2).toNat = s.maxGuardPages.toNat * s.pageSize.toNat * 2 ∧
      (s.maxGuardPages * s.pageSize * 2).toNat < 2 ^ 63 := by
  have stack := s.pages_le valid fits
  have few : s.maxGuardPages.toNat * s.pageSize.toNat ≤ s.stackSize.toNat := by
    refine Nat.le_trans (Nat.mul_le_mul_right _ ?_) stack
    rw [toNat_maxGuardPages fits]
    omega
  have two : (2 : UInt64).toNat = 2 := rfl
  have product : (s.maxGuardPages * s.pageSize).toNat =
      s.maxGuardPages.toNat * s.pageSize.toNat := by
    rw [UInt64.toNat_mul, Nat.mod_eq_of_lt (by omega)]
  have twice : (s.maxGuardPages * s.pageSize * 2).toNat =
      s.maxGuardPages.toNat * s.pageSize.toNat * 2 := by
    rw [UInt64.toNat_mul, product, two, Nat.mod_eq_of_lt (by omega)]
  exact ⟨twice, by omega⟩

end Settings

/-! ## Maps -/

namespace MemoryMap

variable {s : Settings}

/-- Where the parts lie that the settings ask for. -/
structure Exact (s : Settings) (map : MemoryMap) : Prop where
  heapStart : map.heapStart.toNat = s.roundUp (0x20000 + s.metaspaceSize.toNat)
  thread : map.thread.toNat = s.roundUp (map.heapStart.toNat + s.heapSize.toNat)
  stackLimit : map.stackLimit.toNat = s.roundUp (map.thread.toNat + 0x1000)
  stackBase : map.stackBase.toNat = map.stackLimit.toNat + s.stackSize.toNat
  size : map.size.toNat = map.stackBase.toNat + s.pageSize.toNat
  redEnd : map.redEnd.toNat = map.stackLimit.toNat + s.redPages.toNat * s.pageSize.toNat
  yellowEnd : map.yellowEnd.toNat = map.redEnd.toNat + s.yellowPages.toNat * s.pageSize.toNat
  stackSize : map.stackSize.toNat = s.stackSize.toNat

/-- No sum and no product of the map wraps around. -/
theorem ofSettings_exact (valid : s.defect? = none) (fits : s.Fits) : (ofSettings s).Exact s := by
  have accepted := s.of_valid valid
  have page := accepted.page
  have memory := fits.memory
  have stack := s.pages_le valid fits
  simp only [Nat.add_mul, Nat.one_mul] at stack
  generalize same : ofSettings s = map
  have part (a b size : UInt64) (starts : b = Memory.Region.alignUp (a + size) s.pageSize)
      (below : a.toNat + size.toNat + s.pageSize.toNat < 2 ^ 64) :
      b.toNat = s.roundUp (a.toNat + size.toNat) := by
    obtain ⟨k, power⟩ := accepted.power
    have sum : (a + size).toNat = a.toNat + size.toNat := toNat_add_of_lt (by omega)
    rw [starts, Memory.Region.toNat_alignUp power (by omega), sum, Settings.roundUp]
  have start : Place.metaspace.toNat = 0x20000 := rfl
  have block : Place.threadSize.toNat = 0x1000 := rfl
  have heapStart := part Place.metaspace map.heapStart s.metaspaceSize (same ▸ rfl) (by omega)
  have := accepted.roundUp (Place.metaspace.toNat + s.metaspaceSize.toNat)
  have thread := part map.heapStart map.thread s.heapSize (same ▸ rfl) (by omega)
  have := accepted.roundUp (map.heapStart.toNat + s.heapSize.toNat)
  have limit := part map.thread map.stackLimit Place.threadSize (same ▸ rfl) (by omega)
  have := accepted.roundUp (map.thread.toNat + Place.threadSize.toNat)
  have base : map.stackBase.toNat = map.stackLimit.toNat + s.stackSize.toNat := by
    have sum : map.stackBase = map.stackLimit + s.stackSize := same ▸ rfl
    rw [sum, toNat_add_of_lt (by omega)]
  have size : map.size.toNat = map.stackBase.toNat + s.pageSize.toNat := by
    have sum : map.size = map.stackBase + s.pageSize := same ▸ rfl
    rw [sum, toNat_add_of_lt (by omega)]
  have product (pages : UInt64) (small : pages.toNat * s.pageSize.toNat ≤ s.stackSize.toNat) :
      (pages * s.pageSize).toNat = pages.toNat * s.pageSize.toNat := by
    have bound := s.stackSize.toNat_lt
    rw [UInt64.toNat_mul, Nat.mod_eq_of_lt (by omega)]
  have redEnd : map.redEnd.toNat = map.stackLimit.toNat + s.redPages.toNat * s.pageSize.toNat := by
    have sum : map.redEnd = map.stackLimit + s.redPages * s.pageSize := same ▸ rfl
    have zone := product s.redPages (by omega)
    rw [sum, toNat_add_of_lt (by omega), zone]
  have yellowEnd : map.yellowEnd.toNat =
      map.redEnd.toNat + s.yellowPages.toNat * s.pageSize.toNat := by
    have sum : map.yellowEnd = map.redEnd + s.yellowPages * s.pageSize := same ▸ rfl
    have zone := product s.yellowPages (by omega)
    rw [sum, toNat_add_of_lt (by omega), zone]
  refine ⟨heapStart, thread, limit, base, size, redEnd, yellowEnd, ?_⟩
  rw [MemoryMap.stackSize, UInt64.toNat_sub_of_le _ _ (UInt64.le_iff_toNat_le.mpr (by omega)), base]
  exact Nat.add_sub_cancel_left ..

/-- Every part from the heap on begins with a page, and so does what lies behind them. -/
theorem Exact.dvd {map : MemoryMap} (h : map.Exact s) (accepted : s.Accepted) :
    ∀ a ∈ [map.heapStart, map.thread, map.stackLimit, map.stackBase, map.size],
      s.pageSize.toNat ∣ a.toNat := by
  have limit : s.pageSize.toNat ∣ map.stackLimit.toNat := h.stackLimit ▸ s.dvd_roundUp _
  have base : s.pageSize.toNat ∣ map.stackBase.toNat :=
    h.stackBase ▸ Nat.dvd_add limit (accepted.sizes _ (by simp))
  simp only [List.forall_mem_cons, List.not_mem_nil, false_implies, implies_true, and_true]
  exact ⟨h.heapStart ▸ s.dvd_roundUp _, h.thread ▸ s.dvd_roundUp _, limit, base,
    h.size ▸ Nat.dvd_add base (Nat.dvd_refl _)⟩

/-- The pages ahead of the stack pointer, and more than one page behind them, are free. -/
theorem Exact.shadow {map : MemoryMap} (h : map.Exact s) (valid : s.defect? = none)
    (fits : s.Fits) :
    map.yellowEnd.toNat + (s.shadowPages.toNat + 1 + 1) * s.pageSize.toNat ≤
      map.stackBase.toNat := by
  have stack := s.pages_le valid fits
  have red := h.redEnd
  have yellow := h.yellowEnd
  have base := h.stackBase
  simp only [Nat.add_mul, Nat.one_mul] at stack ⊢
  omega

/-- Valid settings have their zones. -/
theorem zoned (valid : s.defect? = none) (fits : s.Fits) : (ofSettings s).Zoned := by
  have accepted := s.of_valid valid
  have page := accepted.page
  have laid := ofSettings_exact valid fits
  have free := laid.shadow valid fits
  obtain ⟨heapStart, thread, limit, base, size, redEnd, yellowEnd, -⟩ := laid
  have first := accepted.roundUp (0x20000 + s.metaspaceSize.toNat)
  have second := accepted.roundUp ((ofSettings s).heapStart.toNat + s.heapSize.toNat)
  have third := accepted.roundUp ((ofSettings s).thread.toNat + 0x1000)
  simp only [Nat.add_mul, Nat.one_mul] at free
  rw [← heapStart] at first
  rw [← thread] at second
  rw [← limit] at third
  have ordered : (ofSettings s).Ordered :=
    ⟨(by decide : 0x1000 ≤ 0x20000), first.1, second.1, third.1, by omega, by omega⟩
  refine ⟨ordered, rfl, page, redEnd, yellowEnd, accepted.zones s.redPages (by simp),
    accepted.zones s.yellowPages (by simp), ?_, size.symm⟩
  change _ + s.pageSize.toNat ≤ _
  omega

/-- Counts of pages whose sum wraps around are accepted too. Then the red zone ends below the stack. -/
example :
    let s : Settings := { redPages := 0xfffffffffffffffd, yellowPages := 1, shadowPages := 1 }
    s.defect? = none ∧ (ofSettings s).redEnd < (ofSettings s).stackLimit := by decide

end MemoryMap
end TemplateVm
