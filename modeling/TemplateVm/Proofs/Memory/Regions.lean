import Mathlib.Order.Bounds.Basic
import TemplateVm.Memory.Heap
import TemplateVm.Proofs.Memory.Access
import TemplateVm.Proofs.Results

set_option autoImplicit false

/-!
# Effects on regions

What is taken from a region lies behind all that was taken before, and an object that is allocated,
or not, leaves every byte alone that was handed out earlier.
-/
namespace TemplateVm

namespace Memory

/-! ## Blocks of a region -/

namespace Region

/-- The low bits that are cleared are those below a power of two. -/
theorem toNat_alignUp_mod {a align : UInt64} {k : Nat} (power : align.toNat = 2 ^ k) :
    (alignUp a align).toNat = (a.toNat + align.toNat - 1) % 2 ^ 64 / align.toNat * align.toNat := by
  have positive : 0 < align.toNat := power ▸ Nat.two_pow_pos k
  have small : k ≤ 64 :=
    Nat.le_of_lt ((Nat.pow_lt_pow_iff_right Nat.one_lt_two).mp (power ▸ align.toNat_lt))
  have below : (align - 1).toNat = align.toNat - 1 :=
    UInt64.toNat_sub_of_le _ _ (UInt64.le_iff_toNat_le.mpr positive)
  have last : (a + align - 1).toNat = (a.toNat + align.toNat - 1) % 2 ^ 64 := by
    rw [UInt64.toNat_sub, UInt64.toNat_add]
    change (2 ^ 64 - 1 + (a.toNat + align.toNat) % 2 ^ 64) % 2 ^ 64 = _
    omega
  have mask : (~~~(align - 1)).toNat = 2 ^ 64 - 2 ^ k := by
    rw [UInt64.toNat_not, below, ← power]
    change 2 ^ 64 - 1 - _ = _
    omega
  rw [alignUp, UInt64.toNat_and, last, mask, and_not_low small (Nat.mod_lt _ (by decide)), power]

theorem toNat_alignUp {a align : UInt64} {k : Nat} (power : align.toNat = 2 ^ k)
    (fits : a.toNat + align.toNat ≤ 2 ^ 64) :
    (alignUp a align).toNat = (a.toNat + align.toNat - 1) / align.toNat * align.toNat := by
  have positive : 0 < align.toNat := power ▸ Nat.two_pow_pos k
  rw [toNat_alignUp_mod power, Nat.mod_eq_of_lt (by omega)]

theorem toNat_alignUp_eight {a : UInt64} (h : a.toNat + 7 < 2 ^ 64) :
    (alignUp a 8).toNat = (a.toNat + 7) / 8 * 8 :=
  toNat_alignUp (k := 3) rfl h

/-- Blocks can be taken from the region, and aligned, without a wrap around. -/
structure Sound (r : Region) : Prop where
  start_le : r.start.toNat ≤ r.top.toNat
  top_le : r.top.toNat ≤ r.stop.toNat
  below : r.stop.toNat + 8 ≤ 2 ^ 64

/-- The region `r'` is left of `r` when the block of `size` bytes at `a` is taken. -/
structure Taken (r : Region) (a size : UInt64) (r' : Region) : Prop where
  start : r'.start = r.start
  stop : r'.stop = r.stop
  behind : r.top.toNat ≤ a.toNat
  block : a.toNat + size.toNat = r'.top.toNat
  slack : r'.top.toNat ≤ r.top.toNat + (size.toNat + 7)
  inside : r'.top.toNat ≤ r.stop.toNat

theorem Taken.sound {r r' : Region} {a size : UInt64} (h : Taken r a size r')
    (sound : r.Sound) : r'.Sound where
  start_le := by
    have := sound.start_le
    have := h.behind
    have := h.block
    rw [h.start]
    omega
  top_le := by rw [h.stop]; exact h.inside
  below := by rw [h.stop]; exact sound.below

theorem of_allocate? {r r' : Region} {a size align : UInt64}
    (h : r.allocate? size align = some (a, r')) :
    a = alignUp r.top align ∧ r' = { r with top := a + size } ∧
      a.toNat + size.toNat = (a + size).toNat ∧ (a + size).toNat ≤ r.stop.toNat := by
  have sum : ∀ a : UInt64, (a + size).toNat = (a.toNat + size.toNat) % 2 ^ 64 := fun a =>
    UInt64.toNat_add a size
  have bound := size.toNat_lt
  simp only [allocate?] at h
  split at h
  · cases h
  · next fits =>
    cases h
    rw [not_or, UInt64.lt_iff_toNat_lt, UInt64.lt_iff_toNat_lt] at fits
    have := sum (alignUp r.top align)
    exact ⟨rfl, rfl, by omega, by omega⟩

theorem of_allocate?_none {r : Region} {size align : UInt64} (h : r.allocate? size align = none) :
    r.stop.toNat < (alignUp r.top align).toNat + size.toNat := by
  have sum : (alignUp r.top align + size).toNat =
      ((alignUp r.top align).toNat + size.toNat) % 2 ^ 64 := UInt64.toNat_add ..
  have bound := r.stop.toNat_lt
  simp only [allocate?] at h
  split at h
  · next refused =>
    rw [UInt64.lt_iff_toNat_lt, UInt64.lt_iff_toNat_lt] at refused
    omega
  · cases h

theorem Sound.taken {r r' : Region} {a size : UInt64} (h : r.Sound)
    (allocated : r.allocate? size 8 = some (a, r')) : Taken r a size r' := by
  obtain ⟨rfl, rfl, sum, inside⟩ := of_allocate? allocated
  have top := h.top_le
  have below := h.below
  have aligned := toNat_alignUp_eight (a := r.top) (by omega)
  refine ⟨rfl, rfl, by omega, sum, ?_, inside⟩
  change (alignUp r.top 8 + size).toNat ≤ _
  omega

/-- A block is refused only if the region might not hold it with its alignment. -/
theorem Sound.short {r : Region} {size : UInt64} (h : r.Sound)
    (refused : r.allocate? size 8 = none) : r.stop.toNat < r.top.toNat + (size.toNat + 7) := by
  have short := of_allocate?_none refused
  have top := h.top_le
  have below := h.below
  have aligned := toNat_alignUp_eight (a := r.top) (by omega)
  omega

theorem Sound.allocate? {r : Region} (h : r.Sound) (size : UInt64) :
    (∃ a r', r.allocate? size 8 = some (a, r') ∧ Taken r a size r') ∨
      r.allocate? size 8 = none ∧ r.stop.toNat < r.top.toNat + (size.toNat + 7) := by
  cases allocated : r.allocate? size 8 with
  | none => exact .inr ⟨rfl, h.short allocated⟩
  | some block => exact .inl ⟨block.1, block.2, rfl, h.taken allocated⟩

/-! ### Blocks in exact arithmetic -/

/-- The multiples of an alignment from an address on. -/
def Multiples (a align : Nat) : Set Nat := { p | align ∣ p ∧ a ≤ p }

theorem isLeast_multiples {a align : Nat} (positive : 0 < align) :
    IsLeast (Multiples a align) ((a + align - 1) / align * align) := by
  refine ⟨⟨Nat.dvd_mul_left .., ?_⟩, ?_⟩
  · have whole := Nat.div_add_mod (a + align - 1) align
    have rest := Nat.mod_lt (a + align - 1) positive
    rw [Nat.mul_comm] at whole
    omega
  · rintro _ ⟨⟨n, rfl⟩, le⟩
    rw [Nat.mul_comm]
    refine Nat.mul_le_mul_left align (Nat.lt_add_one_iff.mp ?_)
    rw [Nat.div_lt_iff_lt_mul positive, Nat.add_mul, Nat.mul_comm n]
    omega

section
variable {r : Region} {size align : UInt64} {k p : Nat}

theorem allocate?_of_le (fits : (alignUp r.top align).toNat + size.toNat ≤ r.stop.toNat) :
    r.allocate? size align =
      some (alignUp r.top align, { r with top := alignUp r.top align + size }) := by
  have bound := r.stop.toNat_lt
  have sum : (alignUp r.top align + size).toNat = (alignUp r.top align).toNat + size.toNat :=
    toNat_add_of_lt (by omega)
  refine if_neg ?_
  rw [not_or, UInt64.lt_iff_toNat_lt, UInt64.lt_iff_toNat_lt, sum]
  omega

theorem allocate?_of_lt (large : r.stop.toNat < (alignUp r.top align).toNat + size.toNat) :
    r.allocate? size align = none := by
  cases taken : r.allocate? size align with
  | none => rfl
  | some block =>
    obtain ⟨a, r'⟩ := block
    obtain ⟨rfl, -, sum, inside⟩ := of_allocate? taken
    omega

/-- The request is answered as if addresses had no bound. -/
structure Exact (r : Region) (size align : UInt64) : Prop where
  taken : ∀ {p}, IsLeast (Multiples r.top.toNat align.toNat) p → p + size.toNat ≤ r.stop.toNat →
    ∃ a, r.allocate? size align = some (a, { r with top := a + size }) ∧ a.toNat = p ∧
      (a + size).toNat = p + size.toNat
  refused : ∀ {p}, IsLeast (Multiples r.top.toNat align.toNat) p →
    r.stop.toNat < p + size.toNat → r.allocate? size align = none

theorem Exact.of_le (power : align.toNat = 2 ^ k) (fits : r.top.toNat + align.toNat ≤ 2 ^ 64) :
    r.Exact size align := by
  have first : IsLeast (Multiples r.top.toNat align.toNat) (alignUp r.top align).toNat := by
    rw [toNat_alignUp power fits]
    exact isLeast_multiples (power ▸ Nat.two_pow_pos k)
  have bound := r.stop.toNat_lt
  refine ⟨fun least inside => ?_, fun least outside => ?_⟩
  · obtain rfl := least.unique first
    exact ⟨_, allocate?_of_le inside, rfl, toNat_add_of_lt (by omega)⟩
  · obtain rfl := least.unique first
    exact allocate?_of_lt outside

/-- Where the rounding wraps around, it comes to zero. -/
theorem alignUp_eq_zero (power : align.toNat = 2 ^ k)
    (wraps : 2 ^ 64 < r.top.toNat + align.toNat) : alignUp r.top align = 0 := by
  have bound := r.top.toNat_lt
  have small := align.toNat_lt
  have rest : (r.top.toNat + align.toNat - 1) % 2 ^ 64 < align.toNat := by omega
  refine UInt64.toNat_inj.mp ?_
  rw [toNat_alignUp_mod power, Nat.div_eq_of_lt rest, Nat.zero_mul]
  rfl

/-- Where the rounding wraps around, no multiple that is a word is left. -/
theorem le_of_mem_multiples (power : align.toNat = 2 ^ k)
    (wraps : 2 ^ 64 < r.top.toNat + align.toNat)
    (multiple : p ∈ Multiples r.top.toNat align.toNat) : 2 ^ 64 ≤ p := by
  obtain ⟨⟨n, rfl⟩, le⟩ := multiple
  have small : k ≤ 64 :=
    Nat.le_of_lt ((Nat.pow_lt_pow_iff_right Nat.one_lt_two).mp (power ▸ align.toNat_lt))
  have whole : 2 ^ 64 = align.toNat * 2 ^ (64 - k) := by
    rw [power, ← Nat.pow_add, Nat.add_sub_cancel' small]
  have next : align.toNat * 2 ^ (64 - k) < align.toNat * (n + 1) := by
    rw [← whole, Nat.mul_add]
    omega
  rw [whole]
  exact Nat.mul_le_mul_left _ (Nat.lt_add_one_iff.mp (Nat.lt_of_mul_lt_mul_left next))

/-- A request is answered exactly unless its rounding wraps around and its block fits at zero,
    which may lie before the region or inside of what was handed out. -/
theorem exact_iff (power : align.toNat = 2 ^ k) :
    r.Exact size align ↔ r.top.toNat + align.toNat ≤ 2 ^ 64 ∨ r.stop.toNat < size.toNat := by
  have bound := r.stop.toNat_lt
  have positive : 0 < align.toNat := power ▸ Nat.two_pow_pos k
  rcases Nat.lt_or_ge (2 ^ 64) (r.top.toNat + align.toNat) with wraps | fits
  · have zero : (alignUp r.top align).toNat = 0 := by
      rw [alignUp_eq_zero power wraps]
      rfl
    refine ⟨fun exact => ?_, ?_⟩
    · have first := isLeast_multiples (a := r.top.toNat) positive
      have far := le_of_mem_multiples power wraps first.1
      have short := of_allocate?_none (exact.refused first (by omega))
      omega
    · rintro (fits | large)
      · omega
      · refine ⟨fun least inside => ?_, fun _ _ => allocate?_of_lt (by omega)⟩
        have far := le_of_mem_multiples power wraps least.1
        omega
  · exact ⟨fun _ => .inl fits, fun _ => .of_le power fits⟩

end

/-- The blocks that a list of requests for a size and an alignment gets, with the region that is
    left. -/
def allocateAll (r : Region) : List (UInt64 × UInt64) → List (UInt64 × UInt64) × Region
  | [] => ([], r)
  | (size, align) :: requests =>
    match r.allocate? size align with
    | none => r.allocateAll requests
    | some (a, r') => ((a, size) :: (r'.allocateAll requests).1, (r'.allocateAll requests).2)

/-- The blocks follow each other between the tops of the two regions. -/
structure Follow (r : Region) (blocks : List (UInt64 × UInt64)) (r' : Region) : Prop where
  start : r'.start = r.start
  stop : r'.stop = r.stop
  top_le : r.top.toNat ≤ r'.top.toNat
  inside : r'.top.toNat ≤ r.stop.toNat
  between : ∀ b ∈ blocks, r.top.toNat ≤ b.1.toNat ∧ b.1.toNat + b.2.toNat ≤ r'.top.toNat
  apart : blocks.Pairwise fun b c => b.1.toNat + b.2.toNat ≤ c.1.toNat

theorem Follow.cons {r r' r'' : Region} {a size : UInt64} {blocks : List (UInt64 × UInt64)}
    (left : r' = { r with top := a + size }) (behind : r.top.toNat ≤ a.toNat)
    (sum : a.toNat + size.toNat = (a + size).toNat) (rest : r'.Follow blocks r'') :
    r.Follow ((a, size) :: blocks) r'' := by
  have top : r'.top.toNat = a.toNat + size.toNat := by rw [left, sum]
  have start : r'.start = r.start := by rw [left]
  have stop : r'.stop = r.stop := by rw [left]
  have next := rest.top_le
  refine ⟨rest.start.trans start, rest.stop.trans stop, by omega, stop ▸ rest.inside, ?_, ?_⟩
  · refine List.forall_mem_cons.mpr ⟨⟨behind, top ▸ next⟩, fun b mem => ?_⟩
    have between := rest.between b mem
    exact ⟨by omega, between.2⟩
  · refine List.pairwise_cons.mpr ⟨fun b mem => ?_, rest.apart⟩
    exact top ▸ (rest.between b mem).1

/-- As far as no rounding wraps around, blocks never overlap and never precede the region. -/
theorem follow_allocateAll {r : Region} {requests : List (UInt64 × UInt64)}
    (top_le : r.top.toNat ≤ r.stop.toNat)
    (each : ∀ q ∈ requests, (∃ k, q.2.toNat = 2 ^ k) ∧ r.stop.toNat + q.2.toNat ≤ 2 ^ 64) :
    r.Follow (r.allocateAll requests).1 (r.allocateAll requests).2 := by
  induction requests generalizing r with
  | nil => exact ⟨rfl, rfl, Nat.le_refl _, top_le, by simp [allocateAll], .nil⟩
  | cons q requests ih =>
    obtain ⟨size, align⟩ := q
    obtain ⟨⟨⟨k, power⟩, fits⟩, later⟩ := List.forall_mem_cons.mp each
    cases allocated : r.allocate? size align with
    | none =>
      simp only [allocateAll, allocated]
      exact ih top_le later
    | some block =>
      obtain ⟨a, r'⟩ := block
      obtain ⟨rfl, left, sum, inside⟩ := of_allocate? allocated
      have aligned := toNat_alignUp power (Nat.le_trans (Nat.add_le_add_right top_le _) fits)
      have behind : r.top.toNat ≤ (alignUp r.top align).toNat := by
        rw [aligned]
        exact (isLeast_multiples (power ▸ Nat.two_pow_pos k)).1.2
      simp only [allocateAll, allocated]
      refine .cons left behind sum (ih ?_ ?_)
      · rw [left]
        exact inside
      · rw [left]
        exact later

end Region

/-! ## Writes inside of a range -/

section
variable {b : ByteArray} {i j k n : Nat} {v : UInt8}

@[simp] theorem size_storeBytes (b : ByteArray) (i : Nat) (data : List UInt8) :
    (storeBytes b i data).size = b.size := by
  induction data generalizing b i with
  | nil => rfl
  | cons v data ih => rw [storeBytes, ih, size_setByte]

theorem byteAt_storeBytes_of_not {data : List UInt8} (h : j < i ∨ i + data.length ≤ j) :
    byteAt (storeBytes b i data) j = byteAt b j := by
  induction data generalizing b i with
  | nil => rfl
  | cons v data ih =>
    rw [List.length_cons] at h
    rw [storeBytes, ih (by omega), byteAt_setByte, if_neg (by omega)]

@[simp] theorem size_fill (b : ByteArray) (i : Nat) (v : UInt8) (n : Nat) :
    (fill b i v n).size = b.size := by
  induction n generalizing b i with
  | zero => rfl
  | succ n ih => rw [fill, ih, size_setByte]

theorem byteAt_fill_of_not (h : j < i ∨ i + n ≤ j) : byteAt (fill b i v n) j = byteAt b j := by
  induction n generalizing b i with
  | zero => rfl
  | succ n ih => rw [fill, ih (by omega), byteAt_setByte, if_neg (by omega)]

theorem byteAt_fill (few : k < n) (inside : i + k < b.size) :
    byteAt (fill b i v n) (i + k) = v := by
  induction n generalizing b i k with
  | zero => omega
  | succ n ih =>
    rw [fill]
    cases k with
    | zero =>
      rw [byteAt_fill_of_not (.inl (by omega)), byteAt_setByte, if_pos ⟨rfl, inside⟩]
    | succ k =>
      rw [show i + (k + 1) = i + 1 + k by omega]
      exact ih (by omega) (by rw [size_setByte]; omega)

end

namespace Guarded

theorem Open.write_ends {m : Guarded} {a w v : UInt64} (h : m.Open a w) :
    Ends (fun _ m' => m' = m.put a w v) (fun (_ : Failure) _ => False)
      (Guarded.write a w v m) := by
  rw [h.write]
  rfl

/-- Where the range is clear, the action does not fail and changes nothing outside of it. -/
def Within (lo hi : Nat) {α : Type} (action : Action α) : Prop :=
  ∀ m : Guarded, m.Clear lo hi →
    Ends (fun _ m' => m.Changed m' lo hi) (fun (_ : Failure) _ => False) (action m)

namespace Within

variable {lo hi : Nat} {α β : Type} {a w v len : UInt64}

theorem bind {action : Action α} {f : α → Action β} (h : Within lo hi action)
    (next : ∀ x, Within lo hi (f x)) : Within lo hi (action >>= f) := fun m clear =>
  (h m clear).bind (fun _ _ h => h) fun x m' changed =>
    (next x m' (clear.changed changed)).mono (fun _ _ h => changed.trans h) fun _ _ h => h

theorem write (h₁ : lo ≤ a.toNat) (h₂ : a.toNat + w.toNat ≤ hi) :
    Within lo hi (Guarded.write a w v) := fun m clear => by
  rw [(clear.open h₁ h₂).write]
  exact (changed_put m a w v).mono h₁ h₂

theorem writeBytes {data : List UInt8} (small : data.length < 2 ^ 64) (h₁ : lo ≤ a.toNat)
    (h₂ : a.toNat + data.length ≤ hi) : Within lo hi (Guarded.writeBytes a data) :=
  fun m clear => by
  have length : data.length.toUInt64.toNat = data.length := UInt64.toNat_ofNat_of_lt' small
  rw [Guarded.writeBytes, clear.fault?_eq_none .write h₁ (by rw [length]; exact h₂)]
  exact ⟨size_storeBytes .., rfl, fun j hj => byteAt_storeBytes_of_not (by omega)⟩

theorem fill {byte : UInt8} (h₁ : lo ≤ a.toNat) (h₂ : a.toNat + len.toNat ≤ hi) :
    Within lo hi (Guarded.fill a len byte) := fun m clear => by
  rw [Guarded.fill, clear.fault?_eq_none .write h₁ h₂]
  exact ⟨size_fill .., rfl, fun j hj => byteAt_fill_of_not (by omega)⟩

theorem forM {γ : Type} {l : List γ} {f : γ → Action PUnit}
    (each : ∀ x ∈ l, Within lo hi (f x)) : Within lo hi (l.forM f) := fun m clear =>
  Ends.forM (J := fun m' => m.Changed m' lo hi)
    (fun x hx m' changed =>
      (each x hx m' (clear.changed changed)).mono (fun _ _ h => changed.trans h) fun _ _ h => h)
    (.refl m lo hi)

end Within

/-- Memories with as many bytes and the same guards. -/
structure Alike (m m' : Guarded) : Prop where
  size : m'.bytes.size = m.bytes.size
  guards : m'.guards = m.guards

theorem Alike.refl (m : Guarded) : m.Alike m := ⟨rfl, rfl⟩

theorem Alike.trans {m m' m'' : Guarded} (h : m.Alike m') (h' : m'.Alike m'') : m.Alike m'' :=
  ⟨h'.size.trans h.size, h'.guards.trans h.guards⟩

theorem Alike.put {m m' : Guarded} {a w v : UInt64} (h : m.Alike m') : m.Alike (m'.put a w v) :=
  have changed := changed_put m' a w v
  h.trans ⟨changed.size, changed.guards⟩

/-- The action may change bytes anywhere, but neither how many there are nor what guards them. -/
def KeepsShape {α : Type} (action : Action α) : Prop := ∀ m₀ : Guarded, Preserves m₀.Alike action

namespace KeepsShape

variable {α β : Type} {a w v len : UInt64}

theorem pure (x : α) : KeepsShape (Pure.pure x : Action α) := fun _ => .pure x

theorem bind {action : Action α} {f : α → Action β} (h : KeepsShape action)
    (next : ∀ x, KeepsShape (f x)) : KeepsShape (action >>= f) := fun m₀ =>
  (h m₀).bind fun x => next x m₀

theorem mapM {γ : Type} {l : List γ} {f : γ → Action α} (each : ∀ x, KeepsShape (f x)) :
    KeepsShape (l.mapM f) := fun m₀ => .mapM fun x => each x m₀

theorem readA : KeepsShape (Guarded.readA a w) := fun m₀ m h => by
  unfold Guarded.readA
  cases m.read a w <;> exact h

theorem readBytesA : KeepsShape (Guarded.readBytesA a len) := fun m₀ m h => by
  unfold Guarded.readBytesA
  cases m.readBytes a len <;> exact h

theorem write : KeepsShape (Guarded.write a w v) := fun m₀ m h => by
  unfold Guarded.write
  cases m.fault? a w .write with
  | some fault => exact h
  | none => exact h.put

theorem writeBytes {data : List UInt8} : KeepsShape (Guarded.writeBytes a data) := fun m₀ m h => by
  unfold Guarded.writeBytes
  cases m.fault? a data.length.toUInt64 .write with
  | some fault => exact h
  | none => exact h.trans ⟨size_storeBytes .., rfl⟩

end KeepsShape
end Guarded

/-! ## Objects -/

/-- The heap `h'` may hold more objects than `h`, all of them behind the old ones. -/
structure Heap.Grows (h h' : Heap) : Prop where
  start : h'.region.start = h.region.start
  stop : h'.region.stop = h.region.stop
  top_le : h.region.top.toNat ≤ h'.region.top.toNat
  inside : h'.region.top.toNat ≤ h.region.stop.toNat
  objects : ∀ b, b.toNat < h.region.top.toNat → h'.isObject b = h.isObject b

theorem Heap.Grows.refl {h : Heap} (sound : h.region.Sound) : h.Grows h :=
  ⟨rfl, rfl, Nat.le_refl _, sound.top_le, fun _ _ => rfl⟩

theorem Heap.Grows.trans {h h' h'' : Heap} (g : h.Grows h') (g' : h'.Grows h'') : h.Grows h'' where
  start := g'.start.trans g.start
  stop := g'.stop.trans g.stop
  top_le := Nat.le_trans g.top_le g'.top_le
  inside := by rw [← g.stop]; exact g'.inside
  objects b below :=
    (g'.objects b (Nat.lt_of_lt_of_le below g.top_le)).trans (g.objects b below)

namespace Store

/-- New objects are all that is new, in the heap and in the memory. -/
structure Grows (s s' : Store) : Prop where
  heap : s.heap.Grows s'.heap
  mem : s.mem.Changed s'.mem s.heap.region.top.toNat s.heap.region.stop.toNat

/-- Objects can be allocated. -/
structure Sound (s : Store) : Prop where
  region : s.heap.region.Sound
  clear : s.mem.Clear s.heap.region.top.toNat s.heap.region.stop.toNat

theorem Grows.sound {s s' : Store} (h : s.Grows s') (sound : s.Sound) : s'.Sound where
  region := by
    have := sound.region.start_le
    have := h.heap.top_le
    refine ⟨?_, ?_, ?_⟩
    · rw [h.heap.start]
      omega
    · rw [h.heap.stop]
      exact h.heap.inside
    · rw [h.heap.stop]
      exact sound.region.below
  clear := by
    rw [h.heap.stop]
    exact (sound.clear.mono h.heap.top_le (Nat.le_refl _)).changed h.mem

/-- A block behind all others becomes an object. -/
structure Takes (s : Store) (size a : UInt64) (s' : Store) : Prop where
  grows : s.Grows s'
  behind : s.heap.region.top.toNat ≤ a.toNat
  block : a.toNat + size.toNat ≤ s'.heap.region.top.toNat
  starts : s'.heap.starts = s.heap.starts.insert a

theorem Sound.takes {s s' : Store} {size a : UInt64} (sound : s.Sound)
    (taken : s.heap.region.allocate? size 8 = some (a, s'.heap.region))
    (changed : s.mem.Changed s'.mem a.toNat (a.toNat + size.toNat))
    (starts : s'.heap.starts = s.heap.starts.insert a) : s.Takes size a s' := by
  obtain ⟨start, stop, behind, top, -, inside⟩ := sound.region.taken taken
  refine ⟨⟨⟨start, stop, by omega, inside, fun b below => ?_⟩, changed.mono behind (by omega)⟩,
    behind, Nat.le_of_eq top, starts⟩
  have other : a ≠ b := by
    rintro rfl
    exact absurd below (Nat.not_lt_of_le behind)
  change s'.heap.starts.contains b = s.heap.starts.contains b
  rw [starts, Std.HashSet.contains_insert, beq_eq_false_iff_ne.mpr other, Bool.false_or]

/-- A block of the heap is cleared and entered as an object. -/
structure Enters (s : Store) (size a : UInt64) (s' : Store) : Prop where
  ready : s.mem.Open a size
  taken : s.heap.region.allocate? size 8 = some (a, s'.heap.region)
  filled : s'.mem = s.mem.putFill a size 0
  starts : s'.heap.starts = s.heap.starts.insert a
  stats : s'.heap.stats = { s.heap.stats with bytes := s.heap.stats.bytes + size }

section
variable {s s' : Store} {size a : UInt64}

theorem Enters.changed (h : s.Enters size a s') :
    s.mem.Changed s'.mem a.toNat (a.toNat + size.toNat) := by
  rw [h.filled]
  exact ⟨size_fill .., rfl, fun j hj => byteAt_fill_of_not hj⟩

theorem Enters.zero (h : s.Enters size a s') {k : Nat} (few : k < size.toNat) :
    byteAt s'.mem.bytes (a.toNat + k) = 0 := by
  have inside := h.ready.inside
  rw [h.filled]
  exact byteAt_fill few (by omega)

/-- A part of the new block can be accessed. -/
theorem Enters.part (h : s.Enters size a s') {k w : UInt64}
    (inside : k.toNat + w.toNat ≤ size.toNat) :
    (a + k).toNat = a.toNat + k.toNat ∧ s'.mem.Open (a + k) w := by
  obtain ⟨-, -, sum, -⟩ := Region.of_allocate? h.taken
  have bound := (a + size).toNat_lt
  have address : (a + k).toNat = a.toNat + k.toNat := toNat_add_of_lt (by omega)
  exact ⟨address, (h.ready.changed h.changed).within (by omega) (by omega)⟩

end

/-- No object is entered. What could not be cleared has been taken from the region all the same. -/
structure Refuses (s : Store) (size : UInt64) (e : Failure) (s' : Store) : Prop where
  mem : s'.mem = s.mem
  starts : s'.heap.starts = s.heap.starts
  stats : s'.heap.stats = s.heap.stats
  why : s' = s ∧ e = s.heap.exhausted ∧ s.heap.region.allocate? size 8 = none ∨
    ∃ a fault, s.heap.region.allocate? size 8 = some (a, s'.heap.region) ∧
      s.mem.fault? a size .write = some fault ∧ e = .memoryFault fault

theorem allocate_enters (size : UInt64) (s : Store) :
    Ends (s.Enters size) (s.Refuses size) (allocate size s) := by
  unfold allocate
  refine Ends.get_bind ?_
  cases taken : s.heap.region.allocate? size 8 with
  | none => exact ⟨rfl, rfl, rfl, .inl ⟨rfl, rfl, taken⟩⟩
  | some block =>
    obtain ⟨a, region⟩ := block
    have filled : Ends (fun _ m => s.mem.Open a size ∧ m = s.mem.putFill a size 0)
        (fun e m => m = s.mem ∧
          ∃ fault, s.mem.fault? a size .write = some fault ∧ e = .memoryFault fault)
        (Guarded.fill a size 0 s.mem) := by
      unfold Guarded.fill
      cases faults : s.mem.fault? a size .write with
      | none => exact ⟨.of_fault? faults, rfl⟩
      | some fault => exact ⟨rfl, fault, rfl, rfl⟩
    refine Ends.modify_bind (Ends.bind (Ends.zoom filled) ?_ ?_)
    · rintro _ _ ⟨_, ⟨rfl, fault, faults, rfl⟩, rfl⟩
      exact ⟨rfl, rfl, rfl, .inr ⟨a, fault, taken, faults, rfl⟩⟩
    · rintro _ _ ⟨_, ⟨ready, rfl⟩, rfl⟩
      exact Ends.modify_bind ⟨ready, taken, rfl, rfl, rfl⟩

/-- A block behind the end of memory stays taken, though no object is there. -/
example :
    (match allocate 16 ⟨⟨.empty, []⟩, .ofRange 0 64⟩ with
      | .ok _ s | .error _ s => s.heap.region.used) = 16 := rfl

/-- What is left of the heap is clear, so that it can only be exhausted. -/
theorem Refuses.exhausted {s s' : Store} {size : UInt64} {e : Failure}
    (h : s.Refuses size e s') (sound : s.Sound) :
    s' = s ∧ e = s.heap.exhausted ∧ s.heap.region.allocate? size 8 = none := by
  rcases h.why with exhausted | ⟨a, fault, taken, faults, -⟩
  · exact exhausted
  · have block := sound.region.taken taken
    have untouched := sound.clear.fault?_eq_none .write block.behind (block.block ▸ block.inside)
    cases untouched.symm.trans faults

/-- What is left when a block is taken from the heap, cleared and entered as an object. -/
theorem allocate_ends {s : Store} (sound : s.Sound) (size : UInt64) :
    Ends (fun a s' => s.Takes size a s')
      (fun e s' => s' = s ∧ e = s.heap.exhausted ∧
        s.heap.region.stop.toNat < s.heap.region.top.toNat + (size.toNat + 7) ∧
        s.heap.region.allocate? size 8 = none)
      (allocate size s) := by
  refine (allocate_enters size s).mono (fun a s' entered => ?_) fun e s' refused => ?_
  · exact sound.takes entered.taken entered.changed entered.starts
  · obtain ⟨same, full, none⟩ := refused.exhausted sound
    exact ⟨same, full, sound.region.short none, none⟩

/-- An object of the class with the record is added. -/
structure Creates (s : Store) (classRecord a : UInt64) (s' : Store) : Prop where
  grows : s.Grows s'
  behind : s.heap.region.top.toNat ≤ a.toNat
  inside : a.toNat + 16 ≤ s'.heap.region.top.toNat
  starts : s'.heap.starts = s.heap.starts.insert a
  instanced : load s'.mem.bytes (a.toNat + 8) 8 = classRecord

/-- The new object is the only one. -/
theorem Creates.isObject {s s' : Store} {classRecord a : UInt64} (h : s.Creates classRecord a s')
    (r : UInt64) : s'.heap.isObject r = true ↔ r = a ∨ s.heap.isObject r = true := by
  change s'.heap.starts.contains r = true ↔ r = a ∨ s.heap.starts.contains r = true
  rw [h.starts, Std.HashSet.contains_insert, Bool.or_eq_true, beq_iff_eq, eq_comm]

theorem Creates.object {s s' : Store} {classRecord a : UInt64} (h : s.Creates classRecord a s') :
    s'.heap.isObject a = true := (h.isObject a).mpr (.inl rfl)

end Store
end Memory
end TemplateVm
