import Mathlib.Algebra.GroupWithZero.Nat
import TemplateVm.Machine.CodeCache

set_option autoImplicit false

/-!
# Searching the code cache

Halving finds the end of the elements that satisfy a property, as long as these come first. In a
cache whose blobs are in the order of their addresses it finds the last blob that does not start
above an address, and a new blob that starts above it makes no difference.
-/
namespace TemplateVm

section
variable {α : Type} {xs : Array α} {p : α → Bool} {n : Nat}

/-- Where at most one element satisfies the property and only this one can give a result, it is
    searched first. -/
theorem findSome?_eq_bind_find? {β : Type} {f : α → Option β} {l : List α}
    (one : l.Pairwise fun x y => ¬(p x = true ∧ p y = true))
    (only : ∀ x ∈ l, p x = false → f x = none) : l.findSome? f = (l.find? p).bind f := by
  induction l with
  | nil => rfl
  | cons x l ih =>
    obtain ⟨head, tail⟩ := List.pairwise_cons.mp one
    have rest := ih tail fun y hy => only y (List.mem_cons_of_mem x hy)
    cases hx : p x with
    | false =>
      rw [List.findSome?_cons, only x List.mem_cons_self hx, rest,
        List.find?_cons_of_neg (by simp [hx])]
    | true =>
      have none : l.findSome? f = none := by
        rw [List.findSome?_eq_none_iff]
        intro y hy
        apply only y (List.mem_cons_of_mem x hy)
        rw [← Bool.not_eq_true]
        exact fun holds => head y hy ⟨hx, holds⟩
      rw [List.findSome?_cons, List.find?_cons_of_pos hx, none]
      cases hf : f x <;> exact hf.symm

/-- Where the elements that satisfy a property come first, they are counted by the places. -/
theorem any_getElem?_iff {l : List α} (first : l.Pairwise fun x y => p y = true → p x = true)
    (i : Nat) : l[i]?.any p = true ↔ i < l.countP p := by
  induction l generalizing i with
  | nil => simp
  | cons x l ih =>
    obtain ⟨head, tail⟩ := List.pairwise_cons.mp first
    by_cases hx : p x = true
    · rw [List.countP_cons_of_pos hx]
      cases i with
      | zero => simp [hx]
      | succ i => simpa using ih tail i
    · have none : l.countP p = 0 := by
        rw [List.countP_eq_zero]
        intro y hy holds
        exact hx (head y hy holds)
      rw [List.countP_cons_of_neg hx, none]
      cases i with
      | zero => simp [hx]
      | succ i =>
        have rest := ih tail i
        rw [none] at rest
        simpa using rest

theorem halve_first (holds : ∀ i : Nat, xs[i]?.any p = false) (rounds first size : Nat) :
    halve xs p rounds first size = first := by
  induction rounds generalizing size with
  | zero => rfl
  | succ rounds ih =>
    rw [halve]
    split
    · rfl
    · simp only [holds, Bool.false_eq_true, if_false]
      exact ih _

/-- Each round keeps the last place in reach. -/
theorem halve_last (holds : ∀ i : Nat, xs[i]?.any p = true ↔ i < n) {rounds first size : Nat}
    (low : first < n) (high : n ≤ first + size) (enough : size ≤ rounds + 1) :
    halve xs p rounds first size + 1 = n := by
  induction rounds generalizing first size with
  | zero =>
    rw [halve]
    omega
  | succ rounds ih =>
    rw [halve]
    split
    · omega
    · dsimp only
      by_cases middle : first + size / 2 < n
      · rw [if_pos ((holds _).mpr middle)]
        apply ih middle <;> omega
      · rw [if_neg (mt (holds _).mp middle)]
        apply ih low <;> omega

theorem partitionPoint_eq (first : xs.toList.Pairwise fun x y => p y = true → p x = true) :
    partitionPoint xs p = xs.toList.countP p := by
  have holds : ∀ i : Nat, xs[i]?.any p = true ↔ i < xs.toList.countP p := by
    intro i
    rw [← Array.getElem?_toList]
    exact any_getElem?_iff first i
  unfold partitionPoint
  by_cases none : xs.toList.countP p = 0
  · have fails : ∀ i : Nat, xs[i]?.any p = false := by
      intro i
      rw [← Bool.not_eq_true, holds, none]
      exact Nat.not_lt_zero i
    simp only [halve_first fails, fails, none, Bool.false_eq_true, if_false]
  · have size : xs.toList.countP p ≤ xs.size := List.countP_le_length
    have last : halve xs p xs.size 0 xs.size + 1 = xs.toList.countP p :=
      halve_last holds (by omega) (by omega) (by omega)
    rw [if_pos ((holds _).mpr (by omega))]
    exact last

end

namespace Blob

/-- The code of the blob does not wrap around. -/
def Fits (b : Blob) : Prop := b.stop.toNat = b.start.toNat + 4 * b.code.size

theorem address_toNat {s : UInt64} {k : Nat} (h : s.toNat + 4 * k < 2 ^ 64) :
    (s + k.toUInt64 * Instruction.size).toNat = s.toNat + 4 * k := by
  have size : Instruction.size.toNat = 4 := rfl
  have count : k.toUInt64.toNat = k := UInt64.toNat_ofNat_of_lt' (by change k < 2 ^ 64; omega)
  rw [UInt64.toNat_add, UInt64.toNat_mul, count, size, Nat.mod_eq_of_lt (by omega),
    Nat.mod_eq_of_lt (by omega), Nat.mul_comm]

theorem Fits.holds {b : Blob} (h : b.Fits) (aligned : b.start % 4 = 0) {k : Nat}
    {i : Instruction UInt64} (hk : b.code[k]? = some i) :
    b.contains (b.start + k.toUInt64 * Instruction.size) = true ∧
      b.instruction? (b.start + k.toUInt64 * Instruction.size) = some i := by
  have lt : k < b.code.size := (Array.getElem?_eq_some_iff.mp hk).1
  have stop := b.stop.toNat_lt
  have toNat := address_toNat (s := b.start) (k := k) (by rw [Fits] at h; omega)
  generalize b.start + k.toUInt64 * Instruction.size = p at toNat
  have mod : b.start.toNat % 4 = 0 := by simpa using congrArg UInt64.toNat aligned
  have start_le : b.start ≤ p := UInt64.le_iff_toNat_le.mpr (by omega)
  have pmod : p % Instruction.size = 0 := by
    refine UInt64.toNat_inj.mp ?_
    change (p % 4).toNat = 0
    rw [UInt64.toNat_mod, toNat]
    change (b.start.toNat + 4 * k) % 4 = 0
    omega
  have index : ((p - b.start) / Instruction.size).toNat = k := by
    change ((p - b.start) / 4).toNat = k
    rw [UInt64.toNat_div, UInt64.toNat_sub_of_le _ _ start_le, toNat]
    change (b.start.toNat + 4 * k - b.start.toNat) / 4 = k
    omega
  constructor
  · simp only [contains, Bool.and_eq_true, decide_eq_true_eq]
    exact ⟨start_le, UInt64.lt_iff_toNat_lt.mpr (by rw [h, toNat]; omega)⟩
  · rw [instruction?, if_neg, index, hk]
    simp [pmod, start_le]

theorem eq_of_instruction? {b : Blob} {pc : UInt64} {i : Instruction UInt64}
    (aligned : b.start % 4 = 0) (h : b.instruction? pc = some i) :
    ∃ k : Nat, b.code[k]? = some i ∧ pc = b.start + k.toUInt64 * Instruction.size := by
  unfold instruction? at h
  split at h
  · cases h
  · next inside =>
    simp only [not_or, Decidable.not_not, UInt64.not_lt] at inside
    refine ⟨_, h, UInt64.toNat_inj.mp ?_⟩
    have lt := pc.toNat_lt
    have low := UInt64.le_iff_toNat_le.mp inside.1
    have start : b.start.toNat % 4 = 0 := by simpa using congrArg UInt64.toNat aligned
    have here : pc.toNat % 4 = 0 :=
      (UInt64.toNat_mod pc Instruction.size).symm.trans (congrArg UInt64.toNat inside.2)
    have index : ((pc - b.start) / Instruction.size).toNat = (pc.toNat - b.start.toNat) / 4 := by
      rw [UInt64.toNat_div, UInt64.toNat_sub_of_le _ _ inside.1]
      rfl
    rw [index, address_toNat (by omega)]
    omega

end Blob

namespace CodeCache

/-- The blobs are in the order of their addresses. -/
def Sorted (c : CodeCache) : Prop := c.blobs.toList.Pairwise (·.start ≤ ·.start)

variable {c c' : CodeCache} {b : Blob} {pc next : UInt64}

theorem install_eq (hc : c.install b = .ok c') : b.start = c.nextBase ∧ b.stop ≤ c.limit ∧
    c' = { c with blobs := c.blobs.push b, nextBase := baseAfter b.stop } := by
  unfold install at hc
  split at hc
  · cases hc
  · next h =>
    cases hc
    simp only [not_or, Decidable.not_not, UInt64.not_lt] at h
    exact ⟨h.1, h.2, rfl⟩

theorem baseAfter_toNat {stop : UInt64} (room : stop.toNat + 0x1fff < 2 ^ 64) :
    (baseAfter stop).toNat = (stop.toNat + 0x1000 + 0xfff) / 0x1000 * 0x1000 := by
  have one : alignment.toNat = 0x1000 := rfl
  have two : (alignment - 1).toNat = 0xfff := rfl
  simp only [baseAfter, UInt64.toNat_mul, UInt64.toNat_div, UInt64.toNat_add, one, two]
  omega

theorem mem_of_blobOf? (h : c.blobOf? pc = some b) : b ∈ c.blobs ∧ b.contains pc = true := by
  unfold blobOf? at h
  split at h
  · cases h
  · obtain ⟨found, contains⟩ := Option.filter_eq_some_iff.mp h
    exact ⟨Array.mem_of_getElem? found, contains⟩

theorem Sorted.partitionPoint (h : c.Sorted) (pc : UInt64) :
    partitionPoint c.blobs (·.start ≤ pc) = c.blobs.toList.countP (·.start ≤ pc) := by
  apply partitionPoint_eq
  apply h.imp
  intro b b' le start
  simp only [decide_eq_true_eq] at start ⊢
  exact UInt64.le_trans le start

/-- A blob that is put behind all others keeps the order. -/
theorem Sorted.push (h : c.Sorted) (behind : ∀ b' ∈ c.blobs, b'.start ≤ b.start) :
    Sorted { c with blobs := c.blobs.push b, nextBase := next } := by
  unfold Sorted
  rw [Array.toList_push, List.pairwise_append]
  refine ⟨h, List.pairwise_singleton _ _, ?_⟩
  intro b' hb' b'' hb''
  rw [List.mem_singleton.mp hb'']
  exact behind b' (Array.mem_toList_iff.mp hb')

theorem Sorted.blobOf?_push_of_lt (h : c.Sorted) (behind : ∀ b' ∈ c.blobs, b'.start ≤ b.start)
    (above : pc < b.start) :
    blobOf? { c with blobs := c.blobs.push b, nextBase := next } pc = c.blobOf? pc := by
  have size : c.blobs.toList.countP (·.start ≤ pc) ≤ c.blobs.size := List.countP_le_length
  have later : ¬ b.start ≤ pc := UInt64.not_le.mpr above
  have pushed : Sorted { c with blobs := c.blobs.push b, nextBase := next } := h.push behind
  unfold blobOf?
  rw [pushed.partitionPoint, h.partitionPoint, Array.toList_push,
    List.countP_append, List.countP_singleton, decide_eq_false later, if_neg Bool.false_ne_true,
    Nat.add_zero]
  split
  · rfl
  · next last count =>
    rw [count] at size
    rw [Array.getElem?_push_lt (by omega), Array.getElem?_eq_getElem (by omega)]

theorem Sorted.blobOf?_push_of_le (h : c.Sorted) (behind : ∀ b' ∈ c.blobs, b'.start ≤ b.start)
    (reached : b.start ≤ pc) :
    blobOf? { c with blobs := c.blobs.push b, nextBase := next } pc =
      if b.contains pc then some b else none := by
  have all : c.blobs.toList.countP (·.start ≤ pc) = c.blobs.size := by
    rw [← Array.length_toList, List.countP_eq_length]
    intro b' hb'
    exact decide_eq_true (UInt64.le_trans (behind b' (Array.mem_toList_iff.mp hb')) reached)
  have pushed : Sorted { c with blobs := c.blobs.push b, nextBase := next } := h.push behind
  unfold blobOf?
  rw [pushed.partitionPoint, Array.toList_push, List.countP_append, all,
    List.countP_singleton, decide_eq_true reached, if_pos rfl]
  simp only [Array.getElem?_push_size, Option.filter_some]

/-! ## Caches after any attempts to install -/

/-- A blob that is not installed leaves the cache as it is. -/
def attempt (c : CodeCache) (b : Blob) : CodeCache :=
  match c.install b with
  | .ok c' => c'
  | .error _ => c

/-- A blob lies within the range of the cache. -/
structure Holds (lo hi : UInt64) (b : Blob) : Prop where
  fits : b.Fits
  aligned : b.start % 4 = 0
  above : lo ≤ b.start
  below : b.stop ≤ hi

/-- The blobs of a cache lie in its range one behind the other, all but the first one at multiples
    of the alignment, and are found where they are. -/
structure Packed (lo hi : UInt64) (c : CodeCache) : Prop where
  limit : c.limit = hi
  above : lo ≤ c.nextBase
  aligned : c.nextBase % 4 = 0
  page : c.blobs.toList ≠ [] → c.nextBase.toNat % 0x1000 = 0
  holds : ∀ b ∈ c.blobs, Holds lo hi b
  next : ∀ b ∈ c.blobs, b.stop.toNat + 0x1000 ≤ c.nextBase.toNat
  apart : c.blobs.toList.Pairwise fun b b' => b.stop.toNat + 0x1000 ≤ b'.start.toNat
  pages : ∀ b ∈ c.blobs.toList.tail, b.start.toNat % 0x1000 = 0
  found : ∀ b ∈ c.blobs, ∀ pc, b.contains pc = true → c.blobOf? pc = some b

variable {lo hi : UInt64} {b' : Blob} {i : Instruction UInt64}

theorem Holds.start_le (h : Holds lo hi b) : b.start.toNat ≤ b.stop.toNat := by
  rw [h.fits]
  omega

theorem packed_ofRange (aligned : lo % 4 = 0) : Packed lo hi (ofRange lo hi) where
  limit := rfl
  above := UInt64.le_refl lo
  aligned := aligned
  page h := absurd rfl h
  holds := by simp [ofRange]
  next := by simp [ofRange]
  apart := List.Pairwise.nil
  pages := by simp [ofRange]
  found := by simp [ofRange]

theorem contains_iff : b.contains pc = true ↔ b.start ≤ pc ∧ pc < b.stop := by
  simp only [Blob.contains, Bool.and_eq_true, decide_eq_true_eq]

namespace Packed

theorem sorted (h : Packed lo hi c) : c.Sorted := by
  refine List.Pairwise.imp_of_mem ?_ h.apart
  intro b b' hb _ apart
  have := (h.holds b (Array.mem_toList_iff.mp hb)).start_le
  rw [UInt64.le_iff_toNat_le]
  omega

theorem start_le (h : Packed lo hi c) (hb : b ∈ c.blobs) : b.start ≤ c.nextBase := by
  have := h.next b hb
  have := (h.holds b hb).start_le
  rw [UInt64.le_iff_toNat_le]
  omega

/-- A blob behind all others is found, and so are the others still. -/
theorem found_push (h : Packed lo hi c) (start : b.start = c.nextBase) {b' : Blob}
    (hb' : b' ∈ c.blobs.push b) (inside : b'.contains pc = true) :
    blobOf? { c with blobs := c.blobs.push b, nextBase := next } pc = some b' := by
  have behind : ∀ b' ∈ c.blobs, b'.start ≤ b.start := fun _ hb' => start ▸ h.start_le hb'
  obtain ⟨low, high⟩ := contains_iff.mp inside
  by_cases reached : b.start ≤ pc
  · rw [h.sorted.blobOf?_push_of_le behind reached]
    rcases Array.mem_push.mp hb' with old | rfl
    · have := h.next b' old
      have := UInt64.lt_iff_toNat_lt.mp high
      have := UInt64.le_iff_toNat_le.mp (start ▸ reached)
      omega
    · exact if_pos inside
  · rw [h.sorted.blobOf?_push_of_lt behind (UInt64.not_le.mp reached)]
    rcases Array.mem_push.mp hb' with old | rfl
    · exact h.found b' old pc inside
    · exact absurd low reached

theorem pages_push (h : Packed lo hi c) (start : b.start = c.nextBase) {b' : Blob}
    (hb' : b' ∈ (c.blobs.push b).toList.tail) : b'.start.toNat % 0x1000 = 0 := by
  rw [Array.toList_push] at hb'
  by_cases first : c.blobs.toList = []
  · rw [first] at hb'
    cases hb'
  · rw [List.tail_append_of_ne_nil first, List.mem_append, List.mem_singleton] at hb'
    rcases hb' with old | rfl
    · exact h.pages b' old
    · rw [start]
      exact h.page first

theorem install (h : Packed lo hi c) (room : hi.toNat + 0x2000 ≤ 2 ^ 64)
    (hc : c.install b = .ok c') (fits : b.Fits) : Packed lo hi c' := by
  obtain ⟨start, below, rfl⟩ := install_eq hc
  rw [h.limit] at below
  have held : Holds lo hi b := ⟨fits, start ▸ h.aligned, start ▸ h.above, below⟩
  have stop := UInt64.le_iff_toNat_le.mp below
  have next : (baseAfter b.stop).toNat = (b.stop.toNat + 0x1000 + 0xfff) / 0x1000 * 0x1000 :=
    baseAfter_toNat (by omega)
  have le := held.start_le
  refine ⟨h.limit, ?_, ?_, ?_, ?_, ?_, ?_, fun _ => h.pages_push start,
    fun _ hb' _ => h.found_push start hb'⟩
  · have := UInt64.le_iff_toNat_le.mp held.above
    rw [UInt64.le_iff_toNat_le, next]
    omega
  · apply UInt64.toNat_inj.mp
    rw [UInt64.toNat_mod, next]
    change (b.stop.toNat + 0x1000 + 0xfff) / 0x1000 * 0x1000 % 4 = 0
    omega
  · intro _
    rw [next]
    omega
  · intro b' hb'
    rcases Array.mem_push.mp hb' with old | rfl
    · exact h.holds b' old
    · exact held
  · intro b' hb'
    rw [next]
    rcases Array.mem_push.mp hb' with old | rfl
    · have := h.next b' old
      rw [← start] at this
      omega
    · omega
  · rw [Array.toList_push, List.pairwise_append]
    refine ⟨h.apart, List.pairwise_singleton _ _, ?_⟩
    intro b' hb' b'' hb''
    rw [List.mem_singleton.mp hb'', start]
    exact h.next b' (Array.mem_toList_iff.mp hb')

/-- Whatever is tried, a cache that leaves room behind its limit stays packed. -/
theorem attempts (h : Packed lo hi c) (room : hi.toNat + 0x2000 ≤ 2 ^ 64) {bs : List Blob}
    (fits : ∀ b ∈ bs, b.Fits) : Packed lo hi (bs.foldl attempt c) := by
  induction bs generalizing c with
  | nil => exact h
  | cons b bs ih =>
    rw [List.foldl_cons]
    apply ih
    · unfold attempt
      cases installed : c.install b with
      | error _ => exact h
      | ok c' => exact h.install room installed (fits b List.mem_cons_self)
    · intro b' hb'
      exact fits b' (List.mem_cons_of_mem b hb')

/-! ### What is found in it -/

theorem disjoint (h : Packed lo hi c) : c.blobs.toList.Pairwise fun b b' =>
    b.start < b'.start ∧ ∀ pc, ¬(b.contains pc = true ∧ b'.contains pc = true) := by
  refine List.Pairwise.imp_of_mem ?_ h.apart
  intro b b' hb _ apart
  have := (h.holds b (Array.mem_toList_iff.mp hb)).start_le
  constructor
  · rw [UInt64.lt_iff_toNat_lt]
    omega
  · rintro pc ⟨inside, inside'⟩
    have := UInt64.lt_iff_toNat_lt.mp (contains_iff.mp inside).2
    have := UInt64.le_iff_toNat_le.mp (contains_iff.mp inside').1
    omega

theorem within (h : Packed lo hi c) (hb : b ∈ c.blobs) (inside : b.contains pc = true) :
    lo ≤ pc ∧ pc < hi := by
  obtain ⟨low, high⟩ := contains_iff.mp inside
  have held := h.holds b hb
  exact ⟨UInt64.le_trans held.above low, UInt64.lt_of_lt_of_le high held.below⟩

theorem blobOf?_eq_some_iff (h : Packed lo hi c) :
    c.blobOf? pc = some b ↔ b ∈ c.blobs ∧ b.contains pc = true :=
  ⟨mem_of_blobOf?, fun ⟨hb, inside⟩ => h.found b hb pc inside⟩

theorem blobOf?_eq_find? (h : Packed lo hi c) (pc : UInt64) :
    c.blobOf? pc = c.blobs.toList.find? (·.contains pc) := by
  cases first : c.blobs.toList.find? (·.contains pc) with
  | none =>
    rw [Option.eq_none_iff_forall_ne_some]
    intro b found
    obtain ⟨hb, inside⟩ := mem_of_blobOf? found
    exact List.find?_eq_none.mp first b (Array.mem_toList_iff.mpr hb) inside
  | some b =>
    have hb := Array.mem_toList_iff.mp (List.mem_of_find?_eq_some first)
    exact h.found b hb pc (List.find?_some (p := fun b : Blob => b.contains pc) first)

theorem contains_eq_any (h : Packed lo hi c) (pc : UInt64) :
    c.contains pc = c.blobs.toList.any (·.contains pc) := by
  rw [CodeCache.contains, h.blobOf?_eq_find?, Bool.eq_iff_iff, List.find?_isSome, List.any_eq_true]

/-- Instructions are found where they begin, and nowhere else. -/
theorem instruction?_eq_some_iff (h : Packed lo hi c) :
    c.instruction? pc = some i ↔
      ∃ b ∈ c.blobs, ∃ k : Nat, b.code[k]? = some i ∧
        pc = b.start + k.toUInt64 * Instruction.size := by
  constructor
  · intro found
    obtain ⟨b, inBlob, there⟩ := Option.bind_eq_some_iff.mp found
    obtain ⟨hb, inside⟩ := mem_of_blobOf? inBlob
    exact ⟨b, hb, Blob.eq_of_instruction? (h.holds b hb).aligned there⟩
  · rintro ⟨b, hb, k, there, rfl⟩
    have held := h.holds b hb
    obtain ⟨inside, found⟩ := held.fits.holds held.aligned there
    rw [CodeCache.instruction?, h.found b hb _ inside]
    exact found

/-- Stubs that do not reach out of their blobs are found as if all stubs were in one list. -/
theorem stubOf?_eq_find? (h : Packed lo hi c)
    (inside : ∀ b ∈ c.blobs, ∀ s ∈ b.stubs, ∀ pc, s.contains pc = true → b.contains pc = true)
    (pc : UInt64) :
    c.stubOf? pc = (c.blobs.toList.flatMap (·.stubs.toList)).find? (·.contains pc) := by
  rw [CodeCache.stubOf?, h.blobOf?_eq_find?, List.find?_flatMap,
    findSome?_eq_bind_find? (p := (·.contains pc)) (h.disjoint.imp fun apart => apart.2 pc)]
  · congr 1
    funext b
    exact Array.find?_toList.symm
  · intro b hb outside
    rw [List.find?_eq_none]
    intro s hs contains
    have := inside b (Array.mem_toList_iff.mp hb) s (Array.mem_toList_iff.mp hs) pc contains
    rw [outside] at this
    cases this

end Packed

/-- Without room behind the limit, the end of a blob can wrap around: the second blob is accepted
    though it reaches beyond the limit, and the third one is put below the first. -/
example :
    let nops (start : UInt64) (n : Nat) : Blob :=
      { name := "nops", start, code := Array.replicate n .nop }
    let c := [nops 0xffffffffffffd000 1, nops 0xfffffffffffff000 1024, nops 0x1000 1].foldl attempt
      (ofRange 0xffffffffffffd000 0xffffffffffffe000)
    c.blobs.map (·.start) = #[0xffffffffffffd000, 0xfffffffffffff000, 0x1000] := by
  decide +kernel

end CodeCache
end TemplateVm
