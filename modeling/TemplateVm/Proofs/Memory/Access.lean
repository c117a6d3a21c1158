import TemplateVm.Machine.Cpu
import TemplateVm.Proofs.Memory.Words

set_option autoImplicit false

/-!
# Accesses that do not fault

A range of memory is clear if it is there and no guard touches it. Accesses inside of clear ranges
succeed, and what a write leaves alone is said by `Agrees`.
-/
namespace TemplateVm.Memory

theorem toNat_accessEnd (a len : UInt64) :
    (accessEnd a len).toNat = min (a.toNat + len.toNat) (2 ^ 64 - 1) := by
  have bound := a.toNat_lt
  have bound' := len.toNat_lt
  have sum : (a + len).toNat = (a.toNat + len.toNat) % 2 ^ 64 := UInt64.toNat_add ..
  unfold accessEnd
  split
  · next wraps =>
    rw [UInt64.lt_iff_toNat_lt] at wraps
    change 2 ^ 64 - 1 = _
    omega
  · next fits =>
    rw [UInt64.lt_iff_toNat_lt] at fits
    omega

theorem GuardRange.touches_iff {g : GuardRange} {a len : UInt64} :
    g.touches a len = true ↔
      a.toNat < g.stop.toNat ∧ g.start.toNat < min (a.toNat + len.toNat) (2 ^ 64 - 1) := by
  rw [touches, Bool.and_eq_true, decide_eq_true_eq, decide_eq_true_eq, UInt64.lt_iff_toNat_lt,
    UInt64.lt_iff_toNat_lt, toNat_accessEnd]

namespace Guarded

/-- The range is part of the memory, and no guard touches it. -/
structure Clear (m : Guarded) (lo hi : Nat) : Prop where
  inside : hi ≤ m.bytes.size
  unguarded : ∀ g ∈ m.guards, g.stop.toNat ≤ lo ∨ hi ≤ g.start.toNat

/-- Two memories that differ at most in the bytes of a range. -/
structure Changed (m m' : Guarded) (lo hi : Nat) : Prop where
  size : m'.bytes.size = m.bytes.size
  guards : m'.guards = m.guards
  other : ∀ j, j < lo ∨ hi ≤ j → byteAt m'.bytes j = byteAt m.bytes j

/-- The memories have the same bytes in a range. -/
def Agrees (m m' : Guarded) (lo hi : Nat) : Prop :=
  ∀ j, lo ≤ j → j < hi → byteAt m'.bytes j = byteAt m.bytes j

/-- No access to the bytes faults. -/
def Open (m : Guarded) (a len : UInt64) : Prop := ∀ access, m.fault? a len access = none

section
variable {m m' m'' : Guarded} {lo hi s t : Nat} {a len w v : UInt64}

theorem Clear.mono (h : m.Clear lo hi) (h₁ : lo ≤ s) (h₂ : t ≤ hi) : m.Clear s t where
  inside := Nat.le_trans h₂ h.inside
  unguarded g hg := by
    rcases h.unguarded g hg with h | h <;> omega

theorem Clear.congr (h : m.Clear lo hi) (size : m'.bytes.size = m.bytes.size)
    (guards : m'.guards = m.guards) : m'.Clear lo hi where
  inside := by rw [size]; exact h.inside
  unguarded := by rw [guards]; exact h.unguarded

theorem Clear.changed (h : m.Clear lo hi) (hc : m.Changed m' s t) : m'.Clear lo hi :=
  h.congr hc.size hc.guards

theorem Clear.fault?_eq_none (h : m.Clear lo hi) (access : MemoryAccess) (h₁ : lo ≤ a.toNat)
    (h₂ : a.toNat + len.toNat ≤ hi) : m.fault? a len access = none := by
  have untouched : m.guardOf? a len = none := by
    refine List.find?_eq_none.mpr fun g hg touched => ?_
    rw [GuardRange.touches_iff] at touched
    rcases h.unguarded g hg with h | h <;> omega
  have := h.inside
  simp only [fault?, untouched]
  rw [if_pos (by omega)]

theorem Clear.open (h : m.Clear lo hi) (h₁ : lo ≤ a.toNat) (h₂ : a.toNat + len.toNat ≤ hi) :
    m.Open a len := fun access => h.fault?_eq_none access h₁ h₂

theorem Open.readOr (h : m.Open a w) : readOr m a w = .ok (load m.bytes a.toNat w.toNat) := by
  rw [TemplateVm.readOr, Guarded.read, h .read]
  rfl

/-- Guards and bounds are the same for all kinds of access. -/
theorem Open.of_fault? {access : MemoryAccess} (h : m.fault? a w access = none) : m.Open a w := by
  intro other
  unfold fault? at h ⊢
  cases guarded : m.guardOf? a w with
  | some g => simp [guarded] at h
  | none =>
    by_cases inside : a.toNat + w.toNat ≤ m.bytes.size
    · simp [inside]
    · simp [guarded, inside] at h

theorem Open.of_readOr {n : UInt64} (h : TemplateVm.readOr m a w = .ok n) : m.Open a w := by
  unfold TemplateVm.readOr Guarded.read at h
  cases faults : m.fault? a w .read with
  | some fault => simp [faults, orFault] at h
  | none => exact .of_fault? faults

theorem of_readA {n : UInt64} (h : readA a w m = .ok n m') :
    m' = m ∧ n = load m.bytes a.toNat w.toNat := by
  unfold readA Guarded.read at h
  cases faults : m.fault? a w .read with
  | some fault => simp [faults] at h
  | none =>
    simp only [faults] at h
    cases h
    exact ⟨rfl, rfl⟩

theorem of_write (h : write a w v m = .ok () m') : m.Open a w ∧ m' = m.put a w v := by
  unfold write at h
  cases faults : m.fault? a w .write with
  | some fault => simp [faults] at h
  | none =>
    simp only [faults] at h
    cases h
    exact ⟨.of_fault? faults, rfl⟩

theorem Open.checkWrite (h : m.Open a w) : checkWrite m a w = .ok () := by
  rw [TemplateVm.checkWrite, h .write]

theorem Open.readA (h : m.Open a w) :
    readA a w m = .ok (load m.bytes a.toNat w.toNat) m := by
  rw [Guarded.readA, Guarded.read, h .read]

theorem Open.write (h : m.Open a w) : write a w v m = .ok () (m.put a w v) := by
  rw [Guarded.write, h .write]

theorem Open.inside (h : m.Open a w) : a.toNat + w.toNat ≤ m.bytes.size := by
  have read := h .read
  unfold fault? at read
  split at read
  · cases read
  · refine Nat.le_of_not_lt fun hn => ?_
    rw [if_neg (by omega)] at read
    cases read

theorem Open.guardOf?_eq_none (h : m.Open a w) : m.guardOf? a w = none := by
  cases guarded : m.guardOf? a w with
  | some g =>
    have none := h .read
    simp [fault?, guarded] at none
  | none => rfl

/-- An access to some of the bytes of an open one is open. -/
theorem Open.within {b : UInt64} (h : m.Open a len) (low : a.toNat ≤ b.toNat)
    (high : b.toNat + w.toNat ≤ a.toNat + len.toNat) : m.Open b w := by
  have inside := h.inside
  have untouched : m.guardOf? b w = none := by
    refine List.find?_eq_none.mpr fun g hg touched => ?_
    refine List.find?_eq_none.mp h.guardOf?_eq_none g hg ?_
    rw [GuardRange.touches_iff] at touched ⊢
    omega
  intro access
  simp only [fault?, untouched]
  rw [if_pos (by omega)]

@[simp] theorem bytes_put (m : Guarded) (a w v : UInt64) :
    (m.put a w v).bytes = store m.bytes a.toNat v w.toNat := rfl

@[simp] theorem guards_put (m : Guarded) (a w v : UInt64) : (m.put a w v).guards = m.guards := rfl

theorem load_put (h : m.Open a 8) : load (m.put a 8 v).bytes a.toNat 8 = v := by
  have inside := h.inside
  have width : (8 : UInt64).toNat = 8 := rfl
  rw [width] at inside
  rw [bytes_put, width, load_store_double inside]

theorem load_put_word (h : m.Open a 4) :
    load (m.put a 4 v).bytes a.toNat 4 = v.toUInt32.toUInt64 := by
  have inside := h.inside
  have width : (4 : UInt64).toNat = 4 := rfl
  rw [width] at inside
  rw [bytes_put, width, load_store_word inside]

theorem load_put_half (h : m.Open a 2) :
    load (m.put a 2 v).bytes a.toNat 2 = v.toUInt16.toUInt64 := by
  have inside := h.inside
  have width : (2 : UInt64).toNat = 2 := rfl
  rw [width] at inside
  rw [bytes_put, width, load_store_half inside]

theorem load_put_byte (h : m.Open a 1) :
    load (m.put a 1 v).bytes a.toNat 1 = v.toUInt8.toUInt64 := by
  have inside := h.inside
  have width : (1 : UInt64).toNat = 1 := rfl
  rw [width] at inside
  rw [bytes_put, width, load_store_byte inside]

theorem load_put_of_disjoint {j k : Nat} (h : j + k ≤ a.toNat ∨ a.toNat + w.toNat ≤ j) :
    load (m.put a w v).bytes j k = load m.bytes j k :=
  load_store_of_disjoint h

/-! ## Changes -/

theorem changed_put (m : Guarded) (a w v : UInt64) :
    m.Changed (m.put a w v) a.toNat (a.toNat + w.toNat) where
  size := size_store ..
  guards := rfl
  other _ h := byteAt_store_of_not h

theorem Changed.refl (m : Guarded) (lo hi : Nat) : m.Changed m lo hi := ⟨rfl, rfl, fun _ _ => rfl⟩

theorem Changed.trans (h : m.Changed m' lo hi) (h' : m'.Changed m'' lo hi) :
    m.Changed m'' lo hi where
  size := h'.size.trans h.size
  guards := h'.guards.trans h.guards
  other j hj := (h'.other j hj).trans (h.other j hj)

theorem Changed.mono (h : m.Changed m' lo hi) (h₁ : s ≤ lo) (h₂ : hi ≤ t) :
    m.Changed m' s t := ⟨h.size, h.guards, fun j hj => h.other j (by omega)⟩

theorem Changed.put (h : m.Changed m' lo hi) (h₁ : lo ≤ a.toNat)
    (h₂ : a.toNat + w.toNat ≤ hi) : m.Changed (m'.put a w v) lo hi :=
  h.trans ((changed_put m' a w v).mono h₁ h₂)

theorem Changed.agrees (h : m.Changed m' lo hi) (hd : t ≤ lo ∨ hi ≤ s) :
    m.Agrees m' s t := fun j _ _ => h.other j (by omega)

theorem Agrees.mono (h : m.Agrees m' lo hi) (h₁ : lo ≤ s) (h₂ : t ≤ hi) :
    m.Agrees m' s t := fun j h₃ h₄ => h j (by omega) (by omega)

theorem Agrees.trans (h : m.Agrees m' lo hi) (h' : m'.Agrees m'' lo hi) : m.Agrees m'' lo hi :=
  fun j h₁ h₂ => (h' j h₁ h₂).trans (h j h₁ h₂)

theorem Agrees.load (h : m.Agrees m' lo hi) {i k : Nat} (h₁ : lo ≤ i) (h₂ : i + k ≤ hi) :
    load m'.bytes i k = load m.bytes i k :=
  load_congr fun j h₃ h₄ => h j (by omega) (by omega)

theorem Changed.fault?_eq (hc : m.Changed m' lo hi) (access : MemoryAccess) :
    m'.fault? a w access = m.fault? a w access := by
  simp only [fault?, guardOf?, hc.guards, hc.size]

theorem Open.changed (h : m.Open a w) (hc : m.Changed m' lo hi) : m'.Open a w := fun access =>
  (hc.fault?_eq access).trans (h access)

theorem Open.put {a' w' : UInt64} (h : m.Open a w) : (m.put a' w' v).Open a w :=
  h.changed (changed_put m a' w' v)

/-- What is open stays so with fewer guards. -/
theorem Open.unprotect {start : UInt64} (h : m.Open a w) :
    (m.unprotect start len).Open a w := by
  intro access
  have none := h access
  unfold fault? at none ⊢
  cases guarded : m.guardOf? a w with
  | some g => simp [guarded] at none
  | none =>
    have fewer : (m.unprotect start len).guardOf? a w = .none := by
      unfold guardOf? Guarded.unprotect at *
      rw [List.find?_eq_none] at guarded ⊢
      exact fun g hg => guarded g (List.mem_filter.mp hg).1
    rw [guarded] at none
    rw [fewer]
    exact none

theorem Clear.unprotect {start : UInt64} (h : m.Clear lo hi) : (m.unprotect start len).Clear lo hi :=
  ⟨h.inside, fun g hg => h.unguarded g (List.mem_filter.mp hg).1⟩

theorem Clear.protect {start : UInt64} {tag : UInt32} (h : m.Clear lo hi)
    (away : (start + len).toNat ≤ lo ∨ hi ≤ start.toNat) : (m.protect start len tag).Clear lo hi where
  inside := h.inside
  unguarded g hg := by
    rcases List.mem_append.mp hg with hg | hg
    · exact h.unguarded g hg
    · rw [List.mem_singleton.mp hg]
      exact away

theorem Clear.put (h : m.Clear lo hi) : (m.put a w v).Clear lo hi :=
  h.changed (changed_put m a w v)

/-! ## New guards -/

/-- A guard is touched by what starts in it. -/
theorem touches_of_start {g : GuardRange} (low : g.start.toNat ≤ a.toNat)
    (high : a.toNat < g.stop.toNat) (some : 0 < len.toNat) : g.touches a len = true := by
  have top := g.stop.toNat_lt
  rw [GuardRange.touches_iff]
  omega

/-- What was open faults on a guard that is laid over it. -/
theorem Open.fault?_protect {start : UInt64} {tag : UInt32} (h : m.Open a w)
    (low : start.toNat ≤ a.toNat) (high : a.toNat < (start + len).toNat) (some : 0 < w.toNat)
    (access : MemoryAccess) :
    (m.protect start len tag).fault? a w access = .some ⟨a, access, .some tag⟩ := by
  have untouched := h.guardOf?_eq_none
  have touched : (⟨start, start + len, tag⟩ : GuardRange).touches a w = true :=
    touches_of_start low high some
  have inside : ¬ a < start := by
    rw [UInt64.lt_iff_toNat_lt]
    omega
  unfold guardOf? at untouched
  simp [fault?, guardOf?, protect, List.find?_append, untouched, touched, inside]

/-! ## The null page -/

/-- An access that starts below the end of the first guard faults there. -/
theorem fault?_of_first {g : GuardRange} {gs : List GuardRange} (hm : m.guards = g :: gs)
    (start : g.start = 0) (access : MemoryAccess) (below : a < g.stop) (some : 0 < len) :
    m.fault? a len access = .some ⟨a, access, .some g.tag⟩ := by
  have touched : g.touches a len = true :=
    touches_of_start (by rw [start]; exact Nat.zero_le _) (UInt64.lt_iff_toNat_lt.mp below)
      (UInt64.lt_iff_toNat_lt.mp some)
  simp [fault?, guardOf?, hm, touched, start]

end
end Guarded
end TemplateVm.Memory
