import Mathlib.Algebra.GroupWithZero.Nat
import TemplateVm.Proofs.Layout.Placement
import TemplateVm.Proofs.Machine.Caching
import TemplateVm.Proofs.Results

set_option autoImplicit false

/-!
# Finished and installed code

Finishing an assembly gives the code that its instructions become once every label has its place,
and installing a blob makes its code fetchable without hiding any other.
-/
namespace TemplateVm

namespace Instruction

theorem placed_of_mapTarget {ε : Type} {f : Target → Except ε UInt64} {place : CodeLabel → UInt64}
    (hf : ∀ t p, f t = .ok p → t.resolve place = p) {i : Instruction Target}
    {i' : Instruction UInt64} (h : i.mapTarget f = .ok i') : i' = i.placed place := by
  have target (t : Target) (c : UInt64 → Instruction UInt64) (h : (f t).map c = .ok i') :
      i' = c (t.resolve place) := by
    cases ht : f t with
    | error e => rw [ht] at h; cases h
    | ok p => rw [ht] at h; cases h; rw [hf t p ht]
  cases i <;> first | (cases h; rfl) | exact target _ _ h

theorem mapTarget_ok {ε : Type} {f : Target → Except ε UInt64} {i : Instruction Target}
    (hf : ∀ t, i.target? = some t → ∃ p, f t = .ok p) : ∃ i', i.mapTarget f = .ok i' := by
  have target (t : Target) (ht : i.target? = some t) (c : UInt64 → Instruction UInt64) :
      ∃ i', (f t).map c = .ok i' := by
    obtain ⟨p, hp⟩ := hf t ht
    exact ⟨c p, by rw [hp]; rfl⟩
  cases i <;> first | exact ⟨_, rfl⟩ | exact target _ rfl _

end Instruction

namespace Assembly

/-- Where the labels of a finished assembly are. -/
def places (a : Assembly) (l : CodeLabel) : UInt64 := (a.labelAddress? l).getD 0

theorem resolve_places {a : Assembly} {t : Target} {p : UInt64} (h : a.resolve t = .ok p) :
    t.resolve a.places = p := by
  cases t with
  | address q => cases h; rfl
  | pending l =>
    simp only [resolve] at h
    cases hl : a.labelAddress? l with
    | none => rw [hl] at h; cases h
    | some q =>
      rw [hl] at h
      cases h
      simp [Target.resolve, places, hl]

theorem of_finish {a : Assembly} {name : String} {blob : Blob} (h : a.finish name = .ok blob) :
    a.openStub = none ∧ ∃ code, a.code.toList.mapM (·.mapTarget a.resolve) = .ok code ∧
      blob = { name, start := a.base, code := code.toArray, stubs := a.stubs, marks := a.marks,
               comments := a.comments } := by
  unfold finish at h
  split at h
  · cases h
  · next closed =>
    rw [Array.mapM_eq_mapM_toList] at h
    cases placed : a.code.toList.mapM (·.mapTarget a.resolve) with
    | error e =>
      rw [placed] at h
      cases h
    | ok code =>
      rw [placed] at h
      cases h
      exact ⟨closed, code, rfl, rfl⟩

theorem finish_code {a : Assembly} {name : String} {blob : Blob} (h : a.finish name = .ok blob) :
    blob.start = a.base ∧ blob.code.size = a.code.size ∧ ∀ (k : Nat) (i : Instruction Target),
      a.code[k]? = some i → blob.code[k]? = some (i.placed a.places) := by
  obtain ⟨-, code, placed, rfl⟩ := of_finish h
  refine ⟨rfl, by simpa using mapM_length placed, fun k i hi => ?_⟩
  obtain ⟨i', hi', run⟩ := mapM_get placed k i (by simpa using hi)
  rw [← Instruction.placed_of_mapTarget (fun _ _ => resolve_places) run]
  simpa using hi'

/-- Nothing is left open in the assembly. -/
structure Complete (a : Assembly) : Prop where
  stub : a.openStub = none
  bound : ∀ i ∈ a.code, ∀ l, i.target? = some (.pending l) → (a.labelAddress? l).isSome

theorem Complete.finish {a : Assembly} (h : a.Complete) (name : String) :
    ∃ blob, a.finish name = .ok blob := by
  have each : ∀ i ∈ a.code.toList, ∃ i', i.mapTarget a.resolve = .ok i' := by
    refine fun i hi => Instruction.mapTarget_ok fun t ht => ?_
    cases t with
    | address p => exact ⟨p, rfl⟩
    | pending l =>
      obtain ⟨p, hp⟩ := Option.isSome_iff_exists.mp (h.bound i (by simpa using hi) l ht)
      exact ⟨p, by simp [resolve, hp]⟩
  obtain ⟨code, hc⟩ := mapM_ok each
  unfold Assembly.finish
  rw [h.stub, Array.mapM_eq_mapM_toList]
  simp only [hc]
  exact ⟨_, rfl⟩

end Assembly

/-! ## The code cache -/

namespace CodeCache

/-- Blobs are in the order of their addresses, and end below the next base and below the limit. -/
structure Ordered (c : CodeCache) : Prop where
  limit : c.limit = Place.codeLimit
  aligned : c.nextBase % 4 = 0
  sorted : c.Sorted
  start : ∀ b ∈ c.blobs, b.start ≤ c.nextBase
  stop : ∀ b ∈ c.blobs, b.stop ≤ c.nextBase ∧ b.stop ≤ c.limit

variable {c c' : CodeCache} {b : Blob} {p : UInt64} {i : Instruction UInt64}

theorem Ordered.below (h : c.Ordered) (hi : c.instruction? p = some i) :
    p < c.nextBase ∧ p < Place.codeLimit := by
  obtain ⟨b, hb, -⟩ := Option.bind_eq_some_iff.mp hi
  obtain ⟨mem, contains⟩ := mem_of_blobOf? hb
  simp only [Blob.contains, Bool.and_eq_true, decide_eq_true_eq] at contains
  obtain ⟨next, limit⟩ := h.stop b mem
  rw [h.limit] at limit
  exact ⟨UInt64.lt_of_lt_of_le contains.2 next, UInt64.lt_of_lt_of_le contains.2 limit⟩

theorem Ordered.behind (h : c.Ordered) (hc : c.install b = .ok c') :
    ∀ b' ∈ c.blobs, b'.start ≤ b.start := by
  intro b' hb'
  rw [(install_eq hc).1]
  exact h.start b' hb'

/-- Code stays where it is when more is installed. -/
theorem Ordered.keeps (h : c.Ordered) (hc : c.install b = .ok c') (hp : c.Fetches p i) :
    c'.Fetches p i := by
  have behind := h.behind hc
  obtain ⟨start, -, rfl⟩ := install_eq hc
  refine ⟨?_, hp.2⟩
  rw [← hp.1, instruction?, instruction?,
    h.sorted.blobOf?_push_of_lt behind (start ▸ (h.below hp.1).1)]

theorem baseAfter_of_le {stop : UInt64} (h : stop ≤ Place.codeLimit) :
    (baseAfter stop).toNat = (stop.toNat + 0x1000 + 0xfff) / 0x1000 * 0x1000 := by
  have bound : stop.toNat ≤ 0x50000000 := UInt64.le_iff_toNat_le.mp h
  exact baseAfter_toNat (by omega)

theorem baseAfter_ge {stop : UInt64} (h : stop ≤ Place.codeLimit) :
    stop ≤ baseAfter stop ∧ baseAfter stop % 4 = 0 := by
  have toNat := baseAfter_of_le h
  constructor
  · rw [UInt64.le_iff_toNat_le, toNat]
    omega
  · refine UInt64.toNat_inj.mp ?_
    rw [UInt64.toNat_mod, toNat]
    change (stop.toNat + 0x1000 + 0xfff) / 0x1000 * 0x1000 % 4 = 0
    omega

theorem Ordered.install (h : c.Ordered) (hc : c.install b = .ok c') (fits : b.Fits) :
    c'.Ordered := by
  have behind := h.behind hc
  obtain ⟨start, limit, rfl⟩ := install_eq hc
  have limit' := limit
  rw [h.limit] at limit'
  obtain ⟨ge, aligned⟩ := baseAfter_ge limit'
  have le : b.start ≤ b.stop := by
    rw [UInt64.le_iff_toNat_le, fits]
    omega
  refine ⟨h.limit, aligned, h.sorted.push behind, fun b' hb' => ?_, fun b' hb' => ?_⟩
  · rcases Array.mem_push.mp hb' with hb' | rfl
    · exact UInt64.le_trans (behind b' hb') (UInt64.le_trans le ge)
    · exact UInt64.le_trans le ge
  · rcases Array.mem_push.mp hb' with hb' | rfl
    · obtain ⟨next, below⟩ := h.stop b' hb'
      exact ⟨UInt64.le_trans (start ▸ next) (UInt64.le_trans le ge), below⟩
    · exact ⟨ge, limit⟩

/-- The code of a blob is fetched once it is installed. -/
theorem Ordered.fetches (h : c.Ordered) (hc : c.install b = .ok c') (fits : b.Fits) {k : Nat}
    (hk : b.code[k]? = some i) : c'.Fetches (b.start + k.toUInt64 * Instruction.size) i := by
  have ordered := h.install hc fits
  have behind := h.behind hc
  obtain ⟨start, limit, rfl⟩ := install_eq hc
  obtain ⟨contains, found⟩ := fits.holds (start ▸ h.aligned) hk
  have first : b.start ≤ b.start + k.toUInt64 * Instruction.size := by
    simp only [Blob.contains, Bool.and_eq_true, decide_eq_true_eq] at contains
    exact contains.1
  have fetched : instruction? { c with blobs := c.blobs.push b, nextBase := baseAfter b.stop }
      (b.start + k.toUInt64 * Instruction.size) = some i := by
    rw [instruction?, h.sorted.blobOf?_push_of_le behind first, if_pos contains]
    exact found
  exact ⟨fetched, (ordered.below fetched).2⟩

theorem sorted_ofRange (base limit : UInt64) : (ofRange base limit).Sorted := List.Pairwise.nil

/-- A blob can be installed alone at the place that it has beside others. -/
theorem Ordered.alone (h : c.Ordered) (hc : c.install b = .ok c') :
    (ofRange b.start Place.codeLimit).Ordered ∧
      ∃ one, (ofRange b.start Place.codeLimit).install b = .ok one ∧
        ∀ p i, one.Fetches p i → c'.Fetches p i ∧ b.contains p = true := by
  have behind := h.behind hc
  obtain ⟨start, limit, rfl⟩ := install_eq hc
  rw [h.limit] at limit
  refine ⟨⟨rfl, start ▸ h.aligned, sorted_ofRange _ _, by simp [ofRange], by simp [ofRange]⟩,
    ⟨#[].push b, baseAfter b.stop, Place.codeLimit⟩, ?_, fun p i fetch => ?_⟩
  · exact if_neg (not_or.mpr ⟨not_not.mpr rfl, UInt64.not_lt.mpr limit⟩)
  · obtain ⟨found, below⟩ := fetch
    obtain ⟨b', only, rest⟩ := Option.bind_eq_some_iff.mp found
    obtain ⟨mem, contains⟩ := mem_of_blobOf? only
    obtain rfl : b' = b := by simpa using mem
    have first : b'.start ≤ p := by
      simp only [Blob.contains, Bool.and_eq_true, decide_eq_true_eq] at contains
      exact contains.1
    refine ⟨⟨?_, below⟩, contains⟩
    rw [instruction?, h.sorted.blobOf?_push_of_le behind first, if_pos contains]
    exact rest

end CodeCache
end TemplateVm
