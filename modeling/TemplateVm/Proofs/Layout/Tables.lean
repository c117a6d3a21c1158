import TemplateVm.Proofs.Activation.Changes
import TemplateVm.Proofs.Layout.Entries
import TemplateVm.Proofs.Machine.Turns
import TemplateVm.Proofs.Memory.Access

set_option autoImplicit false

/-!
# Tables in memory

Words that are written one behind the other are found in their order, and the words of a dispatch
table are in the slots that the code looks at.
-/
namespace TemplateVm

open Memory (Guarded load)

theorem Image.writeWords_ok (a : UInt64) (ws : List UInt64) {m : Guarded} {lo hi : Nat}
    (clear : m.Clear lo hi) (above : lo ≤ a.toNat) (below : a.toNat + 8 * ws.length ≤ hi)
    (small : hi < 2 ^ 64) :
    ∃ m', Image.writeWords a ws m = .ok () m' ∧
      m.Changed m' a.toNat (a.toNat + 8 * ws.length) ∧
      ∀ k w, ws[k]? = some w → load m'.bytes (a.toNat + 8 * k) 8 = w := by
  induction ws generalizing a m lo with
  | nil => exact ⟨m, rfl, .refl .., by simp⟩
  | cons w ws ih =>
    rw [List.length_cons] at below ⊢
    have next : (a + 8).toNat = a.toNat + 8 := by
      rw [UInt64.toNat_add]
      exact Nat.mod_eq_of_lt (by change a.toNat + 8 < _; omega)
    have width : (8 : UInt64).toNat = 8 := rfl
    have isOpen : m.Open a 8 := clear.open above (by omega)
    obtain ⟨m', run, changed, words⟩ := ih (a + 8) (clear.put (a := a) (w := 8) (v := w))
      (by omega) (by omega)
    rw [next] at changed words
    refine ⟨m', (Vm.bind_ok isOpen.write).trans run, ?_, ?_⟩
    · exact ((Guarded.changed_put m a 8 w).mono (Nat.le_refl _) (by omega)).trans
        (changed.mono (by omega) (by omega))
    · intro k w' hk
      cases k with
      | zero =>
        cases hk
        rw [Nat.mul_zero, Nat.add_zero]
        exact ((changed.agrees (s := a.toNat) (.inl (Nat.le_refl _))).load (Nat.le_refl _)
          (Nat.le_refl _)).trans (Guarded.load_put isOpen)
      | succ k =>
        rw [← words k w' hk]
        congr 1
        omega

theorem getElem?_flatMap_of_length {α β : Type} {f : α → List β} {n j : Nat}
    (length : ∀ x, (f x).length = n) (hj : j < n) {l : List α} {k : Nat} {x : α}
    (hx : l[k]? = some x) : (l.flatMap f)[n * k + j]? = (f x)[j]? := by
  induction l generalizing k with
  | nil => cases hx
  | cons y l ih =>
    rw [List.flatMap_cons]
    cases k with
    | zero =>
      cases hx
      rw [Nat.mul_zero, Nat.zero_add, List.getElem?_append_left (by rw [length]; exact hj)]
    | succ k =>
      rw [List.getElem?_append_right (by rw [length, Nat.mul_succ]; omega), length,
        ← ih hx]
      congr 1
      rw [Nat.mul_succ]
      omega

theorem DispatchTable.getElem?_words {t : DispatchTable} (rows : t.rows.size = 256)
    (tos : TopOfStack) (byte : UInt8) :
    t.words[256 * tos.index + byte.toNat]? = some (t.get tos byte) := by
  have bound : byte.toNat < t.rows.size := rows ▸ byte.toNat_lt
  rw [words, getElem?_flatMap_of_length (x := tos) (fun _ => by simp [rows]) byte.toNat_lt
    (by cases tos <;> rfl)]
  simp [get, bound]

theorem Image.Generated.rows {s : Settings} {i : Image} (h : Image.Generated s i) :
    i.normalTable.rows.size = 256 := by
  obtain ⟨i₀, generated, -, table, -⟩ := h.image
  obtain ⟨parts, laid⟩ := Image.laid_of_generate generated h.pages
  rw [table, laid.normalTable, DispatchTable.ofOpcodes, Array.size_ofFn]

theorem Image.Armable.rows {s : Settings} {i : Image} (h : Image.Armable s i) :
    i.safepointTable.rows.size = 256 := by
  obtain ⟨i₀, generated, -⟩ := h.generated.image
  obtain ⟨parts, laid⟩ := Image.laid_of_generate generated h.generated.pages
  rw [h.safepointTable i₀ generated, laid.safepointTable, DispatchTable.ofOpcodes,
    Array.size_ofFn]

theorem Image.returns_length {s : Settings} {i : Image} (h : generate s = .ok i)
    (pages : s.shadowPages.toNat < 2 ^ 54) : (i.callReturns ++ i.siteReturns).length = 20 := by
  obtain ⟨parts, laid⟩ := laid_of_generate h pages
  obtain ⟨place, l, lay⟩ := laid.interpreter
  rw [laid.callReturns, laid.siteReturns]
  exact (placed_of_lays lay).returns

theorem DispatchTable.length_words {t : DispatchTable} (rows : t.rows.size = 256) :
    t.words.length = 2560 := by
  simp [words, TopOfStack.all, rows]

/-- The words of a table lie where the code looks for them. -/
def DispatchTable.In (t : DispatchTable) (m : Guarded) (base : UInt64) : Prop :=
  ∀ tos byte, load m.bytes (Place.dispatchSlot base tos byte).toNat 8 = t.get tos byte

namespace DispatchTable.In

variable {t : DispatchTable} {m m' : Guarded} {base base' : UInt64}

theorem agrees (h : t.In m base) (small : base.toNat + 0x5000 < 2 ^ 64)
    (ha : m.Agrees m' base.toNat (base.toNat + 0x5000)) : t.In m' base := by
  intro tos byte
  have slot := Activation.slot_toNat small tos byte
  have hb : byte.toNat < 256 := byte.toNat_lt
  have ht : tos.index < 10 := by cases tos <;> decide
  rw [ha.load (by omega) (by omega), h tos byte]

/-- A copy of a table has its words. -/
theorem copied (h : t.In m base) (small : base.toNat + 0x5000 < 2 ^ 64)
    (small' : base'.toNat + 0x5000 < 2 ^ 64) (same : ∀ k < 0x5000,
      Memory.byteAt m'.bytes (base'.toNat + k) = Memory.byteAt m.bytes (base.toNat + k)) :
    t.In m' base' := by
  have copied (n w : Nat) (inside : n + w ≤ 0x5000) :
      load m'.bytes (base'.toNat + n) w = load m.bytes (base.toNat + n) w := by
    induction w generalizing n with
    | zero => rfl
    | succ w ih => rw [load, load, same n (by omega), Nat.add_assoc, Nat.add_assoc,
        ih (n + 1) (by omega)]
  intro tos byte
  have slot := Activation.slot_toNat small tos byte
  have slot' := Activation.slot_toNat small' tos byte
  have hb : byte.toNat < 256 := byte.toNat_lt
  have ht : tos.index < 10 := by cases tos <;> decide
  rw [slot', copied _ _ (by omega), ← slot, h tos byte]

end DispatchTable.In

/-- Once its words are written, a table is found. -/
theorem DispatchTable.write_ok {t : DispatchTable} {m : Guarded} (base : UInt64) {lo hi : Nat}
    (rows : t.rows.size = 256) (clear : m.Clear lo hi) (above : lo ≤ base.toNat)
    (below : base.toNat + 0x5000 ≤ hi) (small : hi < 2 ^ 64) :
    ∃ m', Image.writeWords base t.words m = .ok () m' ∧
      m.Changed m' base.toNat (base.toNat + 0x5000) ∧ t.In m' base := by
  have length := DispatchTable.length_words rows
  obtain ⟨m', run, changed, words⟩ :=
    Image.writeWords_ok base t.words clear above (by omega) small
  rw [length] at changed
  refine ⟨m', run, changed, fun tos byte => ?_⟩
  rw [Activation.slot_toNat (by omega)]
  exact words _ _ (DispatchTable.getElem?_words rows tos byte)

end TemplateVm
