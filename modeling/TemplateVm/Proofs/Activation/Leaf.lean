import TemplateVm.Proofs.Activation.Changes
import TemplateVm.Proofs.Layout.Code

set_option autoImplicit false
set_option synthInstance.maxSize 100000

/-!
# Checked references

The service that checks references lets null and every object pass, and the code that calls it
gives all registers back. What is saved below the stack pointer of the machine is found there again.
-/
namespace TemplateVm

open Memory (Guarded load)
open Guest Emit

namespace Vm

variable {P : Vm → Prop} {turns : Nat} {v : Vm} {p q : UInt64} {c : Cpu} {m : Guarded}

theorem serve_leaf {s : Service} {vm vm' : Vm} (leaf : s.isLeaf = true)
    (performed : perform s vm = .ok () vm') :
    serve s vm = goTo (vm'.processor.cpu.reg .link) vm' := by
  unfold serve
  simp only [leaf, Bool.not_true, Bool.false_eq_true, ↓reduceIte]
  exact (bind_ok performed).trans (bind_ok (m := reg .link) rfl)

/-- A leaf that changes nothing returns to the link register. -/
theorem Arrives.leaf {s : Service} (leaf : s.isLeaf = true)
    (performed : ∀ steps watched, perform s ((v.moved s.address c m).counted steps watched) =
      .ok () ((v.moved s.address c m).counted steps watched))
    (h : Arrives P turns (v.moved (c.reg .link) c m)) :
    Arrives P (turns + 1) (v.moved s.address c m) := by
  refine .service (w := v.moved (c.reg .link) c m) (fun steps watched => ?_)
    ⟨fun quiet => quiet, rfl, rfl⟩ h
  rw [serve_leaf leaf (performed steps watched)]
  rfl

/-- A register is set by the runtime. -/
theorem setReg_ok {r : Register} {n : UInt64} (steps : UInt64) (watched : List (UInt64 × UInt64)) :
    setReg r n ((v.moved p c m).counted steps watched) =
      .ok () ((v.moved p (c.setReg r n) m).counted steps watched) := by
  refine congrArg (EStateM.Result.ok ()) ?_
  simp only [moved, counted, Cpu.setReg_pc]

/-- A leaf whose result is in the first register returns to the link register, whatever else it
    does. -/
theorem Arrives.leafAnswer {w : Vm} {m' : Guarded} {s : Service} {n : UInt64}
    (leaf : s.isLeaf = true)
    (performed : ∀ steps watched, perform s ((v.moved s.address c m).counted steps watched) =
      setReg .x0 n ((w.moved s.address c m').counted steps watched)) (abides : v.Abides w)
    (h : Arrives P turns (w.moved (c.reg .link) (c.setReg .x0 n) m')) :
    Arrives P (turns + 1) (v.moved s.address c m) := by
  refine .service (w := w.moved (c.reg .link) (c.setReg .x0 n) m') (fun steps watched => ?_)
    abides.moved h
  rw [serve_leaf leaf ((performed steps watched).trans (setReg_ok steps watched))]
  have link : (c.setReg .x0 n).reg .link = c.reg .link := Cpu.reg_setReg_ne _ _ (by decide)
  have linked : ((w.moved s.address (c.setReg .x0 n) m').counted steps watched).processor.cpu.reg
      .link = (c.setReg .x0 n).reg .link := rfl
  rw [linked, link]
  rfl

/-- A leaf that does nothing else. -/
theorem Arrives.leafResult {s : Service} {n : UInt64} (leaf : s.isLeaf = true)
    (performed : ∀ steps watched, perform s ((v.moved s.address c m).counted steps watched) =
      setReg .x0 n ((v.moved s.address c m).counted steps watched))
    (h : Arrives P turns (v.moved (c.reg .link) (c.setReg .x0 n) m)) :
    Arrives P (turns + 1) (v.moved s.address c m) :=
  .leafAnswer leaf performed ⟨fun quiet => quiet, rfl, rfl⟩ h

theorem serve_verifyReference (ok : c.reg .x0 = 0 ∨ v.world.store.heap.isObject (c.reg .x0) = true)
    (steps : UInt64) (watched : List (UInt64 × UInt64)) :
    serve .verifyReference ((v.moved p c m).counted steps watched) =
      .ok () ((v.moved (c.reg .link) c m).counted steps watched) := by
  have checked : perform .verifyReference ((v.moved p c m).counted steps watched) =
      .ok () ((v.moved p c m).counted steps watched) := by
    have passes : (c.reg .x0 ≠ 0 ∧ !v.world.store.heap.isObject (c.reg .x0)) = False := by
      rcases ok with ok | ok <;> simp [ok]
    change verifyReference (c.reg .x0) (c.reg .link) _ = _
    unfold Vm.verifyReference
    refine (bind_ok (m := (get : Action Vm)) rfl).trans ?_
    have heap : ((v.moved p c m).counted steps watched).world.store.heap = v.world.store.heap := rfl
    simp only [heap, passes, ↓reduceIte]
    rfl
  exact (serve_leaf rfl checked).trans rfl

section
variable {q' : UInt64} {place : CodeLabel → UInt64} {ctx : CodeContext} {inStub : Bool}
  {K S : List CodeLabel}

/-- A checked reference is in its register again afterwards, and so is all else. Two words below the
    stack pointer are written. -/
theorem Arrives.verifyReference (sp : UInt64)
    (lay : Lays ⟨v.image.code, place⟩ ctx inStub K S (Emit.verifyReference .x0) q q' ())
    (stack : ctx.settings.verifyReferences = true →
      c.reg .sp = sp + 16 ∧ m.Clear sp.toNat (sp.toNat + 16) ∧ sp.toNat + 16 ≤ 2 ^ 64)
    (ok : ctx.settings.verifyReferences = true →
      c.reg .x0 = 0 ∨ v.world.store.heap.isObject (c.reg .x0) = true)
    (next : ∀ c' m', (∀ r, r ≠ .scratch1 → c'.reg r = c.reg r) → (∀ f, c'.float f = c.float f) →
      (m' = m ∨ ctx.settings.verifyReferences = true ∧ m.Changed m' sp.toNat (sp.toNat + 16)) →
      Arrives P turns (v.moved q' c' m')) : Arrives P (turns + 5) (v.moved q c m) := by
  unfold Emit.verifyReference at lay
  replace lay := lay.settings_bind
  by_cases on : ctx.settings.verifyReferences = true
  · replace lay := lay.ite_pos on
    obtain ⟨i₁, lay⟩ := lay.emit_bind
    replace lay := lay.ite_neg (by decide)
    obtain ⟨i₂, lay⟩ := lay.emit_bind
    obtain ⟨i₃, lay⟩ := lay.emit_bind
    obtain ⟨i₄, rfl⟩ := lay.emit
    obtain ⟨above, clear, bound⟩ := stack on
    have eight : (8 : UInt64).toNat = 8 := rfl
    have second : (sp + 8).toNat = sp.toNat + 8 := toNat_add_of_lt (by omega)
    refine .pushPair i₁ above clear (Nat.le_refl _) (Nat.le_refl _) bound fun m' changed first last =>
      .movImm i₂ (.callTo i₃ ?_)
    rw [Cpu.reg_setReg_self _ _ (by decide)]
    refine .service (serve_verifyReference ?_) ⟨fun quiet => quiet, rfl, rfl⟩ ?_
    · simpa +decide only [Cpu.reg_setReg, ↓reduceIte] using ok on
    rw [Cpu.reg_setReg_self _ _ (by decide)]
    generalize hc : Cpu.setReg _ .link _ = c₁
    have pointer : c₁.reg .sp = sp := by
      rw [← hc]
      simp +decide only [Cpu.reg_setReg, ↓reduceIte]
    have clear' := clear.changed changed
    refine .loadPair i₄ ?_ ?_ (next _ m' ?_ ?_ (.inr ⟨on, changed⟩))
    · rw [Cpu.target_post, pointer]
      exact clear'.open (Nat.le_refl _) (by omega)
    · rw [Cpu.target_post, pointer]
      exact clear'.open (by omega) (by omega)
    · intro r hr
      rw [Cpu.target_post, Cpu.rebase_post, pointer, second, first, last, ← hc, ← above]
      have zero := c.reg_zero
      grind [Cpu.reg_setReg]
    · intro f
      rw [← hc]
      simp
  · replace lay := lay.ite_neg on
    obtain ⟨rfl, -⟩ := lay.ended
    exact (next c m (fun _ _ => rfl) (fun _ => rfl) (.inl rfl)).le (by omega)

end

end Vm

namespace Stands

variable {P : Vm → Prop} {turns : Nat} {u v : Vm} {q q' : UInt64} {c : Cpu} {m : Guarded}
  {a : Activation} {b : Program} {bcp p : UInt64} {x : Contents} {place : CodeLabel → UInt64}
  {ctx : CodeContext} {inStub : Bool} {K S : List CodeLabel}

/-- Two words below the stack pointer of the machine. -/
theorem room (h : Stands a b bcp p x u c m) {s : Settings} (roomy : a.Roomy s b.maxStack)
    (uses : s.usesStack = true) {k : UInt64} (hk : k.toNat ≤ 32) :
    (a.sp + -k).toNat = a.sp.toNat - k.toNat ∧ a.low + 32 ≤ a.sp.toNat ∧
      a.sp.toNat ≤ p.toNat ∧ a.sp.toNat ≤ a.locals.toNat + 8 := by
  obtain ⟨low, high⟩ := roomy uses
  have top := h.top
  have bounded := h.bounded
  have frame := h.fits.frame
  have above := h.fits.top
  exact ⟨toNat_add_neg (by omega), low, by omega, by omega⟩

/-- Two words are saved below the stack pointer of the machine. -/
theorem runSavePair (h : Stands a b bcp p x u c m) {r₁ r₂ : Register}
    (i : v.image.code.Fetches q (.storePair r₁ r₂ (.pre .sp (-16))))
    (low : a.low + 16 ≤ a.sp.toNat) (high : a.sp.toNat ≤ p.toNat)
    (top : a.sp.toNat ≤ a.locals.toNat + 8)
    (next : ∀ m', (a.sp + -16).toNat = a.sp.toNat - 16 →
      Stands { a with sp := a.sp + -16 } b bcp p x u (c.setReg .sp (a.sp + -16)) m' →
      load m'.bytes (a.sp.toNat - 16) 8 = c.reg r₁ → load m'.bytes (a.sp.toNat - 8) 8 = c.reg r₂ →
      m.Changed m' (a.sp.toNat - 16) a.sp.toNat →
      Vm.Arrives P turns (v.moved (q + 4) (c.setReg .sp (a.sp + -16)) m')) :
    Vm.Arrives P (turns + 1) (v.moved q c m) := by
  have sixteen : (16 : UInt64).toNat = 16 := rfl
  have bound := a.sp.toNat_lt
  have first : (a.sp + -16).toNat = a.sp.toNat - 16 := toNat_add_neg (by omega)
  have sp : c.reg .sp = a.sp + -16 + 16 := by
    rw [h.registers.sp, UInt64.add_assoc]
    exact (UInt64.add_zero a.sp).symm
  refine .pushPair i sp h.fits.clearStack (by omega) (by omega) (by omega)
    fun m' changed below above => ?_
  rw [first] at changed below above
  rw [show a.sp.toNat - 16 + 16 = a.sp.toNat by omega] at changed
  rw [show a.sp.toNat - 16 + 8 = a.sp.toNat - 8 by omega] at above
  exact next m' first ((h.below changed (by omega) high).moveSp _) below above changed

/-- Two words that are saved are in registers again. -/
theorem runRestorePair {n₁ n₂ : UInt64}
    (h : Stands { a with sp := a.sp + -16 } b bcp p x u c m) {r₁ r₂ : Register}
    (i : v.image.code.Fetches q (.loadPair r₁ r₂ (.post .sp 16)))
    (low : a.low + 16 ≤ a.sp.toNat) (top : a.sp.toNat ≤ a.locals.toNat + 8)
    (holds₁ : load m.bytes (a.sp.toNat - 16) 8 = n₁)
    (holds₂ : load m.bytes (a.sp.toNat - 8) 8 = n₂)
    (free : r₁.isFixed = false ∧ r₂.isFixed = false)
    (next : Stands a b bcp p x u (((c.setReg .sp a.sp).setReg r₁ n₁).setReg r₂ n₂) m →
      Vm.Arrives P turns (v.moved (q + 4) (((c.setReg .sp a.sp).setReg r₁ n₁).setReg r₂ n₂) m)) :
    Vm.Arrives P (turns + 1) (v.moved q c m) := by
  have sixteen : (16 : UInt64).toNat = 16 := rfl
  have eight : (8 : UInt64).toNat = 8 := rfl
  have bound := a.sp.toNat_lt
  have first : (a.sp + -16).toNat = a.sp.toNat - 16 := toNat_add_neg (by omega)
  have second : (a.sp + -16 + 8).toNat = a.sp.toNat - 8 := by
    rw [toNat_add_of_lt (by omega)]
    omega
  have sp : c.reg .sp = a.sp + -16 := h.registers.sp
  have clear : m.Clear a.low (a.locals.toNat + 8) := h.fits.clearStack
  have back : a.sp + -16 + 16 = a.sp := by
    rw [UInt64.add_assoc]
    exact UInt64.add_zero _
  refine .loadPair i ?_ ?_ ?_
  · rw [Cpu.target_post, sp]
    exact clear.open (by omega) (by omega)
  · rw [Cpu.target_post, sp]
    exact clear.open (by omega) (by omega)
  rw [Cpu.target_post, Cpu.rebase_post, sp, first, second, holds₁, holds₂, back]
  exact next (((h.moveSp a.sp).setReg r₁ n₁ free.1).setReg r₂ n₂ free.2)

/-- A float is saved below the stack pointer of the machine. -/
theorem runSaveFloat (h : Stands a b bcp p x u c m) {f : FloatRegister}
    (i : v.image.code.Fetches q (.storeFloat f (.pre .sp (-16)) .double))
    (low : a.low + 16 ≤ a.sp.toNat) (high : a.sp.toNat ≤ p.toNat)
    (top : a.sp.toNat ≤ a.locals.toNat + 8)
    (next : ∀ m', (a.sp + -16).toNat = a.sp.toNat - 16 →
      Stands { a with sp := a.sp + -16 } b bcp p x u (c.setReg .sp (a.sp + -16)) m' →
      load m'.bytes (a.sp.toNat - 16) 8 = c.float f →
      m.Changed m' (a.sp.toNat - 16) (a.sp.toNat - 8) →
      Vm.Arrives P turns (v.moved (q + 4) (c.setReg .sp (a.sp + -16)) m')) :
    Vm.Arrives P (turns + 1) (v.moved q c m) := by
  have sixteen : (16 : UInt64).toNat = 16 := rfl
  have eight : (8 : UInt64).toNat = 8 := rfl
  have address : (a.sp + -16).toNat = a.sp.toNat - 16 := toNat_add_neg (by omega)
  have ok : m.Open (a.sp + -16) 8 := h.fits.clearStack.open (by omega) (by omega)
  refine .storeFloat i ?_ ?_
  · rw [Cpu.target_pre, h.registers.sp]
    exact ok
  rw [Cpu.target_pre, Cpu.rebase_pre, h.registers.sp]
  have changed := (Guarded.changed_put m (a.sp + -16) 8 (c.float f))
  have holds := Guarded.load_put (v := c.float f) ok
  rw [address] at holds
  rw [address, show a.sp.toNat - 16 + (8 : UInt64).toNat = a.sp.toNat - 8 by omega] at changed
  exact next _ address ((h.below changed (by omega) (by omega)).moveSp _) holds changed

/-- A float that is saved is in its register again. -/
theorem runRestoreFloat {n : UInt64} (h : Stands { a with sp := a.sp + -16 } b bcp p x u c m)
    {f : FloatRegister} (i : v.image.code.Fetches q (.loadFloat f (.post .sp 16) .double))
    (low : a.low + 16 ≤ a.sp.toNat) (top : a.sp.toNat ≤ a.locals.toNat + 8)
    (holds : load m.bytes (a.sp.toNat - 16) 8 = n)
    (next : Stands a b bcp p x u ((c.setReg .sp a.sp).setFloat f n) m →
      Vm.Arrives P turns (v.moved (q + 4) ((c.setReg .sp a.sp).setFloat f n) m)) :
    Vm.Arrives P (turns + 1) (v.moved q c m) := by
  have sixteen : (16 : UInt64).toNat = 16 := rfl
  have address : (a.sp + -16).toNat = a.sp.toNat - 16 := toNat_add_neg (by omega)
  have sp : c.reg .sp = a.sp + -16 := h.registers.sp
  have clear : m.Clear a.low (a.locals.toNat + 8) := h.fits.clearStack
  have back : a.sp + -16 + 16 = a.sp := by
    rw [UInt64.add_assoc]
    exact UInt64.add_zero _
  refine .loadFloat i ?_ ?_
  · rw [Cpu.target_post, sp]
    exact clear.open (by omega) (by change _ + 8 ≤ _; omega)
  rw [Cpu.target_post, Cpu.rebase_post, sp, address, back]
  change Vm.Arrives P _ (v.moved _ (Cpu.setFloat _ f (load m.bytes (a.sp.toNat - 16) 8)) m)
  rw [holds]
  exact next ((h.moveSp a.sp).setFloat f n)

/-- A checked reference is in its register again afterwards, and so is all else. -/
theorem verifyReference (h : Stands a b bcp p x u c m)
    (lay : Lays ⟨v.image.code, place⟩ ctx inStub K S (Emit.verifyReference .x0) q q' ())
    (roomy : a.Roomy ctx.settings b.maxStack)
    (ok : c.reg .x0 = 0 ∨ v.world.store.heap.isObject (c.reg .x0) = true)
    (next : ∀ c' m', Stands a b bcp p x u c' m' →
      (∀ r, r ≠ .scratch1 → c'.reg r = c.reg r) → (∀ f, c'.float f = c.float f) →
      m.Changed m' a.low p.toNat → Vm.Arrives P turns (v.moved q' c' m')) :
    Vm.Arrives P (turns + 5) (v.moved q c m) := by
  have room (on : ctx.settings.verifyReferences = true) :=
    h.room roomy (by simp [Settings.usesStack, on]) (k := 16) (by decide)
  have sixteen : (16 : UInt64).toNat = 16 := rfl
  have bound := a.sp.toNat_lt
  refine Vm.Arrives.verifyReference (a.sp + -16) lay (fun on => ?_) (fun _ => ok)
    fun c' m' same floats wrote => ?_
  · obtain ⟨first, low, -, top⟩ := room on
    refine ⟨?_, h.fits.clearStack.mono (by omega) (by omega), by omega⟩
    rw [h.registers.sp, UInt64.add_assoc]
    exact (UInt64.add_zero a.sp).symm
  have changed : m.Changed m' a.low p.toNat := by
    rcases wrote with rfl | ⟨on, changed⟩
    · exact .refl ..
    · obtain ⟨first, low, high, -⟩ := room on
      exact changed.mono (by omega) (by omega)
  have stands := h.below changed (Nat.le_refl _) (Nat.le_refl _)
  refine next c' m' { stands with registers := stands.registers.congr fun r fixed => same r ?_ }
    same floats changed
  rintro rfl
  cases fixed

end Stands
end TemplateVm
