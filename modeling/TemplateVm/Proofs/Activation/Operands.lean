import TemplateVm.Proofs.Activation.Leaf

set_option autoImplicit false
set_option synthInstance.maxSize 100000

/-!
# Pushing and popping

The code that pushes the held value and the code that pops one do to the machine what pushing and
popping do to the operands.
-/
namespace TemplateVm

open Memory (Guarded load)
open Guest Emit

variable {P : Vm → Prop} {turns : Nat} {u v : Vm} {q q' : UInt64} {c : Cpu} {m m' : Guarded}
  {a : Activation} {b : Program} {bcp p p' : UInt64} {x : Contents} {place : CodeLabel → UInt64}
  {ctx : CodeContext} {inStub : Bool} {K S : List CodeLabel} {w : Value} {rest : List Value}
  {tos : TopOfStack}

namespace Stands

/-- Where the operands are. -/
theorem bounds (h : Stands a b bcp p x u c m) :
    a.low + 8 * b.maxStack ≤ p.toNat + 8 * depth x.stack ∧ depth x.stack ≤ b.maxStack ∧
      p.toNat + 8 * depth x.stack + 56 ≤ a.locals.toNat + 8 ∧
      a.locals.toNat + 8 < 2 ^ 64 ∧ 0x21000 ≤ a.low := by
  have f := h.fits
  have top := h.top
  have operands := f.operands
  have bounded := h.bounded
  have above := f.top
  have frame := f.frame
  have locals := f.locals
  have thread := f.thread
  have heap := f.heap
  have records := f.records
  omega

theorem push (h : Stands a b bcp p x u c m) (hp : p'.toNat + 8 * w.words = p.toNat)
    (room : depth x.stack + w.words ≤ b.maxStack) (hc : m.Changed m' p'.toNat p.toNat)
    (holds : w.In m' p'.toNat) :
    Stands a b bcp p' (x.push w) u (c.setReg .operands p') m' := by
  have bounds := h.bounds
  have below := h.below hc (by omega) (Nat.le_refl _)
  have depth_push : depth (x.push w).stack = w.words + depth x.stack := by
    simp [depth, Contents.push]
  exact { below with
    registers := below.registers.setOperands p'
    stack := ⟨holds, hp ▸ below.stack⟩
    top := by rw [depth_push, ← h.top]; omega
    bounded := by rw [depth_push]; omega }

theorem pop (h : Stands a b bcp p x u c m) (hx : x.stack = w :: rest)
    (hp : p'.toNat = p.toNat + 8 * w.words) :
    w.In m p.toNat ∧ Stands a b bcp p' { x with stack := rest } u (c.setReg .operands p') m := by
  have depth_cons : depth x.stack = w.words + depth rest := by simp [depth, hx]
  have stack := h.stack
  have top := h.top
  have bounded := h.bounded
  rw [hx] at stack
  exact ⟨stack.1, { h with
    registers := h.registers.setOperands p'
    stack := hp ▸ stack.2
    top := by change p'.toNat + 8 * depth rest = _; omega
    bounded := by change depth rest ≤ _; omega }⟩

end Stands

/-! ## Values that are written -/

namespace Value

variable {k : UInt64} {n : Int32} {bits : UInt32}

theorem int_in_put (ok : m.Open k 8) (n : Int32) :
    (Value.int n).In (m.put k 8 n.toInt64.toUInt64) k.toNat := by
  change load _ _ 4 = _
  rw [Memory.load_word_of_double, Guarded.load_put ok, toUInt32_toInt64]

theorem long_in_put (ok : m.Open k 8) (n : Int64) :
    (Value.long n).In (m.put k 8 n.toUInt64) k.toNat := Guarded.load_put ok

theorem object_in_put (ok : m.Open k 8) (r : UInt64) :
    (Value.object r).In (m.put k 8 r) k.toNat := Guarded.load_put ok

theorem double_in_put (ok : m.Open k 8) (bits : UInt64) :
    (Value.double bits).In (m.put k 8 bits) k.toNat := Guarded.load_put ok

theorem float_in_put (ok : m.Open k 4) {word : UInt64} (h : word.toUInt32 = bits) :
    (Value.float bits).In (m.put k 4 word) k.toNat := by
  change load _ _ 4 = _
  rw [Guarded.load_put_word ok, h]

end Value

/-! ## Values that are loaded -/

namespace Value

theorem In.int {n : Int32} {k : Nat} (h : (Value.int n).In m k) :
    Width.word.signExtend (load m.bytes k 4) = n.toInt64.toUInt64 := by
  rw [show load m.bytes k 4 = n.toUInt32.toUInt64 from h, signExtend_word]

theorem In.float {bits : UInt32} {k : Nat} (h : (Value.float bits).In m k) :
    (load m.bytes k 4).toUInt32 = bits := by
  rw [show load m.bytes k 4 = bits.toUInt64 from h]
  simp

end Value

namespace Stands

/-- A value that is stored below the operands is pushed. -/
theorem stored (h : Stands a b bcp p x u c m) (n k word : UInt64) (size : n.toNat = 8 * w.words)
    (width : k.toNat ≤ n.toNat) (room : depth x.stack + w.words ≤ b.maxStack)
    (holds : m.Open (p + -n) k → w.In (m.put (p + -n) k word) (p + -n).toNat) :
    m.Open (p + -n) k ∧ Stands a b bcp (p + -n) (x.push w) u (c.setReg .operands (p + -n))
      (m.put (p + -n) k word) ∧ m.Changed (m.put (p + -n) k word) a.low p.toNat := by
  have bounds := h.bounds
  have address : (p + -n).toNat = p.toNat - n.toNat := toNat_add_neg (by omega)
  have ok : m.Open (p + -n) k := h.fits.clearStack.open (by omega) (by omega)
  have changed := Guarded.changed_put m (p + -n) k word
  refine ⟨ok, h.push (by omega) room ?_ (holds ok), changed.mono (by omega) (by omega)⟩
  exact changed.mono (Nat.le_refl _) (by omega)

/-- The topmost value can be loaded, and is popped if the operands are moved behind it. -/
theorem loaded_top (h : Stands a b bcp p x u c m) (hx : x.stack = w :: rest) (n : UInt64)
    (size : n.toNat = 8 * w.words) : (∀ k : UInt64, k.toNat ≤ n.toNat → m.Open p k) ∧
      w.In m p.toNat ∧
      Stands a b bcp (p + n) { x with stack := rest } u (c.setReg .operands (p + n)) m := by
  have bounds := h.bounds
  have depth_cons : depth x.stack = w.words + depth rest := by simp [depth, hx]
  have address : (p + n).toNat = p.toNat + n.toNat := toNat_add_of_lt (by omega)
  obtain ⟨holds, popped⟩ := h.pop hx (show (p + n).toNat = p.toNat + 8 * w.words by omega)
  exact ⟨fun k hk => h.fits.clearStack.open (by omega) (by omega), holds, popped⟩

/-- A word is pushed. -/
theorem runStore {r : Register} {n : UInt64} (h : Stands a b bcp p x u c m)
    (i : v.image.code.Fetches q (.store r (.pre .operands (-n)) .double))
    (size : n.toNat = 8 * w.words) (width : 8 ≤ n.toNat)
    (holds : ∀ k, m.Open k 8 → w.In (m.put k 8 (c.reg r)) k.toNat)
    (room : depth x.stack + w.words ≤ b.maxStack)
    (next : ∀ m', Stands a b bcp (p + -n) (x.push w) u (c.setReg .operands (p + -n)) m' →
      m.Changed m' a.low p.toNat →
      Vm.Arrives P turns (v.moved (q + 4) (c.setReg .operands (p + -n)) m')) :
    Vm.Arrives P (turns + 1) (v.moved q c m) := by
  have operands := h.registers.operands
  obtain ⟨ok, pushed, changed⟩ := h.stored n 8 (c.reg r) size width room (holds _)
  refine .store i ?_ ?_
  · rw [Cpu.target_pre, operands]
    exact ok
  · rw [Cpu.target_pre, Cpu.rebase_pre, operands]
    exact next _ pushed changed

/-- The bits of a float register are pushed. -/
theorem runStoreFloat {r : FloatRegister} {k : Precision} {n : UInt64}
    (h : Stands a b bcp p x u c m)
    (i : v.image.code.Fetches q (.storeFloat r (.pre .operands (-n)) k))
    (size : n.toNat = 8 * w.words) (width : k.bytes.toNat ≤ n.toNat)
    (holds : ∀ k', m.Open k' k.bytes → w.In (m.put k' k.bytes (c.float r)) k'.toNat)
    (room : depth x.stack + w.words ≤ b.maxStack)
    (next : ∀ m', Stands a b bcp (p + -n) (x.push w) u (c.setReg .operands (p + -n)) m' →
      m.Changed m' a.low p.toNat →
      Vm.Arrives P turns (v.moved (q + 4) (c.setReg .operands (p + -n)) m')) :
    Vm.Arrives P (turns + 1) (v.moved q c m) := by
  have operands := h.registers.operands
  obtain ⟨ok, pushed, changed⟩ := h.stored n k.bytes (c.float r) size width room (holds _)
  refine .storeFloat i ?_ ?_
  · rw [Cpu.target_pre, operands]
    exact ok
  · rw [Cpu.target_pre, Cpu.rebase_pre, operands]
    exact next _ pushed changed

/-- The held value is pushed. -/
theorem runPush (h : Stands a b bcp p x u c m)
    (lay : Lays ⟨v.image.code, place⟩ ctx inStub K S (Emit.push tos) q q' ())
    (roomy : a.Roomy ctx.settings b.maxStack) (held : w.Held c tos)
    (valid : ∀ r, w = .object r → r = 0 ∨ v.world.store.heap.isObject r = true)
    (room : depth x.stack + w.words ≤ b.maxStack)
    (next : ∀ p' c' m', Stands a b bcp p' (x.push w) u c' m' → m.Changed m' a.low p.toNat →
      Vm.Arrives P turns (v.moved q' c' m')) : Vm.Arrives P (turns + 6) (v.moved q c m) := by
  unfold Value.Held at held
  split at held
  case h_1 | h_2 | h_3 | h_4 | h_5 =>
    obtain ⟨i, rfl⟩ := Lays.emit (i := .store .x0 (.pre .operands (-8)) .double) lay
    exact (h.runStore i rfl (by decide) (fun k ok => held ▸ Value.int_in_put ok _) room
      fun _ => next _ _ _).le (by omega)
  case h_6 =>
    obtain ⟨i, rfl⟩ := Lays.emit (i := .store .x0 (.pre .operands (-16)) .double) lay
    exact (h.runStore i rfl (by decide) (fun k ok => held ▸ Value.long_in_put ok _) room
      fun _ => next _ _ _).le (by omega)
  case h_7 =>
    obtain ⟨i, rfl⟩ := Lays.emit (i := .storeFloat .v0 (.pre .operands (-8)) .single) lay
    exact (h.runStoreFloat i rfl (by decide) (fun k ok => Value.float_in_put ok held) room
      fun _ => next _ _ _).le (by omega)
  case h_8 =>
    obtain ⟨i, rfl⟩ := Lays.emit (i := .storeFloat .v0 (.pre .operands (-16)) .double) lay
    exact (h.runStoreFloat i rfl (by decide) (fun k ok => held ▸ Value.double_in_put ok _) room
      fun _ => next _ _ _).le (by omega)
  case h_9 r =>
    obtain ⟨⟨⟩, q₁, lay₁, lay⟩ :=
      Lays.split (m := Emit.verifyReference .x0) (f := fun _ => Emit.pushWord .x0) lay
    refine h.verifyReference lay₁ roomy (held ▸ valid r rfl) fun c' m' h same _ changed => ?_
    obtain ⟨i, rfl⟩ := Lays.emit (i := .store .x0 (.pre .operands (-8)) .double) lay
    have held : c'.reg .x0 = r := (same _ (by decide)).trans held
    exact h.runStore i rfl (by decide) (fun k ok => held ▸ Value.object_in_put ok _) room
      fun _ h changed' => next _ _ _ h (changed.trans changed')
  case h_10 => exact held.elim

/-- A word is popped. -/
theorem runLoad {r : Register} {n : UInt64} (h : Stands a b bcp p x u c m)
    (hx : x.stack = w :: rest)
    (i : v.image.code.Fetches q (.load r (.post .operands n) .double false))
    (size : n.toNat = 8 * w.words) (width : 8 ≤ n.toNat) (free : r.isFixed = false)
    (next : Stands a b bcp (p + n) { x with stack := rest } u
        ((c.setReg .operands (p + n)).setReg r (load m.bytes p.toNat 8)) m →
      w.In m p.toNat → Vm.Arrives P turns (v.moved (q + 4)
        ((c.setReg .operands (p + n)).setReg r (load m.bytes p.toNat 8)) m)) :
    Vm.Arrives P (turns + 1) (v.moved q c m) := by
  have operands := h.registers.operands
  obtain ⟨ok, holds, popped⟩ := h.loaded_top hx n size
  refine .load i ?_ ?_
  · rw [Cpu.target_post, operands]
    exact ok _ width
  · rw [Cpu.target_post, Cpu.rebase_post, operands]
    exact next (popped.setReg r _ free) holds

/-- An int is popped. -/
theorem runLoadInt {r : Register} {n : Int32} (h : Stands a b bcp p x u c m)
    (hx : x.stack = .int n :: rest)
    (i : v.image.code.Fetches q (.load r (.post .operands 8) .word true))
    (free : r.isFixed = false)
    (next : Stands a b bcp (p + 8) { x with stack := rest } u
        ((c.setReg .operands (p + 8)).setReg r n.toInt64.toUInt64) m →
      Vm.Arrives P turns
        (v.moved (q + 4) ((c.setReg .operands (p + 8)).setReg r n.toInt64.toUInt64) m)) :
    Vm.Arrives P (turns + 1) (v.moved q c m) := by
  have operands := h.registers.operands
  obtain ⟨ok, holds, popped⟩ := h.loaded_top hx 8 rfl
  have word : Width.word.signExtend (load m.bytes p.toNat Width.word.bytes.toNat) =
    n.toInt64.toUInt64 := holds.int
  refine .loadSigned i ?_ ?_
  · rw [Cpu.target_post, operands]
    exact ok _ (by decide)
  · rw [Cpu.target_post, Cpu.rebase_post, operands, word]
    exact next (popped.setReg r _ free)

/-- The bits of a float register are popped. -/
theorem runLoadFloat {r : FloatRegister} {k : Precision} {n : UInt64}
    (h : Stands a b bcp p x u c m) (hx : x.stack = w :: rest)
    (i : v.image.code.Fetches q (.loadFloat r (.post .operands n) k))
    (size : n.toNat = 8 * w.words) (width : k.bytes.toNat ≤ n.toNat)
    (next : Stands a b bcp (p + n) { x with stack := rest } u
        ((c.setReg .operands (p + n)).setFloat r (load m.bytes p.toNat k.bytes.toNat)) m →
      w.In m p.toNat → Vm.Arrives P turns (v.moved (q + 4)
        ((c.setReg .operands (p + n)).setFloat r (load m.bytes p.toNat k.bytes.toNat)) m)) :
    Vm.Arrives P (turns + 1) (v.moved q c m) := by
  have operands := h.registers.operands
  obtain ⟨ok, holds, popped⟩ := h.loaded_top hx n size
  refine .loadFloat i ?_ ?_
  · rw [Cpu.target_post, operands]
    exact ok _ width
  · rw [Cpu.target_post, Cpu.rebase_post, operands]
    exact next (popped.setFloat r _) holds

/-- A value is popped and held. -/
theorem runPop (h : Stands a b bcp p x u c m) (hx : x.stack = w :: rest)
    (lay : Lays ⟨v.image.code, place⟩ ctx inStub K S (Emit.pop tos) q q' ())
    (roomy : a.Roomy ctx.settings b.maxStack) (kind : (Cell.ofValue? tos w).isSome)
    (valid : ∀ r, w = .object r → r = 0 ∨ v.world.store.heap.isObject r = true)
    (next : ∀ p' c' m', Stands a b bcp p' { x with stack := rest } u c' m' → w.Held c' tos →
      (∀ r, r ≠ .x0 → r ≠ .scratch1 → r ≠ .operands → c'.reg r = c.reg r) →
      m.Changed m' a.low p'.toNat → Vm.Arrives P turns (v.moved q' c' m')) :
    Vm.Arrives P (turns + 6) (v.moved q c m) := by
  have other (r : Register) (n n' : UInt64) (h₀ : r ≠ .x0) (h₁ : r ≠ .operands) :
      ((c.setReg .operands n).setReg .x0 n').reg r = c.reg r := by
    rw [Cpu.reg_setReg_ne _ _ h₀, Cpu.reg_setReg_ne _ _ h₁]
  have own (n n' : UInt64) : ((c.setReg .operands n).setReg .x0 n').reg .x0 = n' :=
    Cpu.reg_setReg_self _ _ (by decide)
  unfold Cell.ofValue? at kind
  split at kind
  case h_1 | h_2 | h_3 | h_4 | h_5 =>
    obtain ⟨i, rfl⟩ := Lays.emit (i := .load .x0 (.post .operands 8) .word true) lay
    exact h.runLoadInt hx i rfl fun popped =>
      (next _ _ _ popped (own _ _) (fun r h₀ _ h₁ => other r _ _ h₀ h₁) (.refl m _ _)).le (by omega)
  case h_6 =>
    obtain ⟨i, rfl⟩ := Lays.emit (i := .load .x0 (.post .operands 16) .double false) lay
    exact h.runLoad hx i rfl (by decide) rfl fun popped holds =>
      .le (next _ _ _ popped ((own _ _).trans holds) (fun r h₀ _ h₁ => other r _ _ h₀ h₁)
        (.refl m _ _)) (by omega)
  case h_7 =>
    obtain ⟨i, rfl⟩ := Lays.emit (i := .loadFloat .v0 (.post .operands 8) .single) lay
    refine h.runLoadFloat hx i rfl (by decide) fun popped holds =>
      (next _ _ _ popped ?_ ?_ (.refl m _ _)).le (by omega)
    · rw [Value.Held, Cpu.float_setFloat, if_pos rfl]
      exact holds.float
    · exact fun r _ _ h₁ => Cpu.reg_setReg_ne _ _ h₁
  case h_8 =>
    obtain ⟨i, rfl⟩ := Lays.emit (i := .loadFloat .v0 (.post .operands 16) .double) lay
    refine h.runLoadFloat hx i rfl (by decide) fun popped holds =>
      (next _ _ _ popped ?_ ?_ (.refl m _ _)).le (by omega)
    · rw [Value.Held, Cpu.float_setFloat, if_pos rfl]
      exact holds
    · exact fun r _ _ h₁ => Cpu.reg_setReg_ne _ _ h₁
  case h_9 r =>
    obtain ⟨⟨⟩, q₁, lay₁, lay⟩ := Lays.split (m := Emit.popWord .x0)
      (f := fun _ => Emit.verifyReference .x0) lay
    obtain ⟨i, rfl⟩ := Lays.emit (i := .load .x0 (.post .operands 8) .double false) lay₁
    refine h.runLoad hx i rfl (by decide) rfl fun popped holds => ?_
    have held := (own (p + 8) (load m.bytes p.toNat 8)).trans holds
    refine popped.verifyReference lay roomy (held ▸ valid r rfl) fun c' m' h same _ changed => ?_
    exact next _ _ _ h ((same _ (by decide)).trans held)
      (fun r h₀ h₁ h₂ => (same r h₁).trans (other r _ _ h₀ h₂)) changed
  case h_10 => cases kind

end Stands
end TemplateVm
