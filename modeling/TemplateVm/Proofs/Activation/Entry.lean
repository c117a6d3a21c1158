import TemplateVm.Proofs.Activation.Tracing
import TemplateVm.Proofs.Layout.Entries

set_option autoImplicit false
set_option synthInstance.maxSize 100000

/-!
# Entering a template

Whatever state the topmost operand is in, the entry for it leads to the template with the operand
as the template takes it.
-/
namespace TemplateVm

open Memory (Guarded load)
open Guest Emit

variable {P : Vm → Prop} {turns : Nat} {v : Vm} {q q' r : UInt64} {c : Cpu} {m m' : Guarded}
  {a : Activation} {b : Program} {bcp p : UInt64} {x : Contents} {place : CodeLabel → UInt64}
  {ctx : CodeContext} {inStub : Bool} {K S : List CodeLabel} {tos tosIn : TopOfStack}
  {entry trace : EntryPoint} {w : Value} {rest : List Value}

/-- References that the heap knows pass the check for objects. -/
theorem Stands.known (h : Stands a b bcp p x v c m) {r : UInt64} (known : x.heap.Knows r) :
    r = 0 ∨ v.world.store.heap.isObject r = true := by
  refine known.imp_right fun some => ?_
  obtain ⟨o, ho⟩ := Option.isSome_iff_exists.mp some
  exact h.inhabits.objects r o ho

theorem Stands.valid (h : Stands a b bcp p x v c m) {y : Contents} (heap : x.heap = y.heap)
    (closed : y.Closed) {r : UInt64} (hr : .object r ∈ y.stack) :
    r = 0 ∨ v.world.store.heap.isObject r = true :=
  h.known (heap ▸ closed.stack r hr)

theorem Represents.of_stands (h : Stands a b bcp p x v c m) : Represents a b .none bcp x v c m :=
  ⟨h.bounded, x.stack, p, rfl, h⟩

theorem Represents.stands (h : Represents a b .none bcp x v c m) :
    ∃ p, Stands a b bcp p x v c m := by
  obtain ⟨-, rest, p, rfl, h⟩ := h
  exact ⟨p, h⟩

/-- The operand that is held is pushed. -/
theorem Represents.runPush {u : Vm} (h : Represents a b tos bcp x u c m) (closed : x.Closed)
    (heap : v.world.store.heap = u.world.store.heap) (roomy : a.Roomy ctx.settings b.maxStack)
    (lay : Lays ⟨v.image.code, place⟩ ctx inStub K S (Emit.push tos) q q' ())
    (next : ∀ p c' m', Stands a b bcp p x u c' m' → m.Changed m' a.low a.top.toNat →
      Vm.Arrives P turns (v.moved q' c' m')) : Vm.Arrives P (turns + 6) (v.moved q c m) := by
  obtain ⟨bounded, rest, p, unheld, h⟩ := h
  have held (taken : tos ≠ .none) : ∃ w, x.stack = w :: rest ∧ w.Held c tos := by
    cases tos <;> first | exact unheld | exact absurd rfl taken
  by_cases taken : tos = .none
  · subst taken
    obtain rfl : rest = x.stack := unheld
    obtain ⟨rfl, -⟩ := Lays.ended lay
    exact (next p c m h (.refl m _ _)).le (by omega)
  · obtain ⟨w, stack, held⟩ := held taken
    have same : ({ x with stack := rest } : Contents).push w = x := by
      simp only [Contents.push, ← stack]
    have room : depth rest + w.words ≤ b.maxStack := by
      simp only [stack, depth, List.map_cons, List.sum_cons] at bounded
      simp only [depth]
      omega
    have valid (r : UInt64) (hr : w = .object r) :
        r = 0 ∨ v.world.store.heap.isObject r = true := by
      refine heap ▸ h.valid (y := x) rfl closed ?_
      rw [stack, hr]
      exact List.mem_cons_self
    have top := h.top
    exact h.runPush lay roomy held valid room fun p' c' m' h' changed =>
      next p' c' m' (same ▸ h') (changed.mono (Nat.le_refl _) (by omega))

/-- The topmost operand is popped and held. -/
theorem Stands.runHold (h : Stands a b bcp p x v c m) (closed : x.Closed)
    (roomy : a.Roomy ctx.settings b.maxStack)
    (lay : Lays ⟨v.image.code, place⟩ ctx inStub K S (Emit.pop tos) q q' ())
    (top : tos ≠ .none → ∃ w rest, x.stack = w :: rest ∧ (Cell.ofValue? tos w).isSome)
    (next : ∀ c' m', Represents a b tos bcp x v c' m' → m.Changed m' a.low a.top.toNat →
      Vm.Arrives P turns (v.moved q' c' m')) : Vm.Arrives P (turns + 6) (v.moved q c m) := by
  by_cases none : tos = .none
  · subst none
    obtain ⟨rfl, -⟩ := Lays.ended lay
    exact (next c m (.of_stands h) (.refl m _ _)).le (by omega)
  · obtain ⟨w, rest, hx, kind⟩ := top none
    refine h.runPop hx lay roomy kind (fun r hr => h.valid rfl closed (hx ▸ hr ▸ ?_))
      fun p' c' m' h' held _ changed => ?_
    · exact List.mem_cons_self
    · have under := h'.top
      exact next c' m' ⟨h.bounded, rest, p', .of_held hx held, h'⟩
        (changed.mono (Nat.le_refl _) (by omega))

/-- A template that wants nothing held has it in memory. -/
theorem Represents.runPushing (h : Represents a b tos bcp x v c m)
    (lay : Lays ⟨v.image.code, place⟩ ctx inStub K S pushingEntries q q' entry)
    (next : ∀ c' m', Represents a b .none bcp x v c' m' → m.Changed m' a.low a.top.toNat →
      Vm.Arrives P turns (v.moved q' c' m')) :
    Vm.Arrives P (turns + 2) (v.moved (entry.get tos) c m) := by
  obtain ⟨bounded, rest, p, unheld, h⟩ := h
  have under : p.toNat ≤ a.top.toNat := by
    have top := h.top
    omega
  unfold pushingEntries at lay
  obtain ⟨ready, lay⟩ := lay.newLabel_bind
  replace lay := lay.pc_bind
  obtain ⟨i₁, lay⟩ := Lays.emit_bind (i := .store .x0 (.pre .operands (-8)) .double) lay
  obtain ⟨g₁, lay⟩ := lay.emitTo_bind
  replace lay := lay.pc_bind
  obtain ⟨i₂, lay⟩ := Lays.emit_bind (i := .storeFloat .v0 (.pre .operands (-8)) .single) lay
  obtain ⟨g₂, lay⟩ := lay.emitTo_bind
  replace lay := lay.pc_bind
  obtain ⟨i₃, lay⟩ := Lays.emit_bind (i := .storeFloat .v0 (.pre .operands (-16)) .double) lay
  obtain ⟨g₃, lay⟩ := lay.emitTo_bind
  replace lay := lay.pc_bind
  obtain ⟨i₄, lay⟩ := Lays.emit_bind (i := .store .x0 (.pre .operands (-16)) .double) lay
  obtain ⟨g₄, lay⟩ := lay.emitTo_bind
  replace lay := lay.pc_bind
  obtain ⟨i₅, lay⟩ := Lays.emit_bind (i := .store .x0 (.pre .operands (-8)) .double) lay
  replace lay := lay.pc_bind
  obtain ⟨here, lay⟩ := lay.bind_bind
  obtain ⟨rfl, rfl⟩ := lay.ended
  rw [here] at g₁ g₂ g₃ g₄
  rw [EntryPoint.get_ofList]
  have full {w : Value} {p' : UInt64} {c' : Cpu} {m' : Guarded} (hx : x.stack = w :: rest)
      (h : Stands a b bcp p' (Contents.push { x with stack := rest } w) v c' m') :
      Represents a b .none bcp x v c' m' := by
    rw [Contents.push, ← hx] at h
    exact .of_stands h
  have room {w : Value} (hx : x.stack = w :: rest) : depth rest + w.words ≤ b.maxStack := by
    have : depth x.stack = w.words + depth rest := by simp [depth, hx]
    omega
  cases tos with
  | none =>
    subst unheld
    exact (next c m (.of_stands h) (.refl m _ _)).le (by omega)
  | byte | boolean | char | short | int =>
    obtain ⟨w, hx, held⟩ := unheld
    cases w with
    | int n =>
      exact h.runStore i₅ rfl (by decide) (fun k ok => held ▸ Value.int_in_put ok _) (room hx)
        fun m' h changed =>
          (next _ _ (full hx h) (changed.mono (Nat.le_refl _) under)).le (by omega)
    | _ => exact held.elim
  | long =>
    obtain ⟨w, hx, held⟩ := unheld
    cases w with
    | long n =>
      exact h.runStore i₄ rfl (by decide) (fun k ok => held ▸ Value.long_in_put ok _) (room hx)
        fun m' h changed =>
          .branch g₄ (next _ _ (full hx h) (changed.mono (Nat.le_refl _) under))
    | _ => exact held.elim
  | float =>
    obtain ⟨w, hx, held⟩ := unheld
    cases w with
    | float bits =>
      exact h.runStoreFloat i₂ rfl (by decide) (fun k ok => Value.float_in_put ok held) (room hx)
        fun m' h changed =>
          .branch g₂ (next _ _ (full hx h) (changed.mono (Nat.le_refl _) under))
    | _ => exact held.elim
  | double =>
    obtain ⟨w, hx, held⟩ := unheld
    cases w with
    | double bits =>
      exact h.runStoreFloat i₃ rfl (by decide) (fun k ok => held ▸ Value.double_in_put ok _)
        (room hx) fun m' h changed =>
          .branch g₃ (next _ _ (full hx h) (changed.mono (Nat.le_refl _) under))
    | _ => exact held.elim
  | object =>
    obtain ⟨w, hx, held⟩ := unheld
    cases w with
    | object r =>
      exact h.runStore i₁ rfl (by decide) (fun k ok => held ▸ Value.object_in_put ok _) (room hx)
        fun m' h changed =>
          .branch g₁ (next _ _ (full hx h) (changed.mono (Nat.le_refl _) under))
    | _ => exact held.elim

/-- An entry leads to the template, with the topmost operand in the state that it takes. -/
theorem Represents.runStateEntries (h : Represents a b tos bcp x v c m) (closed : x.Closed)
    (roomy : a.Roomy ctx.settings b.maxStack) {illegal : UInt64}
    (lay : Lays ⟨v.image.code, place⟩ ctx inStub K S (stateEntries illegal tosIn) q q' entry)
    (suits : tosIn = .none ∨ tos = .none ∨ tos = tosIn)
    (top : tosIn ≠ .none → ∃ w rest, x.stack = w :: rest ∧ (Cell.ofValue? tosIn w).isSome)
    (next : ∀ c' m', Represents a b tosIn bcp x v c' m' → m.Changed m' a.low a.top.toNat →
      Vm.Arrives P turns (v.moved q' c' m')) :
    Vm.Arrives P (turns + 6) (v.moved (entry.get tos) c m) := by
  unfold stateEntries at lay
  by_cases none : tosIn = .none
  · subst none
    exact (h.runPushing (lay.ite_pos rfl) next).le (by omega)
  · replace lay := (lay.ite_neg none).pc_bind
    obtain ⟨⟨⟩, r, popped, lay⟩ := lay.split
    replace lay := lay.pc_bind
    obtain ⟨rfl, rfl⟩ := lay.ended
    rcases suits with none' | rfl | rfl
    · exact absurd none' none
    · obtain ⟨p, h⟩ := h.stands
      rw [EntryPoint.get_set, if_neg (Ne.symm none), EntryPoint.get_set, if_pos rfl]
      exact h.runHold closed roomy popped top next
    · rw [EntryPoint.get_set, if_pos rfl]
      exact (next c m h (.refl m _ _)).le (by omega)

/-- The bytecode is counted by every counter that the settings ask for. -/
theorem Stands.runCounters (h : Stands a b bcp p x v c m) {o : Opcode}
    (histogram : Lays ⟨v.image.code, place⟩ ctx inStub K S
      (whenM ctx.settings.histogram (countAt (Place.histogram + o.byte.toUInt64 * 8))) q r ())
    (counter : Lays ⟨v.image.code, place⟩ ctx inStub K S
      (whenM ctx.settings.needsBytecodeCounter (countAt Place.bytecodeCounter)) r q' ())
    (next : ∀ c' m', v.Continues ctx.settings (some []) [o] m v m' → Stands a b bcp p x v c' m' →
      (∀ r, r ≠ .scratch1 → r ≠ .scratch2 → c'.reg r = c.reg r) →
      (∀ f, c'.float f = c.float f) → Vm.Arrives P turns (v.moved q' c' m')) :
    Vm.Arrives P (turns + 6) (v.moved q c m) := by
  have byte := o.byte.toNat_lt
  have slot := Place.histogram_toNat o.byte
  refine h.runCountWhen histogram (by omega) (by omega) fun c₁ m₁ h₁ same₁ floats₁ changed₁
    counted₁ => ?_
  refine h₁.runCountWhen counter (by decide) (by decide) fun c₂ m₂ h₂ same₂ floats₂ changed₂
    counted₂ => ?_
  have shown : m.Agrees m₂ 0x1010 0x1011 :=
    (changed₁.agrees (.inl (by omega))).trans (changed₂.agrees (.inr (by decide)))
  have continues : v.Continues ctx.settings (some []) [o] m v m₂ :=
    ⟨rfl, changed₂.guards.trans changed₁.guards, shown.load (by decide) (by decide),
      fun l known => Option.some.inj known ▸ (ite_self v.marks).symm,
      .of_one slot changed₁ counted₁ changed₂ counted₂⟩
  exact next c₂ m₂ continues h₂ (fun r s₁ s₂ => (same₂ r s₁ s₂).trans (same₁ r s₁ s₂))
    fun f => (floats₂ f).trans (floats₁ f)

/-- Counters and tracing leave the template what it takes. The bytecode is counted once. -/
theorem Represents.runBeforeTemplate (h : Represents a b tos bcp x v c m)
    (settings : ctx.settings = v.image.settings) (roomy : a.Roomy ctx.settings b.maxStack)
    {o : Opcode}
    (lay : Lays ⟨v.image.code, place⟩ ctx inStub K S (beforeTemplate o tos trace) q q' ())
    (traced : ctx.settings.traceBytecodes = true → ∃ r t K S,
      Lays ⟨v.image.code, place⟩ ctx true K S (traceEntry tos) r t (trace.get tos))
    (readable : 0x1000 ≤ bcp.toNat ∧ bcp.toNat < a.heap.toNat)
    (next : ∀ v' c' m', v.Continues ctx.settings (some []) [o] m v' m' →
      Represents a b tos bcp x v' c' m' →
      Vm.Arrives P turns (v'.moved q' c' m')) : Vm.Arrives P (turns + 45) (v.moved q c m) := by
  obtain ⟨bounded, rest, p, unheld, h⟩ := h
  unfold beforeTemplate at lay
  replace lay := lay.settings_bind
  obtain ⟨⟨⟩, q₁, histogram, lay₁⟩ := lay.split
  obtain ⟨⟨⟩, q₂, counter, lay₂⟩ := lay₁.split
  obtain ⟨⟨⟩, q₃, tracing, stop⟩ := lay₂.split
  have stopped {v₁ : Vm} {c₁ : Cpu} {m₁ : Guarded}
      (continues : v.Continues ctx.settings (some []) [o] m v₁ m₁)
      (h : Stands a b bcp p { x with stack := rest } v₁ c₁ m₁)
      (unheld : Unheld c₁ tos x.stack rest) :
      Vm.Arrives P (turns + 6) (v₁.moved q₃ c₁ m₁) := by
    rw [← continues.image] at stop settings
    by_cases on : decide (ctx.settings.stopAt > 0) = true
    · have asked : v₁.image.settings.stopAt ≠ 0 := by
        rw [← settings]
        exact UInt64.pos_iff_ne_zero.mp (of_decide_eq_true on)
      exact h.runStopAtCount asked (stop.ite_pos on) fun c₂ h same floats => next v₁ c₂ m₁ continues
        ⟨bounded, rest, p, unheld.mono (same _ (by decide) (by decide)) (floats _), h⟩
    · obtain ⟨rfl, -⟩ := (stop.ite_neg on).ended
      exact (next v₁ c₁ m₁ continues ⟨bounded, rest, p, unheld, h⟩).le (by omega)
  refine h.runCounters histogram counter fun c₁ m₁ continues h same floats => ?_
  replace unheld := unheld.mono (same _ (by decide) (by decide)) (floats _)
  by_cases on : ctx.settings.traceBytecodes = true
  · obtain ⟨i, rfl⟩ := Lays.emit (i := .call (.address (trace.get tos))) (tracing.ite_pos on)
    obtain ⟨r, t, K', S', lay⟩ := traced on
    have link : (c₁.setReg .link (q₂ + 4)).reg .link = q₂ + 4 :=
      Cpu.reg_setReg_self _ _ (by decide)
    obtain ⟨start, arrives⟩ := (h.setReg .link (q₂ + 4) rfl).runTraceEntry (P := P) roomy on lay
      readable fun v₂ c₂ m₂ traced h x0 v0 => by
        rw [link]
        refine stopped (continues.trans traced) h
          (unheld.mono (x0.trans ?_) (v0.trans (Cpu.float_setReg ..)))
        exact Cpu.reg_setReg_ne _ _ (by decide)
    refine .call i ?_
    rw [start]
    exact arrives
  · obtain ⟨rfl, -⟩ := (tracing.ite_neg on).ended
    exact (stopped continues h unheld).le (by omega)

end TemplateVm
