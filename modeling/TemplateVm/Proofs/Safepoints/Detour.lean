import TemplateVm.Proofs.Loading.Bootstrap
import TemplateVm.Proofs.Safepoints.Tables
import TemplateVm.Proofs.Simulation.Run

set_option autoImplicit false
set_option synthInstance.maxSize 100000

/-!
# The way through a safepoint

While a safepoint is armed, the next bytecode is dispatched to a safepoint entry. It saves the
operand that is held, has the operations run and the tables switched back, and goes on to the
bytecode that was interrupted, with the same variables, operands and objects. A machine that could
be built has both tables in memory, the normal one active and no safepoint requested, and has them
still when classes have been loaded.
-/
namespace TemplateVm

open Memory (Guarded load byteAt)
open Safepoints (Switched Shown)
open Guest Emit

/-! ## Another table -/

/-- The machine, as far as it is seen by code that is dispatched by the table. -/
def Vm.through (v : Vm) (t : DispatchTable) : Vm :=
  { v with image := { v.image with normalTable := t } }

variable {P : Vm → Prop} {turns : Nat} {v : Vm} {q q' : UInt64} {c : Cpu} {m m' : Guarded}
  {a : Activation} {b : Program} {bcp p : UInt64} {x : Contents} {place : CodeLabel → UInt64}
  {ctx : CodeContext} {inStub : Bool} {K S : List CodeLabel} {tos : TopOfStack}
  {t t' : DispatchTable}

theorem Safepoints.Switched.changed (h : Switched m m') : m.Changed m' 0x1000 0x15000 where
  size := h.size
  guards := h.guards
  other j hj := h.other j (by omega) (by omega)

theorem Safepoints.Switched.counters (h : Switched m m') : m.Agrees m' 0x1008 0x1900 :=
  fun j _ _ => h.other j (by omega) (by omega)

theorem Safepoints.Shown.same {s : Safepoints} (h : s.Shown m) (clear : m'.Clear 0x1000 0x1f000)
    (same : ∀ j, Place.OfTables j → byteAt m'.bytes j = byteAt m.bytes j) : s.Shown m' where
  clear := clear
  state := by
    have word : m.Agrees m' 0x1000 0x1004 := fun j first last => same j (.inl ⟨first, last⟩)
    exact (word.load (by decide) (by decide)).trans h.state
  active k hk := by
    have base : 0x15000 ≤ s.table.toNat ∧ s.table.toNat + 0x5000 ≤ 0x1f000 := by
      unfold Safepoints.table
      split <;> decide
    rw [same _ (.inr (.inl (by omega))), same _ (.inr (.inr (.inr (by omega))))]
    exact h.active k hk
  armed := h.armed
  queue := h.queue

namespace Vm

/-- The table that bytecodes are dispatched by. -/
def table (v : Vm) : DispatchTable :=
  if v.safepoints.armed then v.image.safepointTable else v.image.normalTable

/-- Both tables are in memory, and generated code finds what the record of safepoints says. -/
structure Tabled (v : Vm) (m : Guarded) : Prop where
  shown : v.safepoints.Shown m
  normal : v.image.normalTable.In m Place.normalTable
  detour : v.image.safepointTable.In m Place.safepointTable

theorem Tabled.same (h : v.Tabled m) (clear : m'.Clear 0x1000 0x1f000)
    (same : ∀ j, Place.OfTables j → byteAt m'.bytes j = byteAt m.bytes j) : v.Tabled m' := by
  have fixed : m.Agrees m' 0x15000 0x1f000 := fun j first last =>
    same j (.inr (.inr (.inr ⟨first, last⟩)))
  exact ⟨h.shown.same clear same, h.normal.agrees (by decide) (fixed.mono (by decide) (by decide)),
    h.detour.agrees (by decide) (fixed.mono (by decide) (by decide))⟩

theorem Tabled.agrees (h : v.Tabled m) (clear : m'.Clear 0x1000 0x1f000)
    (ha : m.Agrees m' 0x1000 0x1f000) : v.Tabled m' := h.same clear fun j hj => by
  unfold Place.OfTables Place.OfFixed at hj
  exact ha j (by omega) (by omega)

theorem Tabled.switched {s : Safepoints} (h : v.Tabled m) (hs : Switched m m') (shown : s.Shown m') :
    ({ v with safepoints := s } : Vm).Tabled m' where
  shown := shown
  normal := h.normal.agrees (by decide) (hs.changed.agrees (.inr (by decide)))
  detour := h.detour.agrees (by decide) (hs.changed.agrees (.inr (by decide)))

/-- The active table has the words of the one that is to be used. -/
theorem Tabled.active (h : v.Tabled m) : v.table.In m Place.activeTable := by
  have same := h.shown.active
  unfold Safepoints.table at same
  unfold table
  split
  · rw [if_pos ‹_›] at same
    exact h.detour.copied (by decide) (by decide) same
  · rw [if_neg ‹_›] at same
    exact h.normal.copied (by decide) (by decide) same

end Vm

/-- The activation stands as before when another table is made active. -/
theorem Stands.switched (h : Stands a b bcp p x (v.through t) c m) (hs : Switched m m')
    (table : t'.In m' Place.activeTable) : Stands a b bcp p x (v.through t') c m' := by
  have changed := hs.changed
  have records := h.fits.records
  have thread := h.fits.thread
  have heap := h.fits.heap
  have operands := h.fits.operands
  have top := h.fits.top
  have frame := h.fits.frame
  have depth := h.top
  have bounded := h.bounded
  have above {s t : Nat} (h : 0x20000 ≤ s) : m.Agrees m' s t := changed.agrees (by omega)
  exact {
    registers := h.registers
    fits := h.fits.changed changed
    loaded := h.loaded.switched (above (Nat.le_refl _)) fun tos o => table tos o.byte
    idle := h.idle.agrees (above (by omega)) (above (by omega))
    framed := h.framed.agrees (by omega) (above (by omega)) (above (by omega))
    locals := h.locals.agrees h.fits.frame (above (by omega))
    stack := h.stack.agrees (above (t := a.top.toNat) (by omega)) (by omega)
    top := h.top
    bounded := h.bounded
    heap := h.heap.agrees (above (by omega))
    inhabits := { h.inhabits with } }

/-! ## The service -/

namespace Vm

variable {steps : UInt64} {watched : List (UInt64 × UInt64)}

/-- The machine after the operations that wait have been run. -/
def pastSafepoint (v : Vm) : Vm :=
  { v with
    safepoints := v.safepoints.after
    hooks := (if v.safepoints.armed then v.safepoints.queue else []).foldl
      (fun hooks name => hooks.note (.safepoint name)) v.hooks }

theorem onSafepoints_ok {α : Type} {action : Safepoints.Action α} {s : Safepoints} {y : α}
    (h : action (v.safepoints, m) = .ok y (s, m')) :
    onSafepoints action ((v.moved q c m).counted steps watched) =
      .ok y (({ v with safepoints := s }.moved q c m').counted steps watched) := by
  simp only [onSafepoints, zoom, moved, counted, h]

theorem noteAll_ok (names : List String) (v : Vm) :
    (names.forM fun name => note (.safepoint name)) v =
      .ok ⟨⟩ { v with
        hooks := names.foldl (fun hooks name => hooks.note (.safepoint name)) v.hooks } := by
  induction names generalizing v with
  | nil => rfl
  | cons name names ih =>
    have first : note (.safepoint name) v =
        .ok ⟨⟩ { v with hooks := v.hooks.note (.safepoint name) } := rfl
    exact (bind_ok first).trans (ih _)

/-- The service ends the safepoint. -/
theorem atSafepoint_ok (h : v.safepoints.Shown m) :
    ∃ m', Switched m m' ∧ v.safepoints.after.Shown m' ∧ ∀ q c steps watched,
      atSafepoint ((v.moved q c m).counted steps watched) =
        .ok ⟨⟩ ((v.pastSafepoint.moved q c m').counted steps watched) := by
  obtain ⟨m', run, switched, shown⟩ := Safepoints.atSafepoint_ok h
  refine ⟨m', switched, shown, fun q c steps watched => ?_⟩
  exact (bind_ok (onSafepoints_ok run)).trans (noteAll_ok _ _)

end Vm

namespace Stands

/-- The service finds the activation as it leaves it, but for the tables. -/
theorem runAtSafepoint (h : Stands a b bcp p x (v.through v.table) c m) (tabled : v.Tabled m)
    (next : ∀ m', Stands a b bcp p x v.pastSafepoint c m' → v.pastSafepoint.Tabled m' →
      m.Agrees m' (a.frame.toNat - 56) (a.frame.toNat - 48) →
      (∀ s, v.Continues s (some []) [] m v.pastSafepoint m') →
      Vm.Arrives P turns (v.pastSafepoint.moved (c.reg .link) c m')) :
    Vm.Arrives P (turns + 1) (v.moved Service.atSafepoint.address c m) := by
  have bounds := h.bounds
  have room := h.fits.thread
  have heap := h.fits.heap
  have records := h.fits.records
  have operands := h.fits.operands
  have top := h.fits.top
  have own : v.map.thread = a.thread := h.inhabits.thread
  refine h.runInRuntime own rfl fun m₁ h₁ changed₁ => ?_
  have tabled₁ := tabled.agrees (h₁.fits.clear.mono (by decide) (by omega))
    (changed₁.agrees (by omega))
  obtain ⟨m₂, switched, shown₂, served⟩ := Vm.atSafepoint_ok tabled₁.shown
  have tabled₂ : v.pastSafepoint.Tabled m₂ := { tabled₁.switched switched shown₂ with }
  have normal : v.pastSafepoint.table = v.image.normalTable := by
    have disarmed : v.safepoints.after.armed = false := by
      unfold Safepoints.after
      split <;> simp_all
    change (if v.safepoints.after.armed then _ else v.image.normalTable) = _
    rw [disarmed]
    rfl
  have h₂ : Stands a b bcp p x v.pastSafepoint c m₂ :=
    (h₁.switched switched (normal ▸ tabled₂.active)).ofVm rfl { h.inhabits with }
  have quiet (calm : v.Quiet) : v.pastSafepoint.Quiet := by
    change (v.safepoints.after.armed || !v.safepoints.after.requested) = true
    unfold Safepoints.after
    split
    · rfl
    · exact calm
  have performs : v.Performs v.pastSafepoint .atSafepoint c m₁ m₂ :=
    ⟨fun steps watched => (Vm.bind_ok (m := Vm.reg .x0) rfl).trans <|
      (Vm.bind_ok (m := Vm.reg .x1) rfl).trans <| (Vm.bind_ok (m := Vm.reg .x2) rfl).trans <|
      served _ _ steps watched, rfl, ⟨quiet, rfl, rfl⟩, switched.changed.size,
      switched.changed.guards⟩
  refine ⟨_, m₂, performs, fun m₃ changed₃ => ?_⟩
  have h₃ := h₂.outside changed₃ (.inr (.inl ⟨by omega, by omega⟩))
  have counters : m.Agrees m₃ 0x1008 0x1900 :=
    (changed₁.agrees (by omega)).trans (switched.counters.trans (changed₃.agrees (by omega)))
  have guards := changed₃.guards.trans (switched.guards.trans changed₁.guards)
  exact next m₃ h₃
    (tabled₂.agrees (h₃.fits.clear.mono (by decide) (by omega)) (changed₃.agrees (by omega)))
    ((changed₁.agrees (by omega)).trans
      ((switched.changed.agrees (by omega)).trans (changed₃.agrees (by omega))))
    fun _ => .of_agrees rfl guards rfl counters

/-- The current bytecode is dispatched by the normal table, whatever table is active. -/
theorem runDispatchVia (h : Stands a b bcp p x v c m) {o : Opcode}
    (lay : Lays ⟨v.image.code, place⟩ ctx inStub K S
      (Emit.dispatchVia .none Place.normalTable) q q' ())
    (tabled : v.Tabled m) (opcode : load m.bytes bcp.toNat 1 = o.byte.toUInt64)
    (readable : 0x1000 ≤ bcp.toNat ∧ bcp.toNat < a.heap.toNat)
    (next : ∀ c', Stands a b bcp p x v c' m →
      Vm.Arrives P turns (v.moved (v.image.normalTable.get .none o.byte) c' m)) :
    Vm.Arrives P (turns + 4) (v.moved q c m) := by
  unfold Emit.dispatchVia at lay
  obtain ⟨i₁, lay⟩ := lay.emit_bind
  obtain ⟨i₂, lay⟩ := lay.emit_bind
  obtain ⟨i₃, lay⟩ := lay.emit_bind
  obtain ⟨i₄, rfl⟩ := lay.emit
  have records := h.fits.records
  have heap := h.fits.heap
  have hb : o.byte.toNat < 256 := o.byte.toNat_lt
  have base : Place.normalTable.toNat = 0x15000 := rfl
  have slot : (Place.dispatchSlot Place.normalTable .none o.byte).toNat = _ :=
    Activation.slot_toNat (by decide) .none o.byte
  have index : TopOfStack.none.index = 9 := rfl
  have here : bcp + 0 = bcp := UInt64.add_zero bcp
  refine .loadAt h.registers.bytecode i₁ (congrArg _ here) ?_ opcode (.movImm i₂ ?_)
  · rw [here]
    refine h.open_below readable.1 ?_
    change _ + 1 ≤ _
    omega
  have h₁ := (h.setReg .scratch1 o.byte.toUInt64 rfl).setReg .scratch2
    (Place.normalTable + (TopOfStack.none.index * 256 * 8).toUInt64) rfl
  have address : (Cpu.target ((c.setReg .scratch1 o.byte.toUInt64).setReg .scratch2
      (Place.normalTable + (TopOfStack.none.index * 256 * 8).toUInt64))
      (.index .scratch2 .scratch1 3)).toNat =
      (Place.dispatchSlot Place.normalTable .none o.byte).toNat := by
    have row : (Place.normalTable + (TopOfStack.none.index * 256 * 8).toUInt64).toNat = 0x19800 :=
      rfl
    rw [slot, Cpu.target_index, Cpu.reg_setReg_self _ _ (by decide),
      Cpu.reg_setReg_ne _ _ (by decide), Cpu.reg_setReg_self _ _ (by decide), UInt64.toNat_add,
      row, UInt64.toNat_shiftLeft, UInt8.toNat_toUInt64]
    change (0x19800 + o.byte.toNat <<< 3 % 2 ^ 64) % 2 ^ 64 = _
    rw [Nat.shiftLeft_eq]
    omega
  refine .load i₃ ?_ (.branchTo i₄ ?_)
  · refine h₁.open_below (by omega) ?_
    change _ + 8 ≤ _
    omega
  rw [Cpu.rebase_index, Cpu.reg_setReg_self _ _ (by decide), address]
  change Vm.Arrives P _ (v.moved (load m.bytes _ 8) (Cpu.setReg _ .scratch2 (load m.bytes _ 8)) m)
  rw [tabled.normal .none o.byte]
  exact next _ (h₁.setReg .scratch2 _ rfl)

end Stands

/-! ## The entry -/

namespace Represents

/-- A safepoint entry ends the safepoint and executes the bytecode that was interrupted, which is not
    counted before. -/
theorem runSafepointEntry {op : Bytecode.Operation}
    (h : Represents a b tos (a.at op) x (v.through v.table) c m) (tabled : v.Tabled m)
    (current : b.operation? op.bci = some op) (closed : x.Closed)
    (roomy : a.Roomy ctx.settings b.maxStack) {entry : UInt64}
    (lay : Lays ⟨v.image.code, place⟩ ctx inStub K S (Emit.safepointEntry tos) q q' entry)
    (next : ∀ c' m', Represents a b .none (a.at op) x v.pastSafepoint c' m' →
      v.pastSafepoint.Tabled m' → v.Continues ctx.settings (some []) [] m v.pastSafepoint m' →
      Vm.Arrives P turns
        (v.pastSafepoint.moved (v.image.normalTable.get .none op.opcode.byte) c' m')) :
    Vm.Arrives P (turns + 35) (v.moved entry c m) := by
  unfold Emit.safepointEntry at lay
  replace lay := lay.pc_bind
  obtain ⟨⟨⟩, q₁, pushed, lay⟩ := lay.split
  obtain ⟨⟨⟩, q₂, called, lay⟩ := lay.split
  obtain ⟨barrier, lay⟩ := lay.emit_bind
  obtain ⟨⟨⟩, q₃, dispatched, ended⟩ := lay.split
  obtain ⟨-, rfl⟩ := ended.ended
  obtain ⟨-, hm⟩ := Program.bci_of_operation? current
  refine h.runPush closed rfl roomy pushed fun p c₁ m₁ h₁ changed₁ => ?_
  have records := h₁.fits.records
  have heap := h₁.fits.heap
  have thread := h₁.fits.thread
  have top := h₁.fits.top
  have operands := h₁.fits.operands
  have tabled₁ := tabled.agrees (h₁.fits.clear.mono (by decide) (by omega))
    (changed₁.agrees (.inl (by omega)))
  refine h₁.runCallVm called nofun fun c₂ m₂ K' r lay₂ h₂ link _ _ _ saved _ _ agrees₂ confined => ?_
  have tabled₂ := tabled₁.agrees (h₂.fits.clear.mono (by decide) (by omega))
    (agrees₂ _ _ (.inl (by omega)))
  refine h₂.runAtSafepoint tabled₂ fun m₃ h₃ tabled₃ agrees₃ continues₃ => ?_
  rw [link]
  have saved₃ := (agrees₃.load (i := a.frame.toNat - 56) (k := 8) (Nat.le_refl _)
    (by omega)).trans saved
  refine h₃.runResumeGuest lay₂ saved₃ nofun fun c₄ m₄ h₄ _ _ _ changed₄ => .barrier barrier ?_
  have tabled₄ := tabled₃.agrees (h₄.fits.clear.mono (by decide) (by omega))
    (changed₄.agrees (.inl (by omega)))
  obtain ⟨_, fetched⟩ := h₄.fetched hm rfl
  have above := fetched.above
  have below := fetched.below
  have length := Bytecode.length_pos op.opcode
  have called : v.Continues ctx.settings (some []) [] m₁ v m₂ :=
    .of_agrees rfl confined.guards rfl (agrees₂ _ _ (.inl (by omega)))
  have continues : v.Continues ctx.settings (some []) [] m v.pastSafepoint m₄ :=
    (Vm.Continues.of_changed changed₁ (.inl (by omega))).trans <| called.trans <|
      (continues₃ _).trans <| .of_changed changed₄ (.inl (by omega))
  exact h₄.runDispatchVia dispatched tabled₄ fetched.opcode ⟨by omega, by omega⟩
    fun c₅ h₅ => next c₅ m₄ (.of_stands h₅) tabled₄ continues

end Represents

/-! ## Dispatch while a safepoint may be armed -/

/-- The operations that waited before have been run. -/
def Vm.Past (v v' : Vm) : Prop :=
  v'.safepoints = v.pastSafepoint.safepoints ∧ v'.hooks = v.pastSafepoint.hooks

/-- The machine is at the entry that the active table has for the current bytecode and the state in
    which the topmost operand is held. -/
def Dispatched (a : Activation) (b : Program) (i : Image) (tos : TopOfStack) (t : State) (w : Vm) :
    Prop :=
  ∃ (op : Bytecode.Operation) (v : Vm) (c : Cpu) (m : Guarded),
    b.operation? t.bci = some op ∧ w = v.moved (v.table.get tos op.opcode.byte) c m ∧
    v.image = i ∧ v.Tabled m ∧ Represents a b tos (a.at op) t.toContents (v.through v.table) c m

section
variable {s : Settings} {i : Image} {st st' : State} {w : Vm} {op op' : Bytecode.Operation}
  {n : Nat}

/-- Whatever is requested, looked for and entered meanwhile, the machine stands for the same. -/
theorem Represents.incidents {incidents : List Safepoints.Incident} {names : List String}
    {s' : Safepoints} (h : Represents a b tos bcp x (v.through v.table) c m) (tabled : v.Tabled m)
    (run : Safepoints.Incident.actAll incidents (v.safepoints, m) = .ok names (s', m')) :
    ({ v with safepoints := s' } : Vm).Tabled m' ∧
      Represents a b tos bcp x
        (({ v with safepoints := s' } : Vm).through ({ v with safepoints := s' } : Vm).table) c
        m' := by
  obtain ⟨names', s'', m'', run', switched, shown, -⟩ :=
    Safepoints.Incident.actAll_ok incidents tabled.shown
  rw [run'] at run
  cases run
  have after := tabled.switched switched shown
  obtain ⟨bounded, rest, p, unheld, h⟩ := h
  refine ⟨after, bounded, rest, p, unheld, ?_⟩
  exact (h.switched switched after.active).ofVm rfl { h.inhabits with }

/-- Up to the bytecode nothing is overwritten and nothing is counted. -/
theorem Dispatched.continues (h : Dispatched a b i tos st w) (armable : Image.Armable s i)
    (closed : st.Closed) (roomy : a.Roomy s b.maxStack) :
    Vm.Arrives (fun w' => w.Past w' ∧
      w.Continues s (some []) [] w.world.store.mem w' w'.world.store.mem ∧
      ∃ tos', (tos' = tos ∨ tos' = .none) ∧ Enters a b i tos' st w') 35 w := by
  obtain ⟨op, v, c, m, current, rfl, rfl, tabled, h⟩ := h
  by_cases armed : v.safepoints.armed = true
  · have table : v.table = v.image.safepointTable := if_pos armed
    obtain ⟨place, ctx, K, S, q, q', rfl, lay⟩ := armable.safepoint tos op.opcode
    obtain ⟨bci, -⟩ := Program.bci_of_operation? current
    rw [table]
    refine h.runSafepointEntry tabled (bci ▸ current) closed roomy lay fun c' m' h' _ continues => ?_
    exact .here ⟨⟨rfl, rfl⟩, continues.moved, .none, .inr rfl, op, v.pastSafepoint, c', m', current,
      rfl, rfl, h'⟩
  · have table : v.table = v.image.normalTable := if_neg armed
    rw [table] at h ⊢
    refine .here ⟨⟨?_, ?_⟩, .refl _ _, tos, .inl rfl, op, v, c, m, current, rfl, rfl, h⟩
    · exact (if_neg armed).symm
    · simp [Vm.pastSafepoint, Vm.moved, armed]

/-- An armed safepoint is entered instead of the bytecode, and then the bytecode is executed. -/
theorem Dispatched.enters (h : Dispatched a b i tos st w) (armable : Image.Armable s i)
    (closed : st.Closed) (roomy : a.Roomy s b.maxStack) :
    Vm.Arrives (fun w' => w.Past w' ∧ ∃ tos', (tos' = tos ∨ tos' = .none) ∧
      Enters a b i tos' st w') 35 w :=
  (h.continues armable closed roomy).mono fun _ arrived => ⟨arrived.1, arrived.2.2⟩

/-- The code behind a template leads to the entry for the next bytecode, by way of the safepoint if
    one is armed. -/
theorem Represents.runDispatch (h : Represents a b tos (a.at op) x (v.through v.table) c m)
    (tabled : v.Tabled m)
    (lay : Lays ⟨v.image.code, place⟩ ctx inStub K S
      (Emit.dispatchNext tos op.opcode.length.toUInt64) q q' ())
    (target : b.operation? (op.bci + op.opcode.length) = some op')
    (armable : Image.Armable s v.image) (closed : x.Closed) (roomy : a.Roomy s b.maxStack) :
    Vm.Arrives (fun w' => v.Past w' ∧ ∃ tos', (tos' = tos ∨ tos' = .none) ∧
      Enters a b v.image tos' { x with bci := op'.bci } w') 39 (v.moved q c m) := by
  obtain ⟨bci, -⟩ := Program.bci_of_operation? target
  refine h.runDispatchNext lay target fun c' h' => ?_
  have dispatched : Dispatched a b v.image tos { x with bci := op'.bci }
      (v.moved (v.table.get tos op'.opcode.byte) c' m) :=
    ⟨op', v, c', m, bci ▸ target, rfl, rfl, tabled, h'⟩
  exact dispatched.enters armable closed roomy

/-- A run whose first bytecode waits for a safepoint. -/
theorem Dispatched.runs (h : Dispatched a b i tos st w) (armable : Image.Armable s i)
    (closed : st.Closed) (roomy : a.Roomy s b.maxStack)
    (wide : tos.ofResult = tos ∨ ∀ op, b.operation? st.bci = some op → op.opcode.takes = .none)
    (run : Guest.steps b n st = some st') :
    Vm.Arrives (fun w' => (∃ tos', Enters a b i tos' st' w') ∧
      w.Continues s (overwrittenIn? b n st) (executedIn b n st) w.world.store.mem w'
        w'.world.store.mem) (n * b.stepTurns + 35) w := by
  refine (h.continues armable closed roomy).trans ?_
  rintro w₁ ⟨-, before, tos₁, same, h₁⟩
  have wide₁ : tos₁.ofResult = tos₁ ∨
      ∀ op, b.operation? st.bci = some op → op.opcode.takes = .none := by
    rcases same with rfl | rfl
    · exact wide
    · exact .inl rfl
  refine (h₁.continues armable.generated closed roomy wide₁ run).mono ?_
  rintro w' ⟨enters, continues⟩
  exact ⟨enters, before.after continues⟩

/-- With a safepoint armed before the first of them, the machine does what the bytecodes do. -/
theorem Dispatched.leads (h : Dispatched a b i tos st w) (armable : Image.Armable s i)
    (closed : st.Closed) (roomy : a.Roomy s b.maxStack)
    (wide : tos.ofResult = tos ∨ ∀ op, b.operation? st.bci = some op → op.opcode.takes = .none)
    (quiet : w.Quiet) (run : Guest.steps b n st = some st') :
    Vm.Leads (fun w' => w'.Quiet ∧ ∃ tos', Enters a b i tos' st' w') (n * b.stepTurns + 35) w := by
  have onward : Vm.Arrives (fun w' => ∃ tos', Enters a b i tos' st' w') (n * b.stepTurns + 35) w :=
    (h.runs armable closed roomy wide run).mono fun _ arrived => arrived.1
  refine (onward quiet w.processor.steps w.processor.watched).mono ?_
  rintro - ⟨w', steps, watched, ⟨tos', h'⟩, quiet', rfl⟩
  exact ⟨quiet', tos', h'.counted steps watched⟩

end
end TemplateVm

namespace TemplateVm

open Memory (Guarded load byteAt)

/-! ## Writing the tables -/

/-- Every word of a table belongs to a state and a byte. -/
theorem DispatchTable.exists_slot {j : Nat} (h : j < 2560) :
    ∃ (tos : TopOfStack) (byte : UInt8), 256 * tos.index + byte.toNat = j := by
  have states : ∀ j < 10, ∃ tos ∈ TopOfStack.all, tos.index = j := by decide
  obtain ⟨tos, -, index⟩ := states (j / 256) (by omega)
  refine ⟨tos, .ofNat (j % 256), ?_⟩
  rw [index, UInt8.toNat_ofNat']
  omega

/-- In two places where the same table is found there are the same bytes. -/
theorem DispatchTable.In.same {t : DispatchTable} {m m' : Guarded} {base base' : UInt64}
    (h : t.In m base) (h' : t.In m' base') (small : base.toNat + 0x5000 < 2 ^ 64)
    (small' : base'.toNat + 0x5000 < 2 ^ 64) {k : Nat} (hk : k < 0x5000) :
    byteAt m'.bytes (base'.toNat + k) = byteAt m.bytes (base.toNat + k) := by
  obtain ⟨tos, byte, slot⟩ := DispatchTable.exists_slot (j := k / 8) (by omega)
  have word : load m'.bytes (base'.toNat + 8 * (k / 8)) 8 =
      load m.bytes (base.toNat + 8 * (k / 8)) 8 := by
    rw [← slot, ← Activation.slot_toNat small, ← Activation.slot_toNat small', h tos byte,
      h' tos byte]
  have byte := Memory.byteAt_of_load (Nat.le_refl 8) word (Nat.mod_lt k (by decide))
  rw [Nat.add_assoc, Nat.add_assoc, Nat.div_add_mod] at byte
  exact byte

namespace Image

variable {s : Settings} {i : Image} {m : Guarded}

theorem writeTables_ok (generated : generate s = .ok i) (pages : s.shadowPages.toNat < 2 ^ 54)
    (clear : m.Clear 0x1000 0x1f000) :
    ∃ m', i.install m = .ok () m' ∧ m.Changed m' 0x1040 0x1f000 ∧ m.Agrees m' 0x10e0 0x10000 ∧
      i.normalTable.In m' Place.normalTable ∧ i.safepointTable.In m' Place.safepointTable ∧
      i.normalTable.In m' Place.activeTable := by
  have armable := armable_of_generate generated pages
  have normal := armable.generated.rows
  have detour := armable.rows
  have returns := returns_length generated pages
  have places : Place.normalTable.toNat = 0x15000 ∧ Place.safepointTable.toNat = 0x1a000 ∧
    Place.activeTable.toNat = 0x10000 ∧ Place.returnTable.toNat = 0x1040 := by decide
  obtain ⟨normalAt, detourAt, activeAt, returnsAt⟩ := places
  obtain ⟨m₁, run₁, changed₁, in₁⟩ := DispatchTable.write_ok Place.normalTable normal
    clear (by omega) (by omega) (by decide)
  have clear₁ := clear.changed changed₁
  obtain ⟨m₂, run₂, changed₂, in₂⟩ := DispatchTable.write_ok Place.safepointTable detour
    clear₁ (by omega) (by omega) (by decide)
  have clear₂ := clear₁.changed changed₂
  obtain ⟨m₃, run₃, changed₃, in₃⟩ := DispatchTable.write_ok Place.activeTable normal
    clear₂ (by omega) (by omega) (by decide)
  obtain ⟨m₄, run₄, changed₄, -⟩ := writeWords_ok Place.returnTable
    (i.callReturns ++ i.siteReturns) (clear₂.changed changed₃) (by omega) (by omega)
    (by decide)
  rw [returns] at changed₄
  refine ⟨m₄, ?_, ?_, ?_, ?_, ?_, ?_⟩
  · exact (Vm.bind_ok run₁).trans ((Vm.bind_ok run₂).trans ((Vm.bind_ok run₃).trans run₄))
  · exact (changed₁.mono (by omega) (by omega)).trans <|
      (changed₂.mono (by omega) (by omega)).trans <|
      (changed₃.mono (by omega) (by omega)).trans (changed₄.mono (by omega) (by omega))
  · exact (changed₁.agrees (by omega)).trans <| (changed₂.agrees (by omega)).trans <|
      (changed₃.agrees (by omega)).trans (changed₄.agrees (by omega))
  · exact ((in₁.agrees (by omega) (changed₂.agrees (by omega))).agrees (by omega)
      (changed₃.agrees (by omega))).agrees (by omega) (changed₄.agrees (by omega))
  · exact (in₂.agrees (by omega) (changed₃.agrees (by omega))).agrees (by omega)
      (changed₄.agrees (by omega))
  · exact in₃.agrees (by omega) (changed₄.agrees (by omega))

end Image

/-! ## A machine with its tables -/

namespace Vm

variable {settings : Settings} {vm : Vm} {world : World}

/-- What leaves everything below the metaspace alone leaves the tables. -/
theorem Tabled.spares {m : Guarded} (h : vm.Tabled m)
    (spares : (vm.world.withMemory m).Spares world)
    (start : vm.world.classes.metaspace.start = Place.metaspace) :
    ({ vm with world } : Vm).Tabled world.store.mem := by
  have agrees := spares.agrees
  have above : (vm.world.withMemory m).classes.metaspace.start.toNat = 0x20000 := by
    change vm.world.classes.metaspace.start.toNat = _
    rw [start]
    rfl
  rw [above] at agrees
  have kept := h.agrees (h.shown.clear.congr spares.size spares.guards)
    (agrees.mono (by decide) (by decide))
  exact ⟨kept.shown, kept.normal, kept.detour⟩

/-- A machine that could be built has its tables, and dispatch is normal. -/
theorem create_tabled (ordered : (MemoryMap.ofSettings settings).Ordered)
    (pages : settings.shadowPages.toNat < 2 ^ 54) (created : create settings = .ok vm) :
    vm.Tabled vm.world.store.mem ∧ vm.safepoints = {} ∧ Image.Armable settings vm.image := by
  obtain ⟨m, generated, installed, ⟨-, spares, -⟩, map, calm⟩ := create_ends ordered created
  have low : Place.metaspace.toNat = 0x20000 := rfl
  have start : (MemoryMap.ofSettings settings).metaspaceStart.toNat = 0x20000 := rfl
  have metaspace := ordered.metaspace
  have heap := ordered.heap
  have thread := ordered.thread
  have clear : (bare settings vm.image).world.store.mem.Clear 0x1000 0x1f000 :=
    guarded_clear ordered (by decide) (by omega)
  obtain ⟨m', run, changed, -, normal, detour, active⟩ := Image.writeTables_ok generated pages clear
  rw [installed] at run
  cases run
  have blank : (bare settings vm.image).Tabled m := by
    refine ⟨⟨clear.changed changed, ?_, fun k hk => ?_, nofun, fun h => absurd rfl h⟩, normal,
      detour⟩
    · rw [(changed.agrees (s := 0x1000) (t := 0x1004) (by omega)).load (by decide) (by decide)]
      exact Memory.load_zeros ..
    · exact normal.same active (by decide) (by decide) hk
  have tabled := blank.spares spares rfl
  refine ⟨⟨?_, tabled.normal, tabled.detour⟩, calm, Image.armable_of_generate generated pages⟩
  rw [calm]
  exact tabled.shown

/-- It has them still, however many classes were loaded, some of them in vain. -/
theorem create_loads_tabled (ordered : (MemoryMap.ofSettings settings).Ordered)
    (pages : settings.shadowPages.toNat < 2 ^ 54) (created : create settings = .ok vm)
    (loads : vm.world.Loads world) : ({ vm with world } : Vm).Tabled world.store.mem := by
  obtain ⟨m, generated, installed, ⟨booted, spares, -⟩, -⟩ := create_ends ordered created
  obtain ⟨tabled, -⟩ := create_tabled ordered pages created
  obtain ⟨extended, -⟩ := loads.extends booted
  refine tabled.spares (extended.spares booted.sound) ?_
  exact spares.start

end Vm
end TemplateVm
