import TemplateVm.Proofs.Activation.Linked
import TemplateVm.Proofs.Activation.Places
import TemplateVm.Proofs.Guest.Overwriting

set_option autoImplicit false
set_option synthInstance.maxSize 100000

/-!
# Fields of objects

A field is loaded with the extension of its type, and of a value that is stored as many bytes are
kept as the field has. Before a reference is overwritten the old one may be handed to the marker.
-/
namespace TemplateVm

open Memory (Guarded load)
open Guest Emit

/-! ## Narrow numbers -/

theorem signExtend_byte (n : Int8) :
    Width.byte.signExtend n.toUInt8.toUInt64 = n.toInt32.toInt64.toUInt64 := by
  simp [Width.signExtend, Extension.apply]

theorem signExtend_half (n : Int16) :
    Width.half.signExtend n.toUInt16.toUInt64 = n.toInt32.toInt64.toUInt64 := by
  simp [Width.signExtend, Extension.apply]

theorem toInt64_of_small (n : UInt32) (small : n.toNat < 2 ^ 31) :
    n.toInt32.toInt64.toUInt64 = n.toUInt64 := by
  refine UInt64.toBitVec_inj.mp ?_
  change n.toBitVec.signExtend 64 = n.toBitVec.setWidth 64
  refine BitVec.signExtend_eq_setWidth_of_msb_false ?_
  rw [BitVec.msb_eq_decide, decide_eq_false_iff_not]
  change ¬ 2 ^ 31 ≤ n.toNat
  omega

theorem toUInt8_toInt64 (n : Int32) : n.toInt64.toUInt64.toUInt8 = n.toUInt32.toUInt8 := by
  rw [← UInt64.toUInt8_toUInt32, toUInt32_toInt64]

theorem toUInt16_toInt64 (n : Int32) : n.toInt64.toUInt64.toUInt16 = n.toUInt32.toUInt16 := by
  rw [← UInt64.toUInt16_toUInt32, toUInt32_toInt64]

theorem toUInt8_toInt8 (n : Int32) : n.toInt8.toUInt8 = n.toUInt32.toUInt8 := by
  refine UInt8.toBitVec_inj.mp ?_
  exact BitVec.signExtend_eq_setWidth_of_le n.toBitVec (by decide)

theorem toUInt16_toInt16 (n : Int32) : n.toInt16.toUInt16 = n.toUInt32.toUInt16 := by
  refine UInt16.toBitVec_inj.mp ?_
  exact BitVec.signExtend_eq_setWidth_of_le n.toBitVec (by decide)

/-! ## Reading -/

variable {P : Vm → Prop} {turns : Nat} {v : Vm} {q q' : UInt64} {c : Cpu} {m : Guarded}
  {a : Activation} {b : Program} {bcp p r : UInt64} {x : Contents} {place : CodeLabel → UInt64}
  {ctx : CodeContext} {inStub : Bool} {K S : List CodeLabel} {id : ClassId} {cells : List Cell}
  {cell : Cell} {k : Nat}

namespace Stands

/-- The address of a field, for a register that holds the object and one that holds the offset. -/
theorem field (h : Stands a b bcp p x v c m) (hr : x.heap r = some ⟨id, .fields cells⟩)
    (inside : k < cells.length) {object offset : Register} (base : c.reg object = r)
    (distance : (c.reg offset).toNat = 16 + 8 * k) :
    (c.target (.index object offset 0)).toNat = r.toNat + 16 + 8 * k ∧
      ∀ n : UInt64, n.toNat ≤ 8 → m.Open (c.target (.index object offset 0)) n := by
  have size : (Object.mk id (.fields cells)).size = 16 + 8 * cells.length := rfl
  have target : c.target (.index object offset 0) = r + c.reg offset := by
    rw [Cpu.target_index, base]
    exact congrArg (r + ·) UInt64.shiftLeft_zero
  rw [target]
  refine ⟨?_, fun n hn => (h.open_object hr (by omega)).2⟩
  obtain ⟨address, -⟩ := h.open_object hr (k := c.reg offset) (n := 8) (by
    change _ + 8 ≤ _
    omega)
  omega

/-- A field is loaded as its type asks for. -/
theorem runReadField (h : Stands a b bcp p x v c m) (hr : x.heap r = some ⟨id, .fields cells⟩)
    (hc : cells[k]? = some cell) (base : c.reg .x0 = r)
    (distance : (c.reg .x1).toNat = 16 + 8 * k)
    (lay : Lays ⟨v.image.code, place⟩ ctx inStub K S (readField cell.state) q q' ())
    (next : ∀ c', Stands a b bcp p x v c' m → cell.value.Held c' cell.state →
      (∀ r, r ≠ .x0 → c'.reg r = c.reg r) → Vm.Arrives P turns (v.moved q' c' m)) :
    Vm.Arrives P (turns + 1) (v.moved q c m) := by
  have inside : k < cells.length := (List.getElem?_eq_some_iff.mp hc).1
  obtain ⟨address, ok⟩ := h.field hr inside base distance
  obtain ⟨-, holds⟩ := h.heap.holds _ _ hr
  have bits : load m.bytes (r.toNat + 16 + 8 * k) cell.width = cell.bits := holds k cell hc
  rw [← address] at bits
  have loaded (n : UInt64) (held : cell.value.Held (c.setReg .x0 n) cell.state) :
      Vm.Arrives P turns (v.moved q' (c.setReg .x0 n) m) :=
    next _ (h.setReg .x0 n rfl) held fun _ other => Cpu.reg_setReg_ne _ _ other
  have own (n : UInt64) : (c.setReg .x0 n).reg .x0 = n := Cpu.reg_setReg_self _ _ (by decide)
  cases cell with
  | byte n =>
    obtain ⟨i, rfl⟩ := Lays.emit (i := .load .x0 (.index .x0 .x1 0) .byte true) lay
    refine .loadSigned i (ok _ (by decide)) (loaded _ ((own _).trans ?_))
    exact (congrArg (Width.byte.signExtend ·) bits).trans (signExtend_byte n)
  | boolean n =>
    obtain ⟨i, rfl⟩ := Lays.emit (i := .load .x0 (.index .x0 .x1 0) .byte false) lay
    refine .load i (ok _ (by decide)) (loaded _ ((own _).trans (bits.trans ?_)))
    have bound := n.toNat_lt
    rw [toInt64_of_small _ (by rw [UInt8.toNat_toUInt32]; omega)]
    exact (UInt8.toUInt64_toUInt32 n).symm
  | char unit =>
    obtain ⟨i, rfl⟩ := Lays.emit (i := .load .x0 (.index .x0 .x1 0) .half false) lay
    refine .load i (ok _ (by decide)) (loaded _ ((own _).trans (bits.trans ?_)))
    have bound := unit.toNat_lt
    rw [toInt64_of_small _ (by rw [UInt16.toNat_toUInt32]; omega)]
    exact (UInt16.toUInt64_toUInt32 unit).symm
  | short n =>
    obtain ⟨i, rfl⟩ := Lays.emit (i := .load .x0 (.index .x0 .x1 0) .half true) lay
    refine .loadSigned i (ok _ (by decide)) (loaded _ ((own _).trans ?_))
    exact (congrArg (Width.half.signExtend ·) bits).trans (signExtend_half n)
  | int n =>
    obtain ⟨i, rfl⟩ := Lays.emit (i := .load .x0 (.index .x0 .x1 0) .word true) lay
    refine .loadSigned i (ok _ (by decide)) (loaded _ ((own _).trans ?_))
    exact (congrArg (Width.word.signExtend ·) bits).trans (signExtend_word n)
  | long n =>
    obtain ⟨i, rfl⟩ := Lays.emit (i := .load .x0 (.index .x0 .x1 0) .double false) lay
    exact .load i (ok _ (by decide)) (loaded _ ((own _).trans bits))
  | float w =>
    obtain ⟨i, rfl⟩ := Lays.emit (i := .loadFloat .v0 (.index .x0 .x1 0) .single) lay
    refine .loadFloat i (ok _ (by decide)) (next _ (h.setFloat .v0 _) ?_ fun _ _ => rfl)
    change (Cpu.float _ .v0).toUInt32 = w
    rw [Cpu.float_setFloat, if_pos rfl]
    exact (congrArg UInt64.toUInt32 bits).trans (UInt32.toUInt32_toUInt64 w)
  | double w =>
    obtain ⟨i, rfl⟩ := Lays.emit (i := .loadFloat .v0 (.index .x0 .x1 0) .double) lay
    refine .loadFloat i (ok _ (by decide)) (next _ (h.setFloat .v0 _) ?_ fun _ _ => rfl)
    change Cpu.float _ .v0 = w
    rw [Cpu.float_setFloat, if_pos rfl]
    exact bits
  | object reference =>
    obtain ⟨i, rfl⟩ := Lays.emit (i := .load .x0 (.index .x0 .x1 0) .double false) lay
    exact .load i (ok _ (by decide)) (loaded _ ((own _).trans bits))

end Stands

/-! ## The marker -/

/-- The marker notes the reference that it is given. -/
theorem Vm.serve_markBarrier (steps : UInt64) (watched : List (UInt64 × UInt64)) :
    Vm.serve .markBarrier ((v.moved q c m).counted steps watched) = .ok ()
      (({ v with marks := v.marks.enqueue (c.reg .x0) }.moved (c.reg .link) c m).counted steps
        watched) :=
  (Vm.serve_leaf rfl rfl).trans rfl

/-- Where the code of the barrier lies that is left at `q'`. The call of the marker ends at `r`. -/
structure BarrierAt (F : Finished) (ctx : CodeContext) (inStub : Bool) (q r q' : UInt64) :
    Prop where
  flag : F.code.Fetches q (.movImm .scratch1 Place.markingActive)
  active : F.code.Fetches (q + 4) (.load .scratch1 (.base .scratch1 0) .byte false)
  off : F.code.Fetches (q + 4 + 4) (.branchZero .scratch1 q')
  old : F.code.Fetches (q + 4 + 4 + 4) (.load .x5 (.index .x3 .x1 0) .double false)
  null : F.code.Fetches (q + 4 + 4 + 4 + 4) (.branchZero .x5 q')
  save : F.code.Fetches (q + 4 + 4 + 4 + 4 + 4) (.storePair .x0 .x1 (.pre .sp (-16)))
  saveOther : F.code.Fetches (q + 4 + 4 + 4 + 4 + 4 + 4) (.storePair .x3 .x4 (.pre .sp (-16)))
  call : ∃ K S, Lays F ctx inStub K S (callLeaf .markBarrier [.x5])
    (q + 4 + 4 + 4 + 4 + 4 + 4 + 4) r ()
  restoreOther : F.code.Fetches r (.loadPair .x3 .x4 (.post .sp 16))
  restore : F.code.Fetches (r + 4) (.loadPair .x0 .x1 (.post .sp 16))
  ends : q' = r + 4 + 4

theorem Lays.barrier {F : Finished} (on : ctx.settings.markBarrier = true)
    (lay : Lays F ctx inStub K S (Emit.markBarrier .x3 .x1) q q' ()) :
    ∃ r, BarrierAt F ctx inStub q r q' := by
  unfold Emit.markBarrier at lay
  replace lay := lay.settings_bind.ite_pos on
  obtain ⟨done, lay⟩ := lay.newLabel_bind
  obtain ⟨flag, lay⟩ := lay.emit_bind
  obtain ⟨active, lay⟩ := lay.emit_bind
  obtain ⟨off, lay⟩ := lay.emitTo_bind
  obtain ⟨old, lay⟩ := lay.emit_bind
  obtain ⟨null, lay⟩ := lay.emitTo_bind
  obtain ⟨save, lay⟩ := lay.emit_bind
  obtain ⟨saveOther, lay⟩ := lay.emit_bind
  obtain ⟨⟨⟩, r, call, lay⟩ := lay.split
  obtain ⟨restoreOther, lay⟩ := lay.emit_bind
  obtain ⟨restore, lay⟩ := lay.emit_bind
  obtain ⟨here, ends⟩ := lay.bind
  rw [here] at off null
  exact ⟨r, flag, active, ends ▸ off, old, ends ▸ null, save, saveOther, ⟨_, _, call⟩, restoreOther,
    restore, ends⟩

theorem Lays.barrier_off {F : Finished} (off : ctx.settings.markBarrier ≠ true)
    (lay : Lays F ctx inStub K S (Emit.markBarrier .x3 .x1) q q' ()) : q' = q := by
  unfold Emit.markBarrier at lay
  exact (lay.settings_bind.ite_neg off).ended.1

namespace Stands

theorem marked (h : Stands a b bcp p x v c m) (marks : Memory.MarkQueue) :
    Stands a b bcp p x { v with marks } c m :=
  h.ofVm rfl { h.inhabits with }

/-- The code goes on with the old value in a register if marking is active and there is one. -/
theorem runLoadOld (h : Stands a b bcp p x v c m) {r : UInt64}
    (ok : m.Open (c.target (.index .x3 .x1 0)) 8)
    (laid : BarrierAt ⟨v.image.code, place⟩ ctx inStub q r q')
    (skip : ∀ c', load m.bytes Place.markingActive.toNat 1 = 0 ∨
        load m.bytes (c.target (.index .x3 .x1 0)).toNat 8 = 0 → Stands a b bcp p x v c' m →
      (∀ r, r ≠ .scratch1 → r ≠ .x5 → c'.reg r = c.reg r) → Vm.Arrives P turns (v.moved q' c' m))
    (next : ∀ c', load m.bytes Place.markingActive.toNat 1 ≠ 0 →
      c'.reg .x5 = load m.bytes (c.target (.index .x3 .x1 0)).toNat 8 → Stands a b bcp p x v c' m →
      (∀ r, r ≠ .scratch1 → r ≠ .x5 → c'.reg r = c.reg r) →
      Vm.Arrives P turns (v.moved (q + 4 + 4 + 4 + 4 + 4) c' m)) :
    Vm.Arrives P (turns + 5) (v.moved q c m) := by
  have records := h.fits.records
  have readable : m.Open Place.markingActive 1 := h.open_below (by decide) (by
    change 0x1010 + 1 ≤ _
    omega)
  generalize word : load m.bytes Place.markingActive.toNat 1 = active at skip next
  refine .movImm laid.flag <| .loadAt (Cpu.reg_setReg_self _ _ (by decide)) laid.active rfl readable
    word ?_
  refine .branchZero laid.off (fun off => ?_) fun marking => ?_
  · rw [Cpu.reg_setReg_self _ _ (by decide)] at off
    exact (skip _ (.inl off) ((h.setReg .scratch1 _ rfl).setReg .scratch1 _ rfl)
      fun r h₁ _ => by rw [Cpu.reg_setReg_ne _ _ h₁, Cpu.reg_setReg_ne _ _ h₁]).le (by omega)
  rw [Cpu.reg_setReg_self _ _ (by decide)] at marking
  have field : ((c.setReg .scratch1 Place.markingActive).setReg .scratch1 active).target
      (.index .x3 .x1 0) = c.target (.index .x3 .x1 0) := by
    simp +decide only [Cpu.target_index, Cpu.reg_setReg, ↓reduceIte]
  refine .load laid.old (field ▸ ok) ?_
  rw [Cpu.rebase_index, field]
  change Vm.Arrives P _ (v.moved _
    (Cpu.setReg _ .x5 (load m.bytes (c.target (.index .x3 .x1 0)).toNat 8)) m)
  generalize load m.bytes (c.target (.index .x3 .x1 0)).toNat 8 = old at skip next
  have h₃ := ((h.setReg .scratch1 Place.markingActive rfl).setReg .scratch1 active rfl).setReg .x5
    old rfl
  have same (r : Register) (h₁ : r ≠ .scratch1) (h₅ : r ≠ .x5) :
      (((c.setReg .scratch1 Place.markingActive).setReg .scratch1 active).setReg .x5 old).reg r =
        c.reg r := by
    rw [Cpu.reg_setReg_ne _ _ h₅, Cpu.reg_setReg_ne _ _ h₁, Cpu.reg_setReg_ne _ _ h₁]
  have x5 : (((c.setReg .scratch1 Place.markingActive).setReg .scratch1 active).setReg .x5 old).reg
      .x5 = old := Cpu.reg_setReg_self _ _ (by decide)
  exact .branchZero laid.null (fun null => skip _ (.inr (x5.symm.trans null)) h₃ same) fun _ =>
    next _ marking x5 h₃ same

/-- The marker gets the reference while the registers of the store are on the stack. -/
theorem runTellMarker (h : Stands a b bcp p x v c m) (roomy : a.Roomy ctx.settings b.maxStack)
    (uses : ctx.settings.usesStack = true) {r : UInt64}
    (laid : BarrierAt ⟨v.image.code, place⟩ ctx inStub q r q')
    (next : ∀ c' m', Stands a b bcp p x { v with marks := v.marks.enqueue (c.reg .x5) } c' m' →
      c'.reg .x0 = c.reg .x0 → c'.reg .x1 = c.reg .x1 → c'.reg .x3 = c.reg .x3 →
      m.Changed m' (a.sp.toNat - 32) a.sp.toNat →
      Vm.Arrives P turns (({ v with marks := v.marks.enqueue (c.reg .x5) } : Vm).moved q' c' m')) :
    Vm.Arrives P (turns + 8) (v.moved (q + 4 + 4 + 4 + 4 + 4) c m) := by
  obtain ⟨_, _, call⟩ := laid.call
  unfold Emit.callLeaf at call
  rw [show Emit.passArguments Register.arguments [.x5] = mov .x0 .x5 >>= fun _ => pure () from rfl]
    at call
  obtain ⟨⟨⟩, _, passed, call⟩ := call.split
  obtain ⟨j₁, passed⟩ := passed.emit_bind
  obtain ⟨rfl, -⟩ := passed.ended
  obtain ⟨j₂, call⟩ := call.emit_bind
  obtain ⟨j₃, rfl⟩ := call.emit
  obtain ⟨-, low, high, top⟩ := h.room roomy uses (k := 32) (by decide)
  refine h.runSavePair laid.save (by omega) high top fun m₁ sp₁ h₁ first₁ last₁ changed₁ => ?_
  have inner : a.low + 16 ≤ (a.sp + -16).toNat := by omega
  have inner' : (a.sp + -16).toNat ≤ a.locals.toNat + 8 := by omega
  refine h₁.runSavePair laid.saveOther inner ?_ inner' fun m₂ sp₂ h₂ first₂ last₂ changed₂ => ?_
  · change (a.sp + -16).toNat ≤ p.toNat
    omega
  refine .mov j₁ (.movImm j₂ (.callTo j₃ ?_))
  rw [Cpu.reg_setReg_self _ _ (by decide)]
  refine .service Vm.serve_markBarrier ⟨fun quiet => quiet, rfl, rfl⟩ ?_
  simp +decide only [Cpu.reg_setReg, ↓reduceIte]
  generalize v.marks.enqueue (c.reg .x5) = marks at next
  refine Stands.runRestorePair (a := { a with sp := a.sp + -16 })
    ((((h₂.setReg .x0 _ rfl).setReg .scratch1 _ rfl).setReg .link _ rfl).marked marks)
    laid.restoreOther inner inner' first₂ last₂ (by decide) fun h₃ => ?_
  have kept := changed₂.agrees (s := a.sp.toNat - 16) (t := a.sp.toNat) (.inr (Nat.le_of_eq sp₁))
  refine Stands.runRestorePair (a := a) h₃ laid.restore (by omega) top
    ((kept.load (Nat.le_refl _) (by omega)).trans first₁)
    ((kept.load (by omega) (by omega)).trans last₁) (by decide) fun h₄ => ?_
  rw [← laid.ends]
  refine next _ m₂ h₄ ?_ ?_ ?_ ?_
  · simp +decide only [Cpu.reg_setReg, ↓reduceIte]
  · simp +decide only [Cpu.reg_setReg, ↓reduceIte]
  · simp +decide only [Cpu.reg_setReg, ↓reduceIte]
  · dsimp only at changed₂
    exact (changed₁.mono (by omega) (by omega)).trans (changed₂.mono (by omega) (by omega))

/-- The old value is handed to the marker, and the registers of the store are left as they are. -/
theorem runMarkBarrier (h : Stands a b bcp p x v c m) (roomy : a.Roomy ctx.settings b.maxStack)
    (ok : m.Open (c.target (.index .x3 .x1 0)) 8)
    (lay : Lays ⟨v.image.code, place⟩ ctx inStub K S (Emit.markBarrier .x3 .x1) q q' ())
    (next : ∀ (v' : Vm) c' m', v.Continues ctx.settings
        (some [load m.bytes (c.target (.index .x3 .x1 0)).toNat 8]) [] m v' m' →
      Stands a b bcp p x v' c' m' →
      c'.reg .x0 = c.reg .x0 → c'.reg .x1 = c.reg .x1 → c'.reg .x3 = c.reg .x3 →
      Vm.Arrives P turns (v'.moved q' c' m')) : Vm.Arrives P (turns + 13) (v.moved q c m) := by
  by_cases on : ctx.settings.markBarrier = true
  · obtain ⟨r, laid⟩ := lay.barrier on
    have uses : ctx.settings.usesStack = true := by simp [Settings.usesStack, on]
    refine h.runLoadOld ok laid (fun c' none h' same => ?_) fun c₁ marking x5 h₁ same => ?_
    · exact (next v c' m (.of_unqueued (none.imp_left fun off _ => off)) h'
        (same _ (by decide) (by decide)) (same _ (by decide) (by decide))
        (same _ (by decide) (by decide))).le (by omega)
    refine h₁.runTellMarker roomy uses laid fun c₂ m₂ h₂ x0 x1 x3 changed => ?_
    obtain ⟨-, low, high, top⟩ := h.room roomy uses (k := 32) (by decide)
    have records := h.fits.records
    have heap := h.fits.low
    refine next _ c₂ m₂ (.of_marks rfl changed.guards ?_ (changed.agrees (.inl (by omega)))) h₂
      (x0.trans (same _ (by decide) (by decide))) (x1.trans (same _ (by decide) (by decide)))
      (x3.trans (same _ (by decide) (by decide)))
    unfold Vm.queueing
    rw [if_pos ⟨on, marking⟩, x5]
    rfl
  · obtain rfl := lay.barrier_off on
    exact (next v c m (.of_unqueued (.inl fun on' => absurd on' on)) h rfl rfl rfl).le (by omega)

end Stands

/-! ## Writing -/

namespace Guest.Cell

section
variable {w word : UInt64} (n : Int32)

theorem byte_in_put (ok : m.Open w 1) :
    (byte n.toInt8).In (m.put w 1 n.toInt64.toUInt64) w.toNat := by
  refine (Guarded.load_put_byte ok).trans (congrArg UInt8.toUInt64 ?_)
  rw [toUInt8_toInt64, toUInt8_toInt8]

theorem boolean_in_put (ok : m.Open w 1) :
    (boolean n.toUInt32.toUInt8).In (m.put w 1 n.toInt64.toUInt64) w.toNat := by
  refine (Guarded.load_put_byte ok).trans (congrArg UInt8.toUInt64 ?_)
  rw [toUInt8_toInt64]

theorem char_in_put (ok : m.Open w 2) :
    (char n.toUInt32.toUInt16).In (m.put w 2 n.toInt64.toUInt64) w.toNat := by
  refine (Guarded.load_put_half ok).trans (congrArg UInt16.toUInt64 ?_)
  rw [toUInt16_toInt64]

theorem short_in_put (ok : m.Open w 2) :
    (short n.toInt16).In (m.put w 2 n.toInt64.toUInt64) w.toNat := by
  refine (Guarded.load_put_half ok).trans (congrArg UInt16.toUInt64 ?_)
  rw [toUInt16_toInt64, toUInt16_toInt16]

theorem int_in_put (ok : m.Open w 4) :
    (int n).In (m.put w 4 n.toInt64.toUInt64) w.toNat := by
  refine (Guarded.load_put_word ok).trans (congrArg UInt32.toUInt64 ?_)
  rw [toUInt32_toInt64]

theorem long_in_put (ok : m.Open w 8) (n : Int64) :
    (long n).In (m.put w 8 n.toUInt64) w.toNat := Guarded.load_put ok

theorem double_in_put (ok : m.Open w 8) (bits : UInt64) :
    (double bits).In (m.put w 8 bits) w.toNat := Guarded.load_put ok

theorem object_in_put (ok : m.Open w 8) (reference : UInt64) :
    (object reference).In (m.put w 8 reference) w.toNat := Guarded.load_put ok

theorem float_in_put {bits : UInt32} (ok : m.Open w 4) (h : word.toUInt32 = bits) :
    (float bits).In (m.put w 4 word) w.toNat :=
  (Guarded.load_put_word ok).trans (congrArg UInt32.toUInt64 h)

end
end Guest.Cell

/-- A field of an object is written. -/
theorem Guest.Object.In.setField {t : ClassTable} {base : Nat} {w n word : UInt64}
    (h : Object.In m t base ⟨id, .fields cells⟩) (address : w.toNat = base + 16 + 8 * k)
    (width : n.toNat ≤ 8) (holds : cell.In (m.put w n word) w.toNat) :
    Object.In (m.put w n word) t base ⟨id, .fields (cells.set k cell)⟩ := by
  obtain ⟨record, cellsIn⟩ := h
  refine ⟨?_, fun j cell' hj => ?_⟩
  · rw [Guarded.load_put_of_disjoint (by omega)]
    exact record
  · rw [List.getElem?_set] at hj
    split at hj
    · next here =>
      obtain ⟨-, ⟨⟩⟩ := Option.ite_none_right_eq_some.mp hj
      rw [← here, ← address]
      exact holds
    · next other =>
      have small := cell'.width_le
      have kept := cellsIn j cell' hj
      unfold Cell.In at kept ⊢
      rw [Guarded.load_put_of_disjoint (by omega), kept]

namespace Stands

section
variable (h : Stands a b bcp p x v c m) (hr : x.heap r = some ⟨id, .fields cells⟩)
  (inside : k < cells.length) (base : c.reg .x3 = r) (distance : (c.reg .x1).toNat = 16 + 8 * k)
include h hr inside base distance

/-- The field of an object has what is stored there. -/
theorem storeField {n word : UInt64} (width : n.toNat ≤ 8)
    (holds : ∀ w, m.Open w n → cell.In (m.put w n word) w.toNat) :
    m.Open (c.target (.index .x3 .x1 0)) n ∧
      Stands a b bcp p { x with heap := x.heap.update r ⟨id, .fields (cells.set k cell)⟩ } v c
        (m.put (c.target (.index .x3 .x1 0)) n word) ∧
      ∀ s, v.Continues s (some []) [] m v (m.put (c.target (.index .x3 .x1 0)) n word) := by
  obtain ⟨address, ok⟩ := h.field hr inside base distance
  have changed := Guarded.changed_put m (c.target (.index .x3 .x1 0)) n word
  have above := h.heap.above r _ hr
  refine ⟨ok n width, h.update hr changed ?_ ?_ rfl ?_
    ((h.heap.holds _ _ hr).setField address width (holds _ (ok n width))),
    fun s => h.continues changed (by omega)⟩
  · omega
  · rw [address]
    change _ ≤ r.toNat + (16 + 8 * cells.length)
    omega
  · change 16 + 8 * (cells.set _ _).length = 16 + 8 * cells.length
    rw [List.length_set]

theorem runStoreField {n : Width}
    (i : v.image.code.Fetches q (.store .x0 (.index .x3 .x1 0) n))
    (holds : ∀ w, m.Open w n.bytes → cell.In (m.put w n.bytes (c.reg .x0)) w.toNat)
    (next : ∀ m', Stands a b bcp p
        { x with heap := x.heap.update r ⟨id, .fields (cells.set k cell)⟩ } v c m' →
      (∀ s, v.Continues s (some []) [] m v m') →
      Vm.Arrives P turns (v.moved (q + 4) c m')) : Vm.Arrives P (turns + 1) (v.moved q c m) := by
  obtain ⟨ok, stored, continues⟩ := h.storeField hr inside base distance (by cases n <;> decide) holds
  exact .store i ok (next _ stored continues)

theorem runStoreFloatField {n : Precision}
    (i : v.image.code.Fetches q (.storeFloat .v0 (.index .x3 .x1 0) n))
    (holds : ∀ w, m.Open w n.bytes → cell.In (m.put w n.bytes (c.float .v0)) w.toNat)
    (next : ∀ m', Stands a b bcp p
        { x with heap := x.heap.update r ⟨id, .fields (cells.set k cell)⟩ } v c m' →
      (∀ s, v.Continues s (some []) [] m v m') →
      Vm.Arrives P turns (v.moved (q + 4) c m')) : Vm.Arrives P (turns + 1) (v.moved q c m) := by
  obtain ⟨ok, stored, continues⟩ := h.storeField hr inside base distance (by cases n <;> decide) holds
  exact .storeFloat i ok (next _ stored continues)

/-- A field takes as many bytes of the held value as it has. -/
theorem runWriteField (roomy : a.Roomy ctx.settings b.maxStack) {w : Value} {state : TopOfStack}
    (kind : Cell.ofValue? state w = some cell) (held : w.Held c state)
    (lay : Lays ⟨v.image.code, place⟩ ctx inStub K S (writeField state) q q' ())
    (next : ∀ (v' : Vm) c' m',
      v.Continues ctx.settings (Cell.overwritten? state cells[k]?) [] m v' m' →
      Stands a b bcp p { x with heap := x.heap.update r ⟨id, .fields (cells.set k cell)⟩ } v' c' m' →
      Vm.Arrives P turns (v'.moved q' c' m')) : Vm.Arrives P (turns + 14) (v.moved q c m) := by
  unfold Cell.ofValue? at kind
  split at kind
  case h_1 n =>
    cases kind
    obtain ⟨i, rfl⟩ := Lays.emit (i := .store .x0 (.index .x3 .x1 0) .byte) lay
    exact h.runStoreField hr inside base distance i
      (fun w ok => held.symm ▸ Cell.byte_in_put n ok)
      fun m' h continues => (next v c m' (continues _) h).le (by omega)
  case h_2 n =>
    cases kind
    obtain ⟨i, rfl⟩ := Lays.emit (i := .store .x0 (.index .x3 .x1 0) .byte) lay
    exact h.runStoreField hr inside base distance i
      (fun w ok => held.symm ▸ Cell.boolean_in_put n ok)
      fun m' h continues => (next v c m' (continues _) h).le (by omega)
  case h_3 n =>
    cases kind
    obtain ⟨i, rfl⟩ := Lays.emit (i := .store .x0 (.index .x3 .x1 0) .half) lay
    exact h.runStoreField hr inside base distance i
      (fun w ok => held.symm ▸ Cell.char_in_put n ok)
      fun m' h continues => (next v c m' (continues _) h).le (by omega)
  case h_4 n =>
    cases kind
    obtain ⟨i, rfl⟩ := Lays.emit (i := .store .x0 (.index .x3 .x1 0) .half) lay
    exact h.runStoreField hr inside base distance i
      (fun w ok => held.symm ▸ Cell.short_in_put n ok)
      fun m' h continues => (next v c m' (continues _) h).le (by omega)
  case h_5 n =>
    cases kind
    obtain ⟨i, rfl⟩ := Lays.emit (i := .store .x0 (.index .x3 .x1 0) .word) lay
    exact h.runStoreField hr inside base distance i
      (fun w ok => held.symm ▸ Cell.int_in_put n ok)
      fun m' h continues => (next v c m' (continues _) h).le (by omega)
  case h_6 n =>
    cases kind
    obtain ⟨i, rfl⟩ := Lays.emit (i := .store .x0 (.index .x3 .x1 0) .double) lay
    exact h.runStoreField hr inside base distance i
      (fun w ok => held.symm ▸ Cell.long_in_put ok n)
      fun m' h continues => (next v c m' (continues _) h).le (by omega)
  case h_7 bits =>
    cases kind
    obtain ⟨i, rfl⟩ := Lays.emit (i := .storeFloat .v0 (.index .x3 .x1 0) .single) lay
    exact h.runStoreFloatField hr inside base distance i
      (fun w ok => Cell.float_in_put ok held)
      fun m' h continues => (next v c m' (continues _) h).le (by omega)
  case h_8 bits =>
    cases kind
    obtain ⟨i, rfl⟩ := Lays.emit (i := .storeFloat .v0 (.index .x3 .x1 0) .double) lay
    exact h.runStoreFloatField hr inside base distance i
      (fun w ok => held.symm ▸ Cell.double_in_put ok bits)
      fun m' h continues => (next v c m' (continues _) h).le (by omega)
  case h_9 reference =>
    cases kind
    obtain ⟨⟨⟩, r₁, marking, lay⟩ := Lays.split (m := Emit.markBarrier .x3 .x1)
      (f := fun _ => str .x0 (.index .x3 .x1 0)) lay
    obtain ⟨i, rfl⟩ := lay.emit
    obtain ⟨address, ok⟩ := h.field hr inside base distance
    refine h.runMarkBarrier roomy (ok 8 (by decide)) marking
      fun v' c' m' continues h' x0 x1 x3 => ?_
    rw [← continues.image] at i
    refine h'.runStoreField hr inside (x3.trans base) (x1 ▸ distance) i
      (fun w ok => (x0.trans held).symm ▸ Cell.object_in_put ok reference)
      fun m'' h'' stored => next v' c' m'' ((continues.trans (stored _)).mono fun l known => ?_) h''
    unfold Cell.overwritten? at known
    rw [if_pos rfl] at known
    split at known
    · next old before =>
      cases known
      obtain ⟨-, holds⟩ := h.heap.holds _ _ hr
      rw [address, show load m.bytes (r.toNat + 16 + 8 * k) 8 = old from holds k _ before]
      rfl
    · cases known
  case h_10 => cases kind

end
end Stands

end TemplateVm
