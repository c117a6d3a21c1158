import TemplateVm.Proofs.Activation.Represents

set_option autoImplicit false

/-!
# What changes and what stays

Registers that templates use freely, and writes to memory that no part of an activation is in,
leave the activation as it is.
-/
namespace TemplateVm

open Memory (Guarded load)
open Guest

namespace Activation

variable {a : Activation} {b : Program} {i : Image} {m m' : Guarded} {t : ClassTable} {h : Heap}

/-! ## The parts in memory -/

/-- Where the slot for a state and a byte lies in a table. -/
theorem slot_toNat {table : UInt64} (h : table.toNat + 0x5000 < 2 ^ 64) (tos : TopOfStack)
    (byte : UInt8) : (Place.dispatchSlot table tos byte).toNat =
      table.toNat + 8 * (256 * tos.index + byte.toNat) := by
  have hb : byte.toNat < 256 := byte.toNat_lt
  have ht : tos.index < 10 := by cases tos <;> decide
  have index : tos.index.toUInt64.toNat = tos.index :=
    UInt64.toNat_ofNat_of_lt' (by change _ < 2 ^ 64; omega)
  simp only [Place.dispatchSlot, UInt64.toNat_add, UInt64.toNat_mul, index, UInt8.toNat_toUInt64]
  change (table.toNat + (tos.index * 256 % 2 ^ 64 + byte.toNat) % 2 ^ 64 * 8 % 2 ^ 64) % 2 ^ 64 = _
  omega

theorem dispatchSlot_toNat (tos : TopOfStack) (byte : UInt8) :
    (Place.dispatchSlot Place.activeTable tos byte).toNat =
      0x10000 + 8 * (256 * tos.index + byte.toNat) :=
  slot_toNat (by decide) tos byte

theorem Recorded.agrees {id : ClassId} (hr : a.Recorded t m id)
    (ha : m.Agrees m' 0x20000 a.heap.toNat) : a.Recorded t m' id where
  above := hr.above
  below := hr.below
  super super hs := by
    have above := hr.above
    rw [ha.load (by omega) hr.below, hr.super super hs]

theorem Linked.agrees {e : Nat} {op : Bytecode.Operation} (hl : Linked b m e op)
    (ha : m.Agrees m' e (e + 32)) : Linked b m' e op := by
  unfold Linked at hl ⊢
  split at hl
  · intro slot hs
    rw [ha.load (by omega) (by omega), ha.load (by omega) (by omega),
      ha.load (by omega) (by omega)]
    exact hl slot hs
  · intro slot hs
    rw [ha.load (by omega) (by omega), ha.load (by omega) (by omega),
      ha.load (by omega) (by omega)]
    exact hl slot hs
  · intro id hs
    rw [ha.load (by omega) (by omega), ha.load (by omega) (by omega)]
    exact hl id hs
  · trivial

/-- What is loaded stays loaded when another table is made active. -/
theorem Loaded.switched {i' : Image} (hl : a.Loaded i b m)
    (ha : m.Agrees m' 0x20000 a.heap.toNat)
    (table : ∀ (tos : TopOfStack) (o : Opcode),
      load m'.bytes (Place.dispatchSlot Place.activeTable tos o.byte).toNat 8 =
        i'.normalTable.get tos o.byte) : a.Loaded i' b m' where
  table := table
  code := by
    obtain ⟨native, order, fits, bytes⟩ := hl.code
    have above := hl.codeAbove
    refine ⟨native, order, fits, fun k byte hk => ?_⟩
    have lt : k < native.length := (List.getElem?_eq_some_iff.mp hk).1
    rw [ha _ (by omega) (by omega), bytes k byte hk]
  codeAbove := hl.codeAbove
  cacheAbove := hl.cacheAbove
  linked op mem is := by
    obtain ⟨below, linked⟩ := hl.linked op mem is
    have above := hl.cacheAbove
    refine ⟨below, linked.agrees (ha.mono ?_ below)⟩
    rw [entry]
    omega
  classes id known := (hl.classes id known).agrees ha

theorem Loaded.agrees (hl : a.Loaded i b m) (records : 0x20000 ≤ a.heap.toNat)
    (ha : m.Agrees m' 0x10000 a.heap.toNat) : a.Loaded i b m' := by
  refine hl.switched (ha.mono (by decide) (Nat.le_refl _)) fun tos o => ?_
  have slot := dispatchSlot_toNat tos o.byte
  have hb : o.byte.toNat < 256 := o.byte.toNat_lt
  have ht : tos.index < 10 := by cases tos <;> decide
  rw [ha.load (by omega) (by omega), hl.table tos o]

theorem Idle.agrees (hi : a.Idle m) (ha : m.Agrees m' a.thread.toNat (a.thread.toNat + 8))
    (hp : m.Agrees m' (a.thread.toNat + 48) (a.thread.toNat + 52)) : a.Idle m' where
  pending := by rw [ha.load (by omega) (by omega), hi.pending]
  pop := by rw [hp.load (by omega) (by omega), hi.pop]

/-- The word for the bytecode does not count. -/
theorem Framed.agrees (hf : a.Framed m) (room : 64 ≤ a.frame.toNat)
    (hl : m.Agrees m' (a.frame.toNat - 64) (a.frame.toNat - 56))
    (hu : m.Agrees m' (a.frame.toNat - 48) (a.frame.toNat - 16)) : a.Framed m' where
  method := by rw [hu.load (by omega) (by omega), hf.method]
  cache := by rw [hu.load (by omega) (by omega), hf.cache]
  locals := by rw [hu.load (by omega) (by omega), hf.locals]
  top := by rw [hl.load (by omega) (by omega), hf.top]

theorem HoldsLocals.agrees {l : Locals} {n : Nat} (hl : a.HoldsLocals n m l)
    (frame : a.frame.toNat + 8 * n ≤ a.locals.toNat + 8)
    (ha : m.Agrees m' a.frame.toNat (a.locals.toNat + 8)) : a.HoldsLocals n m' l := by
  intro k v hv
  obtain ⟨bound, holds⟩ := hl k v hv
  exact ⟨bound, holds.agrees ha (by omega) (by omega)⟩

end Activation

theorem HoldsStack.agrees {m m' : Guarded} {p hi : Nat} {stack : List Value}
    (h : HoldsStack m p stack) (ha : m.Agrees m' p hi) (top : p + 8 * depth stack ≤ hi) :
    HoldsStack m' p stack := by
  induction stack generalizing p with
  | nil => trivial
  | cons v rest ih =>
    obtain ⟨holds, below⟩ := h
    rw [depth, List.map_cons, List.sum_cons] at top
    exact ⟨holds.agrees ha (by omega) (by omega),
      ih below (ha.mono (by omega) (by omega)) (by rw [depth]; omega)⟩

/-- The word for the mark does not count. -/
theorem Guest.Object.In.agrees_body {m m' : Guarded} {t : ClassTable} {r : Nat} {o : Object}
    (h : o.In m t r) (ha : m.Agrees m' (r + 8) (r + o.size)) : o.In m' t r := by
  obtain ⟨id, body⟩ := o
  obtain ⟨record, holds⟩ := h
  cases body with
  | fields cells =>
    simp only [Object.size] at ha holds
    refine ⟨by rw [ha.load (by omega) (by omega), record], fun k cell hk => ?_⟩
    have lt : k < cells.length := (List.getElem?_eq_some_iff.mp hk).1
    have width := cell.width_le
    exact (holds k cell hk).agrees ha (by omega) (by omega)
  | elements type cells =>
    simp only [Object.size] at ha holds
    obtain ⟨small, length, holds⟩ := holds
    refine ⟨by rw [ha.load (by omega) (by omega), record], small,
      by rw [ha.load (by omega) (by omega), length], fun k cell hk => ?_⟩
    have lt : k < cells.length := (List.getElem?_eq_some_iff.mp hk).1
    obtain ⟨width, cellIn⟩ := holds k cell hk
    have room : type.elementSize * k + type.elementSize ≤ type.elementSize * cells.length := by
      rw [← Nat.mul_succ]
      exact Nat.mul_le_mul_left _ lt
    exact ⟨width, cellIn.agrees ha (by omega) (by omega)⟩

theorem Guest.Object.In.agrees {m m' : Guarded} {t : ClassTable} {r : Nat} {o : Object}
    (h : o.In m t r) (ha : m.Agrees m' r (r + o.size)) : o.In m' t r :=
  h.agrees_body (ha.mono (Nat.le_add_right r 8) (Nat.le_refl _))

theorem Activation.HoldsHeap.agrees {a : Activation} {m m' : Guarded} {t : ClassTable} {h : Heap}
    (hh : a.HoldsHeap t m h) (ha : m.Agrees m' a.heap.toNat a.thread.toNat) :
    a.HoldsHeap t m' h where
  holds r o hr := (hh.holds r o hr).agrees (ha.mono (hh.above r o hr) (hh.below r o hr))
  known := hh.known
  above := hh.above
  below := hh.below
  apart := hh.apart

theorem Activation.Fits.congr {a : Activation} {n k : Nat} {m m' : Guarded} (h : a.Fits n k m)
    (size : m'.bytes.size = m.bytes.size) (guards : m'.guards = m.guards) : a.Fits n k m' :=
  { h with clear := h.clear.congr size guards, clearStack := h.clearStack.congr size guards }

theorem Activation.Fits.changed {a : Activation} {n k lo hi : Nat} {m m' : Guarded}
    (h : a.Fits n k m) (hc : m.Changed m' lo hi) : a.Fits n k m' := h.congr hc.size hc.guards

theorem Activation.Fits.low {a : Activation} {n k : Nat} {m : Guarded} (h : a.Fits n k m) :
    a.heap.toNat ≤ a.low := by
  have heap := h.heap
  have thread := h.thread
  omega

/-- A field of the thread's block. -/
theorem Activation.Fits.threadField {a : Activation} {n s : Nat} {m : Guarded} (h : a.Fits n s m)
    {k w : UInt64} (inside : k.toNat + w.toNat ≤ 0x1000) :
    (a.thread + k).toNat = a.thread.toNat + k.toNat ∧ m.Open (a.thread + k) w := by
  have thread := h.thread
  have heap := h.heap
  have records := h.records
  have operands := h.operands
  have top := h.top
  have bound := a.frame.toNat_lt
  have address : (a.thread + k).toNat = a.thread.toNat + k.toNat := toNat_add_of_lt (by omega)
  exact ⟨address, h.clear.open (by omega) (by omega)⟩

/-- A word of the frame about the method. -/
theorem Activation.Fits.frameSlot {a : Activation} {n s : Nat} {m : Guarded} (h : a.Fits n s m)
    {k : UInt64} (hk : k.toNat ≤ 64) (pos : 8 ≤ k.toNat) :
    (a.frame + -k).toNat = a.frame.toNat - k.toNat ∧ m.Open (a.frame + -k) 8 := by
  have top := h.top
  have frame := h.frame
  have operands := h.operands
  have locals := h.locals
  have eight : (8 : UInt64).toNat = 8 := rfl
  have address : (a.frame + -k).toNat = a.frame.toNat - k.toNat := toNat_add_neg (by omega)
  exact ⟨address, h.clearStack.open (by omega) (by omega)⟩

/-! ## What a call of a service can change -/

/-- Two memories that differ at most in the thread's words about the last frame and about the lock,
    and in the stack below what the frame has saved for its sender. -/
structure Activation.Confined (a : Activation) (m m' : Guarded) : Prop where
  size : m'.bytes.size = m.bytes.size
  guards : m'.guards = m.guards
  other : ∀ j, j < a.thread.toNat + 8 ∨ a.thread.toNat + 48 ≤ j ∧ j < a.thread.toNat + 52 ∨
    a.thread.toNat + 53 ≤ j ∧ j < a.low ∨ a.frame.toNat - 8 ≤ j →
      Memory.byteAt m'.bytes j = Memory.byteAt m.bytes j

namespace Activation.Confined

variable {a : Activation} {m m' m'' : Guarded} {lo hi s t : Nat}

theorem refl (a : Activation) (m : Guarded) : a.Confined m m := ⟨rfl, rfl, fun _ _ => rfl⟩

theorem trans (h : a.Confined m m') (h' : a.Confined m' m'') : a.Confined m m'' where
  size := h'.size.trans h.size
  guards := h'.guards.trans h.guards
  other j hj := (h'.other j hj).trans (h.other j hj)

theorem of_changed (h : m.Changed m' lo hi) (within : a.thread.toNat + 8 ≤ lo ∧
    hi ≤ a.thread.toNat + 48 ∨ a.thread.toNat + 52 ≤ lo ∧ hi ≤ a.thread.toNat + 53 ∨
    a.low ≤ lo ∧ hi ≤ a.frame.toNat - 8) (low : a.thread.toNat + 0x1000 ≤ a.low)
    (top : a.low ≤ a.frame.toNat - 8) : a.Confined m m' :=
  ⟨h.size, h.guards, fun j hj => h.other j (by omega)⟩

theorem agrees (h : a.Confined m m') (away : t ≤ a.thread.toNat + 8 ∨
    a.thread.toNat + 48 ≤ s ∧ t ≤ a.thread.toNat + 52 ∨ a.thread.toNat + 53 ≤ s ∧ t ≤ a.low ∨
    a.frame.toNat - 8 ≤ s) : m.Agrees m' s t :=
  fun j _ _ => h.other j (by omega)

theorem clear (h : a.Confined m m') (clear : m.Clear lo hi) : m'.Clear lo hi :=
  clear.congr h.size h.guards

end Activation.Confined

/-! ## What is counted -/

/-- Where the counter for a byte lies. -/
theorem Place.histogram_toNat (k : UInt8) :
    (Place.histogram + k.toUInt64 * 8).toNat = 0x1100 + 8 * k.toNat := by
  have bound := k.toNat_lt
  rw [UInt64.toNat_add, UInt64.toNat_mul, UInt8.toNat_toUInt64]
  change (0x1100 + k.toNat * 8 % 2 ^ 64) % 2 ^ 64 = _
  omega

/-- The counters that the settings ask for have grown by the opcodes of a list: the one for all of
    them by its length, and the one for a byte by how often that byte is in it. -/
structure Memory.Guarded.Counts (s : Settings) (ran : List Opcode) (m m' : Guarded) : Prop where
  total : load m'.bytes 0x1008 8 =
    load m.bytes 0x1008 8 + (if s.needsBytecodeCounter then ran.length else 0).toUInt64
  each : ∀ k : UInt8, load m'.bytes (0x1100 + 8 * k.toNat) 8 =
    load m.bytes (0x1100 + 8 * k.toNat) 8 +
      (if s.histogram then ran.countP (·.byte = k) else 0).toUInt64

namespace Memory.Guarded.Counts

variable {s : Settings} {l l' : List Opcode} {m m' m'' : Guarded}

theorem of_agrees (ha : m.Agrees m' 0x1008 0x1900) : m.Counts s [] m' where
  total := by
    rw [ha.load (by decide) (by decide), List.length_nil, ite_self]
    exact (UInt64.add_zero _).symm
  each k := by
    have bound := k.toNat_lt
    rw [ha.load (by omega) (by omega), List.countP_nil, ite_self]
    exact (UInt64.add_zero _).symm

/-- One counter after the other. -/
theorem of_one {o : Opcode} {k : Nat} (slot : k = 0x1100 + 8 * o.byte.toNat)
    (first : m.Changed m' k (k + 8))
    (counted : load m'.bytes k 8 = load m.bytes k 8 + (if s.histogram then 1 else 0))
    (second : m'.Changed m'' 0x1008 0x1010)
    (total : load m''.bytes 0x1008 8 =
      load m'.bytes 0x1008 8 + (if s.needsBytecodeCounter then 1 else 0)) :
    m.Counts s [o] m'' where
  total := by
    rw [total, (first.agrees (.inl (by omega))).load (Nat.le_refl _) (Nat.le_refl _)]
    split <;> rfl
  each j := by
    have behind : load m''.bytes (0x1100 + 8 * j.toNat) 8 = load m'.bytes (0x1100 + 8 * j.toNat) 8 :=
      (second.agrees (.inr (by omega))).load (Nat.le_refl _) (Nat.le_refl _)
    rw [behind, List.countP_singleton]
    by_cases same : o.byte = j
    · subst same slot
      rw [counted, if_pos (decide_eq_true rfl)]
      split <;> rfl
    · have apart : o.byte.toNat ≠ j.toNat := fun e => same (UInt8.toNat_inj.mp e)
      have none : (if decide (o.byte = j) = true then 1 else 0) = 0 := if_neg (by simpa using same)
      rw [none, ite_self, (first.agrees (by omega)).load (Nat.le_refl _) (Nat.le_refl _)]
      exact (UInt64.add_zero _).symm

theorem trans (h : m.Counts s l m') (h' : m'.Counts s l' m'') : m.Counts s (l ++ l') m'' where
  total := by
    rw [h'.total, h.total, UInt64.add_assoc, List.length_append]
    split
    · exact congrArg (load m.bytes 0x1008 8 + ·) (UInt64.ofNat_add _ _).symm
    · rfl
  each k := by
    rw [h'.each, h.each, UInt64.add_assoc, List.countP_append]
    split
    · exact congrArg (load m.bytes (0x1100 + 8 * k.toNat) 8 + ·) (UInt64.ofNat_add _ _).symm
    · rfl

end Memory.Guarded.Counts

/-! ## What the marker is told -/

/-- The queue of the marker once references in fields are about to be overwritten: it gets them if
    the code has the barrier and memory shows that marking is active. -/
def Vm.queueing (s : Settings) (old : List UInt64) (v : Vm) (m : Guarded) : Memory.MarkQueue :=
  if s.markBarrier = true ∧ load m.bytes Place.markingActive.toNat 1 ≠ 0 then
    old.foldl .enqueue v.marks
  else v.marks

/-- Generated code goes on with the same image and the same guards, and of what it shares with the
    marker only the queue changes: if it is known which references are overwritten in fields, the
    queue gets them. The bytecodes that are begun on the way are counted. -/
structure Vm.Continues (s : Settings) (old : Option (List UInt64)) (ran : List Opcode) (v : Vm)
    (m : Guarded) (v' : Vm) (m' : Guarded) : Prop where
  image : v'.image = v.image
  guards : m'.guards = m.guards
  shown : load m'.bytes Place.markingActive.toNat 1 = load m.bytes Place.markingActive.toNat 1
  marks : ∀ l, old = some l → v'.marks = v.queueing s l m
  counts : m.Counts s ran m'

namespace Vm.Continues

variable {s : Settings} {old old' : Option (List UInt64)} {l l' : List UInt64}
  {ran ran' : List Opcode} {v v' v'' : Vm} {m m' m'' : Guarded}

theorem of_marks (image : v'.image = v.image) (guards : m'.guards = m.guards)
    (marks : v'.marks = v.queueing s l m) (ha : m.Agrees m' 0x1008 0x1900) :
    v.Continues s (some l) [] m v' m' :=
  ⟨image, guards, ha.load (by decide) (by decide), fun _ known => Option.some.inj known ▸ marks,
    .of_agrees ha⟩

theorem of_agrees (image : v'.image = v.image) (guards : m'.guards = m.guards)
    (marks : v'.marks = v.marks) (ha : m.Agrees m' 0x1008 0x1900) :
    v.Continues s (some []) [] m v' m' :=
  of_marks image guards (marks.trans (ite_self v.marks).symm) ha

theorem refl (v : Vm) (m : Guarded) : v.Continues s (some []) [] m v m :=
  of_agrees rfl rfl rfl fun _ _ _ => rfl

theorem of_changed {lo hi : Nat} (hc : m.Changed m' lo hi) (away : 0x1900 ≤ lo ∨ hi ≤ 0x1008) :
    v.Continues s (some []) [] m v m' := of_agrees rfl hc.guards rfl (hc.agrees away)

/-- Null, or a reference while nothing is marked, is not queued. -/
theorem of_unqueued {r : UInt64} (none : (s.markBarrier = true →
    load m.bytes Place.markingActive.toNat 1 = 0) ∨ r = 0) : v.Continues s (some [r]) [] m v m := by
  refine of_marks rfl rfl ?_ fun _ _ _ => rfl
  unfold queueing
  split
  · next on =>
    rcases none with off | rfl
    · exact absurd (off on.1) on.2
    · exact (if_neg fun queued => queued.2 rfl).symm
  · rfl

/-- As long as what is known is right. -/
theorem mono (h : v.Continues s (some l) ran m v' m') (known : ∀ l', old = some l' → l' = l) :
    v.Continues s old ran m v' m' :=
  ⟨h.image, h.guards, h.shown, fun l' hl => known l' hl ▸ h.marks l rfl, h.counts⟩

/-- First some references are overwritten and then others. -/
theorem join {both : Option (List UInt64)} (h : v.Continues s old ran m v' m')
    (h' : v'.Continues s old' ran' m' v'' m'')
    (known : ∀ l, both = some l → ∃ l₁ l₂, old = some l₁ ∧ old' = some l₂ ∧ l = l₁ ++ l₂) :
    v.Continues s both (ran ++ ran') m v'' m'' := by
  refine ⟨h'.image.trans h.image, h'.guards.trans h.guards, h'.shown.trans h.shown,
    fun l hl => ?_, h.counts.trans h'.counts⟩
  obtain ⟨l₁, l₂, hl₁, hl₂, rfl⟩ := known l hl
  rw [h'.marks l₂ hl₂]
  unfold queueing
  rw [h.shown, h.marks l₁ hl₁, List.foldl_append]
  unfold queueing
  split <;> rfl

theorem trans (h : v.Continues s (some l) ran m v' m')
    (h' : v'.Continues s (some l') ran' m' v'' m'') :
    v.Continues s (some (l ++ l')) (ran ++ ran') m v'' m'' :=
  h.join h' fun _ known => ⟨l, l', rfl, rfl, (Option.some.inj known).symm⟩

theorem moved {q q' : UInt64} {c c' : Cpu} (h : v.Continues s old ran m v' m') :
    (v.moved q c m).Continues s old ran m (v'.moved q' c' m') m' :=
  ⟨h.image, h.guards, h.shown, h.marks, h.counts⟩

/-- What comes before and overwrites nothing. -/
theorem after (h : v.Continues s (some []) ran m v' m') (h' : v'.Continues s old ran' m' v'' m'') :
    v.Continues s old (ran ++ ran') m v'' m'' := h.join h' fun l known => ⟨[], l, rfl, known, rfl⟩

end Vm.Continues

/-! ## The registers -/

/-- Templates rely on what is in the register. -/
def Register.isFixed (r : Register) : Bool :=
  r = .thread ∨ r = .frame ∨ r = .locals ∨ r = .cache ∨ r = .dispatch ∨ r = .sp ∨ r = .bytecode ∨
    r = .operands

namespace Activation.Registers

variable {a : Activation} {bcp p p' : UInt64} {c : Cpu}

theorem setReg (h : a.Registers bcp p c) (r : Register) (n : UInt64)
    (hr : r.isFixed = false) : a.Registers bcp p (c.setReg r n) := by
  have other (s : Register) (hs : s.isFixed = true) : (c.setReg r n).reg s = c.reg s :=
    c.reg_setReg_ne n fun e => by rw [e, hr] at hs; cases hs
  exact ⟨(other _ rfl).trans h.thread, (other _ rfl).trans h.frame, (other _ rfl).trans h.locals,
    (other _ rfl).trans h.cache, (other _ rfl).trans h.dispatch, (other _ rfl).trans h.sp,
    (other _ rfl).trans h.bytecode, (other _ rfl).trans h.operands⟩

theorem setOperands (h : a.Registers bcp p c) (p' : UInt64) :
    a.Registers bcp p' (c.setReg .operands p') := by
  have other (s : Register) (hs : s ≠ .operands) : (c.setReg .operands p').reg s = c.reg s :=
    c.reg_setReg_ne p' hs
  exact ⟨(other _ (by decide)).trans h.thread, (other _ (by decide)).trans h.frame,
    (other _ (by decide)).trans h.locals, (other _ (by decide)).trans h.cache,
    (other _ (by decide)).trans h.dispatch, (other _ (by decide)).trans h.sp,
    (other _ (by decide)).trans h.bytecode, c.reg_setReg_self p' (by decide)⟩

theorem setBytecode (h : a.Registers bcp p c) (bcp' : UInt64) :
    a.Registers bcp' p (c.setReg .bytecode bcp') := by
  have other (s : Register) (hs : s ≠ .bytecode) : (c.setReg .bytecode bcp').reg s = c.reg s :=
    c.reg_setReg_ne bcp' hs
  exact ⟨(other _ (by decide)).trans h.thread, (other _ (by decide)).trans h.frame,
    (other _ (by decide)).trans h.locals, (other _ (by decide)).trans h.cache,
    (other _ (by decide)).trans h.dispatch, (other _ (by decide)).trans h.sp,
    c.reg_setReg_self bcp' (by decide), (other _ (by decide)).trans h.operands⟩

theorem congr {c' : Cpu} (h : a.Registers bcp p c)
    (hr : ∀ r : Register, r.isFixed = true → c'.reg r = c.reg r) : a.Registers bcp p c' :=
  ⟨(hr _ rfl).trans h.thread, (hr _ rfl).trans h.frame, (hr _ rfl).trans h.locals,
    (hr _ rfl).trans h.cache, (hr _ rfl).trans h.dispatch, (hr _ rfl).trans h.sp,
    (hr _ rfl).trans h.bytecode, (hr _ rfl).trans h.operands⟩

end Activation.Registers

namespace Stands

variable {a : Activation} {b : Program} {bcp p p' : UInt64} {x : Contents} {v : Vm} {c c' : Cpu}
  {m m' : Guarded} {lo hi : Nat}

theorem setReg (h : Stands a b bcp p x v c m) (r : Register) (n : UInt64)
    (hr : r.isFixed = false) : Stands a b bcp p x v (c.setReg r n) m :=
  { h with registers := h.registers.setReg r n hr }

theorem setFloat (h : Stands a b bcp p x v c m) (r : FloatRegister) (n : UInt64) :
    Stands a b bcp p x v (c.setFloat r n) m :=
  { h with registers := ⟨h.registers.thread, h.registers.frame, h.registers.locals,
      h.registers.cache, h.registers.dispatch, h.registers.sp, h.registers.bytecode,
      h.registers.operands⟩ }

theorem setFlags (h : Stands a b bcp p x v c m) (f : Flags) :
    Stands a b bcp p x v (c.setFlags f) m :=
  { h with registers := ⟨h.registers.thread, h.registers.frame, h.registers.locals,
      h.registers.cache, h.registers.dispatch, h.registers.sp, h.registers.bytecode,
      h.registers.operands⟩ }

theorem setBytecode (h : Stands a b bcp p x v c m) (bcp' : UInt64) :
    Stands a b bcp' p x v (c.setReg .bytecode bcp') m :=
  { h with registers := h.registers.setBytecode bcp' }

/-- Registers that templates rely on are spared. -/
theorem spares {rs : List Register} (h : Stands a b bcp p x v c m) (spares : c.Spares c' rs)
    (free : ∀ r ∈ rs, r.isFixed = false) : Stands a b bcp p x v c' m :=
  { h with
    registers := h.registers.congr fun r fixed => spares.regs r fun mem =>
      absurd ((free r mem).symm.trans fixed) Bool.false_ne_true }

/-- Another state of the runtime with the same code and objects. -/
theorem ofVm {v' : Vm} (h : Stands a b bcp p x v c m) (image : v'.image = v.image)
    (inhabits : a.Inhabits b x.heap v') : Stands a b bcp p x v' c m :=
  { h with loaded := image ▸ h.loaded, inhabits }

/-- What is written above the records is nothing to the marker. -/
theorem continues {s : Settings} (h : Stands a b bcp p x v c m) (hc : m.Changed m' lo hi)
    (above : a.heap.toNat ≤ lo) : v.Continues s (some []) [] m v m' := by
  have records := h.fits.records
  exact .of_changed hc (.inl (by omega))

/-- Only the register for it knows the stack pointer of the machine. -/
theorem moveSp (h : Stands a b bcp p x v c m) (sp : UInt64) :
    Stands { a with sp } b bcp p x v (c.setReg .sp sp) m :=
  have other (r : Register) (hr : r ≠ .sp) : (c.setReg .sp sp).reg r = c.reg r :=
    c.reg_setReg_ne sp hr
  { registers :=
      ⟨(other _ (by decide)).trans h.registers.thread, (other _ (by decide)).trans h.registers.frame,
        (other _ (by decide)).trans h.registers.locals,
        (other _ (by decide)).trans h.registers.cache,
        (other _ (by decide)).trans h.registers.dispatch, c.reg_setReg_self sp (by decide),
        (other _ (by decide)).trans h.registers.bytecode,
        (other _ (by decide)).trans h.registers.operands⟩
    fits := { h.fits with }
    loaded := { h.loaded with classes := fun id known => { h.loaded.classes id known with } }
    idle := { h.idle with }
    framed := { h.framed with }
    locals := h.locals
    stack := h.stack
    top := h.top
    bounded := h.bounded
    heap := { h.heap with }
    inhabits := { h.inhabits with } }

/-- A write to memory that holds nothing of what is known about the activation: the global words,
    the thread's block and what lies between it and the operands, the monitor records, and the
    frame's words for the bytecode and for the stack pointer of a callee. -/
theorem changed (h : Stands a b bcp p x v c m) (hc : m.Changed m' lo hi) (idle : a.Idle m')
    (where' : hi ≤ 0x10000 ∨ a.thread.toNat ≤ lo ∧ hi ≤ p.toNat ∨
      a.top.toNat ≤ lo ∧ hi + 64 ≤ a.frame.toNat ∨
      a.frame.toNat - 56 ≤ lo ∧ hi ≤ a.frame.toNat - 48 ∨
      a.frame.toNat - 16 ≤ lo ∧ hi ≤ a.frame.toNat) : Stands a b bcp p x v c m' := by
  have f := h.fits
  have records := f.records
  have thread := f.thread
  have heap := f.heap
  have operands := f.operands
  have frame := f.frame
  have top := f.top
  have depth := h.top
  have bounded := h.bounded
  exact {
    registers := h.registers
    fits := f.changed hc
    loaded := h.loaded.agrees f.records (hc.agrees (by omega))
    idle := idle
    framed := h.framed.agrees (by omega) (hc.agrees (by omega)) (hc.agrees (by omega))
    locals := h.locals.agrees f.frame (hc.agrees (by omega))
    stack := h.stack.agrees (hc.agrees (s := p.toNat) (t := a.top.toNat) (by omega)) (by omega)
    top := h.top
    bounded := h.bounded
    heap := h.heap.agrees (hc.agrees (by omega))
    inhabits := h.inhabits }

/-- A write that leaves the thread's words about exceptions and about popping. -/
theorem outside (h : Stands a b bcp p x v c m) (hc : m.Changed m' lo hi)
    (where' : hi ≤ 0x10000 ∨ (a.thread.toNat + 8 ≤ lo ∧ hi ≤ a.thread.toNat + 48) ∨
      (a.thread.toNat + 52 ≤ lo ∧ hi ≤ p.toNat) ∨
      (a.frame.toNat - 56 ≤ lo ∧ hi ≤ a.frame.toNat - 48)) : Stands a b bcp p x v c m' := by
  have records := h.fits.records
  have thread := h.fits.thread
  have heap := h.fits.heap
  have operands := h.fits.operands
  have top := h.fits.top
  have depth := h.top
  have bounded := h.bounded
  exact h.changed hc (h.idle.agrees (hc.agrees (by omega)) (hc.agrees (by omega))) (by omega)

/-- A write below the operands. -/
theorem below (h : Stands a b bcp p x v c m) (hc : m.Changed m' lo hi) (h₁ : a.low ≤ lo)
    (h₂ : hi ≤ p.toNat) : Stands a b bcp p x v c m' := by
  have thread := h.fits.thread
  exact h.outside hc (.inr (.inr (.inl ⟨by omega, h₂⟩)))

end Stands
end TemplateVm
