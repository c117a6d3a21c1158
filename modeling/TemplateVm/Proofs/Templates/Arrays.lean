import TemplateVm.Proofs.Activation.Places
import TemplateVm.Proofs.Templates.Arithmetic

set_option autoImplicit false
set_option synthInstance.maxSize 100000

/-!
# Templates for arrays

An index that is below the length as an unsigned word is an index of the array.
-/
namespace TemplateVm

open Memory (Guarded load)
open Guest Emit Template

variable {P : Vm → Prop} {turns : Nat} {v : Vm} {q q' : UInt64} {c : Cpu} {m m' : Guarded}
  {a : Activation} {b : Program} {s : Settings} {bcp p : UInt64} {x x' : Contents}
  {place : CodeLabel → UInt64} {ctx : CodeContext} {inStub : Bool} {K S : List CodeLabel}
  {r : UInt64} {id : ClassId} {cells : List Cell} {i : Int32} {e : ExceptionEntries}

/-- A held int that is not negative is the number. -/
theorem toNat_int (nonneg : 0 ≤ i.toInt) : i.toInt64.toUInt64.toNat = i.toInt.toNat := by
  change i.toInt64.toBitVec.toNat = _
  have same : i.toInt64.toInt = i.toInt := Int32.toInt_toInt64 i
  change i.toInt64.toBitVec.toInt = _ at same
  rw [BitVec.toInt_eq_toNat_cond] at same
  split at same
  · omega
  · have := i.toInt64.toBitVec.isLt
    omega

/-- The length of an array is held as an int. -/
theorem int_length (small : cells.length < 2 ^ 31) :
    (Int32.ofNat cells.length).toInt64.toUInt64 = cells.length.toUInt64 := by
  have size : (Int32.ofNat cells.length).toInt = cells.length :=
    Int32.toInt_ofNat_of_lt small
  refine UInt64.toNat_inj.mp ?_
  rw [toNat_int (by omega), size, UInt64.toNat_ofNat_of_lt' (by change _ < 2 ^ 64; omega)]
  rfl

/-- An element of an array of ints is written. -/
theorem Guest.Object.In.setElement {t : ClassTable} {k : Nat} {n : Int32} {w : UInt64} {base : Nat}
    (h : Object.In m t base ⟨id, .elements .int cells⟩) (ok : m.Open w 4)
    (address : w.toNat = base + 24 + 4 * k) :
    Object.In (m.put w 4 n.toInt64.toUInt64) t base ⟨id, .elements .int (cells.set k (.int n))⟩ := by
  obtain ⟨record, small, length, holds⟩ := h
  have four : (4 : UInt64).toNat = 4 := rfl
  refine ⟨?_, by rwa [List.length_set], ?_, fun j cell hj => ?_⟩
  · rw [Guarded.load_put_of_disjoint (by omega)]
    exact record
  · rw [Guarded.load_put_of_disjoint (by omega), List.length_set]
    exact length
  · change cell.width = 4 ∧ load _ (base + 24 + 4 * j) cell.width = cell.bits
    rw [List.getElem?_set] at hj
    split at hj
    · next here =>
      obtain ⟨-, ⟨⟩⟩ := Option.ite_none_right_eq_some.mp hj
      refine ⟨rfl, ?_⟩
      rw [← here, ← address]
      change load _ _ 4 = _
      rw [Guarded.load_put_word ok, toUInt32_toInt64]
      rfl
    · next other =>
      obtain ⟨width, bits⟩ := holds j cell hj
      change cell.width = 4 at width
      refine ⟨width, ?_⟩
      rw [Guarded.load_put_of_disjoint (by omega)]
      exact bits

namespace Stands

/-- The length word of an array is loaded. -/
theorem runLength {rd array : Register} {type : TypeTag} (h : Stands a b bcp p x v c m)
    (hr : x.heap r = some ⟨id, .elements type cells⟩) (base : c.reg array = r)
    (fetch : v.image.code.Fetches q
      (.load rd (.base array Memory.ObjectShape.arrayLength) .word false))
    (next : cells.length < 2 ^ 31 →
      Vm.Arrives P turns (v.moved (q + 4) (c.setReg rd cells.length.toUInt64) m)) :
    Vm.Arrives P (turns + 1) (v.moved q c m) := by
  obtain ⟨-, small, length, -⟩ := h.heap.holds _ _ hr
  have inside : Memory.ObjectShape.arrayLength.toNat + Width.word.bytes.toNat ≤
      (Object.mk id (.elements type cells)).size := by
    change 20 ≤ 24 + type.elementSize * cells.length
    omega
  obtain ⟨address, ok⟩ := h.open_object hr inside
  exact .loadAt base fetch address ok length (next small)

/-- An index of the array passes the check. -/
theorem runCheckIndex {array index : Register} {type : TypeTag} (h : Stands a b bcp p x v c m)
    (hr : x.heap r = some ⟨id, .elements type cells⟩) (base : c.reg array = r)
    (number : c.reg index = i.toInt64.toUInt64) (nonneg : 0 ≤ i.toInt)
    (bound : i.toInt.toNat < cells.length) (other : index ≠ .scratch1)
    (lay : Lays ⟨v.image.code, place⟩ ctx inStub K S (checkIndex e array index) q q' ())
    (next : ∀ c', Stands a b bcp p x v c' m → (∀ r, r ≠ .scratch1 → c'.reg r = c.reg r) →
      Vm.Arrives P turns (v.moved q' c' m)) : Vm.Arrives P (turns + 3) (v.moved q c m) := by
  unfold checkIndex at lay
  obtain ⟨ok, lay⟩ := lay.newLabel_bind
  obtain ⟨i₁, lay⟩ := lay.emit_bind
  obtain ⟨i₂, lay⟩ := lay.emit_bind
  obtain ⟨i₃, lay⟩ := lay.emitTo_bind
  dsimp only at lay
  obtain ⟨r', lay⟩ : ∃ r', Lays ⟨v.image.code, place⟩ ctx inStub (ok :: K) (ok :: S) (do
      bTo e.throwArrayIndex
      Emit.bind ok) r' q' () := by
    by_cases moves : index ≠ .x1
    · exact ⟨_, (lay.ite_pos moves).emit_bind.2⟩
    · exact ⟨_, lay.ite_neg moves⟩
  obtain ⟨-, lay⟩ := lay.emit_bind
  obtain ⟨here, rfl⟩ := lay.bind
  rw [here] at i₃
  refine h.runLength hr base i₁ fun small => .compare i₂ ?_
  have flags : (Flags.ofCompare ((c.setReg .scratch1 cells.length.toUInt64).reg index)
      ((c.setReg .scratch1 cells.length.toUInt64).operand (.reg .scratch1))).c = false := by
    change decide (Cpu.reg _ .scratch1 ≤ Cpu.reg _ index) = false
    rw [Cpu.reg_setReg_self _ _ (by decide), Cpu.reg_setReg_ne _ _ other, number,
      decide_eq_false_iff_not, UInt64.le_iff_toNat_le, toNat_int nonneg,
      UInt64.toNat_ofNat_of_lt' (by change _ < 2 ^ 64; omega)]
    omega
  refine .branchIf i₃ (fun _ => ?_) fun no => ?_
  · exact next _ ((h.setReg .scratch1 _ rfl).setFlags _) fun r hr => Cpu.reg_setReg_ne _ _ hr
  · change (!Flags.c _) = false at no
    rw [Cpu.flags_setFlags, flags] at no
    cases no

variable {array index : Register}

/-- The address of an element, for a register that holds the array and one that holds the index. -/
theorem element (h : Stands a b bcp p x v c m)
    (hr : x.heap r = some ⟨id, .elements .int cells⟩) (base : c.reg array = r)
    (number : c.reg index = i.toInt64.toUInt64) (nonneg : 0 ≤ i.toInt)
    (bound : i.toInt.toNat < cells.length) :
    (c.reg array + c.reg index <<< 2 + Memory.ObjectShape.arrayBase).toNat =
        r.toNat + 24 + 4 * i.toInt.toNat ∧
      m.Open (c.reg array + c.reg index <<< 2 + Memory.ObjectShape.arrayBase) 4 := by
  have size : (Object.mk id (.elements .int cells)).size = 24 + 4 * cells.length := rfl
  have below := h.heap.below r _ hr
  obtain ⟨-, small, -⟩ := h.heap.holds _ _ hr
  have four : (4 : UInt64).toNat = 4 := rfl
  have first : Memory.ObjectShape.arrayBase.toNat = 24 := rfl
  have distance : (i.toInt64.toUInt64 <<< 2 + Memory.ObjectShape.arrayBase).toNat =
      24 + 4 * i.toInt.toNat := by
    rw [UInt64.toNat_add, UInt64.toNat_shiftLeft, toNat_int nonneg, first]
    change (i.toInt.toNat <<< 2 % 2 ^ 64 + 24) % 2 ^ 64 = _
    rw [Nat.shiftLeft_eq]
    omega
  obtain ⟨address, ok⟩ := h.open_object hr (k := i.toInt64.toUInt64 <<< 2 +
    Memory.ObjectShape.arrayBase) (n := 4) (by omega)
  rw [base, number, UInt64.add_assoc]
  exact ⟨by omega, ok⟩

end Stands

namespace Implements

theorem arrayLength (hx : x.arrayLength = some x') (room : depth x'.stack ≤ b.maxStack) :
    Implements a b s bcp 1 .object .int (ldrw .x0 (Register.at .x0 Memory.ObjectShape.arrayLength))
      x x' := by
  intro P turns v c m place ctx inStub K S q q' _ lay h next
  unfold Contents.arrayLength at hx
  split at hx
  case h_2 => cases hx
  next r rest stack =>
  split at hx
  case h_2 => cases hx
  next id type cells hr =>
  cases hx
  obtain ⟨i, rfl⟩ := lay.emit
  obtain ⟨p, held, h⟩ := h.held (by decide) stack
  refine h.runLength hr held i fun small => next v _ m (.refl v m) ?_
  refine .hold (h.setReg .x0 _ rfl) ((Cpu.reg_setReg_self _ _ (by decide)).trans ?_) room
  exact (int_length small).symm

theorem loadElement (hx : x.loadElement = some x') (room : depth x'.stack ≤ b.maxStack) :
    Implements a b s bcp 6 .int .int (Template.loadElement e) x x' := by
  intro P turns v c m place ctx inStub K S q q' _ lay h next
  unfold Contents.loadElement at hx
  split at hx
  case h_2 => cases hx
  next i r rest stack =>
  split at hx
  case h_2 => cases hx
  next id cells hr =>
  obtain ⟨nonneg, hx⟩ := Option.ite_none_left_eq_some.mp hx
  split at hx
  case h_2 => cases hx
  next n found =>
  cases hx
  have nonneg : 0 ≤ i.toInt := by
    rw [Int32.lt_iff_toInt_lt] at nonneg
    exact Int.not_lt.mp nonneg
  have bound : i.toInt.toNat < cells.length := (List.getElem?_eq_some_iff.mp found).1
  unfold Template.loadElement at lay
  obtain ⟨⟨⟩, r₁, lay₁, lay⟩ := lay.split
  obtain ⟨⟨⟩, r₂, lay₂, lay⟩ := lay.split
  obtain ⟨i₁, lay⟩ := lay.emit_bind
  obtain ⟨i₂, rfl⟩ := lay.emit
  obtain ⟨i₀, rfl⟩ := Lays.emit (i := .load .x1 (.post .operands 8) .double false) lay₁
  obtain ⟨p, held, h⟩ := h.held (by decide) stack
  refine h.runLoad rfl i₀ rfl (by decide) rfl fun h holds => ?_
  have x1 : ((c.setReg .operands (p + 8)).setReg .x1 (load m.bytes p.toNat 8)).reg .x1 = r :=
    (Cpu.reg_setReg_self _ _ (by decide)).trans holds
  have x0 : ((c.setReg .operands (p + 8)).setReg .x1 (load m.bytes p.toNat 8)).reg .x0 =
      i.toInt64.toUInt64 := by
    rw [Cpu.reg_setReg_ne _ _ (by decide), Cpu.reg_setReg_ne _ _ (by decide)]
    exact held
  refine h.runCheckIndex hr x1 x0 nonneg bound (by decide) lay₂ fun c' h same => .binary i₁ ?_
  rw [← same .x1 (by decide)] at x1
  rw [← same .x0 (by decide)] at x0
  obtain ⟨address, ok⟩ := h.element hr x1 x0 nonneg bound
  obtain ⟨-, -, -, holds⟩ := h.heap.holds _ _ hr
  obtain ⟨-, cell⟩ := holds _ _ found
  change load m.bytes (r.toNat + 24 + 4 * i.toInt.toNat) 4 = n.toUInt32.toUInt64 at cell
  have target : (c'.setReg .x1 (Binary.apply (c'.reg .x1) (c'.operand (Register.x0.lsl 2)) .add)).target
      (Register.at .x1 Memory.ObjectShape.arrayBase) =
        c'.reg .x1 + c'.reg .x0 <<< 2 + Memory.ObjectShape.arrayBase := by
    rw [Cpu.target_base, Cpu.reg_setReg_self _ _ (by decide)]
    rfl
  refine .loadSigned i₂ ?_ ?_
  · rw [target]
    exact ok
  · rw [target, address]
    change Vm.Arrives P _
      (v.moved _ (Cpu.setReg _ .x0 (Width.word.signExtend (load m.bytes _ 4))) m)
    rw [cell, signExtend_word]
    exact next v _ m (.refl v m) (.hold ((h.setReg .x1 _ rfl).setReg .x0 _ rfl)
      (Cpu.reg_setReg_self _ _ (by decide)) room)

theorem storeElement (hx : x.storeElement = some x') (room : depth x'.stack ≤ b.maxStack) :
    Implements a b s bcp 7 .int .none (Template.storeElement e) x x' := by
  intro P turns v c m place ctx inStub K S q q' _ lay h next
  unfold Contents.storeElement at hx
  split at hx
  case h_2 => cases hx
  next n i r rest stack =>
  split at hx
  case h_2 => cases hx
  next id cells hr =>
  obtain ⟨inside, hx⟩ := Option.ite_none_left_eq_some.mp hx
  cases hx
  rw [not_or, Int32.lt_iff_toInt_lt] at inside
  have nonneg : 0 ≤ i.toInt := Int.not_lt.mp inside.1
  have bound : i.toInt.toNat < cells.length := Nat.not_le.mp inside.2
  unfold Template.storeElement at lay
  obtain ⟨⟨⟩, r₁, lay₁, lay⟩ := lay.split
  obtain ⟨⟨⟩, r₂, lay₂, lay⟩ := lay.split
  obtain ⟨⟨⟩, r₃, lay₃, lay⟩ := lay.split
  obtain ⟨i₃, lay⟩ := lay.emit_bind
  obtain ⟨i₄, rfl⟩ := lay.emit
  obtain ⟨i₁, rfl⟩ := Lays.emit (i := .load .x2 (.post .operands 8) .word true) lay₁
  obtain ⟨i₂, rfl⟩ := Lays.emit (i := .load .x3 (.post .operands 8) .double false) lay₂
  obtain ⟨p, held, h⟩ := h.held (by decide) stack
  refine h.runLoadInt rfl i₁ rfl fun h => ?_
  have two : ((c.setReg .operands (p + 8)).setReg .x2 i.toInt64.toUInt64).reg .x2 =
      i.toInt64.toUInt64 := Cpu.reg_setReg_self _ _ (by decide)
  have value : ((c.setReg .operands (p + 8)).setReg .x2 i.toInt64.toUInt64).reg .x0 =
      n.toInt64.toUInt64 := by
    rw [Cpu.reg_setReg_ne _ _ (by decide), Cpu.reg_setReg_ne _ _ (by decide)]
    exact held
  generalize (c.setReg .operands (p + 8)).setReg .x2 i.toInt64.toUInt64 = c₁ at h two value ⊢
  refine h.runLoad rfl i₂ rfl (by decide) rfl fun h holds => ?_
  have x3 : ((c₁.setReg .operands (p + 8 + 8)).setReg .x3 (load m.bytes (p + 8).toNat 8)).reg .x3 =
      r := (Cpu.reg_setReg_self _ _ (by decide)).trans holds
  have other (s : Register) (h₀ : s ≠ .x3) (h₁ : s ≠ .operands) :
      ((c₁.setReg .operands (p + 8 + 8)).setReg .x3 (load m.bytes (p + 8).toNat 8)).reg s =
        c₁.reg s := by
    rw [Cpu.reg_setReg_ne _ _ h₀, Cpu.reg_setReg_ne _ _ h₁]
  have x2 := (other .x2 (by decide) (by decide)).trans two
  refine h.runCheckIndex hr x3 x2 nonneg bound (by decide) lay₃ fun c' h same => .binary i₃ ?_
  have x0 := ((same .x0 (by decide)).trans (other .x0 (by decide) (by decide))).trans value
  rw [← same .x3 (by decide)] at x3
  rw [← same .x2 (by decide)] at x2
  obtain ⟨address, ok⟩ := h.element hr x3 x2 nonneg bound
  have target : (c'.setReg .x3 (Binary.apply (c'.reg .x3) (c'.operand (Register.x2.lsl 2)) .add)).target
      (Register.at .x3 Memory.ObjectShape.arrayBase) =
        c'.reg .x3 + c'.reg .x2 <<< 2 + Memory.ObjectShape.arrayBase := by
    rw [Cpu.target_base, Cpu.reg_setReg_self _ _ (by decide)]
    rfl
  refine .store i₄ ?_ ?_
  · rw [target]
    exact ok
  · rw [target, Cpu.reg_setReg_ne _ _ (by decide), x0]
    have above := h.heap.above r _ hr
    have changed := Guarded.changed_put m (c'.reg .x3 + c'.reg .x2 <<< 2 + Memory.ObjectShape.arrayBase)
      Width.word.bytes n.toInt64.toUInt64
    refine next v _ _ (h.continues changed (by omega)) (.of_stands
      ((h.setReg .x3 _ rfl).update hr changed ?_ ?_ rfl ?_ ?_))
    · omega
    · rw [address]
      change r.toNat + 24 + 4 * i.toInt.toNat + 4 ≤ r.toNat + (24 + 4 * cells.length)
      omega
    · change 24 + 4 * (cells.set _ _).length = 24 + 4 * cells.length
      rw [List.length_set]
    · exact (h.heap.holds _ _ hr).setElement ok address

end Implements
end TemplateVm
