import TemplateVm.Proofs.Activation.Places
import TemplateVm.Proofs.Templates.Constants

set_option autoImplicit false
set_option synthInstance.maxSize 100000

/-!
# Templates for local variables

A variable is loaded into the register of its state, or stored from it.
-/
namespace TemplateVm

open Memory (Guarded load)
open Bytecode (Operation)
open Guest Emit Template

variable {P : Vm → Prop} {turns : Nat} {v : Vm} {q q' : UInt64} {c : Cpu} {m m' : Guarded}
  {a : Activation} {b : Program} {s : Settings} {bcp p : UInt64} {x x' : Contents}
  {place : CodeLabel → UInt64} {ctx : CodeContext} {inStub : Bool} {K S : List CodeLabel}
  {w : Value} {n : Nat} {op : Operation} {operands : List UInt8} {tos : TopOfStack}
  {address : Address}

/-! ## Instructions for a kind of value -/

/-- Loads a value of the kind into its register. -/
def Template.loading (address : Address) : TopOfStack → Emit Unit
  | .int => ldrsw .x0 address
  | .float => ldrs .v0 address
  | .double => ldrd .v0 address
  | _ => ldr .x0 address

/-- Stores a value of the kind from its register. -/
def Template.storing (address : Address) : TopOfStack → Emit Unit
  | .float => strs .v0 address
  | .double => strd .v0 address
  | _ => str .x0 address

instance (address : Address) (tos : TopOfStack) :
    Orderly ctx inStub K S S 1 (loading address tos) := by
  cases tos <;> exact Orderly.emit _

instance (address : Address) (tos : TopOfStack) :
    Orderly ctx inStub K S S 1 (storing address tos) := by
  cases tos <;> exact Orderly.emit _

/-- Where a value of the kind is once the address of its variable is in `x1`. -/
def Template.variableAt (tos : TopOfStack) : Address :=
  Register.at .x1 (if tos.words = 2 then -8 else 0)

/-- The access goes to the value of the variable and changes no register. -/
structure Names (a : Activation) (c : Cpu) (address : Address) (n words : Nat) : Prop where
  slot : (c.target address).toNat = a.slot n words
  base : c.rebase address = c

theorem Names.setReg {r : Register} {offset : UInt64} {words : Nat}
    (h : Names a c (Register.at r offset) n words) (r' : Register) (k : UInt64) (hr : r ≠ r') :
    Names a (c.setReg r' k) (Register.at r offset) n words where
  slot := by
    rw [Cpu.target_base, Cpu.reg_setReg_ne _ _ hr]
    exact h.slot
  base := rfl

namespace Stands

theorem open_slot (h : Stands a b bcp p x v c m) {words : Nat} (bound : n + words ≤ b.maxLocals)
    (names : Names a c address n words) {k : UInt64} (size : k.toNat ≤ 8 * words) :
    m.Open (c.target address) k := by
  obtain ⟨low, high, below, -⟩ := h.slot_toNat bound
  have slot := names.slot
  exact h.fits.clearStack.open (by omega) (by omega)

theorem names_fixed (h : Stands a b bcp p x v c m) (bound : n + 1 ≤ b.maxLocals) :
    Names a c (fixedLocal n) n 1 where
  slot := by
    have frame := h.fits.frame
    have locals := h.fits.locals
    have top := h.fits.top
    have distance : (n.toUInt64 * 8).toNat = 8 * n := by
      rw [UInt64.toNat_mul, UInt64.toNat_ofNat_of_lt' (by change _ < 2 ^ 64; omega)]
      change n * 8 % 2 ^ 64 = _
      omega
    rw [Cpu.target_base, h.registers.locals, UInt64.zero_sub, toNat_add_neg (by omega)]
    unfold Activation.slot
    omega
  base := rfl

/-- The address of the variable that the operand names comes into `x1`. -/
theorem runLocalAddress (h : Stands a b bcp p x v c m) (fetched : a.Fetched b m bcp op operands)
    (lay : Lays ⟨v.image.code, place⟩ ctx inStub K S localAddress q q' ()) {y : UInt8}
    (length : 2 ≤ op.opcode.length) (byte : load m.bytes (bcp.toNat + 1) 1 = y.toUInt64)
    (next : ∀ c', Stands a b bcp p x v c' m → (∀ r, r ≠ .x1 → c'.reg r = c.reg r) →
      (∀ f, c'.float f = c.float f) →
      (y.toNat + 1 ≤ b.maxLocals → Names a c' (Register.at .x1) y.toNat 1) →
      (y.toNat + 2 ≤ b.maxLocals → Names a c' (Register.at .x1 (-8)) y.toNat 2) →
      Vm.Arrives P turns (v.moved q' c' m)) : Vm.Arrives P (turns + 2) (v.moved q c m) := by
  unfold localAddress at lay
  obtain ⟨i₁, lay⟩ := lay.emit_bind
  obtain ⟨i₂, rfl⟩ := lay.emit
  refine h.runByte fetched i₁ length byte (.binary i₂ ?_)
  have frame := h.fits.frame
  have top := h.fits.top
  have value := y.toNat_lt
  have shifted : (y.toUInt64 <<< (3 : UInt8).toUInt64).toNat = 8 * y.toNat := by
    rw [UInt64.toNat_shiftLeft, UInt8.toNat_toUInt64]
    change y.toNat <<< 3 % 2 ^ 64 = _
    rw [Nat.shiftLeft_eq]
    omega
  have first : (c.setReg .x1 y.toUInt64).reg .locals = a.locals :=
    (Cpu.reg_setReg_ne _ _ (by decide)).trans h.registers.locals
  have index : (c.setReg .x1 y.toUInt64).reg .x1 = y.toUInt64 := Cpu.reg_setReg_self _ _ (by decide)
  have distance (bound : y.toNat + 1 ≤ b.maxLocals) :
      (Binary.apply ((c.setReg .x1 y.toUInt64).reg .locals)
        ((c.setReg .x1 y.toUInt64).operand (Register.x1.lsl 3)) .sub).toNat = a.slot y.toNat 1 := by
    change ((c.setReg .x1 y.toUInt64).reg .locals -
      (c.setReg .x1 y.toUInt64).reg .x1 <<< (3 : UInt8).toUInt64).toNat = _
    rw [first, index, UInt64.sub_eq_add_neg, toNat_add_neg (by omega)]
    unfold Activation.slot
    omega
  refine next _ ((h.setReg .x1 _ rfl).setReg .x1 _ rfl) (fun r hr => ?_) (fun f => ?_)
    (fun bound => ⟨?_, rfl⟩) fun bound => ⟨?_, rfl⟩
  · rw [Cpu.reg_setReg_ne _ _ hr, Cpu.reg_setReg_ne _ _ hr]
  · rw [Cpu.float_setReg, Cpu.float_setReg]
  · rw [Cpu.target_base, Cpu.reg_setReg_self _ _ (by decide), UInt64.add_zero]
    exact distance bound
  · have lower := distance (by omega)
    have eight : (8 : UInt64).toNat = 8 := rfl
    rw [Cpu.target_base, Cpu.reg_setReg_self _ _ (by decide), toNat_add_neg, lower]
    · unfold Activation.slot
      omega
    · rw [lower]
      unfold Activation.slot
      omega

/-- A variable is loaded. -/
theorem runLoading (h : Stands a b bcp p x v c m) (hx : x.locals n = some w)
    (kind : w.state = tos) (names : Names a c address n w.words)
    (lay : Lays ⟨v.image.code, place⟩ ctx inStub K S (loading address tos) q q' ())
    (next : ∀ c', Stands a b bcp p x v c' m → w.Held c' tos →
      Vm.Arrives P turns (v.moved q' c' m)) :
    Vm.Arrives P (turns + 1) (v.moved q c m) := by
  obtain ⟨bound, holds⟩ := h.locals n w hx
  change w.In m (a.slot n w.words) at holds
  have ok (k : UInt64) (size : k.toNat.ble (8 * w.words) = true) : m.Open (c.target address) k :=
    h.open_slot bound names (Nat.le_of_ble_eq_true size)
  rw [← names.slot] at holds
  have word (n : UInt64) : (c.setReg .x0 n).reg .x0 = n := Cpu.reg_setReg_self _ _ (by decide)
  have bits (n : UInt64) : (c.setFloat .v0 n).float .v0 = n := by
    rw [Cpu.float_setFloat, if_pos rfl]
  cases w with
  | int k =>
    subst kind
    obtain ⟨i, rfl⟩ := Lays.emit (i := .load .x0 address .word true) lay
    refine .loadSigned i (ok _ rfl) ?_
    rw [names.base]
    exact next _ (h.setReg .x0 _ rfl) ((word _).trans holds.int)
  | float k =>
    subst kind
    obtain ⟨i, rfl⟩ := Lays.emit (i := .loadFloat .v0 address .single) lay
    refine .loadFloat i (ok _ rfl) ?_
    rw [names.base]
    exact next _ (h.setFloat .v0 _) ((congrArg UInt64.toUInt32 (bits _)).trans holds.float)
  | double k =>
    subst kind
    obtain ⟨i, rfl⟩ := Lays.emit (i := .loadFloat .v0 address .double) lay
    refine .loadFloat i (ok _ rfl) ?_
    rw [names.base]
    exact next _ (h.setFloat .v0 _) ((bits _).trans holds)
  | long k =>
    subst kind
    obtain ⟨i, rfl⟩ := Lays.emit (i := .load .x0 address .double false) lay
    refine .load i (ok _ rfl) ?_
    rw [names.base]
    exact next _ (h.setReg .x0 _ rfl) ((word _).trans holds)
  | object k =>
    subst kind
    obtain ⟨i, rfl⟩ := Lays.emit (i := .load .x0 address .double false) lay
    refine .load i (ok _ rfl) ?_
    rw [names.base]
    exact next _ (h.setReg .x0 _ rfl) ((word _).trans holds)
  | _ => exact holds.elim

/-- A variable is stored. -/
theorem runStoring (h : Stands a b bcp p x v c m) (held : w.Held c tos) (kind : w.state = tos)
    (bound : n + w.words ≤ b.maxLocals) (names : Names a c address n w.words)
    (lay : Lays ⟨v.image.code, place⟩ ctx inStub K S (storing address tos) q q' ())
    (next : ∀ m', Stands a b bcp p { x with locals := x.locals.assign n w } v c m' →
      (∀ s, v.Continues s (some []) [] m v m') → Vm.Arrives P turns (v.moved q' c m')) :
    Vm.Arrives P (turns + 1) (v.moved q c m) := by
  have ok (k : UInt64) (size : k.toNat.ble (8 * w.words) = true) : m.Open (c.target address) k :=
    h.open_slot bound names (Nat.le_of_ble_eq_true size)
  have slot := names.slot
  obtain ⟨above, whole, -, -⟩ := h.slot_toNat bound
  have low := h.fits.low
  have done {k : UInt64} {word : UInt64} (size : k.toNat.ble (8 * w.words) = true)
      (holds : w.In (m.put (c.target address) k word) (c.target address).toNat) :
      Vm.Arrives P turns (v.moved q' c (m.put (c.target address) k word)) := by
    have size := Nat.le_of_ble_eq_true size
    rw [slot] at holds
    have changed : m.Changed (m.put (c.target address) k word) (a.slot n w.words) (a.slot n 0) :=
      (Guarded.changed_put m (c.target address) k word).mono (by omega) (by omega)
    exact next _ (h.assign bound changed holds) fun s => h.continues changed (by omega)
  subst kind
  cases w with
  | int k =>
    obtain ⟨i, rfl⟩ := Lays.emit (i := .store .x0 address .double) lay
    refine .store i (ok _ rfl) ?_
    rw [names.base, show c.reg .x0 = _ from held]
    exact done rfl (Value.int_in_put (ok _ rfl) k)
  | float k =>
    obtain ⟨i, rfl⟩ := Lays.emit (i := .storeFloat .v0 address .single) lay
    refine .storeFloat i (ok _ rfl) ?_
    rw [names.base]
    exact done rfl (Value.float_in_put (ok _ rfl) held)
  | double k =>
    obtain ⟨i, rfl⟩ := Lays.emit (i := .storeFloat .v0 address .double) lay
    refine .storeFloat i (ok _ rfl) ?_
    rw [names.base, show c.float .v0 = _ from held]
    exact done rfl (Value.double_in_put (ok _ rfl) k)
  | long k =>
    obtain ⟨i, rfl⟩ := Lays.emit (i := .store .x0 address .double) lay
    refine .store i (ok _ rfl) ?_
    rw [names.base, show c.reg .x0 = _ from held]
    exact done rfl (Value.long_in_put (ok _ rfl) k)
  | object k =>
    obtain ⟨i, rfl⟩ := Lays.emit (i := .store .x0 address .double) lay
    refine .store i (ok _ rfl) ?_
    rw [names.base, show c.reg .x0 = _ from held]
    exact done rfl (Value.object_in_put (ok _ rfl) k)
  | _ => cases held

end Stands

/-! ## Templates -/

theorem Value.words_state (w : Value) : w.words = w.state.words := by cases w <;> rfl

theorem Guest.Contents.of_load {kind : TopOfStack} (h : x.load n kind = some x') :
    ∃ w, x.locals n = some w ∧ w.state = kind ∧ x' = x.push w := by
  unfold Contents.load at h
  split at h
  · next w found =>
    obtain ⟨same, ⟨⟩⟩ := Option.ite_none_right_eq_some.mp h
    exact ⟨w, found, same, rfl⟩
  · cases h

theorem Guest.Contents.of_store {kind : TopOfStack} {maxLocals : Nat}
    (h : x.store n kind maxLocals = some x') : ∃ w rest, x.stack = w :: rest ∧ w.state = kind ∧
      n + w.words ≤ maxLocals ∧ x' = { x with stack := rest, locals := x.locals.assign n w } := by
  unfold Contents.store at h
  split at h
  · next w rest hx =>
    obtain ⟨⟨same, bound⟩, ⟨⟩⟩ := Option.ite_none_right_eq_some.mp h
    exact ⟨w, rest, hx, same, bound, rfl⟩
  · cases h

/-- The index of a variable that is the only operand. -/
theorem Activation.Fetched.variable (h : a.Fetched b m bcp op operands)
    (length : op.opcode.length = 2) (plain : op.opcode.isLinked = false)
    (other : op.opcode ≠ .bipush) : ∃ y : UInt8, op.operand.toNat = y.toNat ∧
      load m.bytes (bcp.toNat + 1) 1 = y.toUInt64 := by
  obtain ⟨y, rfl, byte⟩ := h.one length plain
  refine ⟨y, ?_, byte⟩
  rw [h.operand]
  simp [Bytecode.operandOf, other]

theorem Value.Held.words_pos (held : w.Held c tos) : 0 < w.words := by
  cases w <;> first | exact Nat.le_of_ble_eq_true rfl | cases tos <;> exact held.elim

theorem names_variableAt (words : w.words = tos.words) (positive : 0 < w.words)
    (bound : n + w.words ≤ b.maxLocals)
    (one : n + 1 ≤ b.maxLocals → Names a c (Register.at .x1) n 1)
    (two : n + 2 ≤ b.maxLocals → Names a c (Register.at .x1 (-8)) n 2) :
    Names a c (variableAt tos) n w.words := by
  unfold variableAt
  split
  · next pair =>
    rw [words, pair] at bound ⊢
    exact two bound
  · next single =>
    have : w.words = 1 := by
      rw [words] at positive ⊢
      cases tos <;> first | rfl | exact absurd rfl single | cases positive
    rw [this] at bound ⊢
    exact one bound

namespace Implements

/-- Code after other code. -/
theorem seq {tosIn tosMid tosOut : TopOfStack} {first second : Emit Unit} {y : Contents} {k l : Nat}
    [∀ ctx inStub K S, Orderly ctx inStub K S S k first]
    [∀ ctx inStub K S, Orderly ctx inStub K S S l second]
    {n n' : Nat} (h₁ : Implements a b s bcp n tosIn tosMid first x y)
    (h₂ : Implements a b s bcp n' tosMid tosOut second y x') :
    Implements a b s bcp (n' + n) tosIn tosOut (first >>= fun _ => second) x x' := by
  intro P turns v c m place ctx inStub K S q q' hs lay h next
  obtain ⟨⟨⟩, r, lay₁, lay₂⟩ := lay.split
  rw [← Nat.add_assoc]
  refine h₁ P _ v c m place ctx inStub K S q r hs lay₁ h fun v' c' m' continues h' => ?_
  rw [← continues.image] at lay₂
  exact h₂ P _ v' c' m' place ctx inStub K S r q' hs lay₂ h' fun v'' c'' m'' continues' =>
    next v'' c'' m'' (continues.after continues')

/-- A reference is popped to be held. -/
theorem popObject {r : UInt64} {rest : List Value} (hx : x.stack = .object r :: rest) :
    Implements a b s bcp 1 .none .object (popWord .x0) x x := by
  intro P turns v c m place ctx inStub K S q q' _ lay h next
  obtain ⟨bounded, -⟩ := id h
  obtain ⟨p, h⟩ := h.stands
  obtain ⟨i, rfl⟩ := Lays.emit (i := .load .x0 (.post .operands 8) .double false) lay
  refine h.runLoad hx i rfl (by decide) rfl fun popped holds => next v _ m (.refl v m) ?_
  refine ⟨bounded, rest, p + 8, .of_held hx ?_, popped⟩
  exact (Cpu.reg_setReg_self _ _ (by decide)).trans holds

theorem loadFixed (hx : x.load n tos = some x') (single : tos.words = 1)
    (room : depth x'.stack ≤ b.maxStack) :
    Implements a b s bcp 1 .none tos (loading (fixedLocal n) tos) x x' := by
  intro P turns v c m place ctx inStub K S q q' _ lay h next
  obtain ⟨p, h⟩ := h.stands
  obtain ⟨w, found, same, rfl⟩ := Contents.of_load hx
  obtain ⟨bound, -⟩ := h.locals n w found
  have one : w.words = 1 := by rw [w.words_state, same, single]
  have names := h.names_fixed (n := n) (one ▸ bound)
  refine h.runLoading found same (one ▸ names) lay fun c' h held => next v c' m (.refl v m) ?_
  exact .hold h held room

theorem storeFixed (hx : x.store n tos b.maxLocals = some x') (single : tos.words = 1)
    (held : tos ≠ .none) :
    Implements a b s bcp 1 tos .none (storing (fixedLocal n) tos) x x' := by
  intro P turns v c m place ctx inStub K S q q' _ lay h next
  obtain ⟨w, rest, hw, same, bound, rfl⟩ := Contents.of_store hx
  obtain ⟨p, held, h⟩ := h.held held hw
  have one : w.words = 1 := by rw [w.words_state, same, single]
  have names := h.names_fixed (n := n) (one ▸ bound)
  exact h.runStoring held same bound (one ▸ names) lay fun m' h continues =>
    next v c m' (continues _) (.of_stands h)

section
variable (hm : op ∈ Bytecode.decode b.code) (hb : bcp = a.code + op.bci.toUInt64)
  (length : op.opcode.length = 2) (plain : op.opcode.isLinked = false)
  (other : op.opcode ≠ .bipush)
include hm hb length plain other

theorem loadVariable (hx : x.load op.operand.toNat tos = some x')
    (room : depth x'.stack ≤ b.maxStack) :
    Implements a b s bcp 3 .none tos (onLocal (loading (variableAt tos) tos)) x x' := by
  intro P turns v c m place ctx inStub K S q q' _ lay h next
  unfold onLocal at lay
  obtain ⟨⟨⟩, r, lay₁, lay₂⟩ := lay.split
  obtain ⟨p, h⟩ := h.stands
  obtain ⟨operands, fetched⟩ := h.fetched hm hb
  obtain ⟨y, index, byte⟩ := fetched.variable length plain other
  rw [index] at hx
  obtain ⟨w, found, same, rfl⟩ := Contents.of_load hx
  obtain ⟨bound, holds⟩ := h.locals _ w found
  refine h.runLocalAddress fetched lay₁ (Nat.le_of_eq length.symm) byte fun c₁ h _ _ one two => ?_
  have names := names_variableAt (same ▸ w.words_state) holds.words_pos bound one two
  refine h.runLoading found same names lay₂ fun c' h held => next v c' m (.refl v m) ?_
  exact .hold h held room

theorem storeVariable (hx : x.store op.operand.toNat tos b.maxLocals = some x')
    (held : tos ≠ .none) :
    Implements a b s bcp 3 tos .none (onLocal (storing (variableAt tos) tos)) x x' := by
  intro P turns v c m place ctx inStub K S q q' _ lay h next
  unfold onLocal at lay
  obtain ⟨⟨⟩, r, lay₁, lay₂⟩ := lay.split
  obtain ⟨w, rest, hw, same, bound, rfl⟩ := Contents.of_store hx
  obtain ⟨p, held, h⟩ := h.held held hw
  obtain ⟨operands, fetched⟩ := h.fetched hm hb
  obtain ⟨y, index, byte⟩ := fetched.variable length plain other
  rw [index] at bound next
  refine h.runLocalAddress fetched lay₁ (Nat.le_of_eq length.symm) byte fun c₁ h others floats one two => ?_
  replace held := held.mono (others .x0 (by decide)) (floats .v0)
  have names := names_variableAt (same ▸ w.words_state) held.words_pos bound one two
  exact h.runStoring held same bound names lay₂ fun m' h continues =>
    next v c₁ m' (continues _) (.of_stands h)

end

/-- The increment is added to the low half, and the sum is carried on with its sign. -/
theorem increment (hm : op ∈ Bytecode.decode b.code) (hb : bcp = a.code + op.bci.toUInt64)
    (is : op.opcode = .iinc)
    (hx : x.increment (b.code.getD (op.bci + 1) 0).toNat (Int32.ofInt op.operand) = some x') :
    Implements a b s bcp 7 .none .none Template.increment x x' := by
  intro P turns v c m place ctx inStub K S q q' _ lay h next
  unfold Template.increment at lay
  obtain ⟨i₁, lay⟩ := lay.emit_bind
  obtain ⟨⟨⟩, r, lay₁, lay⟩ := lay.split
  obtain ⟨i₂, lay⟩ := lay.emit_bind
  obtain ⟨i₃, lay⟩ := lay.emit_bind
  obtain ⟨i₄, lay⟩ := lay.emit_bind
  obtain ⟨i₅, rfl⟩ := lay.emit
  obtain ⟨p, h⟩ := h.stands
  obtain ⟨operands, fetched⟩ := h.fetched hm hb
  have length : op.opcode.length = 3 := by rw [is]; rfl
  obtain ⟨y, z, rfl, first, second⟩ := fetched.two length (by rw [is]; rfl)
  have index : (b.code.getD (op.bci + 1) 0) = y := by
    rw [List.getD_eq_getElem?_getD, fetched.code 0 y rfl]
    rfl
  have operand : op.operand = Bytecode.signed8 z := by
    rw [fetched.operand]
    simp [Bytecode.operandOf, is]
  rw [index, operand] at hx
  unfold Contents.increment at hx
  split at hx
  case h_2 => cases hx
  next k found =>
  cases hx
  refine h.runSignedByte fetched i₁ (by rw [length]; decide) second ?_
  have x2 : (c.setReg .x2 (Extension.signByte.apply z.toUInt64)).reg .x2 = _ :=
    Cpu.reg_setReg_self _ _ (by decide)
  refine (h.setReg .x2 _ rfl).runLocalAddress fetched lay₁ (by omega) first
    fun c₁ h others _ one _ => ?_
  rw [← others .x2 (by decide)] at x2
  obtain ⟨bound, holds⟩ := h.locals _ _ found
  have bound : y.toNat + 1 ≤ b.maxLocals := bound
  have names := one bound
  have slot := names.slot
  change (Value.int k).In m (a.slot y.toNat 1) at holds
  rw [← slot] at holds
  refine .loadSigned i₂ (h.open_slot bound names (by decide)) ?_
  rw [names.base, show Width.word.signExtend (load m.bytes (c₁.target (Register.at .x1)).toNat
    Width.word.bytes.toNat) = k.toInt64.toUInt64 from holds.int]
  refine .binary i₃ (.extend i₄ ?_)
  have added : Binary.apply ((c₁.setReg .x3 k.toInt64.toUInt64).reg .x3)
      ((c₁.setReg .x3 k.toInt64.toUInt64).operand (.reg .x2)) .add =
        k.toInt64.toUInt64 + (Int32.ofInt (Bytecode.signed8 z)).toInt64.toUInt64 := by
    change (c₁.setReg .x3 _).reg .x3 + (c₁.setReg .x3 _).reg .x2 = _
    rw [Cpu.reg_setReg_self _ _ (by decide), Cpu.reg_setReg_ne _ _ (by decide), x2, signed_byte,
      toInt64_ofInt_small (signed8_bounds z)]
  rw [added, Cpu.reg_setReg_self _ _ (by decide), signWord_add]
  have stands := ((h.setReg .x3 k.toInt64.toUInt64 rfl).setReg .x3 (k.toInt64.toUInt64 +
    (Int32.ofInt (Bytecode.signed8 z)).toInt64.toUInt64) rfl).setReg .x3
      (k + Int32.ofInt (Bytecode.signed8 z)).toInt64.toUInt64 rfl
  have names := ((names.setReg .x3 k.toInt64.toUInt64 (by decide)).setReg .x3 (k.toInt64.toUInt64 +
    (Int32.ofInt (Bytecode.signed8 z)).toInt64.toUInt64) (by decide)).setReg .x3
      (k + Int32.ofInt (Bytecode.signed8 z)).toInt64.toUInt64 (by decide)
  have ok := stands.open_slot bound names (k := 8) (by decide)
  refine .store i₅ ok ?_
  rw [names.base, Cpu.reg_setReg_self _ _ (by decide)]
  obtain ⟨above, whole, -, -⟩ := h.slot_toNat bound
  have size : Width.double.bytes.toNat = 8 := rfl
  have slot := names.slot
  have low := h.fits.low
  refine next v _ _ (h.continues (Guarded.changed_put m _ _ _) ?_)
    (.of_stands (stands.assign bound ?_ ?_))
  · rw [slot]
    exact Nat.le_trans low above
  · exact (Guarded.changed_put m _ _ _).mono (Nat.le_of_eq slot.symm) (by omega)
  · exact slot ▸ Value.int_in_put ok _

end Implements
end TemplateVm
