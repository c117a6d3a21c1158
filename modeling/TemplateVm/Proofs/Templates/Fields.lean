import TemplateVm.Proofs.Activation.Fields
import TemplateVm.Proofs.Guest.Closed
import TemplateVm.Proofs.Templates.Constants

set_option autoImplicit false
set_option synthInstance.maxSize 100000

/-!
# Templates for fields

The offset and the state in the cache entry are those of the field, so that what is accessed is the
field's cell.
-/
namespace TemplateVm

open Memory (Guarded load)
open Bytecode (Operation)
open Guest Emit Template

variable {a : Activation} {b : Program} {s : Settings} {bcp p : UInt64} {x x' : Contents} {v : Vm}
  {c : Cpu} {m : Guarded} {op : Operation} {slot : FieldSlot} {id : ClassId} {k : Nat}
  {t : TopOfStack}

theorem TopOfStack.mem_fieldStates (h : t ≠ .none) : t ∈ fieldStates := by
  cases t <;> first | exact absurd rfl h | decide

theorem Guest.Cell.state_ne_none (cell : Cell) : cell.state ≠ .none := by cases cell <;> nofun

/-- Before a field is loaded, the reference is taken from the operands. -/
theorem Represents.runPopReference {P : Vm → Prop} {turns : Nat} {F : Finished} {ctx : CodeContext}
    {inStub : Bool} {K S : List CodeLabel} {q q' r : UInt64} {rest : List Value}
    (hm : op ∈ Bytecode.decode b.code) (hb : bcp = a.code + op.bci.toUInt64)
    (found : b.field? op.operand.toNat = some slot) (is : op.opcode = .getfield)
    (stack : x.stack = .object r :: rest) (known : TopOfStack.ofType slot.type ≠ .none)
    (h : Represents a b .none bcp x v c m)
    (sub : ∀ p j, F.code.Fetches p j → v.image.code.Fetches p j)
    (lay : Lays F ctx inStub K S Template.getField q q' ())
    (next : ∀ K S q₁ q₂ p' c',
      Lays F ctx inStub K S (do readField (.ofType slot.type); push (.ofType slot.type)) q₁ q₂ () →
      Stands a b bcp p' { x with stack := rest } v c' m → c'.reg .x0 = r →
      c'.reg .x1 = slot.offset →
      (∀ (v' : Vm) c'' m'' left, v'.image = v.image → Vm.Arrives P left (v'.moved q' c'' m'') →
        Vm.Arrives P (left + 1) (v'.moved q₂ c'' m'')) →
      Vm.Arrives P turns (v.moved q₁ c' m)) : Vm.Arrives P (turns + 27) (v.moved q c m) := by
  have length : op.opcode.length = 3 := by rw [is]; rfl
  have linked : op.opcode.isLinked = true := by rw [is]; rfl
  unfold Template.getField at lay
  rw [← is] at lay
  obtain ⟨⟨⟩, r₁, lay₁, lay⟩ := lay.split
  obtain ⟨⟨⟩, r₂, lay₂, lay⟩ := lay.split
  obtain ⟨⟨⟩, r₃, lay₃, lay⟩ := lay.split
  obtain ⟨i, rfl⟩ := Lays.emit (i := .load .x0 (.post .operands 8) .double false) lay₃
  obtain ⟨p, h⟩ := h.stands
  obtain ⟨below, entry⟩ := h.loaded.linked op hm linked
  simp only [Activation.Linked, is] at entry
  obtain ⟨byte, offset, flags⟩ := entry slot found
  refine h.runResolveEntry hm hb linked length (by decide) (by rw [is]; exact byte)
    (lay₁.mono (G := ⟨v.image.code, F.place⟩) rfl sub) fun c₁ h base _ _ => ?_
  refine h.runLoadFieldEntry base below offset flags
    (lay₂.mono (G := ⟨v.image.code, F.place⟩) rfl sub) (by decide) fun c₂ h x1 x2 _ _ => ?_
  refine h.runLoad stack (sub _ _ i) rfl (by decide) rfl fun h holds => ?_
  have other (s : Register) (h₀ : s ≠ .x0) (h₁ : s ≠ .operands) :
      ((c₂.setReg .operands (p + 8)).setReg .x0 (load m.bytes p.toNat 8)).reg s = c₂.reg s := by
    rw [Cpu.reg_setReg_ne _ _ h₀, Cpu.reg_setReg_ne _ _ h₁]
  unfold loadField at lay
  refine Vm.Arrives.switch sub lay ((other .x2 (by decide) (by decide)).trans x2)
    (TopOfStack.mem_fieldStates known) fun K S w w' f lay done => ?_
  exact next _ _ _ _ _ _ lay (h.setFlags f) ((Cpu.reg_setReg_self _ _ (by decide)).trans holds)
    ((other .x1 (by decide) (by decide)).trans x1) done

section
variable (hm : op ∈ Bytecode.decode b.code) (hb : bcp = a.code + op.bci.toUInt64)
  (closed : x.Closed) (roomy : a.Roomy s b.maxStack)
  (found : b.field? op.operand.toNat = some slot)
include hm hb closed roomy found

theorem Implements.getField (is : op.opcode = .getfield) (hx : x.getField b slot = some x')
    (room : depth x'.stack ≤ b.maxStack) :
    Implements a b s bcp 35 .none .none Template.getField x x' := by
  intro P turns v c m place ctx inStub K S q q' settings lay h next
  subst settings
  unfold Contents.getField at hx
  split at hx
  case h_2 => cases hx
  next r rest stack =>
  split at hx
  case h_2 => cases hx
  next id cells hr =>
  split at hx
  case h_2 => cases hx
  next cell hc =>
  obtain ⟨state, hx⟩ := Option.ite_none_right_eq_some.mp hx
  cases hx
  obtain ⟨k, hk, hc⟩ := Option.bind_eq_some_iff.mp hc
  refine h.runPopReference hm hb found is stack (fun none => cell.state_ne_none (state.trans none))
    (fun _ _ fetch => fetch) lay fun K S q₁ q₂ p c₂ lay h x0 x1 done => ?_
  have distance := h.inhabits.slots id k slot (Program.getElem?_place hk)
  obtain ⟨⟨⟩, r₄, read, lay⟩ := lay.split
  rw [← state] at read lay
  refine h.runReadField hr hc x0 (by rw [x1]; exact distance) read fun c₃ h held _ => ?_
  refine h.runPush lay roomy held (fun reference same => h.known ?_) ?_
    fun p' c₄ m' h' changed => ?_
  · refine closed.fields r id cells reference hr (List.mem_of_getElem? (hc.trans ?_))
    rw [Cell.eq_of_value same]
  · rw [depth, List.map_cons, List.sum_cons] at room
    change (rest.map Value.words).sum + _ ≤ _
    omega
  · exact done v c₄ m' _ rfl (next v c₄ m' (h.continues changed h.fits.low) (.of_stands h'))

/-- Before a field is stored in, the value and the reference are taken from the operands. -/
theorem Represents.runPopField {P : Vm → Prop} {turns : Nat} {F : Finished} {ctx : CodeContext}
    {inStub : Bool} {K S : List CodeLabel} {q q' r : UInt64} {w : Value} {rest : List Value}
    (is : op.opcode = .putfield) (settings : ctx.settings = s)
    (stack : x.stack = w :: .object r :: rest) (kind : (Cell.ofValue? (.ofType slot.type) w).isSome)
    (h : Represents a b .none bcp x v c m)
    (sub : ∀ p j, F.code.Fetches p j → v.image.code.Fetches p j)
    (lay : Lays F ctx inStub K S Template.putField q q' ())
    (next : ∀ K S q₁ q₂ p' c' m', Lays F ctx inStub K S (writeField (.ofType slot.type)) q₁ q₂ () →
      Stands a b bcp p' { x with stack := rest } v c' m' → w.Held c' (.ofType slot.type) →
      c'.reg .x3 = r → c'.reg .x1 = slot.offset → v.Continues ctx.settings (some []) [] m v m' →
      (∀ (v' : Vm) c'' m'' left, v'.image = v.image → Vm.Arrives P left (v'.moved q' c'' m'') →
        Vm.Arrives P (left + 1) (v'.moved q₂ c'' m'')) →
      Vm.Arrives P turns (v.moved q₁ c' m')) : Vm.Arrives P (turns + 33) (v.moved q c m) := by
  subst settings
  have length : op.opcode.length = 3 := by rw [is]; rfl
  have linked : op.opcode.isLinked = true := by rw [is]; rfl
  unfold Template.putField at lay
  rw [← is] at lay
  obtain ⟨⟨⟩, r₁, lay₁, lay⟩ := lay.split
  obtain ⟨⟨⟩, r₂, lay₂, lay⟩ := lay.split
  obtain ⟨p, h⟩ := h.stands
  obtain ⟨below, entry⟩ := h.loaded.linked op hm linked
  simp only [Activation.Linked, is] at entry
  obtain ⟨byte, offset, flags⟩ := entry slot found
  refine h.runResolveEntry hm hb linked length (by decide) (by rw [is]; exact byte)
    (lay₁.mono (G := ⟨v.image.code, F.place⟩) rfl sub) fun c₁ h base _ _ => ?_
  refine h.runLoadFieldEntry base below offset flags
    (lay₂.mono (G := ⟨v.image.code, F.place⟩) rfl sub) (by decide) fun c₂ h x1 x4 _ _ => ?_
  unfold Emit.storeField at lay
  refine Vm.Arrives.switch sub lay x4 (TopOfStack.mem_fieldStates ?_) fun K S q₀ q₂ f lay done => ?_
  · intro none
    rw [none] at kind
    cases w <;> cases kind
  obtain ⟨⟨⟩, r₃, popped, lay⟩ := lay.split
  obtain ⟨⟨⟩, r₄, lay₄, lay⟩ := lay.split
  obtain ⟨i, rfl⟩ := Lays.emit (i := .load .x3 (.post .operands 8) .double false) lay₄
  refine (h.setFlags f).runPop stack (popped.mono (G := ⟨v.image.code, F.place⟩) rfl sub) roomy kind
    (fun reference same => h.valid rfl closed ?_) fun p' c₃ m' h' held same changed => ?_
  · rw [stack, ← same]
    exact List.mem_cons_self
  refine h'.runLoad rfl (sub _ _ i) rfl (by decide) rfl fun h₁ holds => ?_
  have other (s : Register) (h₀ : s ≠ .x3) (h₁ : s ≠ .operands) :
      ((c₃.setReg .operands (p' + 8)).setReg .x3 (load m'.bytes p'.toNat 8)).reg s = c₃.reg s := by
    rw [Cpu.reg_setReg_ne _ _ h₀, Cpu.reg_setReg_ne _ _ h₁]
  refine next _ _ _ _ _ _ _ lay h₁ (held.mono (other .x0 (by decide) (by decide)) (by simp))
    ((Cpu.reg_setReg_self _ _ (by decide)).trans holds) ?_ (h.continues changed h.fits.low) done
  rw [other .x1 (by decide) (by decide), same .x1 (by decide) (by decide) (by decide)]
  exact x1

/-- The reference that was in the field is told to the marker before the field is written. -/
theorem Overwrites.putField (is : op.opcode = .putfield) (hx : x.putField b slot = some x') :
    Overwrites a b s bcp 48 (x.overwritten? b slot) .none .none Template.putField x x' := by
  intro P turns v c m place ctx inStub K S q q' settings lay h next
  unfold Contents.putField at hx
  split at hx
  case h_2 => cases hx
  next w r rest stack =>
  split at hx
  case h_2 => cases hx
  next id cells cell hr kind =>
  split at hx
  case h_2 => cases hx
  next k hk =>
  obtain ⟨inside, hx⟩ := Option.ite_none_right_eq_some.mp hx
  cases hx
  have before : x.overwritten? b slot = Cell.overwritten? (.ofType slot.type) cells[k]? := by
    unfold Contents.overwritten?
    simp only [stack, hr, hk, Option.bind_some]
  refine h.runPopField hm hb closed roomy found is settings stack (Option.isSome_of_eq_some kind)
    (fun _ _ fetch => fetch) lay fun K S q₁ q₂ p' c' m' lay h₁ held x3 x1 continues done => ?_
  subst settings
  have distance := h₁.inhabits.slots id k slot (Program.getElem?_place hk)
  rw [← x1] at distance
  refine h₁.runWriteField hr inside x3 distance roomy kind held lay fun v' c'' m'' written h₂ => ?_
  have continues := continues.after written
  exact done v' c'' m'' _ continues.image (next v' c'' m'' (before ▸ continues) (.of_stands h₂))

end
end TemplateVm
