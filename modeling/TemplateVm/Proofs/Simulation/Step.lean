import TemplateVm.Proofs.Templates.Opcodes

set_option autoImplicit false
set_option synthInstance.maxSize 100000

/-!
# One bytecode

From the entry of the dispatch table for a bytecode the machine comes to the entry for the next one,
and represents the contents that the bytecode leaves.
-/
namespace TemplateVm

open Memory (Guarded load)
open Bytecode (Operation)
open Guest Emit

variable {P : Vm → Prop} {turns : Nat} {u v : Vm} {q q' : UInt64} {c : Cpu} {m : Guarded}
  {a : Activation} {b : Program} {s : Settings} {x x' : Contents} {place : CodeLabel → UInt64}
  {ctx : CodeContext} {inStub : Bool} {K S : List CodeLabel} {tos tosIn : TopOfStack}
  {op op' : Operation} {w : Value} {e : ExceptionEntries} {distance : Option Int}
  {rest : List Value}

/-! ## The topmost operand -/

/-- The state that the template of an opcode takes. -/
def Opcode.takes (o : Opcode) : TopOfStack := (Template.ofOpcode default o).tosIn

theorem Opcode.tosIn_ofOpcode (o : Opcode) : (Template.ofOpcode e o).tosIn = o.takes := by
  cases o <;> simp only [takes, Template.ofOpcode, Template.falling, Template.leaving]

theorem Opcode.takes_ofResult (o : Opcode) : o.takes.ofResult = o.takes := by cases o <;> rfl

theorem Template.tosOut_ofResult (o : Opcode) :
    (Template.ofOpcode e o).tosOut.ofResult = (Template.ofOpcode e o).tosOut := by
  cases o <;> rfl

theorem Value.Held.state (held : w.Held c tos) (wide : tos.ofResult = tos) : w.state = tos := by
  cases w <;> cases tos <;> first | rfl | exact held.elim | cases wide

theorem Guest.Cell.state_of_ofValue? (kind : (Cell.ofValue? tos w).isSome)
    (wide : tos.ofResult = tos) : w.state = tos := by
  unfold Cell.ofValue? at kind
  split at kind <;> first | rfl | cases wide | cases kind

theorem Guest.Cell.isSome_ofValue? (kind : w.state = tos) (wide : tos.ofResult = tos)
    (taken : tos ≠ .none) : (Cell.ofValue? tos w).isSome := by
  subst kind
  cases w <;> first | rfl | exact absurd rfl taken | cases wide

/-- A template that takes a value finds one of its kind on top. -/
theorem Guest.top_of_execute (hx : execute b op x = some (x', distance))
    (taken : op.opcode.takes ≠ .none) :
    ∃ w rest, x.stack = w :: rest ∧ (Cell.ofValue? op.opcode.takes w).isSome := by
  have stored {n : Nat} {y : Option Contents} (hx : Guest.falling y = some (x', distance))
      (store : y = x.store n op.opcode.takes b.maxLocals) :
      ∃ w rest, x.stack = w :: rest ∧ (Cell.ofValue? op.opcode.takes w).isSome := by
    obtain ⟨w, rest, stack, kind, -⟩ := Contents.of_store (store.symm.trans (of_falling hx).1)
    exact ⟨w, rest, stack, Cell.isSome_ofValue? kind op.opcode.takes_ofResult taken⟩
  unfold execute at hx
  dsimp only at hx
  cases ho : op.opcode <;> simp only [ho] at hx taken stored ⊢
  case istore | lstore | fstore | dstore | istore0 | istore1 | istore2 | istore3 =>
    exact stored hx rfl
  case goto => exact absurd rfl taken
  case ifeq | ifne | iflt | ifge | ifgt | ifle =>
    unfold Contents.branchInt at hx
    split at hx
    · exact ⟨_, _, ‹_›, rfl⟩
    · cases hx
  case ifIcmpeq | ifIcmpne | ifIcmplt | ifIcmpge | ifIcmpgt | ifIcmple =>
    unfold Contents.branchInts at hx
    split at hx
    · exact ⟨_, _, ‹_›, rfl⟩
    · cases hx
  case ifnull | ifnonnull =>
    unfold Contents.branchNull at hx
    split at hx
    · exact ⟨_, _, ‹_›, rfl⟩
    · cases hx
  case iadd | isub | imul | idiv | ineg | i2l | ladd | fadd | dadd | iaload | iastore | arraylength =>
    replace hx := (of_falling hx).1
    simp only [Contents.onInts, Contents.onInt, Contents.divide, Contents.addLongs,
      Contents.addFloats, Contents.addDoubles, Contents.loadElement, Contents.storeElement,
      Contents.arrayLength] at hx
    split at hx
    · exact ⟨_, _, ‹_›, rfl⟩
    · cases hx
  case checkcast =>
    obtain ⟨target, -, hx⟩ := Option.bind_eq_some_iff.mp (of_falling hx).1
    unfold Contents.checkCast at hx
    split at hx
    · exact ⟨_, _, ‹_›, rfl⟩
    · cases hx
  all_goals first | exact absurd rfl taken | cases hx

/-- A value that is held is held as the template takes it. -/
theorem Represents.suits (h : Represents a b tos (a.at op) x v c m)
    (hx : execute b op x = some (x', distance))
    (wide : tos.ofResult = tos ∨ op.opcode.takes = .none) :
    op.opcode.takes = .none ∨ tos = .none ∨ tos = op.opcode.takes := by
  by_cases taken : op.opcode.takes = .none
  · exact .inl taken
  · obtain ⟨w, rest, stack, kind⟩ := Guest.top_of_execute hx taken
    obtain ⟨-, rest', p, unheld, -⟩ := h
    unfold Unheld at unheld
    split at unheld
    · exact .inr (.inl rfl)
    · obtain ⟨w', stack', held⟩ := unheld
      obtain ⟨rfl, rfl⟩ := List.cons.inj (stack.symm.trans stack')
      have state := Cell.state_of_ofValue? kind op.opcode.takes_ofResult
      exact .inr (.inr ((held.state (wide.resolve_right taken)).symm.trans state))

/-! ## Dispatch -/

/-- The next operation is dispatched with the value that is held. -/
theorem Represents.runDispatchNext (h : Represents a b tos (a.at op) x u c m)
    (lay : Lays ⟨v.image.code, place⟩ ctx inStub K S
      (Emit.dispatchNext tos op.opcode.length.toUInt64) q q' ())
    (target : b.operation? (op.bci + op.opcode.length) = some op')
    (next : ∀ c', Represents a b tos (a.at op') x u c' m →
      Vm.Arrives P turns (v.moved (u.image.normalTable.get tos op'.opcode.byte) c' m)) :
    Vm.Arrives P (turns + 4) (v.moved q c m) := by
  obtain ⟨bounded, rest, p, unheld, h⟩ := h
  obtain ⟨bci, hm'⟩ := Program.bci_of_operation? target
  have moved : a.at op + op.opcode.length.toUInt64 = a.at op' := by
    rw [Activation.at, Activation.at, UInt64.add_assoc,
      show op'.bci = op.bci + op.opcode.length by omega]
    exact congrArg (a.code + ·) (UInt64.ofNat_add _ _).symm
  refine h.runDispatchTo lay hm' moved fun c' h same floats => next c' ⟨bounded, rest, p,
    unheld.mono (same _ (by decide) (by decide) (by decide)) (floats _), moved ▸ h⟩

/-- The machine is at the entry that the dispatch table has for the current bytecode and the state
    in which the topmost operand is held. -/
def Enters (a : Activation) (b : Program) (i : Image) (tos : TopOfStack) (t : State) (w : Vm) :
    Prop :=
  ∃ op v c m, b.operation? t.bci = some op ∧
    w = v.moved (v.image.normalTable.get tos op.opcode.byte) c m ∧ v.image = i ∧
    Represents a b tos (a.at op) t.toContents v c m

/-- From its entry in the table the machine comes to a template, with the topmost operand held as the
    template takes it. -/
theorem Represents.runToTemplate {code : CodeCache} {trace entry : EntryPoint} {illegal : UInt64}
    (h : Represents a b tos (a.at op) x v c m)
    (E : Image.Entry { v.image with code } place ctx op.opcode K S trace entry illegal q q')
    (sub : ∀ p j, code.Fetches p j → v.image.code.Fetches p j)
    (hm : op ∈ Bytecode.decode b.code) (closed : x.Closed) (roomy : a.Roomy ctx.settings b.maxStack)
    (suits : op.opcode.takes = .none ∨ tos = .none ∨ tos = op.opcode.takes)
    (top : op.opcode.takes ≠ .none → ∃ w rest, x.stack = w :: rest ∧
      (Cell.ofValue? op.opcode.takes w).isSome)
    (next : ∀ q₁ q₂ v' c' m', v.Continues ctx.settings (some []) [op.opcode] m v' m' →
      Lays ⟨code, place⟩ ctx true K [] (Template.ofOpcode v.image.exceptions op.opcode).code q₁ q₂
        () →
      Lays ⟨code, place⟩ ctx true K [] (Emit.whenM
        (!(Template.ofOpcode v.image.exceptions op.opcode).dispatches)
        (Emit.dispatchNext (Template.ofOpcode v.image.exceptions op.opcode).tosOut
          op.opcode.length.toUInt64)) q₂ q' () →
      Represents a b op.opcode.takes (a.at op) x v' c' m' →
        Vm.Arrives P turns (v'.moved q₁ c' m')) :
    Vm.Arrives P (turns + 51) (v.moved (v.image.normalTable.get tos op.opcode.byte) c m) := by
  have code := E.code
  change Lays _ _ _ _ _ (Emit.entryPoint v.image.exceptions illegal trace op.opcode) _ _ _ at code
  generalize v.image.exceptions = e at code next
  unfold Emit.entryPoint at code
  obtain ⟨entries, r₁, lay, ended⟩ := code.stub_bind
  obtain ⟨rfl, rfl⟩ := ended.ended
  obtain ⟨entries', r₂, lay₁, lay⟩ := lay.split
  obtain ⟨⟨⟩, r₃, lay₂, ended⟩ := lay.split
  obtain ⟨rfl, rfl⟩ := ended.ended
  unfold Emit.templateCode at lay₂
  obtain ⟨⟨⟩, r₄, lay₂, lay₃⟩ := lay₂.split
  obtain ⟨⟨⟩, r₅, lay₃, lay₄⟩ := lay₃.split
  rw [show v.image.normalTable.get tos op.opcode.byte = entry.get tos from E.table tos]
  rw [← Opcode.tosIn_ofOpcode (e := e)] at suits top next
  obtain ⟨_, rest, p₀, _, h₀⟩ := id h
  refine h.runStateEntries closed roomy (lay₁.mono (G := ⟨v.image.code, place⟩) rfl sub) suits top
    fun c₁ m₁ h changed => ?_
  have readable : 0x1000 ≤ (a.at op).toNat ∧ (a.at op).toNat < a.heap.toNat := by
    obtain ⟨-, rest, p, -, h⟩ := h
    obtain ⟨operands, fetched⟩ := h.fetched hm rfl
    have above := fetched.above
    have below := fetched.below
    have length := Bytecode.length_pos op.opcode
    omega
  refine h.runBeforeTemplate E.settings roomy (lay₂.mono (G := ⟨v.image.code, place⟩) rfl sub)
    (fun on => ?_) readable fun v₂ c₂ m₂ continues h => ?_
  · obtain ⟨r, t, traced⟩ := E.traced on (Template.ofOpcode e op.opcode).tosIn
    exact ⟨r, t, _, _, traced.mono (G := ⟨v.image.code, place⟩) rfl sub⟩
  exact next _ _ v₂ c₂ m₂ ((h₀.continues changed h₀.fits.low).after continues) lay₃ lay₄ h

/-- As many turns as a bytecode takes at most: its entry with the counters and the tracing, its
    template, and the dispatch of the next one. -/
def Guest.Program.stepTurns (b : Program) : Nat := b.templateTurns + 55

/-- One bytecode. -/
theorem Enters.step {i : Image} {t t' : State} {w : Vm} (h : Enters a b i tos t w)
    (generated : Image.Generated s i) (closed : t.Closed) (roomy : a.Roomy s b.maxStack)
    (wide : tos.ofResult = tos ∨ ∀ op, b.operation? t.bci = some op → op.opcode.takes = .none)
    (ht : Guest.step b t = some t') :
    Vm.Arrives (fun w' => ∃ tos', tos'.ofResult = tos' ∧ Enters a b i tos' t' w' ∧
      w.Continues s (stepOverwritten? b t) (stepExecuted b t) w.world.store.mem w'
        w'.world.store.mem) b.stepTurns w := by
  obtain ⟨op, v, c, m, current, rfl, rfl, h⟩ := h
  have old : stepOverwritten? b t = overwritten? b op t.toContents := by
    rw [stepOverwritten?, current]
    rfl
  have executed : stepExecuted b t = [op.opcode] := by
    rw [stepExecuted, current]
    rfl
  rw [old, executed]
  unfold Guest.step at ht
  obtain ⟨op₁, current', ht⟩ := Option.bind_eq_some_iff.mp ht
  obtain rfl := Option.some.inj (current.symm.trans current')
  obtain ⟨⟨x', distance⟩, hx, ht⟩ := Option.bind_eq_some_iff.mp ht
  obtain ⟨op', target, ht⟩ := Option.bind_eq_some_iff.mp ht
  obtain ⟨room, ht⟩ := Option.ite_none_right_eq_some.mp ht
  cases ht
  obtain ⟨bci, hm⟩ := Program.bci_of_operation? current
  obtain ⟨bci', -⟩ := Program.bci_of_operation? target
  obtain ⟨place, ctx, K, S, trace, entry, illegal, p, q, E⟩ := generated.entry op.opcode
  have settings : ctx.settings = s := by
    obtain ⟨i₀, -, same, -⟩ := generated.image
    exact E.settings.trans same
  subst settings
  rw [← bci] at target
  have suits := h.suits hx (wide.imp_right fun takes => takes op current)
  generalize ht' : ({ x' with bci := op'.bci } : State) = t'
  generalize hp : (fun w' : Vm => ∃ tos', tos'.ofResult = tos' ∧ Enters a b v.image tos' t' w' ∧ _) = P
  have arrived {turns : Nat} {tos' : TopOfStack} {v' : Vm} {c' : Cpu} {m' : Guarded}
      (continues : v.Continues ctx.settings (overwritten? b op t.toContents) [op.opcode] m v' m')
      (wide : tos'.ofResult = tos') (h : Represents a b tos' (a.at op') x' v' c' m') :
      Vm.Arrives P turns (v'.moved (v'.image.normalTable.get tos' op'.opcode.byte) c' m') := by
    subst hp ht'
    refine .here ⟨tos', wide, ⟨op', v', c', m', ?_, rfl, continues.image, h⟩, continues.moved⟩
    rw [bci', ← bci]
    exact target
  suffices arrives : Vm.Arrives P (4 + b.templateTurns + 51)
      (v.moved (v.image.normalTable.get tos op.opcode.byte) c m) from
    arrives.le (by unfold Program.stepTurns; omega)
  refine h.runToTemplate E (fun _ _ fetch => fetch) hm closed roomy suits
    (Guest.top_of_execute hx) fun q₁ q₂ v₂ c₂ m₂ before lay₃ lay₄ h => ?_
  generalize v.image.exceptions = e at lay₃ lay₄
  change Lays ⟨v.image.code, place⟩ _ _ _ _ _ _ _ _ at lay₃ lay₄
  have performs := Template.performs (e := e) hm closed roomy hx room
  have onward {v' : Vm} {c' : Cpu} {m' : Guarded}
      (continues : v.Continues ctx.settings (overwritten? b op t.toContents) [op.opcode] m v' m')
      (through : (Template.ofOpcode e op.opcode).dispatches = false)
      (none : distance = none)
      (h : Represents a b (Template.ofOpcode e op.opcode).tosOut (a.at op) x' v' c'
        m') : Vm.Arrives P 4 (v'.moved q₂ c' m') := by
    subst none
    rw [through, ← continues.image] at lay₄
    exact h.runDispatchNext lay₄ target fun c' h =>
      arrived continues (Template.tosOut_ofResult _) h
  rw [← before.image] at lay₃
  rw [← Opcode.tosIn_ofOpcode (e := e)] at h
  cases performs with
  | falls through code =>
    exact code _ _ v₂ c₂ m₂ place ctx _ _ _ _ _ rfl lay₃ h fun v₃ c₃ m₃ continues h =>
      onward (before.after continues) through rfl h
  | branches plain out through code =>
    rw [overwritten?_of_ne plain] at arrived onward
    refine code _ _ v₂ c₂ m₂ place ctx _ _ _ _ _ op' rfl lay₃ h target
      (fun v₃ c₃ m₃ continues none h => ?_) fun v₃ c₃ m₃ continues _ h =>
        arrived (before.after continues) rfl h
    exact onward (before.after continues) (Bool.eq_false_iff.mpr fun on => through on none)
      none (out ▸ h)

end TemplateVm
