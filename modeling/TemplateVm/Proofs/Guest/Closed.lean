import TemplateVm.Proofs.Guest.Semantics

set_option autoImplicit false

/-!
# References stay known

No bytecode makes up a reference: what variables, operands and fields refer to is null or an object,
and stays so.
-/
namespace TemplateVm.Guest

open Bytecode (Operation)

variable {x x' : Contents} {b : Program} {v : Value} {rest : List Value} {n maxLocals : Nat}
  {kind : TopOfStack} {slot : FieldSlot} {distance : Option Int}

theorem Heap.Knows.update {h : Heap} {r r' : UInt64} {o : Object} (known : h.Knows r) :
    (h.update r' o).Knows r := by
  refine known.imp_right fun some => ?_
  unfold Heap.update
  split
  · rfl
  · exact some

theorem Cell.eq_of_value {cell : Cell} {r : UInt64} (h : cell.value = .object r) :
    cell = .object r := by
  cases cell <;> cases h
  rfl

theorem Cell.ofValue?_object {state : TopOfStack} {r : UInt64}
    (h : ofValue? state v = some (.object r)) : v = .object r := by
  unfold ofValue? at h
  split at h <;> cases h
  rfl

namespace Contents.Closed

/-- Other operands, of which every reference is known. -/
theorem withStack (h : x.Closed) (stack : ∀ r, .object r ∈ rest → x.heap.Knows r) :
    Closed { x with stack := rest } := ⟨h.locals, stack, h.fields⟩

theorem tail (h : x.Closed) (hx : x.stack = v :: rest) (r : UInt64) (hr : .object r ∈ rest) :
    x.heap.Knows r :=
  h.stack r (hx ▸ List.mem_cons_of_mem _ hr)

theorem drop (h : x.Closed) (hx : x.stack = v :: rest) : Closed { x with stack := rest } :=
  h.withStack (h.tail hx)

theorem push (h : x.Closed) (hv : ∀ r, v = .object r → x.heap.Knows r) : (x.push v).Closed :=
  h.withStack fun r hr => (List.mem_cons.mp hr).elim (fun e => hv r e.symm) (h.stack r)

/-! ## Variables -/

theorem load (h : x.Closed) (hx : x.load n kind = some x') : x'.Closed := by
  unfold Contents.load at hx
  split at hx
  · next v hv =>
    obtain ⟨-, hx⟩ := Option.ite_none_right_eq_some.mp hx
    cases hx
    exact h.push fun r e => h.locals n r (e ▸ hv)
  · cases hx

theorem assign (h : x.Closed) (hv : ∀ r, v = .object r → x.heap.Knows r) :
    Closed { x with locals := x.locals.assign n v } where
  locals i r hr := by
    simp only [Locals.assign] at hr
    split at hr
    · exact hv r (Option.some.inj hr)
    · split at hr
      · cases hr
      · split at hr
        · cases hr
        · exact h.locals i r hr
  stack := h.stack
  fields := h.fields

theorem store (h : x.Closed) (hx : x.store n kind maxLocals = some x') : x'.Closed := by
  unfold Contents.store at hx
  split at hx
  · next v rest stack =>
    obtain ⟨-, hx⟩ := Option.ite_none_right_eq_some.mp hx
    cases hx
    exact (h.drop stack).assign fun r e => h.stack r (stack ▸ e ▸ List.mem_cons_self)
  · cases hx

theorem increment {k : Int32} (h : x.Closed) (hx : x.increment n k = some x') : x'.Closed := by
  unfold Contents.increment at hx
  split at hx
  · cases hx
    exact h.assign nofun
  · cases hx

/-! ## Operands -/

theorem pop (h : x.Closed) (hx : x.pop = some x') : x'.Closed := by
  unfold Contents.pop at hx
  split at hx
  · next v rest stack =>
    obtain ⟨-, hx⟩ := Option.ite_none_right_eq_some.mp hx
    cases hx
    exact h.drop stack
  · cases hx

theorem dup (h : x.Closed) (hx : x.dup = some x') : x'.Closed := by
  unfold Contents.dup at hx
  split at hx
  · next v rest stack =>
    obtain ⟨-, hx⟩ := Option.ite_none_right_eq_some.mp hx
    cases hx
    rw [← stack]
    exact h.push fun r e => h.stack r (stack ▸ e ▸ List.mem_cons_self)
  · cases hx

/-- Two operands become one that is no reference. -/
theorem two {w u : Value} (h : x.Closed) (hx : x.stack = v :: w :: rest)
    (plain : ∀ r, u ≠ .object r) : Closed { x with stack := u :: rest } :=
  h.withStack fun r hr => (List.mem_cons.mp hr).elim (fun e => absurd e.symm (plain r)) fun hr =>
    h.tail hx r (List.mem_cons_of_mem _ hr)

theorem one {u : Value} (h : x.Closed) (hx : x.stack = v :: rest) (plain : ∀ r, u ≠ .object r) :
    Closed { x with stack := u :: rest } :=
  h.withStack fun r hr => (List.mem_cons.mp hr).elim (fun e => absurd e.symm (plain r)) (h.tail hx r)

theorem onInts {f : Int32 → Int32 → Int32} (h : x.Closed) (hx : x.onInts f = some x') :
    x'.Closed := by
  unfold Contents.onInts at hx
  split at hx
  · next stack =>
    cases hx
    exact h.two stack nofun
  · cases hx

theorem onInt {f : Int32 → Value} (h : x.Closed) (hx : x.onInt f = some x')
    (plain : ∀ k r, f k ≠ .object r) : x'.Closed := by
  unfold Contents.onInt at hx
  split at hx
  · next stack =>
    cases hx
    exact h.one stack (plain _)
  · cases hx

theorem divide (h : x.Closed) (hx : x.divide = some x') : x'.Closed := by
  unfold Contents.divide at hx
  split at hx
  · next stack =>
    obtain ⟨-, hx⟩ := Option.ite_none_left_eq_some.mp hx
    cases hx
    exact h.two stack nofun
  · cases hx

theorem addLongs (h : x.Closed) (hx : x.addLongs = some x') : x'.Closed := by
  unfold Contents.addLongs at hx
  split at hx
  · next stack =>
    cases hx
    exact h.two stack nofun
  · cases hx

theorem addFloats (h : x.Closed) (hx : x.addFloats = some x') : x'.Closed := by
  unfold Contents.addFloats at hx
  split at hx
  · next stack =>
    cases hx
    exact h.two stack nofun
  · cases hx

theorem addDoubles (h : x.Closed) (hx : x.addDoubles = some x') : x'.Closed := by
  unfold Contents.addDoubles at hx
  split at hx
  · next stack =>
    cases hx
    exact h.two stack nofun
  · cases hx

/-! ## Objects and arrays -/

/-- Another object at a reference, of which every field is known. -/
theorem update {r : UInt64} {o : Object} (h : x.Closed)
    (fields : ∀ id cells r', o = ⟨id, .fields cells⟩ → Cell.object r' ∈ cells → x.heap.Knows r') :
    Closed { x with heap := x.heap.update r o } where
  locals n r' hr := (h.locals n r' hr).update
  stack r' hr := (h.stack r' hr).update
  fields r₀ id cells r' hr hc := by
    refine Heap.Knows.update ?_
    obtain ⟨-, same⟩ | ⟨-, hr⟩ := Heap.of_update hr
    · exact fields id cells r' same.symm hc
    · exact h.fields r₀ id cells r' hr hc

theorem getField (h : x.Closed) (hx : x.getField b slot = some x') : x'.Closed := by
  unfold Contents.getField at hx
  split at hx
  case h_2 => cases hx
  next r rest stack =>
  split at hx
  case h_2 => cases hx
  next id cells hr =>
  split at hx
  case h_2 => cases hx
  next cell hc =>
  obtain ⟨-, hx⟩ := Option.ite_none_right_eq_some.mp hx
  cases hx
  obtain ⟨k, -, hc⟩ := Option.bind_eq_some_iff.mp hc
  refine h.withStack fun r' hr' => (List.mem_cons.mp hr').elim (fun same => ?_) (h.tail stack r')
  refine h.fields r id cells r' hr (List.mem_of_getElem? (hc.trans ?_))
  rw [Cell.eq_of_value same.symm]

theorem putField (h : x.Closed) (hx : x.putField b slot = some x') : x'.Closed := by
  unfold Contents.putField at hx
  split at hx
  case h_2 => cases hx
  next v r rest stack =>
  split at hx
  case h_2 => cases hx
  next id cells cell hr kind =>
  split at hx
  case h_2 => cases hx
  next k hk =>
  obtain ⟨-, hx⟩ := Option.ite_none_right_eq_some.mp hx
  cases hx
  have below : Closed { x with stack := rest } :=
    h.withStack fun r' hr' => h.tail stack r' (List.mem_cons_of_mem _ hr')
  refine below.update fun id' cells' r' same hr' => ?_
  cases same
  rcases List.mem_or_eq_of_mem_set hr' with old | new
  · exact h.fields r id cells r' hr old
  · refine h.stack r' ?_
    rw [stack, Cell.ofValue?_object (kind.trans (congrArg some new.symm))]
    exact List.mem_cons_self

theorem loadElement (h : x.Closed) (hx : x.loadElement = some x') : x'.Closed := by
  unfold Contents.loadElement at hx
  split at hx
  case h_2 => cases hx
  next i r rest stack =>
  split at hx
  case h_2 => cases hx
  obtain ⟨-, hx⟩ := Option.ite_none_left_eq_some.mp hx
  split at hx
  case h_2 => cases hx
  cases hx
  exact h.two stack nofun

theorem storeElement (h : x.Closed) (hx : x.storeElement = some x') : x'.Closed := by
  unfold Contents.storeElement at hx
  split at hx
  case h_2 => cases hx
  next n i r rest stack =>
  split at hx
  case h_2 => cases hx
  obtain ⟨-, hx⟩ := Option.ite_none_left_eq_some.mp hx
  cases hx
  have below : Closed { x with stack := rest } := h.withStack fun r' hr' =>
    h.tail stack r' (List.mem_cons_of_mem _ (List.mem_cons_of_mem _ hr'))
  exact below.update nofun

theorem arrayLength (h : x.Closed) (hx : x.arrayLength = some x') : x'.Closed := by
  unfold Contents.arrayLength at hx
  split at hx
  case h_2 => cases hx
  next r rest stack =>
  split at hx
  case h_2 => cases hx
  cases hx
  exact h.one stack nofun

theorem checkCast {target : ClassId} (h : x.Closed) (hx : x.checkCast b target = some x') :
    x'.Closed := by
  unfold Contents.checkCast at hx
  split at hx
  case h_2 => cases hx
  next r rest stack =>
  split at hx
  · exact Option.some.inj hx ▸ h
  · split at hx
    · exact Option.some.inj (Option.ite_none_right_eq_some.mp hx).2 ▸ h
    · cases hx

/-! ## Branches -/

theorem branchInt {taken : Int32 → Bool} {k : Int} (h : x.Closed)
    (hx : x.branchInt taken k = some (x', distance)) : x'.Closed := by
  unfold Contents.branchInt at hx
  split at hx
  · next stack =>
    cases hx
    exact h.drop stack
  · cases hx

theorem branchInts {taken : Int32 → Int32 → Bool} {k : Int} (h : x.Closed)
    (hx : x.branchInts taken k = some (x', distance)) : x'.Closed := by
  unfold Contents.branchInts at hx
  split at hx
  · next stack =>
    cases hx
    exact h.withStack fun r hr => h.tail stack r (List.mem_cons_of_mem _ hr)
  · cases hx

theorem branchNull {onNull : Bool} {k : Int} (h : x.Closed)
    (hx : x.branchNull onNull k = some (x', distance)) : x'.Closed := by
  unfold Contents.branchNull at hx
  split at hx
  · next stack =>
    cases hx
    exact h.drop stack
  · cases hx

end Contents.Closed

/-! ## Bytecodes -/

theorem of_falling {y : Option Contents} (h : falling y = some (x', distance)) :
    y = some x' ∧ distance = none := by
  cases y with
  | none => cases h
  | some y =>
    cases h
    exact ⟨rfl, rfl⟩

/-- Whatever an operation does, no reference is made up by it. -/
theorem execute_closed {op : Operation} (h : x.Closed) (hx : execute b op x = some (x', distance)) :
    x'.Closed := by
  have constant {v : Value} (hx : falling (x.push v) = some (x', distance))
      (plain : ∀ r, v = .object r → x.heap.Knows r) : x'.Closed :=
    Option.some.inj (of_falling hx).1 ▸ h.push plain
  have field {f : FieldSlot → Option Contents} {slot : Option FieldSlot}
      (closed : ∀ slot x', f slot = some x' → x'.Closed)
      (hx : falling (slot.bind f) = some (x', distance)) : x'.Closed := by
    obtain ⟨slot, -, hx⟩ := Option.bind_eq_some_iff.mp (of_falling hx).1
    exact closed slot x' hx
  unfold execute at hx
  dsimp only at hx
  cases ho : op.opcode <;> simp only [ho] at hx
  case nop => exact Option.some.inj (of_falling hx).1 ▸ h
  case aconstNull => exact constant hx fun r e => .inl (Value.object.inj e).symm
  case goto =>
    cases hx
    exact h
  case getfield => exact field (fun slot x' => h.getField) hx
  case putfield => exact field (fun slot x' => h.putField) hx
  case checkcast =>
    obtain ⟨target, -, hx⟩ := Option.bind_eq_some_iff.mp (of_falling hx).1
    exact h.checkCast hx
  case iaload => exact h.loadElement (of_falling hx).1
  case iastore => exact h.storeElement (of_falling hx).1
  case arraylength => exact h.arrayLength (of_falling hx).1
  case iinc => exact h.increment (of_falling hx).1
  case pop => exact h.pop (of_falling hx).1
  case dup => exact h.dup (of_falling hx).1
  case idiv => exact h.divide (of_falling hx).1
  case ladd => exact h.addLongs (of_falling hx).1
  case fadd => exact h.addFloats (of_falling hx).1
  case dadd => exact h.addDoubles (of_falling hx).1
  case ineg | i2l => exact h.onInt (of_falling hx).1 fun _ _ => nofun
  case iadd | isub | imul => exact h.onInts (of_falling hx).1
  all_goals first
    | exact constant hx nofun
    | exact h.load (of_falling hx).1
    | exact h.store (of_falling hx).1
    | exact h.branchInt hx
    | exact h.branchInts hx
    | exact h.branchNull hx
    | cases hx

theorem step_closed {t t' : State} (h : t.Closed) (ht : step b t = some t') : t'.Closed := by
  unfold step at ht
  obtain ⟨op, -, ht⟩ := Option.bind_eq_some_iff.mp ht
  obtain ⟨⟨y, distance⟩, hy, ht⟩ := Option.bind_eq_some_iff.mp ht
  obtain ⟨next, -, ht⟩ := Option.bind_eq_some_iff.mp ht
  obtain ⟨-, ht⟩ := Option.ite_none_right_eq_some.mp ht
  cases ht
  exact execute_closed h hy

end TemplateVm.Guest
