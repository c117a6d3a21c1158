import TemplateVm.Proofs.Guest.Closed

set_option autoImplicit false

/-!
# References that are overwritten

A marker that runs beside the guest has to know the references in fields that the guest overwrites.
A run overwrites a list of them, in the order of its bytecodes; there is one for every run in which
fields hold what their types say, and runs keep it so.
-/
namespace TemplateVm.Guest

open Bytecode (Operation)

variable {x x' : Contents} {b : Program} {slot : FieldSlot} {op : Operation} {distance : Option Int}
  {s s' : State} {n : Nat}

/-- What is overwritten when a value in the given state is stored in a field: a reference, or nothing
    that a marker has to know. Something else in the place of a reference has no answer. -/
def Cell.overwritten? (state : TopOfStack) (before : Option Cell) : Option (List UInt64) :=
  if state = .object then
    match before with
    | some (.object old) => some [old]
    | _ => none
  else some []

def Contents.overwritten? (b : Program) (x : Contents) (slot : FieldSlot) : Option (List UInt64) :=
  match x.stack with
  | _ :: .object r :: _ =>
    match x.heap r with
    | some ⟨id, .fields cells⟩ =>
      Cell.overwritten? (.ofType slot.type) ((b.place? id slot).bind (cells[·]?))
    | _ => none
  | _ => none

/-- The references in fields that an operation overwrites. -/
def overwritten? (b : Program) (op : Operation) (x : Contents) : Option (List UInt64) :=
  if op.opcode = .putfield then (b.field? op.operand.toNat).bind (x.overwritten? b) else some []

theorem overwritten?_of_ne (plain : op.opcode ≠ .putfield) : overwritten? b op x = some [] :=
  if_neg plain

def stepOverwritten? (b : Program) (s : State) : Option (List UInt64) :=
  (b.operation? s.bci).bind fun op => overwritten? b op s.toContents

/-- The references in fields that so many bytecodes overwrite, one after the other. -/
def overwrittenIn? (b : Program) : Nat → State → Option (List UInt64)
  | 0, _ => some []
  | n + 1, s => do
    let first ← stepOverwritten? b s
    let next ← step b s
    let rest ← overwrittenIn? b n next
    some (first ++ rest)

/-- The fields of objects hold what their types say. -/
def Contents.Typed (b : Program) (x : Contents) : Prop :=
  ∀ r id cells, x.heap r = some ⟨id, .fields cells⟩ → ∀ slot k cell,
    b.place? id slot = some k → cells[k]? = some cell → cell.state = .ofType slot.type

/-! ## Types of fields stay -/

theorem Cell.ofValue?_state {state : TopOfStack} {w : Value} {cell : Cell}
    (h : ofValue? state w = some cell) : cell.state = state := by
  unfold ofValue? at h
  split at h <;> cases h <;> rfl

/-- Operations change the heap in one place at most: what they store in. -/
theorem execute_heap (hx : execute b op x = some (x', distance)) :
    x'.heap = x.heap ∨ x.storeElement = some x' ∨
      op.opcode = .putfield ∧ (b.field? op.operand.toNat).bind (x.putField b) = some x' := by
  unfold execute at hx
  dsimp only at hx
  cases ho : op.opcode <;> simp only [ho] at hx
  case putfield => exact .inr (.inr ⟨rfl, (of_falling hx).1⟩)
  case iastore => exact .inr (.inl (of_falling hx).1)
  case getfield =>
    obtain ⟨slot, -, hx⟩ := Option.bind_eq_some_iff.mp (of_falling hx).1
    exact .inl (by grind [Contents.getField])
  case checkcast =>
    obtain ⟨target, -, hx⟩ := Option.bind_eq_some_iff.mp (of_falling hx).1
    exact .inl (by grind [Contents.checkCast])
  case goto => exact .inl (by cases hx; rfl)
  case ifeq | ifne | iflt | ifge | ifgt | ifle => exact .inl (by grind [Contents.branchInt])
  case ifIcmpeq | ifIcmpne | ifIcmplt | ifIcmpge | ifIcmpgt | ifIcmple =>
    exact .inl (by grind [Contents.branchInts])
  case ifnull | ifnonnull => exact .inl (by grind [Contents.branchNull])
  all_goals first
    | replace hx := (of_falling hx).1
      exact .inl (by grind [Contents.push, Contents.load, Contents.store, Contents.increment,
        Contents.pop, Contents.dup, Contents.onInts, Contents.onInt, Contents.divide,
        Contents.addLongs, Contents.addFloats, Contents.addDoubles, Contents.loadElement,
        Contents.arrayLength])
    | cases hx

namespace Contents

theorem Typed.congr (h : x.Typed b) (same : x'.heap = x.heap) : x'.Typed b := by
  unfold Typed
  rw [same]
  exact h

theorem Typed.storeElement (h : x.Typed b) (hx : x.storeElement = some x') : x'.Typed b := by
  unfold Contents.storeElement at hx
  split at hx
  case h_2 => cases hx
  next n i r rest stack =>
  split at hx
  case h_2 => cases hx
  obtain ⟨-, hx⟩ := Option.ite_none_left_eq_some.mp hx
  cases hx
  intro r' id cells hr
  change (if r' = r then _ else x.heap r') = _ at hr
  split at hr
  · cases hr
  · exact h r' id cells hr

/-- A field has one kind, and what is stored there is of that kind. -/
theorem Typed.putField (h : x.Typed b) (hx : x.putField b slot = some x') : x'.Typed b := by
  unfold Contents.putField at hx
  split at hx
  case h_2 => cases hx
  next w r rest stack =>
  split at hx
  case h_2 => cases hx
  next id cells cell hr kind =>
  split at hx
  case h_2 => cases hx
  next k hk =>
  obtain ⟨inside, hx⟩ := Option.ite_none_right_eq_some.mp hx
  cases hx
  intro r' id' cells' hr' slot' k' cell' hk' hc
  change (if r' = r then _ else x.heap r') = _ at hr'
  split at hr'
  · cases hr'
    rw [List.getElem?_set] at hc
    split at hc
    · next here =>
      subst here
      cases hc
      have same := (Program.getElem?_place hk).symm.trans (Program.getElem?_place hk')
      cases same
      exact Cell.ofValue?_state kind
    · exact h r id cells hr slot' k' cell' hk' hc
  · exact h r' id' cells' hr' slot' k' cell' hk' hc

/-- The field that is stored in has a reference, if it is of a type that has. -/
theorem Typed.overwritten (h : x.Typed b) (hx : x.putField b slot = some x') :
    ∃ l, x.overwritten? b slot = some l := by
  unfold Contents.putField at hx
  split at hx
  case h_2 => cases hx
  next w r rest stack =>
  split at hx
  case h_2 => cases hx
  next id cells cell hr kind =>
  split at hx
  case h_2 => cases hx
  next k hk =>
  obtain ⟨inside, -⟩ := Option.ite_none_right_eq_some.mp hx
  unfold Contents.overwritten?
  simp only [stack, hr, hk, Option.bind_some, List.getElem?_eq_getElem inside]
  have typed := h r id cells hr slot k _ hk (List.getElem?_eq_getElem inside)
  unfold Cell.overwritten?
  split
  · next object =>
    rw [object] at typed
    generalize cells[k] = old at typed ⊢
    cases old with
    | object old => exact ⟨[old], rfl⟩
    | _ => cases typed
  · exact ⟨[], rfl⟩

end Contents

theorem execute_typed (h : x.Typed b) (hx : execute b op x = some (x', distance)) : x'.Typed b := by
  rcases execute_heap hx with same | stored | ⟨-, stored⟩
  · exact h.congr same
  · exact h.storeElement stored
  · obtain ⟨slot, -, stored⟩ := Option.bind_eq_some_iff.mp stored
    exact h.putField stored

theorem execute_overwritten (h : x.Typed b) (hx : execute b op x = some (x', distance)) :
    ∃ l, overwritten? b op x = some l := by
  unfold overwritten?
  split
  · next is =>
    have stored : (b.field? op.operand.toNat).bind (x.putField b) = some x' := by
      unfold execute at hx
      simp only [is] at hx
      exact (of_falling hx).1
    obtain ⟨slot, found, stored⟩ := Option.bind_eq_some_iff.mp stored
    rw [found]
    exact h.overwritten stored
  · exact ⟨[], rfl⟩

/-- Every run of a program whose fields hold what their types say overwrites a list of references. -/
theorem steps_overwritten (h : s.Typed b) (run : steps b n s = some s') :
    ∃ l, overwrittenIn? b n s = some l := by
  induction n generalizing s with
  | zero => exact ⟨[], rfl⟩
  | succ n ih =>
    obtain ⟨s₁, first, rest⟩ := Option.bind_eq_some_iff.mp run
    have first' := first
    unfold step at first'
    obtain ⟨op, current, first'⟩ := Option.bind_eq_some_iff.mp first'
    obtain ⟨⟨y, distance⟩, hy, first'⟩ := Option.bind_eq_some_iff.mp first'
    obtain ⟨next, -, first'⟩ := Option.bind_eq_some_iff.mp first'
    obtain ⟨-, first'⟩ := Option.ite_none_right_eq_some.mp first'
    cases first'
    obtain ⟨l, hl⟩ := execute_overwritten h hy
    obtain ⟨l', hl'⟩ := ih (execute_typed h hy) rest
    refine ⟨l ++ l', ?_⟩
    simp only [overwrittenIn?, stepOverwritten?, current, hl, first, hl', Option.bind_eq_bind,
      Option.bind_some]

end TemplateVm.Guest
