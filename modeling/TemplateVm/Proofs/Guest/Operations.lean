import TemplateVm.Bytecode.Stream

set_option autoImplicit false

/-!
# Operations of a body

Where the opcode and the operand of an operation are, in the body as it is in the class file and in
the body in native order.
-/
namespace TemplateVm

theorem Opcode.getElem?_all (o : Opcode) : Opcode.all.toList[o.ctorIdx]? = some o := by
  cases o <;> rfl

theorem Opcode.mem_all (o : Opcode) : o ∈ Opcode.all.toList :=
  List.mem_iff_getElem?.mpr ⟨o.ctorIdx, o.getElem?_all⟩

theorem Opcode.ofByte?_byte (o : Opcode) : Opcode.ofByte? o.byte = some o := by
  have all : ∀ o ∈ Opcode.all.toList, Opcode.ofByte? o.byte = some o := by decide +kernel
  exact all o o.mem_all

theorem Opcode.byte_inj {o o' : Opcode} (h : o.byte = o'.byte) : o = o' :=
  Option.some.inj ((Opcode.ofByte?_byte o).symm.trans (h ▸ Opcode.ofByte?_byte o'))

namespace Bytecode

/-- The operand bytes of an opcode in native order. -/
def native (o : Opcode) (operands : List UInt8) : List UInt8 :=
  if o.isLinked then operands.reverse else operands

/-- The operation is in both forms of the body, which begin at the given index. -/
structure Operation.At (op : Operation) (bci : Nat) (code body : List UInt8)
    (operands : List UInt8) : Prop where
  length : operands.length + 1 = op.opcode.length
  operand : op.operand = operandOf op.opcode operands
  above : bci ≤ op.bci
  opcode : body[op.bci - bci]? = some op.opcode.byte
  nativeOperands : ∀ (j : Nat) (y : UInt8), (native op.opcode operands)[j]? = some y →
    body[op.bci - bci + 1 + j]? = some y
  operands : ∀ (j : Nat) (y : UInt8), operands[j]? = some y →
    code[op.bci - bci + 1 + j]? = some y

variable {op : Operation} {bci fuel : Nat} {code body : List UInt8}

theorem length_native (o : Opcode) (operands : List UInt8) :
    (native o operands).length = operands.length := by
  unfold native
  split
  · exact List.length_reverse
  · rfl

theorem byte_of_ofByte? {byte : UInt8} {o : Opcode} (h : Opcode.ofByte? byte = some o) :
    o.byte = byte := by
  simpa using Array.find?_some h

theorem getElem?_append_add {α : Type} {l₁ l₂ : List α} {n : Nat} (j : Nat)
    (h : l₁.length = n) : (l₁ ++ l₂)[n + j]? = l₂[j]? := by
  rw [List.getElem?_append_right (by omega), ← h, Nat.add_sub_cancel_left]

theorem length_pos (o : Opcode) : 0 < o.length := by cases o <;> decide

/-- What is in the rest of a body is in the whole of it. -/
theorem Operation.At.behind {first first' operands : List UInt8} {n : Nat}
    (h : op.At (bci + n) code body operands) (hf : first.length = n) (hf' : first'.length = n) :
    op.At bci (first ++ code) (first' ++ body) operands where
  length := h.length
  operand := h.operand
  above := by have := h.above; omega
  opcode := by
    have above := h.above
    rw [show op.bci - bci = n + (op.bci - (bci + n)) by omega, getElem?_append_add _ hf']
    exact h.opcode
  nativeOperands j y hy := by
    have above := h.above
    rw [show op.bci - bci + 1 + j = n + (op.bci - (bci + n) + 1 + j) by omega,
      getElem?_append_add _ hf']
    exact h.nativeOperands j y hy
  operands j y hy := by
    have above := h.above
    rw [show op.bci - bci + 1 + j = n + (op.bci - (bci + n) + 1 + j) by omega,
      getElem?_append_add _ hf]
    exact h.operands j y hy

theorem at_first {o : Opcode} {operands rest tail : List UInt8}
    (length : operands.length + 1 = o.length) :
    Operation.At ⟨bci, o, operandOf o operands⟩ bci (o.byte :: operands ++ rest)
      (o.byte :: native o operands ++ tail) operands where
  length := length
  operand := rfl
  above := Nat.le_refl _
  opcode := by simp
  nativeOperands j y hy := by
    have lt : j < (native o operands).length := (List.getElem?_eq_some_iff.mp hy).1
    rw [Nat.sub_self, Nat.zero_add, Nat.add_comm, List.cons_append, List.getElem?_cons_succ,
      List.getElem?_append_left lt, hy]
  operands j y hy := by
    have lt : j < operands.length := (List.getElem?_eq_some_iff.mp hy).1
    rw [Nat.sub_self, Nat.zero_add, Nat.add_comm, List.cons_append, List.getElem?_cons_succ,
      List.getElem?_append_left lt, hy]

theorem at_of_mem_decodeFrom (hm : op ∈ decodeFrom bci code fuel)
    (hn : toNativeOrderFrom bci code fuel = .ok body) :
    ∃ operands, op.At bci code body operands := by
  induction fuel generalizing bci code body with
  | zero => cases hm
  | succ fuel ih =>
    cases code with
    | nil => cases hm
    | cons byte rest =>
      rw [decodeFrom] at hm
      rw [toNativeOrderFrom] at hn
      dsimp only at hm hn
      cases ho : Opcode.ofByte? byte with
      | none =>
        simp only [ho] at hm
        cases hm
      | some o =>
        simp only [ho] at hm hn
        by_cases short : (rest.take (o.length - 1)).length + 1 < o.length
        · rw [if_pos short] at hm
          cases hm
        · rw [if_neg short] at hm hn
          cases ht : toNativeOrderFrom (bci + o.length) (rest.drop (o.length - 1)) fuel with
          | error e =>
            rw [ht] at hn
            cases hn
          | ok tail =>
            rw [ht] at hn
            cases hn
            have positive := length_pos o
            have length : (rest.take (o.length - 1)).length + 1 = o.length := by
              have := List.length_take_le (o.length - 1) rest
              omega
            obtain rfl := byte_of_ofByte? ho
            have whole : o.byte :: rest =
                (o.byte :: rest.take (o.length - 1)) ++ rest.drop (o.length - 1) := by
              rw [List.cons_append, List.take_append_drop]
            rw [whole]
            rcases List.mem_cons.mp hm with rfl | hm
            · exact ⟨_, at_first length⟩
            · obtain ⟨operands, h⟩ := ih hm ht
              refine ⟨operands, h.behind ?_ ?_⟩
              · rw [List.length_cons, length]
              · rw [List.length_cons]
                exact (congrArg (· + 1) (length_native o _)).trans length

/-- An operation of a body is in the body and in its native form. -/
theorem at_of_mem_decode (hm : op ∈ decode code) (hn : toNativeOrder code = .ok body) :
    ∃ operands, op.At 0 code body operands := at_of_mem_decodeFrom hm hn

/-- Turning operands round does not change how long a body is. -/
theorem toNativeOrderFrom_length (h : toNativeOrderFrom bci code fuel = .ok body) :
    body.length = code.length := by
  induction fuel generalizing bci code body with
  | zero =>
    cases h
    rfl
  | succ fuel ih =>
    cases code with
    | nil =>
      cases h
      rfl
    | cons byte rest =>
      simp only [toNativeOrderFrom] at h
      cases known : Opcode.ofByte? byte with
      | none =>
        simp only [known] at h
        cases h
        rfl
      | some o =>
        simp only [known] at h
        split at h
        · cases h
        · cases tail : toNativeOrderFrom (bci + o.length) (rest.drop (o.length - 1)) fuel with
          | error cut =>
            rw [tail] at h
            cases h
          | ok code =>
            rw [tail] at h
            cases h
            have length := ih tail
            rw [List.length_drop] at length
            have operands : (if o.isLinked then (rest.take (o.length - 1)).reverse
                else rest.take (o.length - 1)).length = min (o.length - 1) rest.length := by
              split <;> simp
            rw [List.length_append, List.length_cons, operands, length, List.length_cons]
            omega

theorem toNativeOrder_length (h : toNativeOrder code = .ok body) :
    body.length = code.length := toNativeOrderFrom_length h

end Bytecode
end TemplateVm
