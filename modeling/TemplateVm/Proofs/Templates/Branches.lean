import TemplateVm.Proofs.Templates.Arithmetic

set_option autoImplicit false
set_option synthInstance.maxSize 100000

/-!
# Templates for branches

The flags of a comparison of two ints say how they compare, and a branch that is taken goes on with
the bytecode at its distance.
-/
namespace TemplateVm

open Memory (Guarded load)
open Bytecode (Operation)
open Guest Emit Template

/-! ## Flags -/

/-- The flags of the comparison of two ints. -/
def Flags.ofInts (k k' : Int32) : Flags := .ofCompare k.toInt64.toUInt64 k'.toInt64.toUInt64

/-- What a condition says about two ints that are compared. -/
def Condition.ofInts : Condition → Int32 → Int32 → Bool
  | .eq, k, k' => k == k'
  | .ne, k, k' => k != k'
  | .lt, k, k' => k < k'
  | .ge, k, k' => k' ≤ k
  | .gt, k, k' => k' < k
  | .le, k, k' => k ≤ k'
  | _, _, _ => false

/-- Conditions on signed numbers. -/
def Condition.isSigned : Condition → Bool
  | .eq | .ne | .lt | .ge | .gt | .le => true
  | _ => false

theorem Condition.holds_ofInts {k : Condition} (signed : k.isSigned = true) (n n' : Int32) :
    k.holds (.ofInts n n') = k.ofInts n n' := by
  rw [Bool.eq_iff_iff, Flags.ofInts, holds_ofCompare]
  cases k with
  | eq | ne => simp [Relates, ofInts, eq_iff_toInt, Int32.toInt_inj]
  | lt | gt => simp [Relates, ofInts, Int32.lt_iff_toInt_lt]
  | ge | le => simp [Relates, ofInts, Int32.le_iff_toInt_le]
  | _ => cases signed

/-! ## Targets -/

variable {P : Vm → Prop} {turns : Nat} {v : Vm} {q q' : UInt64} {c : Cpu} {m : Guarded}
  {a : Activation} {b : Program} {s : Settings} {bcp p : UInt64} {x x' : Contents}
  {place : CodeLabel → UInt64} {ctx : CodeContext} {inStub : Bool} {K S : List CodeLabel}
  {op op' : Operation} {tos : TopOfStack} {distance : Option Int}

theorem toUInt64_add_ofInt {n n' : Nat} {k : Int} (h : (n' : Int) = n + k) :
    n.toUInt64 + (Int64.ofInt k).toUInt64 = n'.toUInt64 := by
  refine UInt64.toBitVec_inj.mp ?_
  change BitVec.ofNat 64 n + BitVec.ofInt 64 k = BitVec.ofNat 64 n'
  rw [← BitVec.ofInt_natCast, ← BitVec.ofInt_natCast, ← BitVec.ofInt_add, h]

/-- Where the bytecode pointer of an operation is. -/
def Activation.at (a : Activation) (op : Operation) : UInt64 := a.code + op.bci.toUInt64

/-- The branch is taken. -/
theorem Stands.runTakeBranch (h : Stands a b (a.at op) p x v c m)
    (hm : op ∈ Bytecode.decode b.code) (branch : op.opcode.isBranch = true)
    (length : op.opcode.length = 3)
    (lay : Lays ⟨v.image.code, place⟩ ctx inStub K S takeBranch q q' ())
    (target : b.operation? (op.bci + op.operand) = some op')
    (next : ∀ c', Stands a b (a.at op') p x v c' m →
      Vm.Arrives P turns (v.moved (v.image.normalTable.get .none op'.opcode.byte) c' m)) :
    Vm.Arrives P (turns + 9) (v.moved q c m) := by
  unfold takeBranch at lay
  obtain ⟨⟨⟩, r, lay₁, lay⟩ := lay.split
  obtain ⟨i₁, lay⟩ := lay.emit_bind
  obtain ⟨i₂, lay⟩ := lay.emit_bind
  obtain ⟨operands, fetched⟩ := h.fetched hm rfl
  obtain ⟨bci, hm'⟩ := Program.bci_of_operation? target
  refine h.runSignedPair fetched length (.inl branch) lay₁ (by decide) (by decide)
    fun c₁ h x2 => .binary i₁ ?_
  have moved : Binary.apply (c₁.reg .bytecode) (c₁.operand (.reg .x2)) .add = a.at op' := by
    change c₁.reg .bytecode + c₁.reg .x2 = _
    rw [h.registers.bytecode, x2, Activation.at, UInt64.add_assoc, toUInt64_add_ofInt bci]
    rfl
  rw [moved]
  replace h := h.setBytecode (a.at op')
  obtain ⟨operands', fetched'⟩ := h.fetched hm' rfl
  refine h.runByte fetched' i₂ (Bytecode.length_pos _) fetched'.opcode ?_
  refine (h.setReg .scratch1 _ rfl).runDispatchOn lay (Cpu.reg_setReg_self _ _ (by decide))
    fun c' h _ _ => next c' h

/-- Within so many turns the code takes a branch of that distance, or goes on behind it if there is
    none. -/
def Branches (a : Activation) (b : Program) (s : Settings) (op : Operation) (within : Nat)
    (tosIn : TopOfStack) (code : Emit Unit) (x x' : Contents) (distance : Option Int) : Prop :=
  ∀ (P : Vm → Prop) (turns : Nat) (v : Vm) (c : Cpu) (m : Guarded) (place : CodeLabel → UInt64)
    (ctx : CodeContext) (inStub : Bool) (K S : List CodeLabel) (q q' : UInt64) (op' : Operation),
    ctx.settings = s → Lays ⟨v.image.code, place⟩ ctx inStub K S code q q' () →
    Represents a b tosIn (a.at op) x v c m →
    b.operation? (op.bci + distance.getD op.opcode.length) = some op' →
    (∀ v' c' m', v.Continues s (some []) [] m v' m' → distance = none →
      Represents a b .none (a.at op) x' v' c' m' → Vm.Arrives P turns (v'.moved q' c' m')) →
    (∀ v' c' m', v.Continues s (some []) [] m v' m' → distance ≠ none →
      Represents a b .none (a.at op') x' v' c' m' →
      Vm.Arrives P turns (v'.moved (v'.image.normalTable.get .none op'.opcode.byte) c' m')) →
    Vm.Arrives P (turns + within) (v.moved q c m)

theorem Branches.le {n k : Nat} {code : Emit Unit} {tosIn : TopOfStack}
    (h : Branches a b s op n tosIn code x x' distance) (few : n ≤ k) :
    Branches a b s op k tosIn code x x' distance :=
  fun P turns v c m place ctx inStub K S q q' op' settings lay represents target behind next =>
    (h P turns v c m place ctx inStub K S q q' op' settings lay represents target behind next).le
      (Nat.add_le_add_left few turns)

section
variable (hm : op ∈ Bytecode.decode b.code) (branch : op.opcode.isBranch = true)
  (length : op.opcode.length = 3)
include hm branch length

/-- The branch is taken if the condition holds. -/
theorem Stands.runBranchIf {k : Condition} {taken : Bool} (h : Stands a b (a.at op) p x v c m)
    (real : k ≠ .al) (holds : k.holds c.flags = taken)
    (lay : Lays ⟨v.image.code, place⟩ ctx inStub K S (branchIf k) q q' ())
    (target : b.operation? (op.bci +
      (if taken then some op.operand else none : Option Int).getD op.opcode.length) = some op')
    (behind : taken = false → Vm.Arrives P turns (v.moved q' c m))
    (next : ∀ c', taken = true → Stands a b (a.at op') p x v c' m →
      Vm.Arrives P turns (v.moved (v.image.normalTable.get .none op'.opcode.byte) c' m)) :
    Vm.Arrives P (turns + 10) (v.moved q c m) := by
  unfold branchIf at lay
  obtain ⟨notTaken, lay⟩ := lay.newLabel_bind
  obtain ⟨i, lay⟩ := lay.emitTo_bind
  obtain ⟨⟨⟩, r, go, lay⟩ := lay.split
  obtain ⟨here, rfl⟩ := lay.bind
  have inverted := Condition.holds_invert c.flags real
  rw [holds] at inverted
  rw [here] at i
  refine .branchIf i (fun no => (behind ?_).le (by omega)) fun yes => ?_
  · rw [inverted] at no
    simpa using no
  · rw [inverted] at yes
    obtain rfl : taken = true := by simpa using yes
    exact h.runTakeBranch hm branch length go target fun c' => next c' rfl

namespace Branches

theorem always : Branches a b s op 9 .none takeBranch x x (some op.operand) := by
  intro P turns v c m place ctx inStub K S q q' op' _ lay h target _ next
  obtain ⟨p, h⟩ := h.stands
  exact h.runTakeBranch hm branch length lay target fun c' h =>
    next v c' m (.refl v m) nofun (.of_stands h)

section
variable {k : Condition} (signed : k.isSigned = true)
include signed

theorem zero {taken : Int32 → Bool} (same : ∀ n, taken n = k.ofInts n 0)
    (hx : x.branchInt taken op.operand = some (x', distance)) :
    Branches a b s op 11 .int (branchZero k) x x' distance := by
  intro P turns v c m place ctx inStub K S q q' op' _ lay h target behind next
  unfold Contents.branchInt at hx
  split at hx
  case h_2 => cases hx
  next n rest stack =>
  cases hx
  unfold branchZero at lay
  obtain ⟨i, lay⟩ := lay.emit_bind
  obtain ⟨p, held, h⟩ := h.held (by decide) stack
  refine .compare i ?_
  rw [show Flags.ofCompare (c.reg .x0) (c.operand 0) = .ofInts n 0 from
    congrArg (Flags.ofCompare · 0) held]
  refine (h.setFlags _).runBranchIf hm branch length (by rintro rfl; cases signed)
    ((Condition.holds_ofInts signed n 0).trans (same n).symm) lay target (fun no => ?_)
    fun c' yes h => ?_
  · exact behind v _ m (.refl v m) (by rw [no]; rfl) (.of_stands (h.setFlags _))
  · exact next v c' m (.refl v m) (by rw [yes]; exact nofun) (.of_stands h)

theorem ints {taken : Int32 → Int32 → Bool} (same : ∀ n n', taken n n' = k.ofInts n n')
    (hx : x.branchInts taken op.operand = some (x', distance)) :
    Branches a b s op 12 .int (Template.branchInts k) x x' distance := by
  intro P turns v c m place ctx inStub K S q q' op' _ lay h target behind next
  unfold Contents.branchInts at hx
  split at hx
  case h_2 => cases hx
  next n' n rest stack =>
  cases hx
  unfold Template.branchInts at lay
  obtain ⟨⟨⟩, r, lay₁, lay⟩ := lay.split
  obtain ⟨i, lay⟩ := lay.emit_bind
  refine h.runPopInt stack lay₁ fun p c₁ h x0 x1 => .compare i ?_
  rw [show Flags.ofCompare (c₁.reg .x1) (c₁.operand (.reg .x0)) = .ofInts n n' by
    change Flags.ofCompare (c₁.reg .x1) (c₁.reg .x0) = _
    rw [x0, x1]
    rfl]
  refine (h.setFlags _).runBranchIf hm branch length (by rintro rfl; cases signed)
    ((Condition.holds_ofInts signed n n').trans (same n n').symm) lay target (fun no => ?_)
    fun c' yes h => ?_
  · exact behind v _ m (.refl v m) (by rw [no]; rfl) (.of_stands (h.setFlags _))
  · exact next v c' m (.refl v m) (by rw [yes]; exact nofun) (.of_stands h)

end

theorem null {k : Condition} {onNull : Bool} (real : k ≠ .al)
    (same : ∀ r : UInt64, k.holds (.ofCompare r 0) = decide (decide (r = 0) = onNull))
    (hx : x.branchNull onNull op.operand = some (x', distance)) :
    Branches a b s op 11 .object (branchZero k) x x' distance := by
  intro P turns v c m place ctx inStub K S q q' op' _ lay h target behind next
  unfold Contents.branchNull at hx
  split at hx
  case h_2 => cases hx
  next r rest stack =>
  cases hx
  unfold branchZero at lay
  obtain ⟨i, lay⟩ := lay.emit_bind
  obtain ⟨p, held, h⟩ := h.held (by decide) stack
  refine .compare i ?_
  rw [show Flags.ofCompare (c.reg .x0) (c.operand 0) = .ofCompare r 0 from
    congrArg (Flags.ofCompare · 0) held]
  refine (h.setFlags _).runBranchIf hm branch length real (same r) lay (by simpa using target)
    (fun no => ?_) fun c' yes h => ?_
  · refine behind v _ m (.refl v m) ?_ (.of_stands (h.setFlags _))
    simpa using no
  · refine next v c' m (.refl v m) ?_ (.of_stands h)
    simpa using yes

end Branches
end

end TemplateVm
