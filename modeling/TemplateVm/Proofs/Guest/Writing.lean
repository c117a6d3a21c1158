import Mathlib.Data.List.Forall2
import Mathlib.Data.List.Induction
import TemplateVm.Bytecode.Body
import TemplateVm.Proofs.Guest.Semantics
import TemplateVm.Proofs.Guest.Walks
import TemplateVm.Proofs.Results

set_option autoImplicit false

/-!
# Written bodies

A body that is written by well-formed calls is finished unless a branch has no target in reach, and
reading it gives back one operation for each call that writes one, with the meaning of the call. A
branch is written with an empty distance, which finishing replaces; as no other call writes into
what is there already, it is enough to follow the bytes of each call to its place.
-/
namespace TemplateVm

theorem Opcode.length_of_isBranch {o : Opcode} (branch : o.isBranch = true) : o.length = 3 := by
  revert branch
  cases o <;> decide

namespace Bytecode

open Guest (execute falling)

namespace Body

/-- The calls by which a body is written. -/
inductive Call where
  | op (o : Opcode)
  | op1 (o : Opcode) (operand : UInt8)
  | op2 (o : Opcode) (operand : UInt16)
  | iconst (n : Int16)
  | iload (index : UInt8)
  | aload (index : UInt8)
  | istore (index : UInt8)
  | astore (index : UInt8)
  | localOp (o : Opcode) (index : UInt8)
  | iinc (index : UInt8) (delta : Int8)
  | linked (o : Opcode) (index : UInt16)
  | newLabel
  | bind (l : Label)
  | branch (o : Opcode) (target : Label)
  deriving DecidableEq

def perform (b : Body) : Call → Body
  | .op o => b.op o
  | .op1 o operand => b.op1 o operand
  | .op2 o operand => b.op2 o operand
  | .iconst n => b.iconst n
  | .iload index => b.iload index
  | .aload index => b.aload index
  | .istore index => b.istore index
  | .astore index => b.astore index
  | .localOp o index => b.localOp o index
  | .iinc index delta => b.iinc index delta
  | .linked o index => b.linked o index
  | .newLabel => b.newLabel.2
  | .bind l => b.bind l
  | .branch o target => b.branch o target

def written (calls : List Call) : Body := calls.foldl perform {}

/-- Each call, with the body that it is made on. -/
def made (calls : List Call) : List (Body × Call) := occasions perform {} calls

/-- Where a label was bound last. -/
def boundTo? (calls : List Call) (l : Label) : Option Nat :=
  (made calls).reverse.findSome? fun x => if x.2 = .bind l then some x.1.pc else none

namespace Call

/-- Opcodes with two operand bytes have calls of their own if they are branches or `iinc`. -/
def plain (o : Opcode) : Bool := o.length == 3 && !o.isBranch && o != .iinc

/-- Each opcode is written with as many operand bytes as it has, and only labels of the body are
    bound and branched to. -/
def fits (b : Body) : Call → Bool
  | op o => o.length == 1
  | op1 o _ | localOp o _ => o.length == 2
  | op2 o _ => plain o
  | linked o _ => o == .invokedynamic || plain o
  | bind l => l.id < b.labels.size
  | branch o l => o.isBranch && l.id < b.labels.size
  | _ => true

/-- The call writes an operation. -/
def emits : Call → Bool
  | newLabel | bind _ => false
  | _ => true

def target? : Call → Option Label
  | branch _ l => some l
  | _ => none

/-- The operation does what the call says, where the labels have the given places. -/
def Denotes (places : Label → Option Nat) (code : List UInt8) (op : Operation) : Call → Prop
  | .op o => op.opcode = o ∧ op.operand = 0
  | op1 o n | localOp o n =>
    op.opcode = o ∧ op.operand = if o = .bipush then n.toInt8.toInt else n.toNat
  | op2 o n | linked o n =>
    op.opcode = o ∧ op.operand = if o = .sipush then n.toInt16.toInt else n.toNat
  | iconst n => ∀ p x, execute p op x = falling (x.push (.int n.toInt32))
  | iload n => ∀ p x, execute p op x = falling (x.load n.toNat .int)
  | aload n => ∀ p x, execute p op x = falling (x.load n.toNat .object)
  | istore n => ∀ p x, execute p op x = falling (x.store n.toNat .int p.maxLocals)
  | astore n => ∀ p x, execute p op x = falling (x.store n.toNat .object p.maxLocals)
  | iinc n delta =>
    op.opcode = .iinc ∧ code[op.bci + 1]? = some n ∧ op.operand = delta.toInt
  | branch o l => op.opcode = o ∧ ∃ bci, places l = some bci ∧ op.bci + op.operand = bci
  | newLabel | bind _ => False

/-! ## What a call writes -/

/-- Two bytes, high byte first. -/
def halves (n : UInt16) : List UInt8 := [(n >>> 8).toUInt8, n.toUInt8]

def short (long first : Opcode) (index : UInt8) : Opcode × List UInt8 :=
  if index < 4 then (shifted first index long, []) else (long, [index])

/-- The opcode and the operands that the call writes, if labels are so far away. -/
def writes (distance : Label → Int16) : Call → Option (Opcode × List UInt8)
  | op o => some (o, [])
  | op1 o n | localOp o n => some (o, [n])
  | op2 o n => some (o, halves n)
  | iconst n =>
    if -1 ≤ n ∧ n ≤ 5 then some (shifted .iconst0 n.toUInt16.toUInt8 .iconst0, [])
    else if -128 ≤ n ∧ n ≤ 127 then some (.bipush, [n.toUInt16.toUInt8])
    else some (.sipush, halves n.toUInt16)
  | iload n => some (short .iload .iload0 n)
  | aload n => some (short .aload .aload0 n)
  | istore n => some (short .istore .istore0 n)
  | astore n => some (short .astore .astore0 n)
  | iinc n delta => some (.iinc, [n, delta.toUInt8])
  | linked o n => some (o, if o = .invokedynamic then 0 :: 0 :: halves n else halves n)
  | branch o l => some (o, halves (distance l).toUInt16)
  | newLabel | bind _ => none

def bytes (distance : Label → Int16) (c : Call) : List UInt8 :=
  match c.writes distance with
  | some (o, operands) => o.byte :: operands
  | none => []

end Call

variable {b : Body} {c : Call} {calls : List Call} {o : Opcode} {operands : List UInt8}
  {distance : Label → Int16} {bci : Nat} {l : Label} {code : List UInt8}

open Call (halves short)

theorem toList_shortLocal (long first : Opcode) (n : UInt8) :
    (b.shortLocal long first n).bytes.toList =
      b.bytes.toList ++ (short long first n).1.byte :: (short long first n).2 := by
  unfold shortLocal short
  split
  · simp [op, raw]
  · simp [op1, op, raw]

theorem toList_perform (b : Body) (c : Call) :
    (b.perform c).bytes.toList = b.bytes.toList ++ c.bytes fun _ => 0 := by
  cases c with
  | iload n | aload n | istore n | astore n => exact toList_shortLocal _ _ n
  | iconst n =>
    simp only [perform, iconst, Call.bytes, Call.writes]
    split
    · simp [op, raw]
    · split
      · simp [op1, op, raw]
      · simp [op2, op, raw, halves]
  | linked o n =>
    simp only [perform, linked, Call.bytes, Call.writes]
    split
    · simp [op, raw, halves]
    · simp [op2, op, raw, halves]
  | branch o l =>
    have zero : halves (Int16.toUInt16 0) = [0, 0] := rfl
    simp [perform, branch, Call.bytes, Call.writes, zero, op2, op, raw]
  | _ =>
    simp [perform, Call.bytes, Call.writes, halves, op, op1, op2, localOp, iinc, newLabel, bind,
      raw]

/-! ## Numbers in bytes -/

theorem bigEndian_halves (n : UInt16) : bigEndian (halves n) = n.toNat := by
  have lt : n.toNat < 65536 := n.toNat_lt
  simp only [bigEndian, halves, List.foldl_cons, List.foldl_nil, UInt16.toNat_toUInt8,
    UInt16.toNat_shiftRight]
  change 256 * (256 * 0 + n.toNat >>> 8 % 256) + n.toNat % 256 = n.toNat
  rw [Nat.shiftRight_eq_div_pow]
  omega

theorem bmod_toNat (n : UInt16) : Int.bmod n.toNat 65536 = n.toInt16.toInt :=
  (BitVec.toInt_eq_toNat_bmod n.toBitVec).symm

theorem operandOf_halves (o : Opcode) (n : UInt16) (other : o ≠ .iinc) :
    operandOf o (halves n) =
      if o.isBranch ∨ o = .sipush then n.toInt16.toInt else (n.toNat : Int) := by
  have number := bigEndian_halves n
  simp only [halves] at number
  simp only [operandOf, halves, if_neg other, number, bmod_toNat]

theorem signed8_toUInt8 {n : Int16} (low : -128 ≤ n) (high : n ≤ 127) :
    signed8 n.toUInt16.toUInt8 = n.toInt := by
  have same : n.toUInt16.toUInt8.toInt8 = n.toInt8 := by
    apply Int8.toBitVec_inj.mp
    exact (BitVec.signExtend_eq_setWidth_of_le n.toBitVec (by decide)).symm
  have low : -128 ≤ n.toInt := Int16.le_iff_toInt_le.mp low
  have high : n.toInt ≤ 127 := Int16.le_iff_toInt_le.mp high
  rw [signed8, same, Int16.toInt_toInt8]
  exact Int.bmod_eq_of_le (by omega) (by omega)

theorem eq_of_small {n : Int16} (low : -1 ≤ n) (high : n ≤ 5) :
    n = -1 ∨ n = 0 ∨ n = 1 ∨ n = 2 ∨ n = 3 ∨ n = 4 ∨ n = 5 := by
  have low : -1 ≤ n.toInt := Int16.le_iff_toInt_le.mp low
  have high : n.toInt ≤ 5 := Int16.le_iff_toInt_le.mp high
  have cases : n.toInt = -1 ∨ n.toInt = 0 ∨ n.toInt = 1 ∨ n.toInt = 2 ∨ n.toInt = 3 ∨
      n.toInt = 4 ∨ n.toInt = 5 := by omega
  rcases cases with h | h | h | h | h | h | h <;> simp [← Int16.toInt_inj, h]

theorem eq_of_short {n : UInt8} (few : n < 4) : n = 0 ∨ n = 1 ∨ n = 2 ∨ n = 3 := by
  have few : n.toNat < 4 := UInt8.lt_iff_toNat_lt.mp few
  have cases : n.toNat = 0 ∨ n.toNat = 1 ∨ n.toNat = 2 ∨ n.toNat = 3 := by omega
  rcases cases with h | h | h | h <;> simp [← UInt8.toNat_inj, h]

/-! ## What a call writes denotes it -/

theorem length_writes (fits : c.fits b = true) (h : c.writes distance = some (o, operands)) :
    operands.length + 1 = o.length := by
  cases c with
  | iconst n =>
    simp only [Call.writes] at h
    split at h
    · next small =>
      cases h
      rcases eq_of_small small.1 small.2 with rfl | rfl | rfl | rfl | rfl | rfl | rfl <;> decide
    · split at h <;> cases h <;> rfl
  | iload n | aload n | istore n | astore n =>
    simp only [Call.writes, short] at h
    split at h
    · next few =>
      cases h
      rcases eq_of_short few with rfl | rfl | rfl | rfl <;> decide
    · cases h
      rfl
  | linked o n =>
    cases h
    simp only [Call.fits, Call.plain, Bool.or_eq_true, Bool.and_eq_true, beq_iff_eq] at fits
    split
    · next dynamic =>
      rw [dynamic]
      rfl
    · next other =>
      exact ((fits.resolve_left other).1.1).symm
  | branch o l =>
    cases h
    exact (Opcode.length_of_isBranch (Bool.and_eq_true_iff.mp fits).1).symm
  | op o | op1 o n | localOp o n =>
    cases h
    exact (beq_iff_eq.mp fits).symm
  | op2 o n =>
    cases h
    simp only [Call.fits, Call.plain, Bool.and_eq_true, beq_iff_eq] at fits
    exact fits.1.1.symm
  | iinc n delta =>
    cases h
    rfl
  | newLabel | bind l => cases h

theorem operandOf_byte (o : Opcode) (n : UInt8) :
    operandOf o [n] = if o = .bipush then n.toInt8.toInt else (n.toNat : Int) := rfl

theorem operandOf_plain (plain : Call.plain o = true) (n : UInt16) :
    operandOf o (halves n) = if o = .sipush then n.toInt16.toInt else (n.toNat : Int) := by
  simp only [Call.plain, Bool.and_eq_true, Bool.not_eq_true', bne_iff_ne] at plain
  rw [operandOf_halves o n plain.2]
  simp only [plain.1.2, Bool.false_eq_true, false_or]

theorem operandOf_branch (branch : o.isBranch = true) (d : Int16) :
    operandOf o (halves d.toUInt16) = d.toInt := by
  have other : o ≠ .iinc := by
    rintro rfl
    cases branch
  rw [operandOf_halves o _ other, if_pos (.inl branch)]
  rfl

theorem denotes_iconst {n : Int16} {places : Label → Option Nat}
    (h : (Call.iconst n).writes distance = some (o, operands)) :
    Call.Denotes places code ⟨bci, o, operandOf o operands⟩ (.iconst n) := by
  intro p x
  simp only [Call.writes] at h
  split at h
  · next small =>
    cases h
    rcases eq_of_small small.1 small.2 with rfl | rfl | rfl | rfl | rfl | rfl | rfl <;> rfl
  · split at h
    · next byte =>
      cases h
      change falling (x.push (.int (Int32.ofInt (signed8 n.toUInt16.toUInt8)))) = _
      rw [signed8_toUInt8 byte.1 byte.2, Int32.ofInt_int16ToInt]
    · cases h
      have operand : operandOf .sipush (halves n.toUInt16) = n.toInt := by
        rw [operandOf_halves _ _ (by decide), if_pos (.inr rfl)]
        rfl
      rw [operand]
      change falling (x.push (.int (Int32.ofInt n.toInt))) = _
      rw [Int32.ofInt_int16ToInt]

/-- The operation that a call writes means what the call says, if a branch is so far from its
    target. -/
theorem denotes {places : Label → Option Nat} (fits : c.fits b = true)
    (h : c.writes distance = some (o, operands))
    (there : ∃ rest, code.drop bci = o.byte :: operands ++ rest)
    (far : ∀ l, c.target? = some l → ∃ place, places l = some place ∧
      (distance l).toInt = (place : Int) - bci) :
    c.Denotes places code ⟨bci, o, operandOf o operands⟩ := by
  cases c with
  | iconst n => exact denotes_iconst h
  | iload n | aload n | istore n | astore n =>
    intro p x
    simp only [Call.writes, short] at h
    split at h
    · next few =>
      cases h
      rcases eq_of_short few with rfl | rfl | rfl | rfl <;> rfl
    · cases h
      rfl
  | op o =>
    cases h
    exact ⟨rfl, rfl⟩
  | op1 o n | localOp o n =>
    cases h
    exact ⟨rfl, operandOf_byte o n⟩
  | op2 o n =>
    cases h
    exact ⟨rfl, operandOf_plain fits n⟩
  | linked o n =>
    cases h
    refine ⟨rfl, ?_⟩
    dsimp only
    split
    · next dynamic =>
      subst dynamic
      rw [if_neg (by decide)]
      exact congrArg Int.ofNat (bigEndian_halves n)
    · next other =>
      simp only [Call.fits, Bool.or_eq_true, beq_iff_eq] at fits
      exact operandOf_plain (fits.resolve_left other) n
  | iinc n delta =>
    cases h
    obtain ⟨rest, there⟩ := there
    refine ⟨rfl, ?_, rfl⟩
    rw [← List.getElem?_drop, there]
    rfl
  | branch o l =>
    cases h
    obtain ⟨place, found, distance⟩ := far l rfl
    refine ⟨rfl, place, found, ?_⟩
    dsimp only
    rw [operandOf_branch (Bool.and_eq_true_iff.mp fits).1, distance]
    omega
  | newLabel | bind l => cases h

/-! ## Calls one after the other -/

/-- The bytes of the calls, if labels are so far away from the branches at each index. -/
def bytesOf (distances : Nat → Label → Int16) (made : List (Body × Call)) : List UInt8 :=
  made.flatMap fun x => x.2.bytes (distances x.1.pc)

def branch? (x : Body × Call) : Option (Nat × Label) := x.2.target?.map (x.1.pc, ·)

def operation? (distances : Nat → Label → Int16) (x : Body × Call) : Option Operation :=
  (x.2.writes (distances x.1.pc)).map fun (o, operands) => ⟨x.1.pc, o, operandOf o operands⟩

variable {distances : Nat → Label → Int16} {first : List UInt8} {x : Body × Call}

theorem bytesOf_cons (b : Body) (c : Call) (made : List (Body × Call)) :
    bytesOf distances ((b, c) :: made) = c.bytes (distances b.pc) ++ bytesOf distances made := rfl

theorem bytes_of_writes (h : c.writes distance = some (o, operands)) :
    c.bytes distance = o.byte :: operands := by
  unfold Call.bytes
  rw [h]

theorem bytes_of_writes_none (h : c.writes distance = none) : c.bytes distance = [] := by
  unfold Call.bytes
  rw [h]

theorem length_bytes (c : Call) (distance distance' : Label → Int16) :
    (c.bytes distance).length = (c.bytes distance').length := by
  cases c <;> rfl

theorem pc_perform (b : Body) (c : Call) (distance : Label → Int16) :
    (b.perform c).pc = b.pc + (c.bytes distance).length := by
  rw [pc, ← Array.length_toList, toList_perform, List.length_append, Array.length_toList,
    length_bytes c _ distance, pc]

theorem pc_foldl (b : Body) (calls : List Call) (distances : Nat → Label → Int16) :
    (calls.foldl perform b).pc = b.pc + (bytesOf distances (occasions perform b calls)).length := by
  induction calls generalizing b with
  | nil => rfl
  | cons c calls ih =>
    rw [List.foldl_cons, ih, pc_perform b c (distances b.pc), occasions, bytesOf_cons,
      List.length_append, Nat.add_assoc]

theorem toList_foldl (b : Body) (calls : List Call) :
    (calls.foldl perform b).bytes.toList =
      b.bytes.toList ++ bytesOf (fun _ _ => 0) (occasions perform b calls) := by
  induction calls generalizing b with
  | nil => exact (List.append_nil _).symm
  | cons c calls ih =>
    rw [List.foldl_cons, ih, toList_perform, List.append_assoc]
    rfl

theorem branches_perform (b : Body) (c : Call) :
    (b.perform c).branches.toList = b.branches.toList ++ (branch? (b, c)).toList := by
  cases c with
  | iload n | aload n | istore n | astore n =>
    simp only [perform, iload, aload, istore, astore, shortLocal]
    split <;> simp [op, op1, raw, branch?, Call.target?]
  | iconst n =>
    simp only [perform, iconst]
    split
    · simp [op, raw, branch?, Call.target?]
    · split <;> simp [op, op1, op2, raw, branch?, Call.target?]
  | linked o n =>
    simp only [perform, linked]
    split <;> simp [op, op2, raw, branch?, Call.target?]
  | _ =>
    simp [perform, op, op1, op2, localOp, iinc, newLabel, bind, branch, raw, branch?,
      Call.target?]

theorem branches_foldl (b : Body) (calls : List Call) :
    (calls.foldl perform b).branches.toList =
      b.branches.toList ++ (occasions perform b calls).filterMap branch? := by
  induction calls generalizing b with
  | nil => exact (List.append_nil _).symm
  | cons c calls ih =>
    rw [List.foldl_cons, ih, branches_perform, List.append_assoc, occasions]
    cases next : branch? (b, c) with
    | none => rw [List.filterMap_cons_none next, Option.toList_none, List.nil_append]
    | some x => rw [List.filterMap_cons_some next, Option.toList_some, List.singleton_append]

theorem labels_perform (fits : c.fits b = true) (l : Label) :
    (b.perform c).labels[l.id]?.join =
      if c = .bind l then some b.pc else b.labels[l.id]?.join := by
  cases c with
  | iload n | aload n | istore n | astore n =>
    simp only [perform, iload, aload, istore, astore, shortLocal]
    split <;> simp [op, op1, raw]
  | iconst n =>
    simp only [perform, iconst]
    split
    · simp [op, raw]
    · split <;> simp [op, op1, op2, raw]
  | linked o n =>
    simp only [perform, linked]
    split <;> simp [op, op2, raw]
  | newLabel =>
    simp only [perform, newLabel, reduceCtorEq, if_false, Array.getElem?_push]
    split
    · next new => simp [new]
    · rfl
  | bind l' =>
    have there : l'.id < b.labels.size := of_decide_eq_true fits
    simp only [perform, bind, Array.getElem?_setIfInBounds, if_pos there, Call.bind.injEq]
    by_cases same : l' = l
    · rw [if_pos (congrArg Label.id same), if_pos same]
      rfl
    · rw [if_neg fun h => same (congrArg Label.mk h), if_neg same]
  | _ => simp [perform, op, op1, op2, localOp, iinc, branch, raw]

theorem made_concat (calls : List Call) (c : Call) :
    made (calls ++ [c]) = made calls ++ [(written calls, c)] := occasions_append _ _ _ _

theorem written_concat (calls : List Call) (c : Call) :
    written (calls ++ [c]) = (written calls).perform c := List.foldl_concat _ _ _ _

/-- The calls are those of a well-formed body. -/
def WellFormed (calls : List Call) : Prop := ∀ x ∈ made calls, x.2.fits x.1 = true

instance : Decidable (WellFormed calls) :=
  inferInstanceAs (Decidable (∀ x ∈ made calls, x.2.fits x.1 = true))

theorem labels_written (wellFormed : WellFormed calls) (l : Label) :
    (written calls).labels[l.id]?.join = boundTo? calls l := by
  induction calls using List.reverseRecOn with
  | nil => rfl
  | append_singleton calls c ih =>
    have fits : c.fits (written calls) = true := by
      apply wellFormed (written calls, c)
      rw [made_concat]
      exact List.mem_append_right _ List.mem_cons_self
    have before : WellFormed calls := by
      intro x hx
      apply wellFormed
      rw [made_concat]
      exact List.mem_append_left _ hx
    rw [written_concat, labels_perform fits, boundTo?, made_concat, List.reverse_append,
      List.reverse_singleton, List.singleton_append, List.findSome?_cons]
    by_cases binds : c = .bind l
    · simp only [if_pos binds]
    · simp only [if_neg binds]
      exact ih before

/-! ## Distances filled in -/

/-- Writes a distance into the operands of the branch at an index. -/
def fill (d : Int16) (code : Array UInt8) (bci : Nat) : Array UInt8 :=
  (code.setIfInBounds (bci + 1) (d.toUInt16 >>> 8).toUInt8).setIfInBounds (bci + 2)
    d.toUInt16.toUInt8

theorem finish_eq (b : Body) :
    b.finish = b.branches.toList.foldlM
      (fun code x => (b.distance x.1 x.2).map fun d => fill d code x.1) b.bytes := by
  rw [finish, ← Array.foldlM_toList]
  rfl

theorem bytes_of_target?_none (none : c.target? = none) (distance distance' : Label → Int16) :
    c.bytes distance = c.bytes distance' := by
  cases c with
  | branch o l => cases none
  | _ => rfl

theorem eq_branch_of_target? (h : c.target? = some l) : ∃ o, c = .branch o l := by
  cases c with
  | branch o l' =>
    cases h
    exact ⟨o, rfl⟩
  | _ => cases h

theorem toList_fill {rest : List UInt8} {code : Array UInt8} (length : first.length = bci)
    (h : code.toList = first ++ ((Call.branch o l).bytes distance ++ rest)) :
    (fill (distances bci l) code bci).toList =
      first ++ ((Call.branch o l).bytes (distances bci) ++ rest) := by
  simp only [fill, Array.toList_setIfInBounds, h]
  subst length
  simp [Call.bytes, Call.writes, halves, List.set_append_right]

/-- Filling in the branches of the calls gives the bytes that the calls write with the distances. -/
theorem foldl_fill (first : List UInt8) {code : Array UInt8} (length : first.length = b.pc)
    (h : code.toList = first ++ bytesOf (fun _ _ => 0) (occasions perform b calls)) :
    (((occasions perform b calls).filterMap branch?).foldl
      (fun code x => fill (distances x.1 x.2) code x.1) code).toList =
      first ++ bytesOf distances (occasions perform b calls) := by
  induction calls generalizing b first code with
  | nil => exact h
  | cons c calls ih =>
    have behind : (first ++ c.bytes (distances b.pc)).length = (b.perform c).pc := by
      rw [List.length_append, length, pc_perform]
    rw [occasions, bytesOf_cons] at h ⊢
    rw [← List.append_assoc]
    cases target : c.target? with
    | none =>
      have next : branch? (b, c) = none := by rw [branch?, target, Option.map_none]
      rw [List.filterMap_cons_none next]
      apply ih _ behind
      rw [h, List.append_assoc, bytes_of_target?_none target (distances b.pc) fun _ => 0]
    | some l =>
      obtain ⟨o, rfl⟩ := eq_branch_of_target? target
      have next : branch? (b, .branch o l) = some (b.pc, l) := rfl
      rw [List.filterMap_cons_some next, List.foldl_cons]
      apply ih _ behind
      rw [List.append_assoc]
      exact toList_fill length h

/-! ## Reading what was written -/

/-- The operations follow one another and fill everything between the two indices. -/
def Covers : Nat → List Operation → Nat → Prop
  | start, [], stop => start = stop
  | start, op :: ops, stop => op.bci = start ∧ Covers (start + op.opcode.length) ops stop

theorem operation?_of_writes (h : c.writes (distances b.pc) = some (o, operands)) :
    operation? distances (b, c) = some ⟨b.pc, o, operandOf o operands⟩ := by
  rw [operation?, h, Option.map_some]

theorem operation?_of_writes_none (h : c.writes (distances b.pc) = none) :
    operation? distances (b, c) = none := by
  rw [operation?, h, Option.map_none]

theorem decodeFrom_bytesOf (fits : ∀ x ∈ occasions perform b calls, x.2.fits x.1 = true)
    {fuel : Nat} (enough : (bytesOf distances (occasions perform b calls)).length ≤ fuel) :
    decodeFrom b.pc (bytesOf distances (occasions perform b calls)) fuel =
      (occasions perform b calls).filterMap (operation? distances) := by
  induction calls generalizing b fuel with
  | nil => cases fuel <;> rfl
  | cons c calls ih =>
    have rest := fun x hx => fits x (List.mem_cons_of_mem (b, c) hx)
    rw [occasions, bytesOf_cons] at enough ⊢
    have next := pc_perform b c (distances b.pc)
    cases written : c.writes (distances b.pc) with
    | none =>
      have silent := operation?_of_writes_none written
      rw [bytes_of_writes_none written] at enough next ⊢
      rw [List.filterMap_cons_none silent, List.nil_append, ← ih rest enough, next]
      rfl
    | some w =>
      obtain ⟨o, operands⟩ := w
      have length := length_writes (fits (b, c) List.mem_cons_self) written
      have heads : Operation.Heads ⟨b.pc, o, operandOf o operands⟩ operands
          (o.byte :: operands ++ bytesOf distances (occasions perform (b.perform c) calls)) :=
        ⟨Opcode.ofByte?_byte o, length, rfl, List.take_left' length⟩
      rw [bytes_of_writes written] at enough next ⊢
      rw [List.length_cons] at next
      rw [List.length_append, List.length_cons] at enough
      obtain ⟨fuel, rfl⟩ : ∃ k, fuel = k + 1 := ⟨fuel - 1, by omega⟩
      rw [List.filterMap_cons_some (operation?_of_writes written)]
      refine (heads.decodeFrom rfl fuel).trans (congrArg _ ?_)
      dsimp only
      have whole : (o.byte :: operands).length = o.length := length
      rw [List.drop_left' whole, ← length, ← next]
      exact ih rest (by omega)

theorem covers_operations (distances : Nat → Label → Int16)
    (fits : ∀ x ∈ occasions perform b calls, x.2.fits x.1 = true) :
    Covers b.pc ((occasions perform b calls).filterMap (operation? distances))
      (calls.foldl perform b).pc := by
  induction calls generalizing b with
  | nil => rfl
  | cons c calls ih =>
    have rest := ih fun x hx => fits x (List.mem_cons_of_mem (b, c) hx)
    have next := pc_perform b c (distances b.pc)
    rw [occasions, List.foldl_cons]
    cases written : c.writes (distances b.pc) with
    | none =>
      have silent := operation?_of_writes_none written
      rw [bytes_of_writes_none written, List.length_nil, Nat.add_zero] at next
      rw [List.filterMap_cons_none silent, ← next]
      exact rest
    | some w =>
      obtain ⟨o, operands⟩ := w
      have length := length_writes (fits (b, c) List.mem_cons_self) written
      rw [bytes_of_writes written, List.length_cons, length] at next
      rw [next] at rest
      rw [List.filterMap_cons_some (operation?_of_writes written)]
      exact ⟨rfl, rest⟩

/-- The bytes of a call are where it is made. -/
theorem drop_bytesOf (first : List UInt8) (length : first.length = b.pc)
    (hx : x ∈ occasions perform b calls) :
    ∃ rest, (first ++ bytesOf distances (occasions perform b calls)).drop x.1.pc =
      x.2.bytes (distances x.1.pc) ++ rest := by
  induction calls generalizing b first with
  | nil => cases hx
  | cons c calls ih =>
    rw [occasions, bytesOf_cons]
    rcases List.mem_cons.mp hx with rfl | hx
    · exact ⟨_, List.drop_left' length⟩
    · rw [← List.append_assoc]
      refine ih _ ?_ hx
      rw [List.length_append, length, pc_perform]

/-- The label has a place within reach of a branch at the index. -/
def InReach (places : Label → Option Nat) (bci : Nat) (l : Label) : Prop :=
  ∃ place, places l = some place ∧ -32768 ≤ (place : Int) - bci ∧ (place : Int) - bci ≤ 32767

/-- The distances that a body is finished with. -/
def distancesOf (places : Label → Option Nat) (bci : Nat) (l : Label) : Int16 :=
  (places l).elim 0 fun place => Int16.ofInt ((place : Int) - bci)

/-- What is wrong with a branch that has no target in reach. -/
def defectOf (places : Label → Option Nat) (bci : Nat) (l : Label) : BodyDefect :=
  if (places l).isSome then .branchOutOfRange bci else .unboundLabel bci

theorem distance_of_inReach (wellFormed : WellFormed calls)
    (reach : InReach (boundTo? calls) bci l) :
    (written calls).distance bci l = .ok (distancesOf (boundTo? calls) bci l) := by
  obtain ⟨place, bound, near⟩ := reach
  unfold distance distancesOf
  rw [labels_written wellFormed, bound]
  exact if_pos near

theorem distance_of_not_inReach (wellFormed : WellFormed calls)
    (misses : ¬ InReach (boundTo? calls) bci l) :
    (written calls).distance bci l = .error (defectOf (boundTo? calls) bci l) := by
  unfold distance defectOf
  rw [labels_written wellFormed]
  cases bound : boundTo? calls l with
  | none => rfl
  | some place => exact if_neg fun near => misses ⟨place, bound, near⟩

theorem mem_branches {y : Nat × Label} :
    y ∈ (written calls).branches.toList ↔
      ∃ x ∈ made calls, ∃ l, x.2.target? = some l ∧ (x.1.pc, l) = y := by
  rw [written, branches_foldl, List.nil_append, List.mem_filterMap]
  simp only [branch?, Option.map_eq_some_iff, made]

/-- A body is finished if all its branches have targets in reach, and then with the distances to
    them. -/
theorem finish_written (wellFormed : WellFormed calls) :
    match (written calls).finish with
    | .error defect => ∃ x ∈ made calls, ∃ l, x.2.target? = some l ∧
        ¬ InReach (boundTo? calls) x.1.pc l ∧ defect = defectOf (boundTo? calls) x.1.pc l
    | .ok code =>
      (∀ x ∈ made calls, ∀ l, x.2.target? = some l → InReach (boundTo? calls) x.1.pc l) ∧
        code.toList = bytesOf (distancesOf (boundTo? calls)) (made calls) := by
  cases finished : (written calls).finish with
  | error defect =>
    rw [finish_eq] at finished
    obtain ⟨y, mem, code, fails⟩ := foldlM_error finished
    obtain ⟨x, hx, l, target, rfl⟩ := mem_branches.mp mem
    refine ⟨x, hx, l, target, ?_⟩
    by_cases reach : InReach (boundTo? calls) x.1.pc l
    · rw [distance_of_inReach wellFormed reach] at fails
      cases fails
    · rw [distance_of_not_inReach wellFormed reach] at fails
      cases fails
      exact ⟨reach, rfl⟩
  | ok code =>
    rw [finish_eq] at finished
    have reach : ∀ y ∈ (written calls).branches.toList, InReach (boundTo? calls) y.1 y.2 := by
      intro y mem
      obtain ⟨_, _, succeeds⟩ := foldlM_ok finished mem
      by_contra misses
      rw [distance_of_not_inReach wellFormed misses] at succeeds
      cases succeeds
    refine ⟨fun x hx l target => reach _ (mem_branches.mpr ⟨x, hx, l, target, rfl⟩), ?_⟩
    rw [foldlM_eq_ok (g := fun code x => fill (distancesOf (boundTo? calls) x.1 x.2) code x.1)]
      at finished
    · cases finished
      rw [written, branches_foldl, List.nil_append]
      exact foldl_fill [] rfl (toList_foldl {} calls)
    · intro y mem code
      rw [distance_of_inReach wellFormed (reach y mem)]
      rfl

theorem toInt_distancesOf {places : Label → Option Nat} {place : Nat}
    (bound : places l = some place) (reach : InReach places bci l) :
    (distancesOf places bci l).toInt = (place : Int) - bci := by
  obtain ⟨place', bound', low, high⟩ := reach
  rw [bound] at bound'
  cases bound'
  rw [distancesOf, bound, Option.elim_some]
  exact Int16.toInt_ofInt_of_le low (by omega)

theorem writes_isSome (c : Call) (distance : Label → Int16) :
    (c.writes distance).isSome = c.emits := by
  cases c with
  | iconst n =>
    simp only [Call.writes]
    split
    · rfl
    · split <;> rfl
  | _ => rfl

theorem forall₂_filterMap {α β : Type} {R : α → β → Prop} {p : α → Bool} {f : α → Option β}
    {l : List α} (some : ∀ x ∈ l, p x = true → ∃ y, f x = .some y ∧ R x y)
    (none : ∀ x ∈ l, p x = false → f x = .none) :
    List.Forall₂ R (l.filter p) (l.filterMap f) := by
  induction l with
  | nil => exact .nil
  | cons x l ih =>
    have rest := ih (fun x' hx' => some x' (List.mem_cons_of_mem x hx'))
      fun x' hx' => none x' (List.mem_cons_of_mem x hx')
    cases hx : p x with
    | false =>
      rw [List.filter_cons_of_neg (by simp [hx]),
        List.filterMap_cons_none (none x List.mem_cons_self hx)]
      exact rest
    | true =>
      obtain ⟨y, found, related⟩ := some x List.mem_cons_self hx
      rw [List.filter_cons_of_pos hx, List.filterMap_cons_some found]
      exact .cons related rest

/-- Finishing a well-formed body fails exactly if one of its branches has no target in reach.
    Otherwise, reading the body gives one operation for each call that writes one, at the index
    where the call was made and with its meaning, and nothing else. -/
theorem decode_written (wellFormed : WellFormed calls) :
    match (written calls).finish with
    | .error defect => ∃ x ∈ made calls, ∃ l, x.2.target? = some l ∧
        ¬ InReach (boundTo? calls) x.1.pc l ∧ defect = defectOf (boundTo? calls) x.1.pc l
    | .ok code =>
      (∀ x ∈ made calls, ∀ l, x.2.target? = some l → InReach (boundTo? calls) x.1.pc l) ∧
        List.Forall₂
          (fun x op => op.bci = x.1.pc ∧ x.2.Denotes (boundTo? calls) code.toList op)
          ((made calls).filter (·.2.emits)) (decode code.toList) ∧
        Covers 0 (decode code.toList) code.size := by
  have ends := finish_written wellFormed
  cases finished : (written calls).finish with
  | error defect =>
    rw [finished] at ends
    exact ends
  | ok code =>
    rw [finished] at ends
    obtain ⟨reach, bytes⟩ := ends
    have read : decode code.toList =
        (made calls).filterMap (operation? (distancesOf (boundTo? calls))) := by
      rw [decode, bytes]
      exact decodeFrom_bytesOf wellFormed (Nat.le_refl _)
    refine ⟨reach, ?_, ?_⟩
    · rw [read]
      apply forall₂_filterMap
      · intro x hx emits
        rw [← writes_isSome x.2 (distancesOf (boundTo? calls) x.1.pc)] at emits
        obtain ⟨⟨o, operands⟩, writes⟩ := Option.isSome_iff_exists.mp emits
        obtain ⟨rest, there⟩ := drop_bytesOf [] rfl hx
        rw [List.nil_append, bytes_of_writes writes] at there
        refine ⟨_, operation?_of_writes writes, rfl, ?_⟩
        refine denotes (wellFormed x hx) writes ⟨rest, bytes ▸ there⟩ fun l target => ?_
        obtain ⟨place, bound, near⟩ := reach x hx l target
        exact ⟨place, bound, toInt_distancesOf bound ⟨place, bound, near⟩⟩
      · intro x hx silent
        rw [← writes_isSome x.2 (distancesOf (boundTo? calls) x.1.pc)] at silent
        apply operation?_of_writes_none
        exact Option.isNone_iff_eq_none.mp (Option.isSome_eq_false_iff.mp silent)
    · have covers := covers_operations (distancesOf (boundTo? calls)) wellFormed
      rw [read, ← Array.length_toList, bytes, ← Nat.zero_add (bytesOf _ _).length]
      exact pc_foldl {} calls _ ▸ covers

/-- Counts a variable down from 300, with a branch forward and one back. -/
def countdown : List Call :=
  [.newLabel, .newLabel, .iconst 300, .istore 4, .bind ⟨0⟩, .iload 4, .branch .ifeq ⟨1⟩,
    .iinc 4 (-1), .branch .goto ⟨0⟩, .bind ⟨1⟩, .iconst (-1), .linked .invokedynamic 258,
    .op .returnVoid]

def countdownBytes : Array UInt8 :=
  #[0x11, 1, 44, 0x36, 4, 0x15, 4, 0x99, 0, 9, 0x84, 4, 255, 0xa7, 255, 248, 0x02, 0xba, 0, 0, 1,
    2, 0xb1]

theorem decode_countdown :
    WellFormed countdown ∧ (written countdown).finish = .ok countdownBytes ∧
      List.Forall₂
        (fun x op => op.bci = x.1.pc ∧ x.2.Denotes (boundTo? countdown) countdownBytes.toList op)
        ((made countdown).filter (·.2.emits)) (decode countdownBytes.toList) ∧
      Covers 0 (decode countdownBytes.toList) countdownBytes.size := by
  have wellFormed : WellFormed countdown := by decide
  have finished : (written countdown).finish = .ok countdownBytes := rfl
  have read := decode_written wellFormed
  rw [finished] at read
  exact ⟨wellFormed, finished, read.2⟩

end Body
end Bytecode
end TemplateVm
