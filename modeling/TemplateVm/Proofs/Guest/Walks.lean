import TemplateVm.Class.Definition
import TemplateVm.Proofs.Guest.Operations

set_option autoImplicit false

/-!
# Walks through a body

The operations of a body follow each other from its first byte on, up to a byte that is no opcode.
Native order turns round the operands of the linked operations that are on this walk and changes no
other byte; applied once more it gives the body back. Control flow stays on the walk as long as
branches and handlers lead to it; where they lead elsewhere, it may find an operation that was not
turned round.
-/
namespace TemplateVm

/-- Control may go on behind the operation. -/
def Opcode.goesOn : Opcode → Bool
  | goto | athrow => false
  | o => !o.isReturn

theorem Opcode.isLinked_of_isBranch {o : Opcode} (branch : o.isBranch = true) :
    o.isLinked = false := by
  revert branch
  cases o <;> decide

namespace Bytecode

/-- The operation at an index, if the byte is an opcode and all its operands are there. -/
def operationAt? (code : List UInt8) (bci : Nat) : Option Operation :=
  (decodeFrom bci (code.drop bci) 1).head?

/-- Where the operations of a body begin, one behind the other. -/
inductive Walk (code : List UInt8) : Nat → Prop
  | first : Walk code 0
  | next {op : Operation} (walk : Walk code op.bci) (there : operationAt? code op.bci = some op) :
    Walk code (op.bci + op.opcode.length)

/-- An operation of the walk loses operands to the end of the body. -/
def CutOff (code : List UInt8) : Prop :=
  ∃ bci byte o, Walk code bci ∧ code[bci]? = some byte ∧ Opcode.ofByte? byte = some o ∧
    code.length < bci + o.length

/-- Where control may come to in a body, from its first byte or from a handler on. -/
inductive Reaches (code : List UInt8) (handlers : List HandlerRow) : Nat → Prop
  | first : Reaches code handlers 0
  | handler {row : HandlerRow} (listed : row ∈ handlers) :
    Reaches code handlers row.handlerPc.toNat
  | behind {op : Operation} (reached : Reaches code handlers op.bci)
    (there : operationAt? code op.bci = some op) (goesOn : op.opcode.goesOn = true) :
    Reaches code handlers (op.bci + op.opcode.length)
  | target {op : Operation} {bci : Nat} (reached : Reaches code handlers op.bci)
    (there : operationAt? code op.bci = some op) (branch : op.opcode.isBranch = true)
    (leads : (bci : Int) = op.bci + op.operand) : Reaches code handlers bci

/-- The handlers of a body and the branches of its walk lead to the walk. -/
structure StaysOnWalk (code : List UInt8) (handlers : List HandlerRow) : Prop where
  handlers : ∀ row ∈ handlers, Walk code row.handlerPc.toNat
  branches : ∀ op, Walk code op.bci → operationAt? code op.bci = some op →
    op.opcode.isBranch = true → ∀ bci : Nat, (bci : Int) = op.bci + op.operand → Walk code bci

variable {code body tail : List UInt8} {op : Operation} {bci fuel : Nat}
  {handlers : List HandlerRow}

/-! ## Operations where they are -/

/-- The bytes of an operation, with those behind it. -/
structure Operation.Heads (op : Operation) (operands code : List UInt8) : Prop where
  known : Opcode.ofByte? op.opcode.byte = some op.opcode
  length : operands.length + 1 = op.opcode.length
  operand : op.operand = operandOf op.opcode operands
  bytes : code.take op.opcode.length = op.opcode.byte :: operands

namespace Operation.Heads

variable {operands : List UInt8}

theorem eq_append (h : op.Heads operands code) :
    code = op.opcode.byte :: operands ++ code.drop op.opcode.length := by
  rw [← h.bytes, List.take_append_drop]

theorem le_length (h : op.Heads operands code) : op.opcode.length ≤ code.length := by
  have taken := congrArg List.length h.bytes
  have length := h.length
  rw [List.length_take, List.length_cons] at taken
  omega

/-- What follows the opcode, as reading a body takes it apart. -/
theorem operands_eq (h : op.Heads operands code) :
    ∃ rest, code = op.opcode.byte :: rest ∧ rest.take (op.opcode.length - 1) = operands ∧
      rest.drop (op.opcode.length - 1) = code.drop op.opcode.length := by
  have length := h.length
  refine ⟨operands ++ code.drop op.opcode.length, h.eq_append, ?_, ?_⟩
  · exact List.take_left' (by omega)
  · exact List.drop_left' (by omega)

theorem decodeFrom (h : op.Heads operands code) (at_bci : op.bci = bci) (fuel : Nat) :
    decodeFrom bci code (fuel + 1) =
      op :: Bytecode.decodeFrom (bci + op.opcode.length) (code.drop op.opcode.length) fuel := by
  obtain ⟨rest, eq, taken, dropped⟩ := h.operands_eq
  have length := h.length
  obtain ⟨place, o, operand⟩ := op
  obtain rfl : place = bci := at_bci
  dsimp only at *
  have operand := h.operand
  dsimp only at operand
  rw [eq, Bytecode.decodeFrom]
  dsimp only
  rw [h.known]
  dsimp only
  rw [taken, dropped, if_neg (by omega), operand, eq]

theorem toNativeOrderFrom (h : op.Heads operands code) (fuel : Nat) :
    toNativeOrderFrom bci code (fuel + 1) = (do
      let tail ← Bytecode.toNativeOrderFrom (bci + op.opcode.length)
        (code.drop op.opcode.length) fuel
      pure (op.opcode.byte :: native op.opcode operands ++ tail)) := by
  obtain ⟨rest, eq, taken, dropped⟩ := h.operands_eq
  have length := h.length
  rw [eq, Bytecode.toNativeOrderFrom]
  dsimp only
  rw [h.known]
  dsimp only
  rw [taken, dropped, if_neg (by omega), eq]
  rfl

end Operation.Heads

/-- Either there is an operation at an index, or reading a body ends there. -/
theorem operationAt?_cases (code : List UInt8) (bci : Nat) :
    (∃ op operands, op.bci = bci ∧ operationAt? code bci = some op ∧
      op.Heads operands (code.drop bci)) ∨
    operationAt? code bci = none ∧
      ((code.drop bci = [] ∨ ∃ byte rest, code.drop bci = byte :: rest ∧
        Opcode.ofByte? byte = none) ∨
      ∃ byte rest o, code.drop bci = byte :: rest ∧ Opcode.ofByte? byte = some o ∧
        (rest.take (o.length - 1)).length + 1 < o.length) := by
  unfold operationAt?
  cases left : code.drop bci with
  | nil => exact .inr ⟨rfl, .inl (.inl rfl)⟩
  | cons byte rest =>
    rw [decodeFrom]
    dsimp only
    cases known : Opcode.ofByte? byte with
    | none => exact .inr ⟨rfl, .inl (.inr ⟨byte, rest, rfl, known⟩)⟩
    | some o =>
      dsimp only
      by_cases short : (rest.take (o.length - 1)).length + 1 < o.length
      · rw [if_pos short]
        exact .inr ⟨rfl, .inr ⟨byte, rest, o, rfl, known, short⟩⟩
      · rw [if_neg short]
        have positive := length_pos o
        have length := List.length_take_le (o.length - 1) rest
        obtain rfl := byte_of_ofByte? known
        refine .inl ⟨_, rest.take (o.length - 1), rfl, rfl, known, by dsimp only; omega, rfl, ?_⟩
        obtain ⟨n, hn⟩ : ∃ n, o.length = n + 1 := ⟨o.length - 1, by omega⟩
        dsimp only
        rw [hn, List.take_succ_cons, Nat.add_sub_cancel]

theorem operationAt?_bci (there : operationAt? code bci = some op) : op.bci = bci := by
  rcases operationAt?_cases code bci with ⟨_, _, at_bci, found, -⟩ | ⟨none, -⟩
  · rw [found] at there
    cases there
    exact at_bci
  · rw [none] at there
    cases there

theorem heads_of_operationAt? (there : operationAt? code bci = some op) :
    ∃ operands, op.Heads operands (code.drop bci) := by
  rcases operationAt?_cases code bci with ⟨_, operands, -, found, heads⟩ | ⟨none, -⟩
  · rw [found] at there
    cases there
    exact ⟨operands, heads⟩
  · rw [none] at there
    cases there

theorem Operation.Heads.operationAt? {operands : List UInt8} (h : op.Heads operands (code.drop bci))
    (at_bci : op.bci = bci) : operationAt? code bci = some op := by
  rw [Bytecode.operationAt?, h.decodeFrom at_bci]
  rfl

/-! ## Native order along the walk -/

/-- At the head of what is left of a body there is an operation, or there is none and native order
    leaves everything as it is, or its operands are cut off and native order fails. -/
theorem toNativeOrderFrom_cases (bci : Nat) (code : List UInt8) (fuel : Nat) :
    (∃ (op : Operation) (operands : List UInt8), op.bci = bci ∧ op.Heads operands code) ∨
    (decodeFrom bci code (fuel + 1) = [] ∧ toNativeOrderFrom bci code (fuel + 1) = .ok code) ∨
    ∃ o rest, code = o.byte :: rest ∧ code.length < o.length ∧
      toNativeOrderFrom bci code (fuel + 1) = .error ⟨o, bci⟩ := by
  rcases operationAt?_cases code 0 with ⟨op, operands, -, -, heads⟩ | ⟨-, left⟩
  · exact .inl ⟨⟨bci, op.opcode, op.operand⟩, operands, rfl,
      ⟨heads.known, heads.length, heads.operand, heads.bytes⟩⟩
  · rw [List.drop_zero] at left
    rcases left with (rfl | ⟨byte, rest, rfl, known⟩) | ⟨byte, rest, o, rfl, known, short⟩
    · exact .inr (.inl ⟨rfl, rfl⟩)
    · simp [decodeFrom, toNativeOrderFrom, known]
    · obtain rfl := byte_of_ofByte? known
      refine .inr (.inr ⟨o, rest, rfl, ?_, ?_⟩)
      · rw [List.length_take] at short
        rw [List.length_cons]
        omega
      · simp only [toNativeOrderFrom, known, if_pos short]

/-- Where no operation is, native order leaves all that is left as it is. -/
theorem toNativeOrderFrom_of_none (none : operationAt? code bci = none)
    (h : toNativeOrderFrom bci (code.drop bci) fuel = .ok tail) : tail = code.drop bci := by
  cases fuel with
  | zero =>
    cases h
    rfl
  | succ fuel =>
    rcases toNativeOrderFrom_cases bci (code.drop bci) fuel with
      ⟨op, operands, at_bci, heads⟩ | ⟨-, same⟩ | ⟨o, rest, -, -, fails⟩
    · rw [heads.operationAt? at_bci] at none
      cases none
    · rw [same] at h
      cases h
      rfl
    · rw [fails] at h
      cases h

/-- Over an operation, native order comes to what is behind it. -/
theorem toNativeOrderFrom_of_heads {operands : List UInt8}
    (heads : op.Heads operands (code.drop bci)) (enough : code.length ≤ bci + fuel)
    (h : toNativeOrderFrom bci (code.drop bci) fuel = .ok tail) :
    ∃ left, fuel = left + 1 ∧
      toNativeOrderFrom (bci + op.opcode.length) (code.drop (bci + op.opcode.length)) left =
        .ok (tail.drop op.opcode.length) ∧
      tail = op.opcode.byte :: native op.opcode operands ++ tail.drop op.opcode.length := by
  have inside := heads.le_length
  have positive := length_pos op.opcode
  rw [List.length_drop] at inside
  obtain ⟨left, rfl⟩ : ∃ k, fuel = k + 1 := ⟨fuel - 1, by omega⟩
  rw [heads.toNativeOrderFrom, List.drop_drop] at h
  refine ⟨left, rfl, ?_⟩
  cases rest : toNativeOrderFrom (bci + op.opcode.length)
      (code.drop (bci + op.opcode.length)) left with
  | error cut =>
    rw [rest] at h
    cases h
  | ok behind =>
    rw [rest] at h
    obtain rfl := Except.ok.inj h
    have length : (op.opcode.byte :: native op.opcode operands).length = op.opcode.length :=
      (congrArg (· + 1) (length_native _ _)).trans heads.length
    rw [List.drop_left' length]
    exact ⟨rfl, rfl⟩

/-- At every index of the walk, native order goes on as if the body began there. -/
theorem Walk.toNativeOrder (walk : Walk code bci) (h : toNativeOrder code = .ok body) :
    ∃ fuel, code.length ≤ bci + fuel ∧
      toNativeOrderFrom bci (code.drop bci) fuel = .ok (body.drop bci) := by
  induction walk with
  | first => exact ⟨code.length, by omega, h⟩
  | @next op _ there ih =>
    obtain ⟨operands, heads⟩ := heads_of_operationAt? there
    obtain ⟨fuel, enough, ran⟩ := ih
    obtain ⟨left, rfl, ran, -⟩ := toNativeOrderFrom_of_heads heads enough ran
    have positive := length_pos op.opcode
    rw [List.drop_drop] at ran
    exact ⟨left, by omega, ran⟩

/-- An operation of the walk is there in native order, too. -/
theorem Walk.native {operands : List UInt8} (walk : Walk code op.bci)
    (h : Bytecode.toNativeOrder code = .ok body) (heads : op.Heads operands (code.drop op.bci)) :
    Operation.Heads ⟨op.bci, op.opcode, operandOf op.opcode (Bytecode.native op.opcode operands)⟩
      (Bytecode.native op.opcode operands) (body.drop op.bci) := by
  obtain ⟨fuel, enough, ran⟩ := walk.toNativeOrder h
  obtain ⟨_, -, -, eq⟩ := toNativeOrderFrom_of_heads heads enough ran
  have length : (Bytecode.native op.opcode operands).length + 1 = op.opcode.length := by
    rw [length_native]
    exact heads.length
  refine ⟨heads.known, length, rfl, ?_⟩
  rw [eq]
  exact List.take_left' length

/-- Every byte that is no operand of a linked operation of the walk stays as it is. -/
theorem getElem?_toNativeOrder {j : Nat} (h : toNativeOrder code = .ok body)
    (other : ∀ op, Walk code op.bci → operationAt? code op.bci = some op →
      op.opcode.isLinked = true → ¬(op.bci < j ∧ j < op.bci + op.opcode.length)) :
    body[j]? = code[j]? := by
  -- along the walk, as long as the byte is not behind
  have along {fuel bci : Nat} {tail : List UInt8} (walk : Walk code bci) (le : bci ≤ j)
      (enough : code.length ≤ bci + fuel)
      (ran : toNativeOrderFrom bci (code.drop bci) fuel = .ok tail) :
      tail[j - bci]? = code[j]? := by
    induction fuel generalizing bci tail with
    | zero =>
      cases ran
      rw [List.getElem?_drop, Nat.add_sub_cancel' le]
    | succ fuel ih =>
      rcases operationAt?_cases code bci with ⟨op, operands, rfl, there, heads⟩ | ⟨none, -⟩
      · obtain ⟨left, same, rest, eq⟩ := toNativeOrderFrom_of_heads heads enough ran
        obtain rfl := Nat.succ.inj same
        have positive := length_pos op.opcode
        have length := heads.length
        by_cases behind : op.bci + op.opcode.length ≤ j
        · have found := ih (walk.next there) behind (by omega) rest
          rw [List.getElem?_drop] at found
          rw [← found]
          congr 1
          omega
        · have code_eq : (code.drop op.bci)[j - op.bci]? = code[j]? := by
            rw [List.getElem?_drop, Nat.add_sub_cancel' le]
          have inside : j - op.bci < (op.opcode.byte :: operands).length := by
            rw [List.length_cons]
            omega
          have inside' : j - op.bci < (op.opcode.byte :: native op.opcode operands).length := by
            rw [List.length_cons, length_native]
            omega
          rw [← code_eq, eq, heads.eq_append, List.getElem?_append_left inside',
            List.getElem?_append_left inside]
          by_cases linked : op.opcode.isLinked = true
          · have first : j - op.bci = 0 := by
              have := other op walk there linked
              omega
            rw [first]
            rfl
          · rw [native, if_neg linked]
      · rw [toNativeOrderFrom_of_none none ran, List.getElem?_drop, Nat.add_sub_cancel' le]
  exact along .first (Nat.zero_le j) (by omega) h

/-- The place where the operands of the walk run past the end of the body. -/
structure Truncated.Cuts (cut : Truncated) (code : List UInt8) : Prop where
  walk : Walk code cut.bci
  first : code[cut.bci]? = some cut.opcode.byte
  short : code.length < cut.bci + cut.opcode.length

theorem Truncated.Cuts.cutOff {cut : Truncated} (h : cut.Cuts code) : CutOff code :=
  ⟨cut.bci, cut.opcode.byte, cut.opcode, h.walk, h.first, Opcode.ofByte?_byte _, h.short⟩

/-- Native order fails where the walk has come to an operation that is cut off. -/
theorem toNativeOrderFrom_cuts {cut : Truncated} (walk : Walk code bci)
    (h : toNativeOrderFrom bci (code.drop bci) fuel = .error cut) : cut.Cuts code := by
  induction fuel generalizing bci with
  | zero => cases h
  | succ fuel ih =>
    rcases toNativeOrderFrom_cases bci (code.drop bci) fuel with
      ⟨op, operands, rfl, heads⟩ | ⟨-, same⟩ | ⟨o, rest, left, short, fails⟩
    · rw [heads.toNativeOrderFrom, List.drop_drop] at h
      cases ran : toNativeOrderFrom (op.bci + op.opcode.length)
          (code.drop (op.bci + op.opcode.length)) fuel with
      | error cut' =>
        rw [ran] at h
        cases h
        exact ih (walk.next (heads.operationAt? rfl)) ran
      | ok tail =>
        rw [ran] at h
        cases h
    · rw [same] at h
      cases h
    · rw [fails] at h
      cases h
      have first : (code.drop bci)[0]? = code[bci + 0]? := List.getElem?_drop
      rw [left] at first
      have length := congrArg List.length left
      rw [List.length_drop, List.length_cons] at length
      rw [List.length_drop] at short
      exact ⟨walk, first.symm, by dsimp only; omega⟩

/-- A body of which no operation is cut off can be turned into native order. -/
theorem toNativeOrder_ok (whole : ¬ CutOff code) : ∃ body, toNativeOrder code = .ok body := by
  cases h : toNativeOrder code with
  | error cut => exact absurd (toNativeOrderFrom_cuts .first h).cutOff whole
  | ok body => exact ⟨body, rfl⟩

/-- Native order fails exactly for bodies of which an operation is cut off. -/
theorem toNativeOrder_ok_iff : (∃ body, toNativeOrder code = .ok body) ↔ ¬ CutOff code := by
  refine ⟨?_, toNativeOrder_ok⟩
  rintro ⟨body, h⟩ ⟨bci, byte, o, walk, first, known, short⟩
  obtain ⟨fuel, enough, ran⟩ := walk.toNativeOrder h
  obtain ⟨inside, at_bci⟩ := List.getElem?_eq_some_iff.mp first
  obtain ⟨fuel, rfl⟩ : ∃ k, fuel = k + 1 := ⟨fuel - 1, by omega⟩
  have left : code.drop bci = byte :: code.drop (bci + 1) := by
    rw [← at_bci, List.getElem_cons_drop]
  have cut : ((code.drop (bci + 1)).take (o.length - 1)).length + 1 < o.length := by
    rw [List.length_take, List.length_drop]
    omega
  rw [left, toNativeOrderFrom] at ran
  simp only [known, if_pos cut] at ran
  cases ran

/-! ## Control flow -/

/-- On the walk, native order has the same operations, but for the operands that it turns round. -/
theorem Walk.operationAt?_of_native (walk : Walk code bci)
    (h : Bytecode.toNativeOrder code = .ok body) (there : operationAt? body bci = some op) :
    ∃ first, operationAt? code bci = some first ∧ first.opcode = op.opcode ∧
      (op.opcode.isLinked = false → first = op) := by
  rcases operationAt?_cases code bci with ⟨first, operands, rfl, found, heads⟩ | ⟨none, -⟩
  · have same := (walk.native h heads).operationAt? rfl
    rw [same] at there
    obtain rfl := Option.some.inj there
    refine ⟨first, found, rfl, fun unlinked => ?_⟩
    dsimp only at unlinked
    rw [Bytecode.native, if_neg (by simp [unlinked]), ← heads.operand]
  · obtain ⟨fuel, -, ran⟩ := walk.toNativeOrder h
    have same := toNativeOrderFrom_of_none none ran
    rw [operationAt?, same] at there
    rw [operationAt?, there] at none
    cases none

theorem Walk.next_of_native (walk : Walk code bci) (h : Bytecode.toNativeOrder code = .ok body)
    (there : operationAt? body bci = some op) : Walk code (bci + op.opcode.length) := by
  obtain ⟨first, found, opcode, -⟩ := walk.operationAt?_of_native h there
  have place := operationAt?_bci found
  rw [← place] at found walk
  have next := walk.next found
  rw [place, opcode] at next
  exact next

/-- Control flow of the loaded body stays on the walk of the body as it was. -/
theorem Reaches.walk (reached : Reaches body handlers bci) (stays : StaysOnWalk code handlers)
    (h : toNativeOrder code = .ok body) : Walk code bci := by
  induction reached with
  | first => exact .first
  | handler listed => exact stays.handlers _ listed
  | behind _ there _ ih => exact ih.next_of_native h there
  | target _ there branch leads ih =>
    obtain ⟨first, found, -, same⟩ := ih.operationAt?_of_native h there
    obtain rfl := same (Opcode.isLinked_of_isBranch branch)
    exact stays.branches _ ih found branch _ leads

/-! ## Indices -/

/-- The number that the operand bytes of an opcode at an index denote, the first byte highest. -/
def indexAt (code : List UInt8) (bci : Nat) (o : Opcode) : Nat :=
  bigEndian ((code.drop (bci + 1)).take (o.length - 1))

theorem Operation.Heads.indexAt {operands : List UInt8} (h : op.Heads operands (code.drop bci)) :
    Bytecode.indexAt code bci op.opcode = bigEndian operands := by
  obtain ⟨rest, eq, taken, -⟩ := h.operands_eq
  have behind := congrArg (List.drop 1) eq
  rw [List.drop_drop] at behind
  rw [Bytecode.indexAt, behind, List.drop_one, List.tail_cons, taken]

/-! ## Native order turned back -/

/-- The number whose digits to the base 256 are the bytes, the first one lowest. -/
def littleEndian (bytes : List UInt8) : Nat := bytes.foldr (fun b n => 256 * n + b.toNat) 0

/-- The number that the operand bytes of an opcode at an index denote in native order. -/
def nativeIndexAt (code : List UInt8) (bci : Nat) (o : Opcode) : Nat :=
  littleEndian ((code.drop (bci + 1)).take (o.length - 1))

/-- The body is the code with the indices of its linked operations in native order. -/
structure Natively (code body : List UInt8) : Prop where
  length : body.length = code.length
  walk : ∀ bci, Walk body bci ↔ Walk code bci
  operations : (decode body).map (fun op => (op.bci, op.opcode)) =
    (decode code).map fun op => (op.bci, op.opcode)
  others : ∀ j, (∀ op, Walk code op.bci → operationAt? code op.bci = some op →
    op.opcode.isLinked = true → ¬(op.bci < j ∧ j < op.bci + op.opcode.length)) →
    body[j]? = code[j]?
  index : ∀ op, Walk code op.bci → operationAt? code op.bci = some op →
    op.opcode.isLinked = true →
    nativeIndexAt body op.bci op.opcode = indexAt code op.bci op.opcode

theorem littleEndian_reverse (bytes : List UInt8) :
    littleEndian bytes.reverse = bigEndian bytes := List.foldr_reverse

theorem native_native (o : Opcode) (operands : List UInt8) :
    native o (native o operands) = operands := by
  unfold native
  split
  · exact List.reverse_reverse operands
  · rfl

/-- An operation with its operands in native order heads a body in native order. -/
theorem Operation.Heads.native {operands : List UInt8} (h : op.Heads operands code)
    (tail : List UInt8) :
    Operation.Heads ⟨op.bci, op.opcode, operandOf op.opcode (Bytecode.native op.opcode operands)⟩
      (Bytecode.native op.opcode operands)
      (op.opcode.byte :: Bytecode.native op.opcode operands ++ tail) := by
  have length : (Bytecode.native op.opcode operands).length + 1 = op.opcode.length := by
    rw [length_native]
    exact h.length
  exact ⟨h.known, length, rfl, List.take_left' length⟩

/-- A body in native order has the same operations at the same places, and native order turns it
    back. -/
theorem toNativeOrderFrom_back (h : toNativeOrderFrom bci code fuel = .ok body) :
    toNativeOrderFrom bci body fuel = .ok code ∧
      (decodeFrom bci body fuel).map (fun op => (op.bci, op.opcode)) =
        (decodeFrom bci code fuel).map fun op => (op.bci, op.opcode) := by
  induction fuel generalizing bci code body with
  | zero =>
    cases h
    exact ⟨rfl, rfl⟩
  | succ fuel ih =>
    rcases toNativeOrderFrom_cases bci code fuel with
      ⟨op, operands, rfl, heads⟩ | ⟨none, same⟩ | ⟨o, rest, -, -, fails⟩
    · rw [heads.toNativeOrderFrom] at h
      cases ran : toNativeOrderFrom (op.bci + op.opcode.length) (code.drop op.opcode.length)
          fuel with
      | error cut =>
        rw [ran] at h
        cases h
      | ok tail =>
        rw [ran] at h
        obtain rfl := Except.ok.inj h
        obtain ⟨back, operations⟩ := ih ran
        have turned := heads.native tail
        have behind : (op.opcode.byte :: native op.opcode operands ++ tail).drop
            op.opcode.length = tail := List.drop_left' turned.length
        rw [turned.toNativeOrderFrom, turned.decodeFrom rfl, heads.decodeFrom rfl]
        dsimp only
        rw [behind, back, native_native, List.map_cons, List.map_cons, operations]
        exact ⟨congrArg Except.ok heads.eq_append.symm, rfl⟩
    · rw [same] at h
      cases h
      exact ⟨same, rfl⟩
    · rw [fails] at h
      cases h

theorem toNativeOrder_back (h : toNativeOrder code = .ok body) : toNativeOrder body = .ok code := by
  rw [toNativeOrder, toNativeOrder_length h]
  exact (toNativeOrderFrom_back h).1

/-- The walk of a body in native order is that of the body as it was. -/
theorem Walk.of_native (walk : Walk body bci) (h : Bytecode.toNativeOrder code = .ok body) :
    Walk code bci := by
  induction walk with
  | first => exact .first
  | next _ there ih => exact ih.next_of_native h there

theorem natively_of_toNativeOrder (h : toNativeOrder code = .ok body) : Natively code body where
  length := toNativeOrder_length h
  walk bci := ⟨fun walk => walk.of_native h, fun walk => walk.of_native (toNativeOrder_back h)⟩
  operations := by
    rw [decode, toNativeOrder_length h]
    exact (toNativeOrderFrom_back h).2
  others _ other := getElem?_toNativeOrder h other
  index op walk there linked := by
    obtain ⟨operands, heads⟩ := heads_of_operationAt? there
    have turned := walk.native h heads
    obtain ⟨rest, eq, taken, -⟩ := turned.operands_eq
    have behind := congrArg (List.drop 1) eq
    rw [List.drop_drop, List.drop_one, List.tail_cons] at behind
    dsimp only at taken
    rw [nativeIndexAt, behind, taken, native, if_pos linked, littleEndian_reverse, heads.indexAt]

/-- Native order fails exactly for the bodies of which an operation is cut off, at this operation;
    any other body keeps its length, its walk, the opcodes of its operations and all bytes but the
    indices of linked operations, which are in native order, and is got back when it is turned
    again. -/
theorem toNativeOrder_involutive (code : List UInt8) :
    match toNativeOrder code with
    | .error cut => CutOff code ∧ cut.Cuts code
    | .ok body => ¬ CutOff code ∧ Natively code body ∧ toNativeOrder body = .ok code := by
  cases h : toNativeOrder code with
  | error cut =>
    have cuts := toNativeOrderFrom_cuts .first h
    exact ⟨cuts.cutOff, cuts⟩
  | ok body =>
    exact ⟨toNativeOrder_ok_iff.mp ⟨body, h⟩, natively_of_toNativeOrder h, toNativeOrder_back h⟩

end Bytecode
end TemplateVm
