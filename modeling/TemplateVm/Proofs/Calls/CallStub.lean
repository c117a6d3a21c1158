import TemplateVm.Proofs.Activation.Leaving
import TemplateVm.Proofs.Layout.Code

set_option autoImplicit false
set_option synthInstance.maxSize 100000

/-!
# The call stub

The stub saves the registers of the host, passes the words of the arguments on the operand stack, the
first one first, and goes to the entry of the method. What it saves stays where it is until the entry
comes back, unless the entry writes there.
-/
namespace TemplateVm

open Memory (Guarded load)
open Emit

/-! ## The code in parts -/

namespace Stubs

open Register

/-- Saves the registers of the host, and passes the words. -/
def passCode : Emit Unit := do
  stp frame link (.pre sp (-16))
  mov frame sp
  sub sp sp (.imm (saveWords * 8))
  str x0 (frame.at (-8))
  str x5 (frame.at (-16))
  savedPairs.forM fun (a, b, offset) => stp a b (frame.at offset)
  mov thread x5
  mov method x1
  comment "pass parameters"
  mov operands sp
  sub scratch1 sp (x4.lsl 3)
  and sp scratch1 (.imm (-16))
  let done ← newLabel
  let next ← newLabel
  bind next
  cbz x4 done
  ldr scratch2 (.post x3 8)
  str scratch2 (.pre operands (-8))
  sub x4 x4 1
  b next
  bind done
  mov sender sp

def callEntry (checks : Bool) : Emit Unit := do
  if checks then
    mov scratch1 sp
    str scratch1 (frame.at calleeSp)
  blr x2

def checkSp (checks : Bool) : Emit Unit := do
  if checks then
    let ok ← newLabel
    mov scratch1 sp
    ldr scratch2 (frame.at calleeSp)
    cmp scratch1 scratch2
    bIf .eq ok
    stop "call stub: activation removal did not restore sp"
    bind ok

/-- Stores the result, and gives the host its registers back. -/
def leaveCode (checks : Bool) (leave : CodeLabel) : Emit Unit := do
  bind leave
  checkSp checks
  ldr scratch1 (frame.at (-8))
  str x0 scratch1.at
  strd .v0 (scratch1.at 8)
  savedPairs.forM fun (a, b, offset) => ldp a b (frame.at offset)
  mov sp frame
  ldp frame link (.post sp 16)
  ret link

/-- Leaves with an exception that has come as far as the host. -/
def catchCode (leave : CodeLabel) : Emit Unit := do
  verifyReference x0
  str x0 (threadField ThreadBlock.pendingException)
  mov x0 zero
  b leave

theorem ite_bind {c : Prop} [Decidable c] {α β : Type} (m m' : Emit α) (f : α → Emit β) :
    (if c then m else m') >>= f = if c then m >>= f else m' >>= f := by
  split <;> rfl

theorem callCode_eq : callCode = (do
    passCode
    let checks := (← settings).debugChecks
    callEntry checks
    let leave ← newLabel
    mark "call_stub_return"
    leaveCode checks leave
    mark "catch_exception"
    catchCode leave) := by
  simp only [callCode, passCode, callEntry, checkSp, leaveCode, catchCode, bind_assoc, ite_bind,
    pure_bind]

end Stubs

namespace Orderly

variable {ctx : CodeContext} {b checks : Bool} {K S T : List CodeLabel}

instance : Orderly ctx b K S S 28 Stubs.passCode := by
  unfold Stubs.passCode
  exact upto inferInstance (by decide)

instance : Orderly ctx b K S S 3 (Stubs.callEntry checks) := by
  unfold Stubs.callEntry
  exact upto inferInstance (by decide)

instance : Orderly ctx b K S S 5 (Stubs.checkSp checks) := by
  unfold Stubs.checkSp
  exact upto inferInstance (by decide)

instance (leave : CodeLabel) [Taken leave S T] :
    Orderly ctx b K S T 16 (Stubs.leaveCode checks leave) := by
  unfold Stubs.leaveCode
  exact upto inferInstance (by decide)

instance (leave : CodeLabel) [Known leave K] :
    Orderly ctx b K S S 8 (Stubs.catchCode leave) := by
  unfold Stubs.catchCode
  exact upto inferInstance (by decide)

end Orderly

/-! ## Words in memory -/

namespace Memory.Guarded

/-- The words are in memory, one behind the other. -/
def Lists (m : Guarded) (a : Nat) (words : List UInt64) : Prop :=
  ∀ k w, words[k]? = some w → load m.bytes (a + 8 * k) 8 = w

/-- The words have been pushed from the address down, the first one first. -/
def Pushed (m : Guarded) (a : Nat) (words : List UInt64) : Prop :=
  ∀ k w, words[k]? = some w → load m.bytes (a - 8 * (k + 1)) 8 = w

variable {m m' : Guarded} {a lo hi : Nat} {w : UInt64} {words : List UInt64}

theorem Lists.head (h : m.Lists a (w :: words)) : load m.bytes a 8 = w := h 0 w rfl

theorem Lists.tail (h : m.Lists a (w :: words)) : m.Lists (a + 8) words := fun k x hk => by
  rw [show a + 8 + 8 * k = a + 8 * (k + 1) by omega]
  exact h (k + 1) x hk

theorem Lists.changed (h : m.Lists a words) (changed : m.Changed m' lo hi)
    (apart : a + 8 * words.length ≤ lo ∨ hi ≤ a) : m'.Lists a words := fun k x hk => by
  have lt : k < words.length := (List.getElem?_eq_some_iff.mp hk).1
  rw [(changed.agrees apart).load (by omega) (by omega)]
  exact h k x hk

theorem Pushed.cons (first : load m.bytes (a - 8) 8 = w) (rest : m.Pushed (a - 8) words) :
    m.Pushed a (w :: words) := fun k x hk => by
  cases k with
  | zero =>
    cases hk
    exact first
  | succ k =>
    rw [show a - 8 * (k + 1 + 1) = a - 8 - 8 * (k + 1) by omega]
    exact rest k x hk

theorem Pushed.tail (h : m.Pushed a (w :: words)) : m.Pushed (a - 8) words := fun k x hk => by
  rw [show a - 8 - 8 * (k + 1) = a - 8 * (k + 1 + 1) by omega]
  exact h (k + 1) x hk

theorem Pushed.changed (h : m.Pushed a words) (changed : m.Changed m' lo hi) (apart : a ≤ lo)
    (fits : 8 * words.length ≤ a) : m'.Pushed a words := fun k x hk => by
  have lt : k < words.length := (List.getElem?_eq_some_iff.mp hk).1
  rw [(changed.agrees (.inl (Nat.le_refl lo))).load (Nat.zero_le _) (by omega)]
  exact h k x hk

end Memory.Guarded

/-! ## What the stub keeps for the host -/

namespace Stubs

variable {c c₀ : Cpu} {m m' : Guarded} {f : UInt64} {lo hi : Nat}
  {l : List (Register × Register × UInt64)}

def names (l : List (Register × Register × UInt64)) : List Register := l.flatMap fun x => [x.1, x.2.1]

/-- The pairs are in memory, each at its distance from the address. -/
def PairsAt (l : List (Register × Register × UInt64)) (c : Cpu) (f : UInt64) (m : Guarded) : Prop :=
  ∀ x ∈ l, load m.bytes (f + x.2.2).toNat 8 = c.reg x.1 ∧
    load m.bytes ((f + x.2.2).toNat + 8) 8 = c.reg x.2.1

/-- The places of the pairs lie one below the other. -/
def Stacked (f : UInt64) (lo : Nat) : Nat → List (Register × Register × UInt64) → Prop
  | _, [] => True
  | hi, x :: l => lo ≤ (f + x.2.2).toNat ∧ (f + x.2.2).toNat + 16 ≤ hi ∧
    Stacked f lo (f + x.2.2).toNat l

theorem Stacked.within (h : Stacked f lo hi l) {x : Register × Register × UInt64} (hx : x ∈ l) :
    lo ≤ (f + x.2.2).toNat ∧ (f + x.2.2).toNat + 16 ≤ hi := by
  induction l generalizing hi with
  | nil => cases hx
  | cons y l ih =>
    obtain ⟨low, high, rest⟩ := h
    rcases List.mem_cons.mp hx with rfl | hx
    · exact ⟨low, high⟩
    · have := ih rest hx
      omega

theorem PairsAt.agrees (h : PairsAt l c f m) (stacked : Stacked f lo hi l)
    (same : m.Agrees m' lo hi) : PairsAt l c f m' := fun x hx => by
  obtain ⟨low, high⟩ := stacked.within hx
  rw [same.load (by omega) (by omega), same.load (by omega) (by omega)]
  exact h x hx

theorem stacked_savedPairs (low : 112 ≤ f.toNat) :
    Stacked f (f.toNat - 96) (f.toNat - 16) savedPairs := by
  have below (k : UInt64) (n : Nat) (hk : k.toNat = n) (small : n ≤ 112) :
      (f + -k).toNat = f.toNat - n := hk ▸ toNat_add_neg (by omega)
  have k₁ := below 32 32 rfl (by decide)
  have k₂ := below 48 48 rfl (by decide)
  have k₃ := below 64 64 rfl (by decide)
  have k₄ := below 80 80 rfl (by decide)
  have k₅ := below 96 96 rfl (by decide)
  simp only [Stacked, savedPairs, k₁, k₂, k₃, k₄, k₅, and_true]
  omega

/-- The registers of the host are in the frame of the stub. -/
structure Saved (c : Cpu) (f : UInt64) (m : Guarded) : Prop where
  frame : load m.bytes f.toNat 8 = c.reg .frame
  link : load m.bytes (f.toNat + 8) 8 = c.reg .link
  result : load m.bytes (f.toNat - 8) 8 = c.reg .x0
  pairs : PairsAt savedPairs c f m

theorem Saved.agrees (h : Saved c f m) (low : 112 ≤ f.toNat)
    (same : m.Agrees m' (f.toNat - 96) (f.toNat + 16)) : Saved c f m' where
  frame := (same.load (by omega) (by omega)).trans h.frame
  link := (same.load (by omega) (by omega)).trans h.link
  result := (same.load (by omega) (by omega)).trans h.result
  pairs := h.pairs.agrees (stacked_savedPairs low) (same.mono (Nat.le_refl _) (by omega))

end Stubs

section
variable {P : Vm → Prop} {turns : Nat} {v : Vm} {c c₀ : Cpu} {m : Guarded} {q r : UInt64}
  {lo hi : Nat} {place : CodeLabel → UInt64} {ctx : CodeContext} {inStub : Bool}
  {K S : List CodeLabel} {l : List (Register × Register × UInt64)}

/-- Pairs of registers are saved in the frame of the stub, one below the other. -/
theorem Vm.runSavePairs (stacked : Stubs.Stacked (c.reg .frame) lo hi l) (clear : m.Clear lo hi)
    (limit : hi ≤ 2 ^ 64) (lay : Lays ⟨v.image.code, place⟩ ctx inStub K S
      (l.forM fun (a, b, offset) => stp a b (Register.frame.at offset)) q r ())
    (next : ∀ m', m.Changed m' lo hi → Stubs.PairsAt l c (c.reg .frame) m' →
      Vm.Arrives P turns (v.moved r c m')) : Vm.Arrives P (turns + l.length) (v.moved q c m) := by
  induction l generalizing m q hi with
  | nil =>
    obtain ⟨rfl, -⟩ := lay.ended
    exact next m (.refl ..) nofun
  | cons x l ih =>
    obtain ⟨low, high, rest⟩ := stacked
    obtain ⟨p, first, lay⟩ := lay.forM_cons
    obtain ⟨i, rfl⟩ := first.emit
    generalize ha : c.reg .frame + x.2.2 = a at low high rest
    have eight : (8 : UInt64).toNat = 8 := rfl
    have second : (a + 8).toNat = a.toNat + 8 := toNat_add_of_lt (by omega)
    have open₁ : m.Open a 8 := clear.open (by omega) (by omega)
    have open₂ : m.Open (a + 8) 8 := clear.open (by omega) (by omega)
    refine .storePair i (by rwa [Cpu.target_base, ha]) (by rwa [Cpu.target_base, ha]) ?_
    rw [Cpu.rebase_base, Cpu.target_base, ha]
    generalize hm : Guarded.put _ (a + 8) 8 _ = m₁
    have changed : m.Changed m₁ lo hi :=
      hm ▸ ((Guarded.Changed.refl m _ _).put (by omega) (by omega)).put (by omega) (by omega)
    have kept₁ : load m₁.bytes a.toNat 8 = c.reg x.1 := by
      rw [← hm, Guarded.load_put_of_disjoint (by omega)]
      exact Guarded.load_put open₁
    have kept₂ : load m₁.bytes (a.toNat + 8) 8 = c.reg x.2.1 := by
      rw [← hm, ← second]
      exact Guarded.load_put open₂.put
    refine ih rest ((clear.changed changed).mono (Nat.le_refl _) (by omega)) (by omega) lay
      fun m' changed' pairs => next m' ?_ fun y hy => ?_
    · exact changed.trans (changed'.mono (Nat.le_refl _) (by omega))
    · rcases List.mem_cons.mp hy with rfl | hy
      · have same : m₁.Agrees m' a.toNat (a.toNat + 16) := changed'.agrees (.inr (Nat.le_refl _))
        rw [ha, same.load (by omega) (by omega), same.load (by omega) (by omega)]
        exact ⟨kept₁, kept₂⟩
      · exact pairs y hy

/-- The registers that were saved are what they were then. -/
theorem Vm.runLoadPairs (stacked : Stubs.Stacked (c.reg .frame) lo hi l) (clear : m.Clear lo hi)
    (limit : hi ≤ 2 ^ 64) (pairs : Stubs.PairsAt l c₀ (c.reg .frame) m)
    (other : Register.frame ∉ Stubs.names l) (lay : Lays ⟨v.image.code, place⟩ ctx inStub K S
      (l.forM fun (a, b, offset) => ldp a b (Register.frame.at offset)) q r ())
    (next : ∀ c', c.Spares c' (Stubs.names l) → (∀ r ∈ Stubs.names l, c'.reg r = c₀.reg r) →
      Vm.Arrives P turns (v.moved r c' m)) : Vm.Arrives P (turns + l.length) (v.moved q c m) := by
  induction l generalizing c q hi with
  | nil =>
    obtain ⟨rfl, -⟩ := lay.ended
    exact next c (.refl ..) nofun
  | cons x l ih =>
    obtain ⟨low, high, rest⟩ := stacked
    obtain ⟨p, first, lay⟩ := lay.forM_cons
    obtain ⟨i, rfl⟩ := first.emit
    obtain ⟨kept₁, kept₂⟩ := pairs x List.mem_cons_self
    have names : Stubs.names (x :: l) = x.1 :: x.2.1 :: Stubs.names l := rfl
    rw [names, List.mem_cons, List.mem_cons, not_or, not_or] at other
    generalize ha : c.reg .frame + x.2.2 = a at low high rest kept₁ kept₂
    have eight : (8 : UInt64).toNat = 8 := rfl
    have second : (a + 8).toNat = a.toNat + 8 := toNat_add_of_lt (by omega)
    have open₁ : m.Open a 8 := clear.open (by omega) (by omega)
    have open₂ : m.Open (a + 8) 8 := clear.open (by omega) (by omega)
    refine .loadPair i (by rwa [Cpu.target_base, ha]) (by rwa [Cpu.target_base, ha]) ?_
    rw [Cpu.rebase_base, Cpu.target_base, ha, second, kept₁, kept₂]
    generalize hc : Cpu.setReg (Cpu.setReg c _ _) _ _ = c₁
    have spares : c.Spares c₁ [x.1, x.2.1] := hc ▸
      ((Cpu.Spares.refl c _).setReg (by simp) _).setReg (by simp) _
    have frame : c₁.reg .frame = c.reg .frame := spares.regs _ (by simp [other.1, other.2.1])
    have loaded : ∀ r ∈ [x.1, x.2.1], c₁.reg r = c₀.reg r := by
      intro r hr
      rw [← hc, Cpu.reg_setReg, Cpu.reg_setReg]
      simp only [List.mem_cons, List.not_mem_nil, or_false] at hr
      by_cases zero : r = .zero
      · rw [if_pos zero, zero, c₀.reg_zero]
      · rw [if_neg zero, if_neg zero]
        by_cases last : r = x.2.1
        · rw [if_pos last, last]
        · rw [if_neg last, if_pos (hr.resolve_right last), hr.resolve_right last]
    refine ih (by rwa [frame]) (clear.mono (Nat.le_refl _) (by omega)) (by omega) ?_ other.2.2 lay
      fun c' spares' loaded' => next c' ?_ fun r hr => ?_
    · rw [frame]
      exact fun y hy => pairs y (List.mem_cons_of_mem _ hy)
    · exact (spares.mono (by simp [names])).trans (spares'.mono (by simp [names]))
    · rw [names] at hr
      by_cases later : r ∈ Stubs.names l
      · exact loaded' r later
      · rw [spares'.regs r later]
        refine loaded r ?_
        simpa [later] using hr

end

/-! ## The stub -/

namespace Vm.Arrives

variable {P : Vm → Prop} {turns : Nat} {v : Vm} {c : Cpu} {m : Guarded} {q done : UInt64}
  {words : List UInt64}

/-- The words are passed one by one: each is taken from where the host has put it and pushed on the
    operand stack. -/
theorem passWords (i₁ : v.image.code.Fetches q (.branchZero .x4 done))
    (i₂ : v.image.code.Fetches (q + 4) (.load .scratch2 (.post .x3 8) .double false))
    (i₃ : v.image.code.Fetches (q + 4 + 4) (.store .scratch2 (.pre .operands (-8)) .double))
    (i₄ : v.image.code.Fetches (q + 4 + 4 + 4) (.binary .sub .x4 .x4 (.imm 1)))
    (i₅ : v.image.code.Fetches (q + 4 + 4 + 4 + 4) (.branch q))
    (count : c.reg .x4 = words.length.toUInt64)
    (bound : (c.reg .x3).toNat + 8 * words.length < 2 ^ 64)
    (lists : m.Lists (c.reg .x3).toNat words)
    (source : m.Clear (c.reg .x3).toNat ((c.reg .x3).toNat + 8 * words.length))
    (stack : m.Clear ((c.reg .operands).toNat - 8 * words.length) (c.reg .operands).toNat)
    (room : 8 * words.length ≤ (c.reg .operands).toNat)
    (apart : (c.reg .x3).toNat + 8 * words.length + 8 * words.length ≤ (c.reg .operands).toNat ∨
      (c.reg .operands).toNat ≤ (c.reg .x3).toNat)
    (next : ∀ c' m', c.Spares c' [.x3, .x4, .operands, .scratch2] →
      (c'.reg .operands).toNat = (c.reg .operands).toNat - 8 * words.length →
      m.Changed m' ((c.reg .operands).toNat - 8 * words.length) (c.reg .operands).toNat →
      m'.Pushed (c.reg .operands).toNat words → Arrives P turns (v.moved done c' m')) :
    Arrives P (turns + (5 * words.length + 1)) (v.moved q c m) := by
  induction words generalizing c m with
  | nil =>
    refine .branchZero i₁ (fun _ => next c m (.refl ..) rfl (.refl ..) nofun) fun some => ?_
    exact absurd count some
  | cons w words ih =>
    have limit := (c.reg .operands).toNat_lt
    have eight : (8 : UInt64).toNat = 8 := rfl
    simp only [List.length_cons] at count bound source stack room apart next
    have positive : c.reg .x4 ≠ 0 := fun zero => by
      have := congrArg UInt64.toNat (count.symm.trans zero)
      rw [UInt64.toNat_ofNat_of_lt' (by change _ < 2 ^ 64; omega)] at this
      cases this
    have down : (c.reg .operands + -8).toNat = (c.reg .operands).toNat - 8 :=
      toNat_add_neg (by omega)
    have up : (c.reg .x3 + 8).toNat = (c.reg .x3).toNat + 8 := toNat_add_of_lt (by omega)
    have slot : m.Open (c.reg .operands + -8) Width.double.bytes :=
      stack.open (by omega) (by change _ + 8 ≤ _; omega)
    refine .branchZero i₁ (absurd · positive) fun _ => .load i₂ ?_ (.store i₃ ?_ ?_)
    · rw [Cpu.target_post]
      exact source.open (Nat.le_refl _) (by change _ + 8 ≤ _; omega)
    · simpa +decide only [Cpu.target_pre, Cpu.rebase_post, Cpu.reg_setReg, ↓reduceIte] using slot
    refine .binary i₄ (.branch i₅ ?_)
    simp +decide only [Cpu.target_pre, Cpu.rebase_pre, Cpu.target_post, Cpu.rebase_post,
      Cpu.reg_setReg, ↓reduceIte]
    have taken : Memory.load m.bytes (c.reg .x3).toNat Width.double.bytes.toNat = w := lists.head
    rw [taken]
    generalize hm : m.put (c.reg .operands + -8) Width.double.bytes w = m₁
    have changed : m.Changed m₁ ((c.reg .operands).toNat - 8) (c.reg .operands).toNat :=
      hm ▸ (Guarded.changed_put m (c.reg .operands + -8) 8 w).mono (by omega) (by omega)
    have pushed : Memory.load m₁.bytes ((c.reg .operands).toNat - 8) 8 = w := by
      rw [← hm, ← down]
      exact Guarded.load_put slot
    have minus : Binary.apply (c.reg .x4) 1 .sub = words.length.toUInt64 := by
      rw [count]
      change UInt64.ofNat (words.length + 1) - 1 = UInt64.ofNat words.length
      rw [UInt64.ofNat_add]
      exact UInt64.add_sub_cancel ..
    generalize hc : Cpu.setReg _ .x4 _ = c₁
    have spares : c.Spares c₁ [.x3, .x4, .operands, .scratch2] := hc ▸
      ((((Cpu.Spares.refl c _).setReg (by simp) _).setReg (by simp) _).setReg (by simp) _).setReg
        (by simp) _
    have x3 : (c₁.reg .x3).toNat = (c.reg .x3).toNat + 8 := by
      rw [← hc]
      simpa +decide only [Cpu.reg_setReg, ↓reduceIte] using up
    have x4 : c₁.reg .x4 = words.length.toUInt64 := by
      rw [← hc, Cpu.reg_setReg_self _ _ (by decide)]
      exact minus
    have operands : (c₁.reg .operands).toNat = (c.reg .operands).toNat - 8 := by
      rw [← hc]
      simpa +decide only [Cpu.reg_setReg, ↓reduceIte] using down
    refine ih x4 (by omega) ?_ ?_ ?_ (by omega) (by omega)
      fun c' m' spares' operands' changed' pushed' => ?_
    · rw [x3]
      exact (lists.tail).changed changed (by omega)
    · rw [x3]
      exact (source.changed changed).mono (by omega) (by omega)
    · rw [operands]
      exact (stack.changed changed).mono (by omega) (by omega)
    · rw [operands] at operands' changed' pushed'
      refine next c' m' (spares.trans spares') (by omega) ?_ (.cons ?_ pushed')
      · exact (changed.mono (by omega) (Nat.le_refl _)).trans
          (changed'.mono (by omega) (by omega))
      · rw [(changed'.agrees (s := (c.reg .operands).toNat - 8) (t := (c.reg .operands).toNat)
          (.inr (Nat.le_refl _))).load (Nat.le_refl _) (by omega)]
        exact pushed

end Vm.Arrives

/-- The words are on the operand stack, below which the stack pointer of the machine is a multiple of
    sixteen. Nothing but the stack has been written. -/
structure Piles (words : List UInt64) (method entry thread : UInt64) (top : Nat) (m₀ : Guarded)
    (c : Cpu) (m : Guarded) : Prop where
  method : c.reg .method = method
  entry : c.reg .x2 = entry
  thread : c.reg .thread = thread
  frame : (c.reg .frame).toNat + 16 = top
  operands : (c.reg .operands).toNat + 8 * words.length + 128 = top
  sp : (c.reg .sp).toNat = (c.reg .operands).toNat / 16 * 16
  pushed : m.Pushed (top - 128) words
  changed : m₀.Changed m (top - 128 - 8 * words.length) top

/-- A method is entered with the words on the operand stack, and is to return the stack pointer of
    the machine to where it is. -/
structure Passes (words : List UInt64) (method entry thread : UInt64) (top : Nat) (m₀ : Guarded)
    (c : Cpu) (m : Guarded) : Prop extends Piles words method entry thread top m₀ c m where
  sender : c.reg .sender = c.reg .sp

/-- The entry is handed the words, with the frame of the stub behind them: it is to go back to `back`,
    and the registers of the host `c₀` are in the frame. -/
structure HandsOver (checks : Bool) (back : UInt64) (words : List UInt64)
    (method entry thread : UInt64) (c₀ : Cpu) (m₀ : Guarded) (c : Cpu) (m : Guarded) : Prop extends
    Passes words method entry thread (c₀.reg .sp).toNat m₀ c m where
  link : c.reg .link = back
  saved : Stubs.Saved c₀ (c.reg .frame) m
  checked : checks = true → load m.bytes (c.reg .frame + Stubs.calleeSp).toNat 8 = c.reg .sp

/-- What the call stub is handed: the method, its entry, the thread, and the words of its parameters
    with their number. There is room on the stack, away from the words. -/
structure Submits (words : List UInt64) (method entry thread : UInt64) (c : Cpu) (m : Guarded) : Prop
    where
  method : c.reg .x1 = method
  entry : c.reg .x2 = entry
  thread : c.reg .x5 = thread
  count : c.reg .x4 = words.length.toUInt64
  lists : m.Lists (c.reg .x3).toNat words
  source : m.Clear (c.reg .x3).toNat ((c.reg .x3).toNat + 8 * words.length)
  bound : (c.reg .x3).toNat + 8 * words.length < 2 ^ 64
  stack : m.Clear ((c.reg .sp).toNat - 128 - 8 * words.length) (c.reg .sp).toNat
  room : 128 + 8 * words.length ≤ (c.reg .sp).toNat
  apart : (c.reg .x3).toNat + 8 * words.length + 8 * words.length + 128 ≤ (c.reg .sp).toNat ∨
    (c.reg .sp).toNat ≤ (c.reg .x3).toNat

section
variable {P : Vm → Prop} {turns : Nat} {v : Vm} {c c₀ : Cpu} {m m₀ : Guarded} {q q' : UInt64}
  {place : CodeLabel → UInt64} {ctx : CodeContext} {K S : List CodeLabel} {words : List UInt64}
  {method entry thread : UInt64} {inStub checks : Bool}

/-- The stub makes its frame and saves the registers of the host there. -/
theorem Submits.runSaving {r : UInt64} (h : Submits words method entry thread c m)
    (i₁ : v.image.code.Fetches q (.storePair .frame .link (.pre .sp (-16))))
    (i₂ : v.image.code.Fetches (q + 4) (.mov .frame .sp))
    (i₃ : v.image.code.Fetches (q + 4 + 4) (.binary .sub .sp .sp (.imm 112)))
    (i₄ : v.image.code.Fetches (q + 4 + 4 + 4) (.store .x0 (.base .frame (-8)) .double))
    (i₅ : v.image.code.Fetches (q + 4 + 4 + 4 + 4) (.store .x5 (.base .frame (-16)) .double))
    (saving : Lays ⟨v.image.code, place⟩ ctx inStub K S
      (Stubs.savedPairs.forM fun (a, b, offset) => stp a b (Register.frame.at offset))
      (q + 4 + 4 + 4 + 4 + 4) r ())
    (next : ∀ c' m', c.Spares c' [.sp, .frame] →
      (c'.reg .sp).toNat + 128 = (c.reg .sp).toNat →
      (c'.reg .frame).toNat + 16 = (c.reg .sp).toNat →
      m.Changed m' ((c.reg .sp).toNat - 128) (c.reg .sp).toNat →
      Stubs.Saved c (c'.reg .frame) m' → Vm.Arrives P turns (v.moved r c' m')) :
    Vm.Arrives P (turns + 10) (v.moved q c m) := by
  have limit := (c.reg .sp).toNat_lt
  have room := h.room
  have clear : m.Clear ((c.reg .sp).toNat - 128) (c.reg .sp).toNat :=
    h.stack.mono (by omega) (Nat.le_refl _)
  have eight : (8 : UInt64).toNat = 8 := rfl
  have at₁ : (c.reg .sp + -16).toNat = (c.reg .sp).toNat - 16 :=
    toNat_add_neg (by change 16 ≤ _; omega)
  have at₂ : (c.reg .sp + -16 - 112).toNat = (c.reg .sp).toNat - 128 := by
    rw [UInt64.toNat_sub_of_le _ _ (UInt64.le_iff_toNat_le.mpr (by rw [at₁]; change 112 ≤ _; omega)),
      at₁]
    change _ - 112 = _
    omega
  refine .pushPair (n := c.reg .sp + -16) i₁ ?_ clear (by omega) (by omega) (by omega)
    fun m₁ changed₁ first last => .mov i₂ (.binary i₃ ?_)
  · rw [UInt64.add_assoc]
    exact (UInt64.add_zero _).symm
  simp +decide only [Cpu.operand, Cpu.reg_setReg, ↓reduceIte]
  generalize hc : Cpu.setReg _ .sp _ = c₁
  have at_frame : c₁.reg .frame = c.reg .sp + -16 := by
    rw [← hc]
    simp +decide only [Cpu.reg_setReg, ↓reduceIte]
  have spares : c.Spares c₁ [.sp, .frame] := hc ▸
    (((Cpu.Spares.refl c _).setReg (by simp) _).setReg (by simp) _).setReg (by simp) _
  have sp : (c₁.reg .sp).toNat + 128 = (c.reg .sp).toNat := by
    rw [← hc, Cpu.reg_setReg_self _ _ (by decide)]
    change (c.reg .sp + -16 - 112).toNat + 128 = _
    omega
  generalize hf : c.reg .sp + -16 = f at at₁ at_frame changed₁ first last
  have same (r : Register) (hr : r ∉ [Register.sp, .frame]) : c₁.reg r = c.reg r := spares.regs r hr
  have slot (k : UInt64) (n : Nat) (hk : k.toNat = n) (small : n ≤ 112) :
      (f + -k).toNat = f.toNat - n := hk ▸ toNat_add_neg (by omega)
  have result := slot 8 8 rfl (by decide)
  have owner := slot 16 16 rfl (by decide)
  have clear₁ := clear.changed changed₁
  have open₁ : m₁.Open (f + -8) 8 := clear₁.open (by omega) (by omega)
  refine .storeAt at_frame i₄ open₁ (.storeAt at_frame i₅ ?_ ?_)
  · exact clear₁.put.open (by omega) (by change _ + 8 ≤ _; omega)
  change Vm.Arrives P _ (v.moved _ c₁
    ((m₁.put (f + -8) 8 (c₁.reg .x0)).put (f + -16) 8 (c₁.reg .x5)))
  generalize hm : (m₁.put (f + -8) 8 (c₁.reg .x0)).put (f + -16) 8 (c₁.reg .x5) = m₂
  have changed₂ : m₁.Changed m₂ (f.toNat - 16) f.toNat :=
    hm ▸ ((Guarded.Changed.refl m₁ _ _).put (by omega) (by omega)).put (by omega) (by omega)
  have held : load m₂.bytes (f.toNat - 8) 8 = c.reg .x0 := by
    rw [← hm, Guarded.load_put_of_disjoint (by omega), ← result, same _ (by decide)]
    exact Guarded.load_put open₁
  have stacked : Stubs.Stacked (c₁.reg .frame) (f.toNat - 96) (f.toNat - 16) Stubs.savedPairs := by
    rw [at_frame]
    exact Stubs.stacked_savedPairs (by omega)
  refine Vm.runSavePairs stacked
    ((clear₁.changed changed₂).mono (by omega) (by omega)) (by omega) saving
    fun m₃ changed₃ pairs => next c₁ m₃ spares sp (by rw [at_frame]; omega) ?_
      ⟨?_, ?_, ?_, fun x hx => ?_⟩
  · exact ((changed₁.mono (by omega) (by omega)).trans (changed₂.mono (by omega) (by omega))).trans
      (changed₃.mono (by omega) (by omega))
  · rw [at_frame, (changed₃.agrees (.inr (by omega))).load (Nat.le_refl _) (Nat.le_refl _),
      (changed₂.agrees (.inr (Nat.le_refl _))).load (Nat.le_refl _) (Nat.le_refl _), first]
  · rw [at_frame, (changed₃.agrees (.inr (by omega))).load (Nat.le_refl _) (Nat.le_refl _),
      (changed₂.agrees (.inr (by omega))).load (Nat.le_refl _) (Nat.le_refl _), last]
  · rw [at_frame, (changed₃.agrees (.inr (by omega))).load (Nat.le_refl _) (Nat.le_refl _), held]
  · obtain ⟨first, last⟩ := pairs x hx
    have named : x.1 ∉ [Register.sp, .frame] ∧ x.2.1 ∉ [Register.sp, .frame] :=
      (by decide : ∀ x ∈ Stubs.savedPairs,
        x.1 ∉ [Register.sp, .frame] ∧ x.2.1 ∉ [Register.sp, .frame]) x hx
    exact ⟨first.trans (same _ named.1), last.trans (same _ named.2)⟩

/-- With the words on the stack the stub calls the entry. Where the code checks itself, the stack
    pointer is kept in its frame. -/
theorem Passes.runEntry (h : Passes words method entry thread (c₀.reg .sp).toNat m₀ c m)
    (saved : Stubs.Saved c₀ (c.reg .frame) m)
    (clear : m.Clear ((c₀.reg .sp).toNat - 128) (c₀.reg .sp).toNat)
    (lay : Lays ⟨v.image.code, place⟩ ctx inStub K S (Stubs.callEntry checks) q q' ())
    (next : ∀ c' m', HandsOver checks q' words method entry thread c₀ m₀ c' m' →
      Vm.Arrives P turns (v.moved entry c' m')) : Vm.Arrives P (turns + 3) (v.moved q c m) := by
  have operands := h.operands
  have frame := h.frame
  have limit := (c.reg .frame).toNat_lt
  have slot : (c.reg .frame + Stubs.calleeSp).toNat = (c.reg .frame).toNat - 104 :=
    toNat_add_neg (k := 104) (by change 104 ≤ _; omega)
  have enter (c' : Cpu) (m' : Guarded) (spares : c.Spares c' [.scratch1, .link])
      (link : c'.reg .link = q')
      (changed : m.Changed m' ((c.reg .frame).toNat - 104) ((c.reg .frame).toNat - 96))
      (checked : checks = true →
        load m'.bytes (c.reg .frame + Stubs.calleeSp).toNat 8 = c.reg .sp) :
      Vm.Arrives P turns (v.moved entry c' m') := by
    have kept (r : Register) (hr : r ∉ [Register.scratch1, .link]) :
        c'.reg r = c.reg r := spares.regs r hr
    have passes : Passes words method entry thread (c₀.reg .sp).toNat m₀ c' m' := by
      refine ⟨⟨(kept _ (by decide)).trans h.method, (kept _ (by decide)).trans h.entry,
        (kept _ (by decide)).trans h.thread, ?_, ?_, ?_,
        h.pushed.changed changed (by omega) (by omega),
        h.changed.trans (changed.mono (by omega) (by omega))⟩, ?_⟩
      · rw [kept .frame (by decide), frame]
      · rw [kept .operands (by decide), operands]
      · rw [kept .sp (by decide), kept .operands (by decide), h.sp]
      · rw [kept .sp (by decide), kept .sender (by decide), h.sender]
    refine next c' m' ⟨passes, link, ?_, fun on => ?_⟩
    · rw [kept .frame (by decide)]
      exact saved.agrees (by omega) (changed.agrees (.inr (Nat.le_refl _)))
    · rw [kept .frame (by decide), kept .sp (by decide), checked on]
  unfold Stubs.callEntry at lay
  by_cases on : checks = true
  · replace lay := lay.ite_pos on
    obtain ⟨i₁, lay⟩ := lay.emit_bind
    obtain ⟨i₂, lay⟩ := lay.emit_bind
    obtain ⟨i₃, rfl⟩ := lay.emit
    have ok : m.Open (c.reg .frame + Stubs.calleeSp) 8 :=
      clear.open (by omega) (by change _ + 8 ≤ _; omega)
    refine .mov i₁ (.storeAt (Cpu.reg_setReg_ne _ _ (by decide)) i₂ ok (.callTo i₃ ?_))
    simp +decide only [Cpu.reg_setReg, ↓reduceIte, h.entry]
    refine enter _ _ (((Cpu.Spares.refl c _).setReg (by simp) _).setReg (by simp) _) ?_ ?_
      fun _ => Guarded.load_put ok
    · simp +decide only [Cpu.reg_setReg, ↓reduceIte]
    · exact (Guarded.changed_put m (c.reg .frame + Stubs.calleeSp) 8 _).mono (by omega)
        (by change _ + 8 ≤ _; omega)
  · replace lay := lay.ite_neg on
    obtain ⟨i₁, rfl⟩ := lay.emit
    suffices calls : Vm.Arrives P (turns + 1) (v.moved q c m) from calls.le (by omega)
    refine .callTo i₁ ?_
    rw [h.entry]
    exact enter _ _ ((Cpu.Spares.refl c _).setReg (by simp) _)
      (Cpu.reg_setReg_self _ _ (by decide)) (.refl ..) (absurd · on)

/-- The stub takes over the thread and the method, and makes room for the words below its frame. -/
theorem Vm.runPlaceWords {n : Nat} (i₁ : v.image.code.Fetches q (.mov .thread .x5))
    (i₂ : v.image.code.Fetches (q + 4) (.mov .method .x1))
    (i₃ : v.image.code.Fetches (q + 4 + 4) (.mov .operands .sp))
    (i₄ : v.image.code.Fetches (q + 4 + 4 + 4) (.binary .sub .scratch1 .sp (.shifted .x4 3)))
    (i₅ : v.image.code.Fetches (q + 4 + 4 + 4 + 4) (.binary .and .sp .scratch1 (.imm (-16))))
    (count : c.reg .x4 = n.toUInt64) (room : 8 * n ≤ (c.reg .sp).toNat)
    (next : ∀ c', c.Spares c' [.thread, .method, .operands, .scratch1, .sp] →
      c'.reg .thread = c.reg .x5 → c'.reg .method = c.reg .x1 → c'.reg .operands = c.reg .sp →
      (c'.reg .sp).toNat = ((c.reg .sp).toNat - 8 * n) / 16 * 16 →
      Vm.Arrives P turns (v.moved (q + 4 + 4 + 4 + 4 + 4) c' m)) :
    Vm.Arrives P (turns + 5) (v.moved q c m) := by
  refine .mov i₁ (.mov i₂ (.mov i₃ (.binary i₄ (.binary i₅ (next _ ?_ ?_ ?_ ?_ ?_)))))
  · exact (((((Cpu.Spares.refl c _).setReg (by simp) _).setReg (by simp) _).setReg (by simp)
      _).setReg (by simp) _).setReg (by simp) _
  · simp +decide only [Cpu.reg_setReg, ↓reduceIte]
  · simp +decide only [Cpu.reg_setReg, ↓reduceIte]
  · simp +decide only [Cpu.reg_setReg, ↓reduceIte]
  · have limit := (c.reg .sp).toNat_lt
    have words : (c.reg .x4 <<< 3).toNat = 8 * n := by
      rw [count]
      exact toNat_shiftLeft (k := 3) (by decide) (by change 8 * _ < _; omega)
    simp +decide only [Cpu.operand, Cpu.reg_setReg, ↓reduceIte]
    refine (toNat_and_neg_sixteen _).trans (congrArg (· / 16 * 16) ?_)
    change (c.reg .sp - c.reg .x4 <<< 3).toNat = _
    rw [UInt64.toNat_sub_of_le _ _ (UInt64.le_iff_toNat_le.mpr (by rw [words]; omega)), words]

/-- The registers of the host are saved, and the words that the stub is handed are on the stack. -/
theorem Submits.runPassCode (h : Submits words method entry thread c m)
    (lay : Lays ⟨v.image.code, place⟩ ctx inStub K S Stubs.passCode q q' ())
    (next : ∀ c' m', Passes words method entry thread (c.reg .sp).toNat m c' m' →
      Stubs.Saved c (c'.reg .frame) m' → Vm.Arrives P turns (v.moved q' c' m')) :
    Vm.Arrives P (turns + 1 + (5 * words.length + 1) + 15) (v.moved q c m) := by
  unfold Stubs.passCode at lay
  obtain ⟨i₁, lay⟩ := lay.emit_bind
  obtain ⟨i₂, lay⟩ := lay.emit_bind
  obtain ⟨i₃, lay⟩ := lay.emit_bind
  obtain ⟨i₄, lay⟩ := lay.emit_bind
  obtain ⟨i₅, lay⟩ := lay.emit_bind
  obtain ⟨⟨⟩, r, saving, lay⟩ := lay.split
  obtain ⟨j₁, lay⟩ := lay.emit_bind
  obtain ⟨j₂, lay⟩ := lay.emit_bind
  replace lay := lay.comment_bind
  obtain ⟨j₃, lay⟩ := lay.emit_bind
  obtain ⟨j₄, lay⟩ := lay.emit_bind
  obtain ⟨j₅, lay⟩ := lay.emit_bind
  obtain ⟨done, lay⟩ := lay.newLabel_bind
  obtain ⟨again, lay⟩ := lay.newLabel_bind
  obtain ⟨here, lay⟩ := lay.bind_bind
  obtain ⟨k₁, lay⟩ := lay.emitTo_bind
  obtain ⟨k₂, lay⟩ := lay.emit_bind
  obtain ⟨k₃, lay⟩ := lay.emit_bind
  obtain ⟨k₄, lay⟩ := lay.emit_bind
  obtain ⟨k₅, lay⟩ := lay.emitTo_bind
  obtain ⟨there, lay⟩ := lay.bind_bind
  obtain ⟨l₁, rfl⟩ := lay.emit
  dsimp only at here there k₅
  rw [here] at k₅
  have room := h.room
  have apart := h.apart
  refine h.runSaving i₁ i₂ i₃ i₄ i₅ saving fun c₁ m₁ spares sp frame changed saved => ?_
  have same (r : Register) (hr : r ∉ [Register.sp, .frame]) : c₁.reg r = c.reg r := spares.regs r hr
  have count₁ : c₁.reg .x4 = words.length.toUInt64 := (same _ (by decide)).trans h.count
  refine Vm.runPlaceWords j₁ j₂ j₃ j₄ j₅ count₁ (by omega)
    fun c₂ spares₂ thread₂ method₂ base sp₂ => ?_
  rw [← base] at sp₂
  have operands₂ : (c₂.reg .operands).toNat + 128 = (c.reg .sp).toNat := by rw [base, sp]
  have count : c₂.reg .x4 = words.length.toUInt64 :=
    (spares₂.regs _ (by decide)).trans count₁
  have source : c₂.reg .x3 = c.reg .x3 :=
    (spares₂.regs _ (by decide)).trans (same _ (by decide))
  have frame₂ : c₂.reg .frame = c₁.reg .frame := spares₂.regs _ (by decide)
  refine .passWords k₁ k₂ k₃ k₄ k₅ count (source ▸ h.bound) ?_ ?_ ?_ (by omega)
    (by rw [source]; omega) fun c₃ m₃ spares₃ operands₃ changed₃ pushed => ?_
  · rw [source]
    exact h.lists.changed changed (by omega)
  · rw [source]
    exact h.source.changed changed
  · exact (h.stack.changed changed).mono (by omega) (by omega)
  have below₃ : m.Changed m₃ ((c.reg .sp).toNat - 128 - 8 * words.length) (c.reg .sp).toNat :=
    (changed.mono (by omega) (Nat.le_refl _)).trans (changed₃.mono (by omega) (by omega))
  have kept (r : Register) (hr : r ∉ [Register.x3, .x4, .operands, .scratch2]) :
      c₃.reg r = c₂.reg r := spares₃.regs r hr
  change Vm.Arrives P _ (v.moved (place done) c₃ m₃)
  rw [there]
  refine .mov l₁ (next _ m₃ ⟨⟨?_, ?_, ?_, ?_, ?_, ?_, fun k w hk => ?_, below₃⟩, ?_⟩ ?_)
  · rw [Cpu.reg_setReg_ne _ _ (by decide), kept _ (by decide), method₂, same _ (by decide),
      h.method]
  · rw [Cpu.reg_setReg_ne _ _ (by decide), kept _ (by decide), spares₂.regs _ (by decide),
      same _ (by decide), h.entry]
  · rw [Cpu.reg_setReg_ne _ _ (by decide), kept _ (by decide), thread₂, same _ (by decide),
      h.thread]
  · rw [Cpu.reg_setReg_ne _ _ (by decide), kept _ (by decide), frame₂, frame]
  · rw [Cpu.reg_setReg_ne _ _ (by decide)]
    omega
  · rw [Cpu.reg_setReg_ne _ _ (by decide), Cpu.reg_setReg_ne _ _ (by decide), kept _ (by decide),
      sp₂, operands₃]
  · rw [show (c.reg .sp).toNat - 128 = (c₂.reg .operands).toNat by omega]
    exact pushed k w hk
  · rw [Cpu.reg_setReg_self _ _ (by decide), Cpu.reg_setReg_ne _ _ (by decide)]
  · rw [Cpu.reg_setReg_ne _ _ (by decide), kept _ (by decide), frame₂]
    exact saved.agrees (by omega) (changed₃.agrees (.inr (by omega)))

/-- The call stub enters the method with the words that it is handed. -/
theorem Submits.runCallCode (h : Submits words method entry thread c m)
    (lay : Lays ⟨v.image.code, place⟩ ctx inStub K S Stubs.callCode q q' ())
    (next : ∀ back c' m', HandsOver ctx.settings.debugChecks back words method entry thread c m c' m' →
      Vm.Arrives P turns (v.moved entry c' m')) :
    Vm.Arrives P (turns + 4 + (5 * words.length + 1) + 15) (v.moved q c m) := by
  rw [Stubs.callCode_eq] at lay
  obtain ⟨⟨⟩, q₁, passing, lay⟩ := lay.split (m := Stubs.passCode)
  replace lay := lay.settings_bind
  obtain ⟨⟨⟩, back, calling, -⟩ := lay.split (m := Stubs.callEntry ctx.settings.debugChecks)
  have room := h.room
  refine h.runPassCode passing fun c₁ m₁ passes saved => ?_
  exact passes.runEntry saved ((h.stack.changed passes.changed).mono (by omega) (Nat.le_refl _))
    calling (next back)

end
end TemplateVm
