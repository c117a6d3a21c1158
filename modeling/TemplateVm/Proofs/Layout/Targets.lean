import TemplateVm.Machine.Cpu
import TemplateVm.Proofs.Layout.Labels
import TemplateVm.Proofs.Results

set_option autoImplicit false

/-!
# Where generated code goes

`Aimed` says of code under assembly that what it branches to is known to be code, or is a place
within it; that a constant in a register is the address of code or of a service when there is a
branch to the register; and that the stubs lie one behind the other. `Aims` says of a piece of code
that it keeps this up. Instances follow the shape of the code, as those of `Orderly` do.
-/
namespace TemplateVm

/-! ## Constants in registers -/

/-- The base register, if the access changes it. -/
def Address.rebased : Address → List Register
  | .pre b _ | .post b _ => [b]
  | .base .. | .index .. => []

theorem Cpu.address_rebased (c : Cpu) (addr : Address) :
    (c.address addr).2.map (·.1) = addr.rebased := by
  cases addr <;> rfl

namespace Instruction

section
variable {τ : Type}

/-- The registers that the instruction gives a value. -/
def written : Instruction τ → List Register
  | movImm rd _ | mov rd _ | binary _ rd _ _ | shiftLeft rd _ _ | shiftRight rd _ _ | mul rd _ _
  | div rd _ _ | neg rd _ | extend _ rd _ | select rd _ _ _ | bitsOfFloat rd _ _ | adr rd _
  | fetchAdd _ rd _ _ => [rd]
  | load rt addr _ _ => addr.rebased ++ [rt]
  | loadPair r1 r2 addr => addr.rebased ++ [r1, r2]
  | store _ addr _ | storePair _ _ addr | loadFloat _ addr _ | storeFloat _ addr _ => addr.rebased
  | call _ | callTo _ => [.link]
  | nop | compare .. | test .. | floatOfBits .. | floatBinary .. | floatUnary .. | branch _
  | branchIf .. | branchZero .. | branchNonzero .. | branchBitClear .. | branchBitSet .. | branchTo _
  | ret _ | callNative .. | barrier | breakpoint _ | stop _ => []

/-- The registers that have another value behind the instruction. What is called leaves its result
    in the first register. -/
def renewed (i : Instruction τ) : List Register :=
  match i with
  | call _ | callTo _ | callNative .. => .x0 :: i.written
  | _ => i.written

/-- The register that the instruction takes the next address from. -/
abbrev register? : Instruction τ → Option Register
  | branchTo rn | callTo rn | ret rn => some rn
  | _ => none

/-- The constant that the instruction puts into a register. -/
abbrev constant? : Instruction τ → Option (Register × UInt64)
  | movImm rd n => some (rd, n)
  | _ => none

/-- Before the instruction at the index the register holds a constant: of the instructions above it,
    the last one that changes the register puts the constant there. -/
def Carries (code : Array (Instruction τ)) (j : Nat) (r : Register) (n : UInt64) : Prop :=
  ∃ k < j, code[k]? = some (.movImm r n) ∧
    ∀ m, k < m → m < j → ∀ i, code[m]? = some i → r ∉ i.renewed

theorem none_of_target {i : Instruction τ} {t : τ} (h : i.target? = some t) :
    i.register? = none ∧ i.constant? = none := by
  cases i <;> first | exact ⟨rfl, rfl⟩ | cases h

variable {code : Array (Instruction τ)} {i : Instruction τ} {r : Register} {n : UInt64} {j : Nat}

/-- What is carried to the end of code is its last constant, or was carried there before. -/
theorem carries_push (h : Carries (code.push i) (code.size + 1) r n) :
    i.constant? = some (r, n) ∨ (r ∉ i.renewed ∧ Carries code code.size r n) := by
  obtain ⟨k, hk, put, kept⟩ := h
  by_cases last : k = code.size
  · subst last
    rw [Array.getElem?_push_size, Option.some.injEq] at put
    exact .inl (put ▸ rfl)
  · refine .inr ⟨kept code.size (by omega) (by omega) i Array.getElem?_push_size,
      k, by omega, ?_, fun m above below x hx => kept m above (by omega) x ?_⟩
    · rwa [Array.getElem?_push, if_neg (by omega)] at put
    · rwa [Array.getElem?_push, if_neg (by omega)]

/-- Code that comes later does not matter. -/
theorem carries_of_push (hj : j ≤ code.size) (h : Carries (code.push i) j r n) :
    Carries code j r n := by
  obtain ⟨k, hk, put, kept⟩ := h
  refine ⟨k, hk, ?_, fun m above below x hx => kept m above below x ?_⟩
  · rwa [Array.getElem?_push, if_neg (by omega)] at put
  · rwa [Array.getElem?_push, if_neg (by omega)]

end

/-- The registers that an instruction is said to write are those that it gives a value. -/
theorem effect_written {i : Instruction UInt64} {c : Cpu} {m : Memory.Guarded} {e : Effect}
    (h : i.effect c m = .ok e) : e.registers.map (·.1) = i.written := by
  cases i
  case load | store | loadPair | storePair | loadFloat | storeFloat | fetchAdd =>
    simp only [effect] at h
    repeat obtain ⟨_, -, h⟩ := ok_of_bind h
    cases h
    simp [written, Cpu.address_rebased]
  case breakpoint =>
    obtain ⟨_, -, h⟩ := ok_of_bind h
    cases h
  case stop => cases h
  all_goals
    cases h
    rfl

end Instruction

/-! ## Assemblies -/

namespace Assembly

/-- The address of the instruction with the index. -/
def address (a : Assembly) (k : Nat) : UInt64 := a.base + k.toUInt64 * Instruction.size

/-- Labels and marks are at places among the first `n`, and a branch goes to one of these places, to
    a label that is not bound yet, or to what is known to be code. -/
structure Lands (G : UInt64 → Prop) (n : Nat) (a : Assembly) : Prop where
  labels : ∀ (l : Nat) p, a.labels[l]? = some (some p) → ∃ k < n, p = a.address k
  marks : ∀ m ∈ a.marks, ∃ k < n, m.2 = a.address k
  targets : ∀ i ∈ a.code, ∀ p, i.target? = some (.address p) → G p ∨ ∃ k < n, p = a.address k

/-- Code and marks are added. -/
structure Precedes (a a' : Assembly) : Prop where
  size : a.code.size ≤ a'.code.size
  marks : ∀ m ∈ a.marks, m ∈ a'.marks

/-- The stubs lie one behind the other and fill the code up to an index. -/
inductive Tiled (base : UInt64) : List Stub → Nat → Prop
  | nil : Tiled base [] 0
  | snoc {stubs : List Stub} {j k : Nat} (name : String) : Tiled base stubs j → j ≤ k →
    Tiled base (stubs ++ [⟨name, base + j.toUInt64 * Instruction.size,
      base + k.toUInt64 * Instruction.size⟩]) k

/-- The code goes where it should. No constant is carried in the registers `R`. -/
structure Aimed (G : UInt64 → Prop) (R : List Register) (inStub : Bool) (a : Assembly) : Prop where
  lands : a.Lands G (a.code.size + 1)
  registers : ∀ j i r n, a.code[j]? = some i → i.register? = some r →
    Instruction.Carries a.code j r n → G n ∨ (Service.ofAddress? n).isSome
  free : ∀ r ∈ R, ∀ n, ¬ Instruction.Carries a.code a.code.size r n
  outside : inStub = false → a.openStub = none ∧ Tiled a.base a.stubs.toList a.code.size
  inside : inStub = true → ∃ name j, a.openStub = some (name, a.address j) ∧ j ≤ a.code.size ∧
    Tiled a.base a.stubs.toList j

section
variable {G : UInt64 → Prop} {R T : List Register} {inStub : Bool} {a : Assembly} {k n : Nat}

theorem Lands.mono (h : a.Lands G k) (le : k ≤ n) : a.Lands G n where
  labels l p hl :=
    let ⟨j, lt, hp⟩ := h.labels l p hl
    ⟨j, by omega, hp⟩
  marks m hm :=
    let ⟨j, lt, hp⟩ := h.marks m hm
    ⟨j, by omega, hp⟩
  targets i hi p hp := (h.targets i hi p hp).imp_right fun ⟨j, lt, hp⟩ => ⟨j, by omega, hp⟩

theorem Lands.congr {a' : Assembly} (h : a.Lands G n) (base : a'.base = a.base)
    (code : a'.code = a.code) (labels : a'.labels = a.labels) (marks : a'.marks = a.marks) :
    a'.Lands G n where
  labels l p hl := by
    simp only [address, base]
    exact h.labels l p (labels ▸ hl)
  marks m hm := by
    simp only [address, base]
    exact h.marks m (marks ▸ hm)
  targets i hi p hp := by
    simp only [address, base]
    exact h.targets i (code ▸ hi) p hp

theorem aimed_nil (G : UInt64 → Prop) (R : List Register) (base : UInt64) :
    Aimed G R false { base } where
  lands := ⟨by simp, by simp, by simp⟩
  registers := by simp
  free := by
    rintro r - n ⟨k, hk, -⟩
    exact absurd hk (Nat.not_lt_zero k)
  outside _ := ⟨rfl, .nil⟩
  inside := (absurd · (by decide))

theorem Precedes.refl (a : Assembly) : Precedes a a := ⟨Nat.le_refl _, fun _ hm => hm⟩

theorem Precedes.trans {a' a'' : Assembly} (h : Precedes a a') (h' : Precedes a' a'') :
    Precedes a a'' :=
  ⟨Nat.le_trans h.size h'.size, fun m hm => h'.marks m (h.marks m hm)⟩

theorem precedes_emit (a : Assembly) (i : Instruction Target) : Precedes a (a.emit i) :=
  ⟨by simp [Assembly.emit], fun _ hm => hm⟩

theorem Aimed.of_subset (h : Aimed G R inStub a) (sub : T ⊆ R) : Aimed G T inStub a :=
  { h with free := fun r hr => h.free r (sub hr) }

/-- One more instruction keeps code aimed if it goes where it should itself. -/
theorem Aimed.emit {i : Instruction Target} (h : Aimed G R true a)
    (target : ∀ p, i.target? = some (.address p) → G p ∨ ∃ k < a.code.size + 1, p = a.address k)
    (register : ∀ r n, i.register? = some r → Instruction.Carries a.code a.code.size r n →
      G n ∨ (Service.ofAddress? n).isSome)
    (free : ∀ r ∈ T, (r ∈ R ∨ r ∈ i.renewed) ∧ ∀ n, i.constant? ≠ some (r, n)) :
    Aimed G T true (a.emit i) ∧ (a.emit i).Lands G (a.emit i).code.size := by
  have size : (a.emit i).code.size = a.code.size + 1 := Array.size_push i
  have lands : (a.emit i).Lands G (a.code.size + 1) := by
    refine ⟨h.lands.labels, h.lands.marks, fun x hx p hp => ?_⟩
    rcases Array.mem_push.mp hx with hx | rfl
    · exact h.lands.targets x hx p hp
    · exact target p hp
  refine ⟨⟨lands.mono (by omega), fun j x r n hj hr carried => ?_, fun r hr n carried => ?_,
    (absurd · (by decide)), fun _ => ?_⟩, size ▸ lands⟩
  · have lt : j < a.code.size + 1 := size ▸ (Array.getElem?_eq_some_iff.mp hj).1
    have before := Instruction.carries_of_push (Nat.le_of_lt_succ lt) carried
    by_cases last : j = a.code.size
    · subst last
      rw [Assembly.emit, Array.getElem?_push_size, Option.some.injEq] at hj
      exact register r n (hj ▸ hr) before
    · rw [Assembly.emit, Array.getElem?_push, if_neg last] at hj
      exact h.registers j x r n hj hr before
  · rw [size] at carried
    obtain ⟨kept, constant⟩ := free r hr
    rcases Instruction.carries_push carried with put | ⟨other, before⟩
    · exact constant n put
    · exact kept.elim (fun hr => h.free r hr n before) other
  · obtain ⟨name, j, open', le, tiled⟩ := h.inside rfl
    exact ⟨name, j, open', by omega, tiled⟩

end
end Assembly

open Assembly

/-! ## Code that keeps its aim -/

/-- Code that keeps an assembly aimed. -/
class Aims (G : UInt64 → Prop) (R : List Register) (inStub : Bool) (ctx : CodeContext) {α : Type}
    (m : Emit α) : Prop where
  aims : ∀ a x a', Aimed G R inStub a → m ctx a = .ok x a' →
    Aimed G R inStub a' ∧ Precedes a a'

/-- Code that ends with an instruction: no label is bound behind it. -/
class Closes (G : UInt64 → Prop) (R : List Register) (inStub : Bool) (ctx : CodeContext) {α : Type}
    (m : Emit α) : Prop where
  closes : ∀ a x a', Aimed G R inStub a → m ctx a = .ok x a' →
    a'.Lands G a'.code.size ∧ a.code.size < a'.code.size

theorem run_of_bind {ctx : CodeContext} {α β : Type} {m : Emit α} {f : α → Emit β} {y : β}
    {a a' : Assembly} (h : (m >>= f) ctx a = .ok y a') :
    ∃ x a₁, m ctx a = .ok x a₁ ∧ f x ctx a₁ = .ok y a' := by
  change EStateM.bind (m ctx) (fun x => f x ctx) a = _ at h
  unfold EStateM.bind at h
  split at h
  · next x a₁ run => exact ⟨x, a₁, run, h⟩
  · cases h

namespace Aims

section
variable {G : UInt64 → Prop} {R : List Register} {b : Bool} {ctx : CodeContext} {α β : Type}

instance pure (x : α) : Aims G R b ctx (Pure.pure x : Emit α) where
  aims a y a' h run := by
    cases run
    exact ⟨h, .refl _⟩

instance (priority := low) bind (m : Emit α) (f : α → Emit β) [hm : Aims G R b ctx m]
    [hf : ∀ x, Aims G R b ctx (f x)] : Aims G R b ctx (m >>= f) where
  aims a y a' h run := by
    obtain ⟨x, a₁, run, run'⟩ := run_of_bind run
    obtain ⟨h₁, le⟩ := hm.aims a x a₁ h run
    obtain ⟨h', le'⟩ := (hf x).aims a₁ y a' h₁ run'
    exact ⟨h', le.trans le'⟩

/-- The code up to a point, and what comes behind it. -/
theorem split {m : Emit α} {f : α → Emit β} [hm : Aims G R b ctx m] {y : β} {a a' : Assembly}
    (h : Aimed G R b a) (run : (m >>= f) ctx a = .ok y a') :
    ∃ x a₁, m ctx a = .ok x a₁ ∧ Aimed G R b a₁ ∧ Precedes a a₁ ∧
      f x ctx a₁ = .ok y a' := by
  obtain ⟨x, a₁, first, rest⟩ := run_of_bind run
  obtain ⟨aimed, le⟩ := hm.aims a x a₁ h first
  exact ⟨x, a₁, first, aimed, le, rest⟩

/-- Code without effect on the assembly. -/
theorem reading {m : Emit α} (x : Assembly → α) (hm : ∀ a, m ctx a = .ok (x a) a) :
    Aims G R b ctx m where
  aims a y a' h run := by
    rw [hm] at run
    cases run
    exact ⟨h, .refl _⟩

instance pc : Aims G R b ctx Emit.pc := reading Assembly.pc fun _ => rfl

instance get : Aims G R b ctx (MonadState.get : Emit Assembly) := reading id fun _ => rfl

instance read_bind (f : CodeContext → Emit β) [h : Aims G R b ctx (f ctx)] :
    Aims G R b ctx (read >>= f) := ⟨h.aims⟩

instance settings_bind (f : Settings → Emit β) [h : Aims G R b ctx (f ctx.settings)] :
    Aims G R b ctx (Emit.settings >>= f) := ⟨h.aims⟩

instance ite (c : Prop) [Decidable c] (m m' : Emit α) [h : Aims G R b ctx m]
    [h' : Aims G R b ctx m'] : Aims G R b ctx (if c then m else m') := by
  split
  · exact h
  · exact h'

instance whenM (c : Bool) (m : Emit Unit) [h : Aims G R b ctx m] :
    Aims G R b ctx (Emit.whenM c m) := by
  unfold Emit.whenM
  infer_instance

/-- Code that leaves instructions and stubs as they are. Labels can be new, labels and marks can be
    set to the current address. -/
theorem noting {m : Emit α} (f : Assembly → Assembly) (x : Assembly → α)
    (hm : ∀ a, m ctx a = .ok (x a) (f a)) (base : ∀ a, (f a).base = a.base)
    (code : ∀ a, (f a).code = a.code)
    (stubs : ∀ a, (f a).stubs = a.stubs ∧ (f a).openStub = a.openStub)
    (labels : ∀ a (l : Nat) p, (f a).labels[l]? = some (some p) →
      a.labels[l]? = some (some p) ∨ p = a.pc)
    (marks : ∀ a, (∀ k ∈ a.marks, k ∈ (f a).marks) ∧
      ∀ k ∈ (f a).marks, k ∈ a.marks ∨ k.2 = a.pc) : Aims G R b ctx m where
  aims a y a' h run := by
    rw [hm] at run
    cases run
    have address (k : Nat) : (f a).address k = a.address k := by rw [address, base, address]
    refine ⟨⟨⟨fun l p hl => ?_, fun k hk => ?_, ?_⟩, ?_, ?_, ?_, ?_⟩,
      Nat.le_of_eq (by rw [code]), (marks a).1⟩
    · rw [code]
      simp only [address]
      rcases labels a l p hl with hl | here
      · exact h.lands.labels l p hl
      · exact ⟨a.code.size, by omega, here⟩
    · rw [code]
      simp only [address]
      rcases (marks a).2 k hk with hk | here
      · exact h.lands.marks k hk
      · exact ⟨a.code.size, by omega, here⟩
    · simp only [code, address]
      exact h.lands.targets
    · simp only [code]
      exact h.registers
    · simp only [code]
      exact h.free
    · simp only [code, base, stubs]
      exact h.outside
    · simp only [code, base, stubs, address]
      exact h.inside

instance mark (name : String) : Aims G R b ctx (Emit.mark name) :=
  noting (·.mark name) _ (fun _ => rfl) (fun _ => rfl) (fun _ => rfl) (fun _ => ⟨rfl, rfl⟩)
    (fun _ _ _ => .inl) fun _ => ⟨fun _ => Array.mem_push_of_mem _, fun _ hk =>
      (Array.mem_push.mp hk).imp_right (congrArg Prod.snd)⟩

instance comment (text : String) : Aims G R b ctx (Emit.comment text) :=
  noting (·.comment text) _ (fun _ => rfl) (fun _ => rfl) (fun _ => rfl) (fun _ => ⟨rfl, rfl⟩)
    (fun _ _ _ => .inl) fun _ => ⟨fun _ => id, fun _ => .inl⟩

instance newLabel : Aims G R b ctx Emit.newLabel :=
  noting (·.newLabel.2) _ (fun _ => rfl) (fun _ => rfl) (fun _ => rfl) (fun _ => ⟨rfl, rfl⟩)
    (fun a l p hl => by
      rw [Assembly.newLabel, Array.getElem?_push] at hl
      split at hl
      · cases hl
      · exact .inl hl) fun _ => ⟨fun _ => id, fun _ => .inl⟩

instance bindLabel (l : CodeLabel) : Aims G R b ctx (Emit.bind l) :=
  noting (·.bind l) _ (fun _ => rfl) (fun _ => rfl) (fun _ => rfl) (fun _ => ⟨rfl, rfl⟩)
    (fun a k p hk => by
      rw [Assembly.bind, Array.getElem?_setIfInBounds] at hk
      split at hk
      · split at hk
        · cases hk
          exact .inr rfl
        · cases hk
      · exact .inl hk) fun _ => ⟨fun _ => id, fun _ => .inl⟩

end

/-! ### Instructions -/

/-- The address is known to be one of code. -/
class Code (G : UInt64 → Prop) (p : UInt64) : Prop where
  code : G p

/-- The constant is the address of code or of a service. -/
class Called (G : UInt64 → Prop) (n : UInt64) : Prop where
  called : G n ∨ (Service.ofAddress? n).isSome

instance (G : UInt64 → Prop) (n : UInt64) [h : Code G n] : Called G n := ⟨.inl h.code⟩

instance (G : UInt64 → Prop) (s : Service) : Called G s.address :=
  ⟨.inr (by cases s <;> decide)⟩

/-- The register may hold constants. -/
class Varying (r : Register) (R : List Register) : Prop where
  not_mem : r ∉ R

/-- The register never holds a constant. -/
class Handed (r : Register) (R : List Register) : Prop where
  mem : r ∈ R

instance (priority := high) (r : Register) (R : List Register) : Handed r (r :: R) :=
  ⟨List.mem_cons_self⟩

instance (r k : Register) (R : List Register) [h : Handed r R] : Handed r (k :: R) :=
  ⟨List.mem_cons_of_mem k h.mem⟩

/-- An instruction that goes where it should behind any code that is aimed. -/
structure Permits (G : UInt64 → Prop) (R : List Register) (a : Assembly) (i : Instruction Target) :
    Prop where
  target : ∀ p, i.target? = some (.address p) → G p ∨ ∃ k < a.code.size + 1, p = a.address k
  register : ∀ r n, i.register? = some r → Instruction.Carries a.code a.code.size r n →
    G n ∨ (Service.ofAddress? n).isSome
  constant : ∀ r ∈ R, ∀ n, i.constant? ≠ some (r, n)

/-- Code of one instruction. -/
class Emits (G : UInt64 → Prop) (R : List Register) (ctx : CodeContext) (m : Emit Unit) : Prop where
  emits : ∃ i : Assembly → Instruction Target, (∀ a, m ctx a = .ok () (a.emit (i a))) ∧
    ∀ a, Aimed G R true a → Permits G R a (i a)

section
variable {G : UInt64 → Prop} {R : List Register} {b : Bool} {ctx : CodeContext} {α β : Type}

theorem Emits.run {m : Emit Unit} [hm : Emits G R ctx m] {a a' : Assembly} (h : Aimed G R true a)
    (run : m ctx a = .ok () a') : Aimed G R true a' ∧ a'.Lands G a'.code.size ∧
      ∃ i, a' = a.emit i := by
  obtain ⟨i, emitted, permits⟩ := hm.emits
  have hi := permits a h
  rw [emitted] at run
  cases run
  obtain ⟨aimed, lands⟩ :=
    h.emit (T := R) hi.target hi.register fun r hr => ⟨.inl hr, hi.constant r hr⟩
  exact ⟨aimed, lands, i a, rfl⟩

instance (m : Emit Unit) [Emits G R ctx m] : Aims G R true ctx m where
  aims a x a' h run := by
    obtain ⟨aimed, -, i, rfl⟩ := Emits.run h run
    exact ⟨aimed, precedes_emit a i⟩

instance (m : Emit Unit) [Emits G R ctx m] : Closes G R true ctx m where
  closes a x a' h run := by
    obtain ⟨-, lands, i, rfl⟩ := Emits.run h run
    exact ⟨lands, by simp [Assembly.emit]⟩

open Orderly (Absent Going)

/-- An instruction that neither branches nor makes a constant. -/
instance emit (i : Instruction Target) [h₁ : Absent i.target?] [h₂ : Absent i.register?]
    [h₃ : Absent i.constant?] : Emits G R ctx (Emit.emit i) where
  emits := ⟨fun _ => i, fun _ => rfl, fun a _ => ⟨fun p hp => by simp [h₁.absent] at hp,
    fun r n hr => by simp [h₂.absent] at hr, fun r _ n => by simp [h₃.absent]⟩⟩

instance constant (r : Register) (n : UInt64) [h : Varying r R] :
    Emits G R ctx (Emit.emit (.movImm r n)) where
  emits := ⟨fun _ => .movImm r n, fun _ => rfl, fun a _ => ⟨nofun, nofun, by
    rintro k hk m same
    cases same
    exact h.not_mem hk⟩⟩

instance branch (p : UInt64) [h : Code G p] :
    Emits G R ctx (Emit.emit (.branch (.address p))) where
  emits := ⟨fun _ => .branch (.address p), fun _ => rfl, fun a _ => ⟨by
    rintro q ⟨⟩
    exact .inl h.code, nofun, nofun⟩⟩

instance call (p : UInt64) [h : Code G p] :
    Emits G R ctx (Emit.emit (.call (.address p))) where
  emits := ⟨fun _ => .call (.address p), fun _ => rfl, fun a _ => ⟨by
    rintro q ⟨⟩
    exact .inl h.code, nofun, nofun⟩⟩

/-- A branch to a register that never holds a constant. -/
theorem emits_of_handed (i : Instruction Target) (r : Register) [hr : Handed r R]
    (target : i.target? = none) (register : i.register? = some r) (constant : i.constant? = none) :
    Emits G R ctx (Emit.emit i) where
  emits := ⟨fun _ => i, fun _ => rfl, fun a h => ⟨fun p hp => by simp [target] at hp, by
    rintro k n hk carried
    rw [register] at hk
    cases hk
    exact absurd carried (h.free r hr.mem n), fun k _ n => by simp [constant]⟩⟩

instance branchTo (r : Register) [Handed r R] : Emits G R ctx (Emit.emit (.branchTo r)) :=
  emits_of_handed _ r rfl rfl rfl

instance callTo (r : Register) [Handed r R] : Emits G R ctx (Emit.emit (.callTo r)) :=
  emits_of_handed _ r rfl rfl rfl

instance ret (r : Register) [Handed r R] : Emits G R ctx (Emit.emit (.ret r)) :=
  emits_of_handed _ r rfl rfl rfl

instance emitTo (l : CodeLabel) (i : Target → Instruction Target) [hi : Going i] :
    Emits G R ctx (Emit.emitTo l i) where
  emits := by
    refine ⟨fun a => i (a.target l), fun _ => rfl, fun a h => ?_⟩
    have going := hi.going (a.target l)
    obtain ⟨register, constant⟩ := Instruction.none_of_target going
    refine ⟨fun p hp => ?_, by simp [register], by simp [constant]⟩
    rw [going, Option.some.injEq] at hp
    unfold Assembly.target Assembly.labelAddress? at hp
    split at hp
    · next q bound =>
      cases hp
      exact .inr (h.lands.labels l.id _ (Option.join_eq_some_iff.mp bound))
    · cases hp

/-! ### Branches to what was just put into the register -/

/-- The second instruction takes the register that the first one has set. -/
class Follows (G : UInt64 → Prop) (i j : Instruction Target) : Prop where
  target : j.target? = none
  constant : j.constant? = none
  register : ∀ r, j.register? = some r → r ∈ i.renewed ∧
    ∀ n, i.constant? = some (r, n) → G n ∨ (Service.ofAddress? n).isSome

instance (r : Register) (n : UInt64) [h : Called G n] : Follows G (.movImm r n) (.branchTo r) :=
  ⟨rfl, rfl, by rintro k ⟨⟩; exact ⟨List.mem_cons_self, by rintro m ⟨⟩; exact h.called⟩⟩

instance (r : Register) (n : UInt64) [h : Called G n] : Follows G (.movImm r n) (.callTo r) :=
  ⟨rfl, rfl, by rintro k ⟨⟩; exact ⟨List.mem_cons_self, by rintro m ⟨⟩; exact h.called⟩⟩

instance (r : Register) (addr : Address) (w : Width) (signed : Bool) :
    Follows G (.load r addr w signed) (.branchTo r) :=
  ⟨rfl, rfl, by rintro k ⟨⟩; exact ⟨by simp [Instruction.renewed, Instruction.written], nofun⟩⟩

instance (r : Register) (addr : Address) (w : Width) (signed : Bool) :
    Follows G (.load r addr w signed) (.callTo r) :=
  ⟨rfl, rfl, by rintro k ⟨⟩; exact ⟨by simp [Instruction.renewed, Instruction.written], nofun⟩⟩

section
variable {i j : Instruction Target}

/-- What the second instruction renews is not a constant behind the two. -/
theorem pair_run {T : List Register} [hi : Emits G R ctx (Emit.emit i)] [hj : Follows G i j]
    {a a' : Assembly} (h : Aimed G R true a) (free : ∀ r ∈ T, r ∈ R ∨ r ∈ j.renewed)
    (run : (Emit.emit i >>= fun _ => Emit.emit j) ctx a = .ok () a') :
    Aimed G T true a' ∧ a'.Lands G a'.code.size ∧ a.code.size < a'.code.size ∧ Precedes a a' := by
  cases run
  have first := (hi.run h rfl).1
  have size : (a.emit i).code.size = a.code.size + 1 := Array.size_push i
  have register (r : Register) (n : UInt64) (hr : j.register? = some r)
      (carried : Instruction.Carries (a.emit i).code (a.emit i).code.size r n) :
      G n ∨ (Service.ofAddress? n).isSome := by
    obtain ⟨renewed, constant⟩ := hj.register r hr
    rw [size] at carried
    rcases Instruction.carries_push carried with put | ⟨other, -⟩
    · exact constant n put
    · exact absurd renewed other
  obtain ⟨aimed, lands⟩ := first.emit (by simp [hj.target]) register
    fun r hr => ⟨free r hr, by simp [hj.constant]⟩
  refine ⟨aimed, lands, ?_, (precedes_emit a i).trans (precedes_emit _ j)⟩
  have size' : ((a.emit i).emit j).code.size = (a.emit i).code.size + 1 := Array.size_push j
  change a.code.size < ((a.emit i).emit j).code.size
  omega

instance (priority := high) pair [Emits G R ctx (Emit.emit i)] [Follows G i j] :
    Aims G R true ctx (Emit.emit i >>= fun _ => Emit.emit j) where
  aims _ _ _ h run :=
    let ⟨aimed, _, _, precedes⟩ := pair_run h (fun _ => .inl) run
    ⟨aimed, precedes⟩

instance (priority := high) pair_bind [Emits G R ctx (Emit.emit i)] [Follows G i j]
    (f : Unit → Emit β) [∀ x, Aims G R true ctx (f x)] :
    Aims G R true ctx (Emit.emit i >>= fun _ => Emit.emit j >>= f) :=
  inferInstanceAs (Aims G R true ctx ((Emit.emit i >>= fun _ => Emit.emit j) >>= f))

end

/-! ### Lists and stubs -/

instance forM {ι : Type} (xs : List ι) (f : ι → Emit Unit) [∀ x, Aims G R b ctx (f x)] :
    Aims G R b ctx (xs.forM f) := by
  induction xs with
  | nil => exact pure ()
  | cons x xs ih => exact bind (f x) fun _ => xs.forM f

instance mapM {ι : Type} (xs : List ι) (f : ι → Emit β) [∀ x, Aims G R b ctx (f x)] :
    Aims G R b ctx (xs.mapM f) := by
  induction xs with
  | nil => exact pure []
  | cons x xs ih =>
    rw [List.mapM_cons]
    infer_instance

/-- A stub that has been run, with the code in it. -/
theorem of_stub {name : String} {m : Emit α} {x : UInt64 × α} {a a' : Assembly}
    (h : Aimed G R false a) (run : Emit.stub name m ctx a = .ok x a') :
    ∃ a₁ a₂, Aimed G R true a₁ ∧ Precedes a a₁ ∧ a₁.code = a.code ∧ m ctx a₁ = .ok x.2 a₂ ∧
      a'.code = a₂.code ∧ (Aimed G R true a₂ → Aimed G R false a' ∧ Precedes a₂ a' ∧
        (a₂.Lands G a₂.code.size → a'.Lands G a'.code.size)) := by
  obtain ⟨closed, tiled⟩ := h.outside rfl
  let a₁ : Assembly := { a with openStub := some (name, a.pc) }
  have start : a.beginStub name = .ok a₁ := by simp [beginStub, closed, a₁]
  have aimed : Aimed G R true a₁ := ⟨h.lands.congr rfl rfl rfl rfl, h.registers, h.free,
    (absurd · (by decide)), fun _ => ⟨name, a.code.size, rfl, Nat.le_refl _, tiled⟩⟩
  refine ⟨a₁, ?_⟩
  unfold Emit.stub at run
  obtain ⟨_, _, first, run⟩ := run_of_bind run
  cases first
  obtain ⟨_, _, first, run⟩ := run_of_bind run
  cases first
  simp only [start] at run
  obtain ⟨_, _, first, run⟩ := run_of_bind run
  cases first
  obtain ⟨y, a₂, body, run⟩ := run_of_bind run
  obtain ⟨_, _, first, run⟩ := run_of_bind run
  cases first
  refine ⟨a₂, aimed, ⟨Nat.le_refl _, fun _ => id⟩, rfl, ?_⟩
  cases stop : a₂.endStub with
  | error e =>
    simp only [stop] at run
    cases run
  | ok a₃ =>
    simp only [stop] at run
    obtain ⟨_, _, first, run⟩ := run_of_bind run
    cases first
    cases run
    have code : a'.code = a₂.code := by
      unfold endStub at stop
      split at stop
      · cases stop
      · cases stop
        rfl
    refine ⟨body, code, fun aimed₂ => ?_⟩
    obtain ⟨name', j, opened, le, tiled'⟩ := aimed₂.inside rfl
    rw [endStub, opened] at stop
    cases stop
    refine ⟨⟨aimed₂.lands.congr rfl rfl rfl rfl, aimed₂.registers, aimed₂.free,
      fun _ => ⟨rfl, ?_⟩, (absurd · (by decide))⟩, ⟨Nat.le_refl _, fun _ => id⟩,
      fun lands => lands.congr rfl rfl rfl rfl⟩
    rw [Array.toList_push]
    exact tiled'.snoc name' le

instance stub (name : String) (m : Emit α) [hm : Aims G R true ctx m] :
    Aims G R false ctx (Emit.stub name m) where
  aims a x a' h run := by
    obtain ⟨a₁, a₂, aimed, before, -, body, -, after⟩ := of_stub h run
    obtain ⟨aimed₂, inside⟩ := hm.aims a₁ x.2 a₂ aimed body
    obtain ⟨aimed', behind, -⟩ := after aimed₂
    exact ⟨aimed', before.trans (inside.trans behind)⟩

end
end Aims

namespace Closes

section
variable {G : UInt64 → Prop} {R : List Register} {b : Bool} {ctx : CodeContext} {α β : Type}

instance (priority := low) bind (m : Emit α) (f : α → Emit β) [hm : Aims G R b ctx m]
    [hf : ∀ x, Closes G R b ctx (f x)] : Closes G R b ctx (m >>= f) where
  closes a y a' h run := by
    obtain ⟨x, a₁, -, h₁, precedes, run'⟩ := Aims.split h run
    obtain ⟨h', lt⟩ := (hf x).closes a₁ y a' h₁ run'
    exact ⟨h', Nat.lt_of_le_of_lt precedes.size lt⟩

/-- A result does not add to the code. -/
instance bind_pure (m : Emit α) (f : α → β) [hm : Closes G R b ctx m] :
    Closes G R b ctx (m >>= fun x => Pure.pure (f x)) where
  closes a y a' h run := by
    obtain ⟨x, a₁, run, run'⟩ := run_of_bind run
    cases run'
    exact hm.closes a x a' h run

instance read_bind (f : CodeContext → Emit β) [h : Closes G R b ctx (f ctx)] :
    Closes G R b ctx (read >>= f) := ⟨h.closes⟩

instance settings_bind (f : Settings → Emit β) [h : Closes G R b ctx (f ctx.settings)] :
    Closes G R b ctx (Emit.settings >>= f) := ⟨h.closes⟩

instance ite (c : Prop) [Decidable c] (m m' : Emit α) [h : Closes G R b ctx m]
    [h' : Closes G R b ctx m'] : Closes G R b ctx (if c then m else m') := by
  split
  · exact h
  · exact h'

instance (priority := high) pair {i j : Instruction Target} [Aims.Emits G R ctx (Emit.emit i)]
    [Aims.Follows G i j] : Closes G R true ctx (Emit.emit i >>= fun _ => Emit.emit j) where
  closes _ _ _ h run :=
    let ⟨_, lands, lt, _⟩ := Aims.pair_run h (fun _ => .inl) run
    ⟨lands, lt⟩

instance (priority := high) pair_bind {i j : Instruction Target}
    [Aims.Emits G R ctx (Emit.emit i)] [Aims.Follows G i j] (f : Unit → Emit β)
    [∀ x, Closes G R true ctx (f x)] :
    Closes G R true ctx (Emit.emit i >>= fun _ => Emit.emit j >>= f) :=
  inferInstanceAs (Closes G R true ctx ((Emit.emit i >>= fun _ => Emit.emit j) >>= f))

instance stub (name : String) (m : Emit α) [ha : Aims G R true ctx m] [hm : Closes G R true ctx m] :
    Closes G R false ctx (Emit.stub name m) where
  closes a x a' h run := by
    obtain ⟨a₁, a₂, aimed, before, -, body, -, after⟩ := Aims.of_stub h run
    obtain ⟨aimed₂, -⟩ := ha.aims a₁ x.2 a₂ aimed body
    obtain ⟨lands, lt⟩ := hm.closes a₁ x.2 a₂ aimed body
    obtain ⟨-, behind, lands'⟩ := after aimed₂
    exact ⟨lands' lands, Nat.lt_of_le_of_lt before.size (Nat.lt_of_lt_of_le lt behind.size)⟩

end
end Closes
end TemplateVm
