import TemplateVm.Proofs.Layout.Labels

set_option autoImplicit false

/-!
# Where code is placed

`Lays` says that finished code holds what a piece of emitting code emits, from one address up to
another. It is taken apart along the emitting code: each instruction gives a fact about what is
fetched, and each binding of a label a fact about where the label is.
-/
namespace TemplateVm

/-- The instruction is fetched at an address where code belongs. -/
def CodeCache.Fetches (c : CodeCache) (p : UInt64) (i : Instruction UInt64) : Prop :=
  c.instruction? p = some i ∧ p < Place.codeLimit

/-- Installed code with the places of the labels of one of its blobs. -/
structure Finished where
  code : CodeCache
  place : CodeLabel → UInt64

/-- The finished code begins with what is assembled so far. -/
structure Assembly.Within (F : Finished) (a : Assembly) : Prop where
  fetch : ∀ (k : Nat) (i : Instruction Target), a.code[k]? = some i →
    F.code.Fetches (a.base + k.toUInt64 * Instruction.size) (i.placed F.place)
  bound : ∀ (l : CodeLabel) (p : UInt64), a.labels[l.id]? = some (some p) → F.place l = p

open Assembly

section
variable {F : Finished} {ctx : CodeContext} {b : Bool} {K S T U : List CodeLabel} {n k : Nat}
  {α β : Type} {a a' : Assembly} {p q r : UInt64} {x : α} {y : β}

theorem Assembly.Within.of_grown (w : Within F a') (h : Ready ctx b K S a)
    (g : Grown S T n a a') : Within F a where
  fetch j i hi := by
    obtain ⟨added, hc, -⟩ := g.code
    have hj : j < a.code.size := (Array.getElem?_eq_some_iff.mp hi).1
    rw [← g.base]
    refine w.fetch j i ?_
    rw [hc, ← Array.getElem?_toList] at *
    rw [← hi]
    simp [List.getElem?_append_left, hj]
  bound l p hl := by
    have lt : l.id < a.labels.size := by
      refine Nat.lt_of_not_le fun hn => ?_
      rw [Array.getElem?_eq_none hn] at hl
      cases hl
    refine w.bound l p ((g.kept l lt fun hs => ?_).trans hl)
    rw [h.unbound l hs] at hl
    cases hl

/-- The finished code holds the code from `p` up to `q`, and emitting it gives `x`. -/
def Lays (F : Finished) (ctx : CodeContext) (b : Bool) (K S : List CodeLabel) (m : Emit α)
    (p q : UInt64) (x : α) : Prop :=
  ∃ a a', a.pc = p ∧ a'.pc = q ∧ Ready ctx b K S a ∧ m ctx a = .ok x a' ∧ Within F a'

namespace Lays

theorem split {m : Emit α} {f : α → Emit β} [hm : Orderly ctx b K S U n m]
    [hf : ∀ x, Orderly ctx b K U T k (f x)] (h : Lays F ctx b K S (m >>= f) p q y) :
    ∃ x r, Lays F ctx b K S m p r x ∧ Lays F ctx b K U (f x) r q y := by
  obtain ⟨a, a', hp, hq, ready, run, within⟩ := h
  obtain ⟨x, a₁, run₁, g⟩ := hm.runs a ready
  have ready₁ := g.ready ready hm.sub
  obtain ⟨y', a₂, run₂, g'⟩ := (hf x).runs a₁ ready₁
  have same := (run_bind run₁).symm.trans run
  rw [run₂] at same
  cases same
  exact ⟨x, a₁.pc, ⟨a, a₁, hp, rfl, ready, run₁, within.of_grown ready₁ g'⟩,
    ⟨a₁, a', rfl, hq, ready₁, run₂, within⟩⟩

theorem ended {z : α} (h : Lays F ctx b K S (pure x) p q z) : q = p ∧ z = x := by
  obtain ⟨a, a', rfl, rfl, -, run, -⟩ := h
  cases run
  exact ⟨rfl, rfl⟩

/-! ## Code without instructions -/

theorem pc (h : Lays F ctx b K S Emit.pc p q r) : q = p ∧ r = p := by
  obtain ⟨a, a', rfl, rfl, -, run, -⟩ := h
  cases run
  exact ⟨rfl, rfl⟩

theorem pc_bind {f : UInt64 → Emit β} [∀ r, Orderly ctx b K S T n (f r)]
    (h : Lays F ctx b K S (Emit.pc >>= f) p q y) : Lays F ctx b K S (f p) p q y := by
  obtain ⟨x, r, h₁, h₂⟩ := h.split
  obtain ⟨rfl, rfl⟩ := h₁.pc
  exact h₂

theorem read_bind {f : CodeContext → Emit β} (h : Lays F ctx b K S (read >>= f) p q y) :
    Lays F ctx b K S (f ctx) p q y := h

theorem settings_bind {f : Settings → Emit β}
    (h : Lays F ctx b K S (Emit.settings >>= f) p q y) : Lays F ctx b K S (f ctx.settings) p q y :=
  h

theorem comment_bind {text : String} {f : Unit → Emit β} [∀ u, Orderly ctx b K S T n (f u)]
    (h : Lays F ctx b K S (Emit.comment text >>= f) p q y) : Lays F ctx b K S (f ()) p q y := by
  obtain ⟨⟨⟩, r, ⟨a, a', rfl, rfl, -, run, -⟩, h₂⟩ := h.split
  cases run
  exact h₂

/-! ## Instructions -/

theorem pc_succ (a : Assembly) (i : Instruction Target) : (a.emit i).pc = a.pc + 4 := by
  have size : (a.emit i).code.size.toUInt64 = a.code.size.toUInt64 + 1 := by
    simp only [Assembly.emit, Array.size_push]
    exact UInt64.ofNat_add _ _
  rw [Assembly.pc, size, UInt64.add_mul, ← UInt64.add_assoc]
  rfl

theorem emitted {i : Instruction Target} (w : Within F (a.emit i)) :
    F.code.Fetches a.pc (i.placed F.place) :=
  w.fetch a.code.size i (by simp [Assembly.emit])

theorem emit {i : Instruction Target} (h : Lays F ctx b K S (Emit.emit i) p q ()) :
    F.code.Fetches p (i.placed F.place) ∧ q = p + 4 := by
  obtain ⟨a, a', rfl, rfl, -, run, within⟩ := h
  cases run
  exact ⟨emitted within, pc_succ a i⟩

theorem emitTo {l : CodeLabel} {i : Target → Instruction Target} [hi : Orderly.Going i]
    (h : Lays F ctx b K S (Emit.emitTo l i) p q ()) :
    F.code.Fetches p ((i (.address (F.place l))).placed F.place) ∧ q = p + 4 := by
  obtain ⟨a, a', rfl, rfl, -, run, within⟩ := h
  cases run
  refine ⟨?_, pc_succ a _⟩
  have target : (a.target l).resolve F.place = F.place l := by
    unfold Assembly.target Assembly.labelAddress?
    cases hl : a.labels[l.id]? with
    | none => rfl
    | some o =>
      cases o with
      | none => rfl
      | some p => exact (within.bound l p hl).symm
  rw [← target, ← hi.placed]
  exact emitted within

theorem emit_bind {i : Instruction Target} {f : Unit → Emit β}
    [Orderly ctx b K S S n (Emit.emit i)] [∀ u, Orderly ctx b K S T k (f u)]
    (h : Lays F ctx b K S (Emit.emit i >>= f) p q y) :
    F.code.Fetches p (i.placed F.place) ∧ Lays F ctx b K S (f ()) (p + 4) q y := by
  obtain ⟨⟨⟩, r, h₁, h₂⟩ := h.split
  obtain ⟨hi, rfl⟩ := h₁.emit
  exact ⟨hi, h₂⟩

theorem emitTo_bind {l : CodeLabel} {i : Target → Instruction Target} {f : Unit → Emit β}
    [hi : Orderly.Going i] [Orderly ctx b K S S n (Emit.emitTo l i)]
    [∀ u, Orderly ctx b K S T k (f u)]
    (h : Lays F ctx b K S (Emit.emitTo l i >>= f) p q y) :
    F.code.Fetches p ((i (.address (F.place l))).placed F.place) ∧
      Lays F ctx b K S (f ()) (p + 4) q y := by
  obtain ⟨⟨⟩, r, h₁, h₂⟩ := h.split
  obtain ⟨hi, rfl⟩ := h₁.emitTo
  exact ⟨hi, h₂⟩

/-! ## Labels -/

theorem newLabel_bind {f : CodeLabel → Emit β}
    (h : Lays F ctx b K S (Emit.newLabel >>= f) p q y) :
    ∃ l, Lays F ctx b (l :: K) (l :: S) (f l) p q y := by
  obtain ⟨a, a', rfl, rfl, ready, run, within⟩ := h
  exact ⟨⟨a.labels.size⟩, a.newLabel.2, a', rfl, rfl, Orderly.ready_newLabel ready, run, within⟩

theorem bind {l : CodeLabel} [ht : Taken l S T] (h : Lays F ctx b K S (Emit.bind l) p q ()) :
    F.place l = p ∧ q = p := by
  obtain ⟨a, a', rfl, rfl, ready, run, within⟩ := h
  cases run
  have lt : l.id < a.labels.size := ready.lt (ht.perm.mem_iff.mpr List.mem_cons_self)
  exact ⟨within.bound l a.pc (by simp [Assembly.bind, lt]), rfl⟩

theorem bind_bind {l : CodeLabel} {f : Unit → Emit β} [Taken l S T]
    [∀ u, Orderly ctx b K T U k (f u)] (h : Lays F ctx b K S (Emit.bind l >>= f) p q y) :
    F.place l = p ∧ Lays F ctx b K T (f ()) p q y := by
  obtain ⟨⟨⟩, r, h₁, h₂⟩ := h.split
  obtain ⟨hl, rfl⟩ := h₁.bind
  exact ⟨hl, h₂⟩

/-! ## Control structures -/

theorem ite_pos {c : Prop} [Decidable c] {m m' : Emit α} (hc : c)
    (h : Lays F ctx b K S (if c then m else m') p q x) : Lays F ctx b K S m p q x := by
  rwa [if_pos hc] at h

theorem ite_neg {c : Prop} [Decidable c] {m m' : Emit α} (hc : ¬c)
    (h : Lays F ctx b K S (if c then m else m') p q x) : Lays F ctx b K S m' p q x := by
  rwa [if_neg hc] at h

theorem stub {name : String} {m : Emit α} {r : UInt64} [hm : Orderly ctx true K S T n m]
    (h : Lays F ctx false K S (Emit.stub name m) p q (r, x)) :
    r = p ∧ Lays F ctx true K S m p q x := by
  obtain ⟨a, a', rfl, rfl, ready, run, within⟩ := h
  have closed := ready.stub rfl
  let a₁ : Assembly := { a with openStub := some (name, a.pc) }
  have ready₁ : Ready ctx true K S a₁ :=
    ⟨ready.known, ready.popFrame, ready.unbound, ready.nodup, (absurd · (by decide))⟩
  obtain ⟨y, a₂, run₁, g⟩ := hm.runs a₁ ready₁
  have start : a.beginStub name = .ok a₁ := by simp [beginStub, closed, a₁]
  have stop : a₂.endStub =
      .ok { a₂ with openStub := none, stubs := a₂.stubs.push ⟨name, a.pc, a₂.pc⟩ } := by
    simp [endStub, g.openStub, a₁]
  have same := (Orderly.stub_run start run₁ stop).symm.trans run
  cases same
  exact ⟨rfl, a₁, a₂, rfl, rfl, ready₁, run₁, within.fetch, within.bound⟩

theorem stub_bind {name : String} {m : Emit α} {f : UInt64 × α → Emit β}
    [Orderly ctx true K S U n m] [∀ x, Orderly ctx false K U T k (f x)]
    (h : Lays F ctx false K S (Emit.stub name m >>= f) p q y) :
    ∃ x r, Lays F ctx true K S m p r x ∧ Lays F ctx false K U (f (p, x)) r q y := by
  obtain ⟨⟨s, x⟩, r, h₁, h₂⟩ := h.split
  obtain ⟨rfl, h₁⟩ := h₁.stub
  exact ⟨x, r, h₁, h₂⟩

/-- The code of each item of a list is placed somewhere, with its result in the same place. -/
theorem mapM {ι : Type} [Nonempty β] {f : ι → Emit β} [hf : ∀ x, Orderly ctx b K S S n (f x)]
    {xs : List ι} {ys : List β} (h : Lays F ctx b K S (xs.mapM f) p q ys) :
    ys.length = xs.length ∧ ∀ (j : Nat) (x : ι), xs[j]? = some x →
      ∃ y r t, ys[j]? = some y ∧ Lays F ctx b K S (f x) r t y := by
  induction xs generalizing p q ys with
  | nil =>
    obtain ⟨-, rfl⟩ := h.ended
    exact ⟨rfl, by simp⟩
  | cons x xs ih =>
    rw [List.mapM_cons] at h
    obtain ⟨y, r, h₁, h⟩ := h.split
    obtain ⟨ys, t, h₂, h⟩ := h.split
    obtain ⟨-, rfl⟩ := h.ended
    obtain ⟨length, each⟩ := ih h₂
    refine ⟨by simp [length], fun j z hz => ?_⟩
    cases j with
    | zero =>
      simp only [List.getElem?_cons_zero, Option.some.injEq] at hz
      exact ⟨y, p, r, rfl, hz ▸ h₁⟩
    | succ j => exact each j z (by simpa using hz)

/-- The code of the items of a list follows one upon the other. -/
theorem forM_cons {ι : Type} {f : ι → Emit Unit} [o : ∀ x, Orderly ctx b K S S n (f x)] {x : ι}
    {xs : List ι} (h : Lays F ctx b K S ((x :: xs).forM f) p q ()) :
    ∃ r, Lays F ctx b K S (f x) p r () ∧ Lays F ctx b K S (xs.forM f) r q () := by
  have rest : Orderly ctx b K S S (xs.length * n) (xs.forM f) := Orderly.forM xs f
  obtain ⟨⟨⟩, r, first, h⟩ := Lays.split (m := f x) (f := fun _ => xs.forM f) h
  exact ⟨r, first, h⟩

end Lays
end
end TemplateVm
