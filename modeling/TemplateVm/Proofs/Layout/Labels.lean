import TemplateVm.Codegen.Emit

set_option autoImplicit false

/-!
# The label discipline

Emitting code never takes an instruction back, and it binds every label that it creates exactly
once. `Orderly` says this of a piece of code: it never fails, its instructions come behind those
that are there, the labels in `unbound` are bound except those in `left`, and no other label that
was there before changes. Instances follow the shape of the code, so that a sequence made of
orderly pieces is orderly.
-/
namespace TemplateVm

/-- The address that a target stands for once every label has its place. -/
def Target.resolve (place : CodeLabel → UInt64) : Target → UInt64
  | .address p => p
  | .pending l => place l

/-- The instruction with addresses for labels. -/
def Instruction.placed (place : CodeLabel → UInt64) (i : Instruction Target) :
    Instruction UInt64 :=
  match i.mapTarget fun t => (.ok (t.resolve place) : Except Empty UInt64) with
  | .ok i => i
  | .error e => e.elim

/-- The label is in scope. -/
class Known (l : CodeLabel) (known : List CodeLabel) : Prop where
  mem : l ∈ known

instance (priority := high) (l : CodeLabel) (known : List CodeLabel) : Known l (l :: known) :=
  ⟨List.mem_cons_self⟩

instance (l k : CodeLabel) (known : List CodeLabel) [h : Known l known] : Known l (k :: known) :=
  ⟨List.mem_cons_of_mem k h.mem⟩

/-- The labels of the list without one of them. -/
class Taken (l : CodeLabel) (unbound : List CodeLabel) (rest : outParam (List CodeLabel)) :
    Prop where
  perm : unbound.Perm (l :: rest)
  sub : rest.Sublist unbound

instance (priority := high) (l : CodeLabel) (unbound : List CodeLabel) :
    Taken l (l :: unbound) unbound := ⟨.refl _, List.sublist_cons_self l unbound⟩

instance (l k : CodeLabel) (unbound rest : List CodeLabel) [h : Taken l unbound rest] :
    Taken l (k :: unbound) (k :: rest) := ⟨(h.perm.cons k).trans (.swap l k rest), h.sub.cons_cons k⟩

namespace Assembly

/-- The assembly has the labels in scope, and those in `open` are still to be bound. Only code
    outside of a stub can open one. -/
structure Ready (ctx : CodeContext) (inStub : Bool) (scope pending : List CodeLabel)
    (a : Assembly) : Prop where
  known : ∀ l ∈ scope, l.id < a.labels.size
  popFrame : ∀ l ∈ ctx.popFrame, l.id < a.labels.size
  unbound : ∀ l ∈ pending, a.labels[l.id]? = some none
  nodup : pending.Nodup
  stub : inStub = false → a.openStub = none

/-- What at most `n` instructions and the binding of labels make of an assembly. -/
structure Grown (pending rest : List CodeLabel) (n : Nat) (a a' : Assembly) : Prop where
  base : a'.base = a.base
  openStub : a'.openStub = a.openStub
  code : ∃ added : List (Instruction Target), a'.code = a.code ++ added ∧ added.length ≤ n ∧
    ∀ i ∈ added, ∀ l, i.target? = some (.pending l) → l.id < a'.labels.size
  size : a.labels.size ≤ a'.labels.size
  kept : ∀ l : CodeLabel, l.id < a.labels.size → l ∉ pending →
    a'.labels[l.id]? = a.labels[l.id]?
  left : ∀ l ∈ rest, a'.labels[l.id]? = some none
  bound : ∀ l ∈ pending, l ∉ rest → ∃ p, a'.labels[l.id]? = some (some p)
  fresh : ∀ l : CodeLabel, a.labels.size ≤ l.id → l.id < a'.labels.size →
    ∃ p, a'.labels[l.id]? = some (some p)

section
variable {ctx : CodeContext} {b : Bool} {K S T U : List CodeLabel} {n k : Nat} {a a' a'' : Assembly}

theorem Ready.lt (h : Ready ctx b K S a) {l : CodeLabel} (hl : l ∈ S) : l.id < a.labels.size := by
  have hu := h.unbound l hl
  refine Nat.lt_of_not_le fun hn => ?_
  rw [Array.getElem?_eq_none hn] at hu
  cases hu

theorem Grown.refl (h : Ready ctx b K S a) : Grown S S 0 a a where
  base := rfl
  openStub := rfl
  code := ⟨[], by simp, Nat.le_refl 0, by simp⟩
  size := Nat.le_refl _
  kept _ _ _ := rfl
  left := h.unbound
  bound l hl hn := absurd hl hn
  fresh l h1 h2 := by omega

theorem Grown.ready (h : Ready ctx b K S a) (g : Grown S T n a a') (hs : T.Sublist S) :
    Ready ctx b K T a' where
  known l hl := Nat.lt_of_lt_of_le (h.known l hl) g.size
  popFrame l hl := Nat.lt_of_lt_of_le (h.popFrame l hl) g.size
  unbound := g.left
  nodup := h.nodup.sublist hs
  stub hb := g.openStub.trans (h.stub hb)

theorem Grown.trans (h : Ready ctx b K S a) (g : Grown S T n a a') (g' : Grown T U k a' a'')
    (hs : T.Sublist S) : Grown S U (n + k) a a'' where
  base := g'.base.trans g.base
  openStub := g'.openStub.trans g.openStub
  code := by
    obtain ⟨i, hi, hn, ht⟩ := g.code
    obtain ⟨j, hj, hk, ht'⟩ := g'.code
    refine ⟨i ++ j, Array.toList_inj.mp (by simp [hj, hi]), by simp; omega, ?_⟩
    intro x hx l hl
    rcases List.mem_append.mp hx with hx | hx
    · exact Nat.lt_of_lt_of_le (ht x hx l hl) g'.size
    · exact ht' x hx l hl
  size := Nat.le_trans g.size g'.size
  kept l hl hn := by
    rw [g'.kept l (Nat.lt_of_lt_of_le hl g.size) (fun ht => hn (hs.subset ht)), g.kept l hl hn]
  left := g'.left
  bound l hl hn := by
    by_cases ht : l ∈ T
    · exact g'.bound l ht hn
    · obtain ⟨p, hp⟩ := g.bound l hl ht
      have lt : l.id < a'.labels.size := Nat.lt_of_lt_of_le (h.lt hl) g.size
      exact ⟨p, (g'.kept l lt ht).trans hp⟩
  fresh l h1 h2 := by
    by_cases lt : l.id < a'.labels.size
    · obtain ⟨p, hp⟩ := g.fresh l h1 lt
      refine ⟨p, (g'.kept l lt fun ht => ?_).trans hp⟩
      exact absurd (h.lt (hs.subset ht)) (by omega)
    · exact g'.fresh l (Nat.le_of_not_lt lt) h2

theorem Grown.mono (g : Grown S T n a a') (h : n ≤ k) : Grown S T k a a' :=
  { g with code := let ⟨i, hi, hn, ht⟩ := g.code; ⟨i, hi, Nat.le_trans hn h, ht⟩ }

end
end Assembly

open Assembly

theorem run_bind {ctx : CodeContext} {α β : Type} {m : Emit α} {f : α → Emit β} {x : α}
    {a a' : Assembly} (h : m ctx a = .ok x a') : (m >>= f) ctx a = f x ctx a' := by
  change EStateM.bind (m ctx) (fun x => f x ctx) a = _
  simp only [EStateM.bind, h]

/-- Code that grows every assembly in which its labels are there. -/
class Orderly (ctx : CodeContext) (inStub : Bool) (scope pending : List CodeLabel)
    (rest : outParam (List CodeLabel)) (n : outParam Nat) {α : Type} (m : Emit α) : Prop where
  sub : rest.Sublist pending
  runs : ∀ a, Ready ctx inStub scope pending a →
    ∃ x a', m ctx a = .ok x a' ∧ Grown pending rest n a a'

namespace Orderly

section
variable {ctx : CodeContext} {b : Bool} {K S T U : List CodeLabel} {n k : Nat} {α β : Type}

instance pure (x : α) : Orderly ctx b K S S 0 (Pure.pure x : Emit α) where
  sub := .refl S
  runs a h := ⟨x, a, rfl, .refl h⟩

instance (priority := low) bind [Nonempty α] (m : Emit α) (f : α → Emit β)
    [hm : Orderly ctx b K S T n m] [hf : ∀ x, Orderly ctx b K T U k (f x)] :
    Orderly ctx b K S U (n + k) (m >>= f) where
  sub := (hf (Classical.choice inferInstance)).sub.trans hm.sub
  runs a h := by
    obtain ⟨x, a', run, g⟩ := hm.runs a h
    obtain ⟨y, a'', run', g'⟩ := (hf x).runs a' (g.ready h hm.sub)
    exact ⟨y, a'', (run_bind run).trans run', g.trans h g' hm.sub⟩

theorem upto {m : Emit α} (h : Orderly ctx b K S T n m) (hn : n ≤ k) : Orderly ctx b K S T k m where
  sub := h.sub
  runs a ha :=
    let ⟨x, a', run, g⟩ := h.runs a ha
    ⟨x, a', run, g.mono hn⟩

/-- Code without effect on the assembly. -/
theorem reading {m : Emit α} (x : Assembly → α) (h : ∀ a, m ctx a = .ok (x a) a) :
    Orderly ctx b K S S 0 m where
  sub := .refl S
  runs a ha := ⟨x a, a, h a, .refl ha⟩

instance pc : Orderly ctx b K S S 0 Emit.pc := reading Assembly.pc fun _ => rfl

instance get : Orderly ctx b K S S 0 (MonadState.get : Emit Assembly) := reading id fun _ => rfl

/-- What depends on the context is orderly if it is in this context. -/
instance read_bind (f : CodeContext → Emit β) [h : Orderly ctx b K S T n (f ctx)] :
    Orderly ctx b K S T n (read >>= f) := ⟨h.sub, h.runs⟩

instance settings_bind (f : Settings → Emit β) [h : Orderly ctx b K S T n (f ctx.settings)] :
    Orderly ctx b K S T n (Emit.settings >>= f) := ⟨h.sub, h.runs⟩

instance ite (c : Prop) [Decidable c] (m m' : Emit α) [h : Orderly ctx b K S T n m]
    [h' : Orderly ctx b K S T k m'] : Orderly ctx b K S T (max n k) (if c then m else m') where
  sub := h.sub
  runs a ha := by
    by_cases hc : c
    · obtain ⟨x, a', run, g⟩ := h.runs a ha
      exact ⟨x, a', by rw [if_pos hc, run], g.mono (Nat.le_max_left n k)⟩
    · obtain ⟨x, a', run, g⟩ := h'.runs a ha
      exact ⟨x, a', by rw [if_neg hc, run], g.mono (Nat.le_max_right n k)⟩

instance whenM (c : Bool) (m : Emit Unit) [h : Orderly ctx b K S S n m] :
    Orderly ctx b K S S n (Emit.whenM c m) :=
  upto (ite (c = true) m (Pure.pure ())) (by simp)

/-- Code that leaves the instructions and labels as they are. -/
theorem noting {m : Emit Unit} (f : Assembly → Assembly) (h : ∀ a, m ctx a = .ok () (f a))
    (hbase : ∀ a, (f a).base = a.base) (hstub : ∀ a, (f a).openStub = a.openStub)
    (hcode : ∀ a, (f a).code = a.code) (hlabels : ∀ a, (f a).labels = a.labels) :
    Orderly ctx b K S S 0 m where
  sub := .refl S
  runs a ha := by
    refine ⟨(), f a, h a, ⟨hbase a, hstub a, ?_, ?_, ?_, ?_, ?_, ?_⟩⟩
    · exact ⟨[], by simp [hcode], Nat.le_refl 0, by simp⟩
    · exact Nat.le_of_eq (congrArg Array.size (hlabels a)).symm
    · intro l _ _
      rw [hlabels]
    · rw [hlabels]
      exact ha.unbound
    · exact fun l hl hn => absurd hl hn
    · intro l h1 h2
      rw [hlabels] at h2
      omega

instance mark (name : String) : Orderly ctx b K S S 0 (Emit.mark name) :=
  noting (·.mark name) (fun _ => rfl) (fun _ => rfl) (fun _ => rfl) (fun _ => rfl) fun _ => rfl

instance comment (text : String) : Orderly ctx b K S S 0 (Emit.comment text) :=
  noting (·.comment text) (fun _ => rfl) (fun _ => rfl) (fun _ => rfl) (fun _ => rfl) fun _ => rfl

/-- One more instruction, which goes to a label in scope if it goes to one that is not bound. -/
theorem emitting {m : Emit Unit} (i : Assembly → Instruction Target)
    (h : ∀ a, m ctx a = .ok () (a.emit (i a)))
    (hi : ∀ a l, Ready ctx b K S a → (i a).target? = some (.pending l) → l.id < a.labels.size) :
    Orderly ctx b K S S 1 m where
  sub := .refl S
  runs a ha := by
    refine ⟨(), a.emit (i a), h a, ⟨rfl, rfl, ?_, Nat.le_refl _, fun _ _ _ => rfl, ha.unbound,
      fun l hl hn => absurd hl hn, ?_⟩⟩
    · refine ⟨[i a], by simp [Assembly.emit], Nat.le_refl 1, ?_⟩
      intro x hx l hl
      rw [List.mem_singleton.mp hx] at hl
      exact hi a l ha hl
    · intro l h1 (h2 : l.id < a.labels.size)
      omega

/-- There is nothing in the option. -/
class Absent {α : Type} (o : Option α) : Prop where
  absent : o = none

instance {α : Type} : Absent (none : Option α) := ⟨rfl⟩

instance emit (i : Instruction Target) [h : Absent i.target?] :
    Orderly ctx b K S S 1 (Emit.emit i) :=
  emitting (fun _ => i) (fun _ => rfl) fun _ l _ hl => by simp [h.absent] at hl

theorem emit_address (i : Instruction Target) (p : UInt64)
    (h : i.target? = some (.address p)) : Orderly ctx b K S S 1 (Emit.emit i) :=
  emitting (fun _ => i) (fun _ => rfl) fun _ l _ hl => by simp [h] at hl

instance branch (p : UInt64) : Orderly ctx b K S S 1 (Emit.emit (.branch (.address p))) :=
  emit_address _ p rfl

instance call (p : UInt64) : Orderly ctx b K S S 1 (Emit.emit (.call (.address p))) :=
  emit_address _ p rfl

theorem emitTo_known (l : CodeLabel) (i : Target → Instruction Target)
    (hi : ∀ t, (i t).target? = some t) (hl : ∀ a, Ready ctx b K S a → l.id < a.labels.size) :
    Orderly ctx b K S S 1 (Emit.emitTo l i) := by
  refine emitting (fun a => i (a.target l)) (fun _ => rfl) fun a k ha hk => ?_
  rw [hi, Option.some.injEq] at hk
  have : k = l := by
    unfold target at hk
    split at hk <;> simp at hk
    exact hk.symm
  exact this ▸ hl a ha

/-- What the instruction goes to is its argument. -/
class Going (i : Target → Instruction Target) : Prop where
  going : ∀ t, (i t).target? = some t
  placed : ∀ place t, (i t).placed place = (i (.address (t.resolve place))).placed place

instance (r : Register) : Going (.adr r) := ⟨fun _ => rfl, fun _ _ => rfl⟩
instance : Going .branch := ⟨fun _ => rfl, fun _ _ => rfl⟩
instance (c : Condition) : Going (.branchIf c) := ⟨fun _ => rfl, fun _ _ => rfl⟩
instance (r : Register) : Going (.branchZero r) := ⟨fun _ => rfl, fun _ _ => rfl⟩
instance (r : Register) : Going (.branchNonzero r) := ⟨fun _ => rfl, fun _ _ => rfl⟩
instance (r : Register) (bit : UInt8) : Going (.branchBitClear r bit) :=
  ⟨fun _ => rfl, fun _ _ => rfl⟩
instance (r : Register) (bit : UInt8) : Going (.branchBitSet r bit) :=
  ⟨fun _ => rfl, fun _ _ => rfl⟩

instance emitTo (l : CodeLabel) (i : Target → Instruction Target) [hl : Known l K]
    [hi : Going i] : Orderly ctx b K S S 1 (Emit.emitTo l i) :=
  emitTo_known l i hi.going fun _ h => h.known l hl.mem

theorem exists_above (ls : List CodeLabel) : ∃ n, ∀ l ∈ ls, l.id < n := by
  induction ls with
  | nil => exact ⟨0, by simp⟩
  | cons k ls ih =>
    obtain ⟨n, hn⟩ := ih
    refine ⟨max n (k.id + 1), fun l hl => ?_⟩
    rcases List.mem_cons.mp hl with rfl | hl
    · omega
    · exact Nat.lt_of_lt_of_le (hn l hl) (Nat.le_max_left _ _)

theorem ready_newLabel {a : Assembly} (h : Ready ctx b K S a) :
    Ready ctx b (⟨a.labels.size⟩ :: K) (⟨a.labels.size⟩ :: S) a.newLabel.2 where
  known l hl := by
    rcases List.mem_cons.mp hl with rfl | hl
    · simp [Assembly.newLabel]
    · have := h.known l hl
      simp [Assembly.newLabel]
      omega
  popFrame l hl := by
    have := h.popFrame l hl
    simp [Assembly.newLabel]
    omega
  unbound l hl := by
    rcases List.mem_cons.mp hl with rfl | hl
    · simp [Assembly.newLabel]
    · have := h.lt hl
      simpa [Assembly.newLabel, Array.getElem?_push, Nat.ne_of_lt this] using h.unbound l hl
  nodup := List.nodup_cons.mpr ⟨fun hl => absurd (h.lt hl) (Nat.lt_irrefl _), h.nodup⟩
  stub := h.stub

theorem sub_of_newLabel {f : CodeLabel → Emit β}
    (h : ∀ l, Orderly ctx b (l :: K) (l :: S) T n (f l)) : T.Sublist S := by
  -- a label above all that are left is not left itself
  obtain ⟨k, hk⟩ := exists_above T
  rcases List.sublist_cons_iff.mp (h ⟨k⟩).sub with hs | ⟨r, hr, _⟩
  · exact hs
  · exact absurd (hk ⟨k⟩ (hr ▸ List.mem_cons_self)) (Nat.lt_irrefl k)

/-- The label is the one at which frames are popped. -/
class Reserved (l : CodeLabel) (ctx : CodeContext) : Prop where
  reserved : ctx.popFrame = some l

instance emitTo_reserved (l : CodeLabel) (i : Target → Instruction Target) [hl : Reserved l ctx]
    [hi : Going i] : Orderly ctx b K S S 1 (Emit.emitTo l i) :=
  emitTo_known l i hi.going fun _ h => h.popFrame l hl.reserved

/-- A new label is there until the code behind it has bound it. -/
instance newLabel_bind (f : CodeLabel → Emit β)
    [h : ∀ l, Orderly ctx b (l :: K) (l :: S) T n (f l)] :
    Orderly ctx b K S T n (Emit.newLabel >>= f) where
  sub := sub_of_newLabel h
  runs a ha := by
    have hs := sub_of_newLabel h
    obtain ⟨x, a', run, g⟩ := (h ⟨a.labels.size⟩).runs _ (ready_newLabel ha)
    have size : a.newLabel.2.labels.size = a.labels.size + 1 := by simp [Assembly.newLabel]
    refine ⟨x, a', run, ⟨g.base, g.openStub, g.code, ?_, ?_, g.left, ?_, ?_⟩⟩
    · have := g.size
      omega
    · intro k hk hn
      have ne : k ∉ (⟨a.labels.size⟩ : CodeLabel) :: S := by
        simp only [List.mem_cons, not_or]
        exact ⟨fun e => absurd hk (by simp [e]), hn⟩
      rw [g.kept k (by omega) ne]
      simp [Assembly.newLabel, Array.getElem?_push, Nat.ne_of_lt hk]
    · exact fun k hk => g.bound k (List.mem_cons_of_mem _ hk)
    · intro k h1 h2
      by_cases e : k.id = a.labels.size
      · obtain rfl : k = ⟨a.labels.size⟩ := by cases k; simp_all
        exact g.bound _ List.mem_cons_self fun ht => absurd (ha.lt (hs.subset ht)) (by simp)
      · exact g.fresh k (by omega) h2

instance bindLabel (l : CodeLabel) [h : Taken l S T] :
    Orderly ctx b K S T 0 (Emit.bind l) where
  sub := h.sub
  runs a ha := by
    have nodup := h.perm.nodup_iff.mp ha.nodup
    have hl : l.id < a.labels.size := ha.lt (h.perm.mem_iff.mpr List.mem_cons_self)
    have other {k : CodeLabel} (hk : k ≠ l) : l.id ≠ k.id := fun e => hk (by cases k; cases l; simp_all)
    refine ⟨(), a.bind l, rfl,
      ⟨rfl, rfl, ⟨[], by simp [Assembly.bind], Nat.le_refl 0, by simp⟩, ?_, ?_, ?_, ?_, ?_⟩⟩
    · simp [Assembly.bind]
    · intro k _ hk
      have : k ≠ l := fun e => hk (h.perm.mem_iff.mpr (e ▸ List.mem_cons_self))
      simp [Assembly.bind, other this]
    · intro k hk
      have : k ≠ l := fun e => (List.nodup_cons.mp nodup).1 (e ▸ hk)
      simpa [Assembly.bind, other this] using
        ha.unbound k (h.sub.subset hk)
    · intro k hk hn
      rcases List.mem_cons.mp (h.perm.mem_iff.mp hk) with rfl | hk
      · exact ⟨a.pc, by simp [Assembly.bind, hl]⟩
      · exact absurd hk hn
    · intro k h1 h2
      simp [Assembly.bind] at h2
      omega

instance forM {ι : Type} (xs : List ι) (f : ι → Emit Unit)
    [h : ∀ x, Orderly ctx b K S S n (f x)] : Orderly ctx b K S S (xs.length * n) (xs.forM f) := by
  induction xs with
  | nil => simpa using (pure () : Orderly ctx b K S S 0 _)
  | cons x xs ih =>
    have : Orderly ctx b K S S (n + xs.length * n) (f x >>= fun _ => xs.forM f) := inferInstance
    rwa [List.length_cons, Nat.succ_mul, Nat.add_comm]

instance mapM {ι : Type} [Nonempty β] (xs : List ι) (f : ι → Emit β)
    [h : ∀ x, Orderly ctx b K S S n (f x)] :
    Orderly ctx b K S S (xs.length * n) (xs.mapM f) := by
  induction xs with
  | nil => simpa using (pure [] : Orderly ctx b K S S 0 (Pure.pure ([] : List β)))
  | cons x xs ih =>
    have : Orderly ctx b K S S (n + (xs.length * n + 0))
      (do let y ← f x; let ys ← xs.mapM f; Pure.pure (y :: ys)) := inferInstance
    rwa [List.mapM_cons, List.length_cons, Nat.succ_mul, Nat.add_comm]

theorem stub_run {name : String} {m : Emit β} {x : β} {a a₁ a₂ a₃ : Assembly}
    (start : a.beginStub name = .ok a₁) (run : m ctx a₁ = .ok x a₂) (stop : a₂.endStub = .ok a₃) :
    Emit.stub name m ctx a = .ok (a.pc, x) a₃ := by
  unfold Emit.stub
  rw [run_bind (x := a.pc) rfl, run_bind (x := a) rfl]
  simp only [start]
  rw [run_bind (m := (set a₁ : Emit PUnit)) (x := ()) rfl, run_bind run, run_bind (x := a₂) rfl]
  simp only [stop]
  rfl

/-- A stub holds code without stubs. -/
instance stub (name : String) (m : Emit β) [h : Orderly ctx true K S T n m] :
    Orderly ctx false K S T n (Emit.stub name m) where
  sub := h.sub
  runs a ha := by
    have closed := ha.stub rfl
    let a₁ : Assembly := { a with openStub := some (name, a.pc) }
    have ready : Ready ctx true K S a₁ := ⟨ha.known, ha.popFrame, ha.unbound, ha.nodup, nofun⟩
    obtain ⟨x, a', run, g⟩ := h.runs a₁ ready
    refine ⟨(a.pc, x), { a' with openStub := none, stubs := a'.stubs.push ⟨name, a.pc, a'.pc⟩ }, ?_,
      ⟨g.base, closed.symm, g.code, g.size, g.kept, g.left, g.bound, g.fresh⟩⟩
    have start : a.beginStub name = .ok a₁ := by simp [beginStub, closed, a₁]
    have stop : a'.endStub =
        .ok { a' with openStub := none, stubs := a'.stubs.push ⟨name, a.pc, a'.pc⟩ } := by
      simp [endStub, g.openStub, a₁]
    exact stub_run start run stop

end

end Orderly
end TemplateVm
