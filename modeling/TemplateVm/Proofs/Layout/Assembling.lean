import Mathlib.Data.List.Basic
import TemplateVm.Proofs.Layout.Installed

set_option autoImplicit false

/-!
# Assembled code

What any calls on an assembly make of it. The finished code is the instructions of the calls, one
behind the other from the base address on. An instruction that goes to a label has the address that
the label had when it was emitted, and the last one if it had none yet; as long as no label is bound
twice, both are the address that the label has in the end. Stubs follow each other without overlap.
-/
namespace TemplateVm

namespace Instruction

/-- The instruction in code under assembly. -/
def absolute (i : Instruction UInt64) : Instruction Target :=
  match i.mapTarget fun p => (.ok (.address p) : Except Empty Target) with
  | .ok i => i
  | .error e => e.elim

theorem placed_absolute (place : CodeLabel → UInt64) (i : Instruction UInt64) :
    i.absolute.placed place = i := by
  cases i <;> rfl

theorem target?_absolute (i : Instruction UInt64) :
    i.absolute.target? = i.target?.map .address := by
  cases i <;> rfl

theorem placed_congr {place place' : CodeLabel → UInt64} {i : Instruction Target}
    (same : ∀ t, i.target? = some t → t.resolve place = t.resolve place') :
    i.placed place = i.placed place' := by
  cases i with
  | adr | branch | branchIf | branchZero | branchNonzero | branchBitClear | branchBitSet | call =>
    simp [placed, mapTarget, Except.map, same _ rfl]
  | _ => rfl

theorem ok_of_mapTarget {ε : Type} {f : Target → Except ε UInt64} {i : Instruction Target}
    {i' : Instruction UInt64} (h : i.mapTarget f = .ok i') {t : Target}
    (ht : i.target? = some t) : ∃ p, f t = .ok p := by
  cases i with
  | adr | branch | branchIf | branchZero | branchNonzero | branchBitClear | branchBitSet | call =>
    cases ht
    cases hf : f t with
    | error e =>
      rw [mapTarget, hf] at h
      cases h
    | ok p => exact ⟨p, rfl⟩
  | _ => cases ht

theorem error_of_mapTarget {ε : Type} {f : Target → Except ε UInt64} {i : Instruction Target}
    {e : ε} (h : i.mapTarget f = .error e) : ∃ t, i.target? = some t ∧ f t = .error e := by
  cases i with
  | adr _ t | branch t | branchIf _ t | branchZero _ t | branchNonzero _ t | branchBitClear _ _ t
  | branchBitSet _ _ t | call t =>
    cases hf : f t with
    | error e' =>
      rw [mapTarget, hf] at h
      cases h
      exact ⟨t, rfl, hf⟩
    | ok p =>
      rw [mapTarget, hf] at h
      cases h
  | _ => cases h

end Instruction

namespace Assembly

/-- An instruction that goes to a label. -/
structure Jump where
  form : Target → Instruction Target
  going : Orderly.Going form

/-- The instruction with the address of its label. -/
def Jump.toward (j : Jump) (p : UInt64) : Instruction UInt64 :=
  (j.form (.address p)).placed fun _ => 0

/-- The calls by which code is assembled. -/
inductive Call where
  | emit (i : Instruction UInt64)
  | emitTo (j : Jump) (l : CodeLabel)
  | newLabel
  | bind (l : CodeLabel)
  | beginStub (name : String)
  | endStub
  | mark (name : String)
  | comment (text : String)

/-- A call that fails leaves the assembly as it is. -/
def perform (a : Assembly) : Call → Assembly
  | .emit i => a.emit i.absolute
  | .emitTo j l => a.emitTo l j.form
  | .newLabel => a.newLabel.2
  | .bind l => a.bind l
  | .beginStub name => (a.beginStub name).toOption.getD a
  | .endStub => a.endStub.toOption.getD a
  | .mark name => a.mark name
  | .comment text => a.comment text

def assembled (base : UInt64) (calls : List Call) : Assembly := calls.foldl perform { base }

/-- Each call, with the assembly that it is made on. -/
def made (base : UInt64) (calls : List Call) : List (Assembly × Call) :=
  occasions perform { base } calls

namespace Call

/-- Only labels that are there are used. -/
def fits (a : Assembly) : Call → Prop
  | emitTo _ l | bind l => l.id < a.labels.size
  | _ => True

def binds (l : CodeLabel) : Call → Bool
  | bind l' => l' = l
  | _ => false

/-- The instruction that a call emits into an assembly. -/
def emits? (a : Assembly) : Call → Option (Instruction Target)
  | emit i => some i.absolute
  | emitTo j l => some (j.form (a.target l))
  | _ => none

/-- The instruction that a call on an assembly leaves in the finished code, where the labels have
    the given addresses in the end. -/
def finished? (places : CodeLabel → Option UInt64) (a : Assembly) :
    Call → Option (Instruction UInt64)
  | emit i => some i
  | emitTo j l => ((a.labelAddress? l).or (places l)).map j.toward
  | _ => none

end Call

variable {a : Assembly} {c : Call} {calls : List Call} {l : CodeLabel} {base : UInt64}
  {name : String} {blob : Blob} {x : Assembly × Call}

/-! ## One call -/

theorem base_perform (a : Assembly) (c : Call) : (a.perform c).base = a.base := by
  cases c with
  | beginStub name =>
    simp only [perform, beginStub]
    cases a.openStub <;> rfl
  | endStub =>
    simp only [perform, endStub]
    cases a.openStub <;> rfl
  | _ => rfl

theorem code_perform (a : Assembly) (c : Call) :
    (a.perform c).code.toList = a.code.toList ++ (c.emits? a).toList := by
  cases c with
  | beginStub name =>
    simp only [perform, beginStub]
    cases a.openStub <;> exact (List.append_nil _).symm
  | endStub =>
    simp only [perform, endStub]
    cases a.openStub <;> exact (List.append_nil _).symm
  | emit i => exact Array.toList_push
  | emitTo j l => exact Array.toList_push
  | _ => exact (List.append_nil _).symm

/-- Only binding a label changes its address. -/
theorem labelAddress?_perform (fits : c.fits a) (l : CodeLabel) :
    (a.perform c).labelAddress? l = if c.binds l then some a.pc else a.labelAddress? l := by
  cases c with
  | beginStub name =>
    simp only [perform, beginStub]
    cases a.openStub <;> rfl
  | endStub =>
    simp only [perform, endStub]
    cases a.openStub <;> rfl
  | newLabel =>
    simp only [perform, newLabel, labelAddress?, Call.binds, Bool.false_eq_true, if_false,
      Array.getElem?_push]
    split
    · next new => simp [new]
    · rfl
  | bind l' =>
    have there : l'.id < a.labels.size := fits
    simp only [perform, bind, labelAddress?, Call.binds, Array.getElem?_setIfInBounds,
      if_pos there, decide_eq_true_eq]
    by_cases same : l' = l
    · rw [if_pos (congrArg CodeLabel.id same), if_pos same]
      rfl
    · rw [if_neg fun h => same (congrArg CodeLabel.mk h), if_neg same]
  | _ => rfl

/-! ## All calls -/

theorem base_foldl (a : Assembly) (calls : List Call) : (calls.foldl perform a).base = a.base := by
  induction calls generalizing a with
  | nil => rfl
  | cons c calls ih => rw [List.foldl_cons, ih, base_perform]

theorem code_foldl (a : Assembly) (calls : List Call) :
    (calls.foldl perform a).code.toList =
      a.code.toList ++ (occasions perform a calls).filterMap fun x => x.2.emits? x.1 := by
  induction calls generalizing a with
  | nil => exact (List.append_nil _).symm
  | cons c calls ih =>
    rw [List.foldl_cons, ih, code_perform, List.append_assoc, occasions, List.filterMap_cons]
    cases c.emits? a <;> rfl

theorem labelAddress?_foldl_of_not_binds (fits : ∀ x ∈ occasions perform a calls, x.2.fits x.1)
    (never : ∀ c ∈ calls, ¬ c.binds l) :
    (calls.foldl perform a).labelAddress? l = a.labelAddress? l := by
  induction calls generalizing a with
  | nil => rfl
  | cons c calls ih =>
    rw [List.foldl_cons, ih (fun x hx => fits x (List.mem_cons_of_mem _ hx))
      fun c' hc' => never c' (List.mem_cons_of_mem c hc'),
      labelAddress?_perform (fits (a, c) List.mem_cons_self), if_neg (never c List.mem_cons_self)]

/-- A label that is bound stays bound. -/
theorem isSome_labelAddress?_foldl (fits : ∀ x ∈ occasions perform a calls, x.2.fits x.1)
    (bound : (a.labelAddress? l).isSome) :
    ((calls.foldl perform a).labelAddress? l).isSome := by
  induction calls generalizing a with
  | nil => exact bound
  | cons c calls ih =>
    refine ih (fun x hx => fits x (List.mem_cons_of_mem _ hx)) ?_
    rw [labelAddress?_perform (fits (a, c) List.mem_cons_self)]
    split
    · rfl
    · exact bound

/-- The calls before and behind some point use only labels that are there, too. -/
theorem fits_append {before after : List Call}
    (fits : ∀ x ∈ made base (before ++ after), x.2.fits x.1) :
    (∀ x ∈ made base before, x.2.fits x.1) ∧
      ∀ x ∈ occasions perform (assembled base before) after, x.2.fits x.1 := by
  rw [made, occasions_append] at fits
  exact List.forall_mem_append.mp fits

theorem isSome_labelAddress?_of_mem (fits : ∀ x ∈ made base calls, x.2.fits x.1)
    (hx : x ∈ made base calls) (bound : (x.1.labelAddress? l).isSome) :
    ((assembled base calls).labelAddress? l).isSome := by
  obtain ⟨before, after, rfl, same⟩ := of_mem_occasions hx
  rw [same] at bound
  rw [assembled, List.foldl_append]
  exact isSome_labelAddress?_foldl (fits_append fits).2 bound

/-! ## Finished code -/

theorem eq_of_pending {l' : CodeLabel} (h : a.target l = .pending l') :
    l' = l ∧ a.labelAddress? l = none := by
  unfold target at h
  split at h
  · cases h
  · next unbound =>
    cases h
    exact ⟨rfl, unbound⟩

theorem Complete.of_finish (h : a.finish name = .ok blob) : a.Complete := by
  obtain ⟨closed, code, placed, -⟩ := Assembly.of_finish h
  refine ⟨closed, fun i hi l target => ?_⟩
  obtain ⟨k, hk⟩ := List.mem_iff_getElem?.mp (Array.mem_toList_iff.mpr hi)
  obtain ⟨i', -, run⟩ := mapM_get placed k i hk
  obtain ⟨p, resolved⟩ := Instruction.ok_of_mapTarget run target
  unfold resolve at resolved
  cases bound : a.labelAddress? l with
  | none => simp [bound] at resolved
  | some p => rfl

theorem map_placed_of_finish (h : a.finish name = .ok blob) :
    blob.code.toList = a.code.toList.map (·.placed a.places) := by
  obtain ⟨-, size, each⟩ := finish_code h
  apply List.ext_getElem?
  intro k
  rw [List.getElem?_map, Array.getElem?_toList, Array.getElem?_toList]
  cases hk : a.code[k]? with
  | none =>
    rw [Array.getElem?_eq_none_iff] at hk
    exact Array.getElem?_eq_none (by omega)
  | some i => exact each k i hk

/-- An instruction that goes to a label that is bound in the end, in finished code. -/
theorem placed_emitTo (j : Jump) {p : UInt64} (bound : a.labelAddress? l = some p)
    (x : Assembly) :
    some ((j.form (x.target l)).placed a.places) =
      ((x.labelAddress? l).or (a.labelAddress? l)).map j.toward := by
  have target : (x.target l).resolve a.places =
      ((x.labelAddress? l).or (a.labelAddress? l)).getD 0 := by
    unfold Assembly.target
    cases x.labelAddress? l <;> rfl
  have some' : ((x.labelAddress? l).or (a.labelAddress? l)).isSome := by
    rw [bound]
    cases x.labelAddress? l <;> rfl
  obtain ⟨q, hq⟩ := Option.isSome_iff_exists.mp some'
  rw [hq, Option.getD_some] at target
  rw [hq, j.going.placed, target, Option.map_some, Jump.toward]
  congr 1
  apply Instruction.placed_congr
  intro t ht
  rw [j.going.going] at ht
  cases ht
  rfl

theorem error_of_resolve {t : Target} {defect : AssemblyDefect} (h : a.resolve t = .error defect) :
    ∃ l, t = .pending l ∧ a.labelAddress? l = none ∧ defect = .unboundLabel l.id := by
  cases t with
  | address p => cases h
  | pending l =>
    unfold resolve at h
    cases bound : a.labelAddress? l with
    | none =>
      simp only [bound] at h
      cases h
      exact ⟨l, rfl, bound, rfl⟩
    | some p =>
      simp only [bound] at h
      cases h

theorem of_finish_error {defect : AssemblyDefect} (h : a.finish name = .error defect) :
    (∃ stub start, a.openStub = some (stub, start) ∧
      defect = .stubMismatch (stub ++ " never closed")) ∨
    a.openStub = none ∧ ∃ i ∈ a.code.toList, ∃ l, i.target? = some (.pending l) ∧
      a.labelAddress? l = none ∧ defect = .unboundLabel l.id := by
  unfold finish at h
  split at h
  · next stub start opened =>
    cases h
    exact .inl ⟨stub, start, opened, rfl⟩
  · next closed =>
    rw [Array.mapM_eq_mapM_toList] at h
    cases placed : a.code.toList.mapM (·.mapTarget a.resolve) with
    | error e =>
      rw [placed] at h
      cases h
      obtain ⟨i, hi, fails⟩ := mapM_error placed
      obtain ⟨t, target, fails⟩ := Instruction.error_of_mapTarget fails
      obtain ⟨l, rfl, unbound, defect⟩ := error_of_resolve fails
      exact .inr ⟨closed, i, hi, l, target, unbound, defect⟩
    | ok code =>
      rw [placed] at h
      cases h

theorem toList_code_assembled (base : UInt64) (calls : List Call) :
    (assembled base calls).code.toList =
      (made base calls).filterMap fun x => x.2.emits? x.1 := code_foldl _ _

/-- An instruction that waits for a label is one that was sent to it before it was bound. -/
theorem emitTo_of_pending {i : Instruction Target} (hi : i ∈ (assembled base calls).code.toList)
    (target : i.target? = some (.pending l)) : ∃ x ∈ made base calls, ∃ j, x.2 = .emitTo j l := by
  rw [toList_code_assembled, List.mem_filterMap] at hi
  obtain ⟨⟨before, c⟩, hx, emits⟩ := hi
  cases c with
  | emit i =>
    cases emits
    rw [Instruction.target?_absolute] at target
    cases own : i.target? <;> simp [own] at target
  | emitTo j l' =>
    cases emits
    rw [j.going.going, Option.some.injEq] at target
    obtain ⟨rfl, -⟩ := eq_of_pending target
    exact ⟨_, hx, j, rfl⟩
  | _ => cases emits

theorem Complete.isSome_of_emitTo (h : (assembled base calls).Complete)
    (fits : ∀ x ∈ made base calls, x.2.fits x.1) (hx : x ∈ made base calls) {j : Jump}
    (emits : x.2 = .emitTo j l) : ((assembled base calls).labelAddress? l).isSome := by
  by_cases before : (x.1.labelAddress? l).isSome
  · exact isSome_labelAddress?_of_mem fits hx before
  · have pending : x.1.target l = .pending l := by
      rw [Option.not_isSome_iff_eq_none] at before
      rw [Assembly.target, before]
    have emitted : j.form (.pending l) ∈ (assembled base calls).code := by
      rw [← Array.mem_toList_iff, toList_code_assembled, List.mem_filterMap]
      refine ⟨x, hx, ?_⟩
      rw [emits, Call.emits?, pending]
    exact h.bound _ emitted l (j.going.going _)

/-- The calls are finished as code exactly if no stub is left open and every label that an
    instruction goes to is bound. The code is the instructions of the calls, in their order. -/
theorem finish_assembled (fits : ∀ x ∈ made base calls, x.2.fits x.1) (name : String) :
    match (assembled base calls).finish name with
    | .error defect =>
      (∃ stub start, (assembled base calls).openStub = some (stub, start) ∧
        defect = .stubMismatch (stub ++ " never closed")) ∨
      (assembled base calls).openStub = none ∧
        ∃ x ∈ made base calls, ∃ j l, x.2 = .emitTo j l ∧
          (assembled base calls).labelAddress? l = none ∧ defect = .unboundLabel l.id
    | .ok blob =>
      (assembled base calls).openStub = none ∧
        (∀ x ∈ made base calls, ∀ j l, x.2 = .emitTo j l →
          ((assembled base calls).labelAddress? l).isSome) ∧
        blob.start = base ∧
        blob.code.toList = (made base calls).filterMap fun x =>
          x.2.finished? (assembled base calls).labelAddress? x.1 := by
  cases finished : (assembled base calls).finish name with
  | error defect =>
    rcases of_finish_error finished with opened | ⟨closed, i, hi, l, target, unbound, named⟩
    · exact .inl opened
    · obtain ⟨x, hx, j, emits⟩ := emitTo_of_pending hi target
      exact .inr ⟨closed, x, hx, j, l, emits, unbound, named⟩
  | ok blob =>
    have complete := Complete.of_finish finished
    have bound : ∀ x ∈ made base calls, ∀ j l, x.2 = .emitTo j l →
        ((assembled base calls).labelAddress? l).isSome :=
      fun x hx j l emits => complete.isSome_of_emitTo fits hx emits
    refine ⟨complete.stub, bound, ?_, ?_⟩
    · rw [(finish_code finished).1]
      exact base_foldl _ _
    · rw [map_placed_of_finish finished, toList_code_assembled, List.map_filterMap]
      apply List.filterMap_congr
      rintro ⟨before, c⟩ hx
      cases c with
      | emit i => exact congrArg some (Instruction.placed_absolute _ i)
      | emitTo j l =>
        obtain ⟨p, hp⟩ := Option.isSome_iff_exists.mp (bound _ hx j l rfl)
        exact placed_emitTo j hp before
      | _ => rfl

/-! ## Labels that are bound once -/

/-- A label that is bound once has the address of the instruction that comes next. -/
theorem labelAddress?_of_binds (fits : ∀ x ∈ made base calls, x.2.fits x.1)
    (once : calls.Pairwise fun c c' => ¬(c.binds l = true ∧ c'.binds l = true))
    (hx : x ∈ made base calls) (binds : x.2.binds l = true) :
    (assembled base calls).labelAddress? l = some x.1.pc := by
  obtain ⟨before, after, rfl, same⟩ := of_mem_occasions hx
  have behind : ∀ y ∈ occasions perform (x.1.perform x.2) after, y.2.fits y.1 := by
    intro y hy
    apply (fits_append fits).2
    rw [assembled, ← same]
    exact List.mem_cons_of_mem _ hy
  have never : ∀ c ∈ after, ¬ c.binds l = true := fun c hc again =>
    List.rel_of_pairwise_cons (List.pairwise_append.mp once).2.1 hc ⟨binds, again⟩
  rw [assembled, List.foldl_append, ← same, List.foldl_cons,
    labelAddress?_foldl_of_not_binds behind never, labelAddress?_perform (fits x hx), if_pos binds]

/-- A label that is bound once has the same address wherever it has one. -/
theorem labelAddress?_of_mem (fits : ∀ x ∈ made base calls, x.2.fits x.1)
    (once : calls.Pairwise fun c c' => ¬(c.binds l = true ∧ c'.binds l = true))
    (hx : x ∈ made base calls) (bound : (x.1.labelAddress? l).isSome) :
    x.1.labelAddress? l = (assembled base calls).labelAddress? l := by
  obtain ⟨before, after, rfl, same⟩ := of_mem_occasions hx
  obtain ⟨ahead, behind⟩ := fits_append fits
  rw [assembled, ← same] at behind
  obtain ⟨c, hc, binds⟩ : ∃ c ∈ before, c.binds l = true := by
    by_contra never
    have unbound := labelAddress?_foldl_of_not_binds ahead fun c hc binds => never ⟨c, hc, binds⟩
    rw [same, unbound] at bound
    cases bound
  have never : ∀ c' ∈ x.2 :: after, ¬ c'.binds l = true := fun c' hc' again =>
    (List.pairwise_append.mp once).2.2 c hc c' hc' ⟨binds, again⟩
  rw [assembled, List.foldl_append, ← same, labelAddress?_foldl_of_not_binds behind never]

/-- If no label is bound twice, every instruction that goes to one has its address in the end,
    whether it was emitted before or behind. -/
theorem finish_once (fits : ∀ x ∈ made base calls, x.2.fits x.1)
    (once : ∀ l, calls.Pairwise fun c c' => ¬(c.binds l = true ∧ c'.binds l = true))
    (h : (assembled base calls).finish name = .ok blob) :
    blob.code.toList = (made base calls).filterMap fun x =>
      match x.2 with
      | .emit i => some i
      | .emitTo j l => ((assembled base calls).labelAddress? l).map j.toward
      | _ => none := by
  have finished := finish_assembled fits name
  rw [h] at finished
  obtain ⟨-, -, -, code⟩ := finished
  rw [code]
  apply List.filterMap_congr
  rintro ⟨before, c⟩ hx
  cases c with
  | emitTo j l =>
    change ((before.labelAddress? l).or _).map j.toward = _
    cases bound : before.labelAddress? l with
    | none => rfl
    | some p =>
      have same := labelAddress?_of_mem fits (once l) hx (by rw [bound]; rfl)
      rw [bound] at same
      change _ = ((assembled base calls).labelAddress? l).map j.toward
      rw [← same]
      rfl
  | _ => rfl

/-- A second binding is not noticed: what comes behind it goes to the second place. -/
example :
    let again : List Call :=
      [.newLabel, .bind ⟨0⟩, .emitTo ⟨.branch, inferInstance⟩ ⟨0⟩, .bind ⟨0⟩,
        .emitTo ⟨.branch, inferInstance⟩ ⟨0⟩]
    ((assembled 0 again).finish "again").toOption.map (·.code) = some #[.branch 0, .branch 4] := by
  decide +kernel

/-! ## Stubs -/

/-- The stubs of an assembly follow each other, with the open one at the end. -/
structure Stubbed (a : Assembly) : Prop where
  inside : ∀ s ∈ a.stubs, a.base ≤ s.start ∧ s.start ≤ s.stop ∧ s.stop ≤ a.pc
  apart : a.stubs.toList.Pairwise fun s s' => s.stop ≤ s'.start
  opened : ∀ name start, a.openStub = some (name, start) →
    a.base ≤ start ∧ start ≤ a.pc ∧ ∀ s ∈ a.stubs, s.stop ≤ start

theorem toNat_pc (room : a.base.toNat + 4 * a.code.size < 2 ^ 64) :
    a.pc.toNat = a.base.toNat + 4 * a.code.size := Blob.address_toNat room

theorem base_le_pc (room : a.base.toNat + 4 * a.code.size < 2 ^ 64) : a.base ≤ a.pc := by
  rw [UInt64.le_iff_toNat_le, toNat_pc room]
  omega

theorem size_perform (a : Assembly) (c : Call) : a.code.size ≤ (a.perform c).code.size := by
  have length := congrArg List.length (code_perform a c)
  rw [List.length_append, Array.length_toList, Array.length_toList] at length
  omega

theorem size_foldl (a : Assembly) (calls : List Call) :
    a.code.size ≤ (calls.foldl perform a).code.size := by
  have length := congrArg List.length (code_foldl a calls)
  rw [List.length_append, Array.length_toList, Array.length_toList] at length
  omega

theorem pc_le_perform (room : a.base.toNat + 4 * (a.perform c).code.size < 2 ^ 64) :
    a.pc ≤ (a.perform c).pc := by
  have size := size_perform a c
  rw [UInt64.le_iff_toNat_le, toNat_pc (by omega), toNat_pc (by rw [base_perform]; exact room),
    base_perform]
  omega

namespace Stubbed

variable {a' : Assembly}

theorem mono (h : Stubbed a) (base : a'.base = a.base) (stubs : a'.stubs = a.stubs)
    (openStub : a'.openStub = a.openStub) (le : a.pc ≤ a'.pc) : Stubbed a' := by
  refine ⟨?_, ?_, ?_⟩
  · rw [base, stubs]
    intro s hs
    obtain ⟨low, mid, high⟩ := h.inside s hs
    exact ⟨low, mid, UInt64.le_trans high le⟩
  · rw [stubs]
    exact h.apart
  · rw [base, stubs, openStub]
    intro name start opened
    obtain ⟨low, high, behind⟩ := h.opened name start opened
    exact ⟨low, UInt64.le_trans high le, behind⟩

theorem perform (h : Stubbed a) (room : a.base.toNat + 4 * (a.perform c).code.size < 2 ^ 64) :
    Stubbed (a.perform c) := by
  have le := pc_le_perform room
  have size := size_perform a c
  have above := base_le_pc (a := a) (by omega)
  cases c with
  | beginStub name =>
    cases opened : a.openStub with
    | some other =>
      have same : a.perform (.beginStub name) = a := by
        simp only [Assembly.perform, beginStub, opened]
        rfl
      rw [same]
      exact h
    | none =>
      have same : a.perform (.beginStub name) = { a with openStub := some (name, a.pc) } := by
        simp only [Assembly.perform, beginStub, opened]
        rfl
      rw [same]
      refine ⟨h.inside, h.apart, ?_⟩
      intro name' start opens
      cases opens
      exact ⟨above, UInt64.le_refl _, fun s hs => (h.inside s hs).2.2⟩
  | endStub =>
    cases opened : a.openStub with
    | none =>
      have same : a.perform .endStub = a := by
        simp only [Assembly.perform, endStub, opened]
        rfl
      rw [same]
      exact h
    | some stub =>
      obtain ⟨name, start⟩ := stub
      obtain ⟨low, high, behind⟩ := h.opened name start opened
      have same : a.perform .endStub =
          { a with openStub := none, stubs := a.stubs.push ⟨name, start, a.pc⟩ } := by
        simp only [Assembly.perform, endStub, opened]
        rfl
      rw [same]
      refine ⟨?_, ?_, fun _ _ none => by cases none⟩
      · intro s hs
        rcases Array.mem_push.mp hs with hs | rfl
        · exact h.inside s hs
        · exact ⟨low, high, UInt64.le_refl _⟩
      · rw [Array.toList_push, List.pairwise_append]
        refine ⟨h.apart, List.pairwise_singleton _ _, ?_⟩
        intro s hs s' hs'
        rw [List.mem_singleton.mp hs']
        exact behind s (Array.mem_toList_iff.mp hs)
  | _ => exact h.mono rfl rfl rfl le

theorem foldl (h : Stubbed a)
    (room : a.base.toNat + 4 * (calls.foldl Assembly.perform a).code.size < 2 ^ 64) :
    Stubbed (calls.foldl Assembly.perform a) := by
  induction calls generalizing a with
  | nil => exact h
  | cons c calls ih =>
    have size := size_foldl (a.perform c) calls
    rw [List.foldl_cons] at room
    apply ih (h.perform (by omega))
    rw [base_perform]
    exact room

end Stubbed

/-- The stubs of finished code lie within it, one behind the other. -/
theorem stubs_of_finish (h : (assembled base calls).finish name = .ok blob)
    (room : base.toNat + 4 * blob.code.size < 2 ^ 64) :
    (∀ s ∈ blob.stubs, blob.start ≤ s.start ∧ s.start ≤ s.stop ∧ s.stop ≤ blob.stop) ∧
      blob.stubs.toList.Pairwise fun s s' => s.stop ≤ s'.start := by
  obtain ⟨start, size, -⟩ := finish_code h
  obtain ⟨-, _, -, named⟩ := of_finish h
  have stubs : blob.stubs = (assembled base calls).stubs := by rw [named]
  have stop : blob.stop = (assembled base calls).pc := by
    rw [Blob.stop, Assembly.pc, start, size]
  have first : Stubbed { base } := ⟨by simp, List.Pairwise.nil, fun _ _ none => by cases none⟩
  rw [size] at room
  have stubbed : Stubbed (assembled base calls) := first.foldl room
  rw [stubs, start, stop]
  exact ⟨stubbed.inside, stubbed.apart⟩

theorem disjoint_of_finish (h : (assembled base calls).finish name = .ok blob)
    (room : base.toNat + 4 * blob.code.size < 2 ^ 64) :
    blob.stubs.toList.Pairwise fun s s' =>
      ∀ pc, ¬(s.contains pc = true ∧ s'.contains pc = true) := by
  refine (stubs_of_finish h room).2.imp fun apart pc => ?_
  rintro ⟨inside, inside'⟩
  simp only [Stub.contains, Bool.and_eq_true, decide_eq_true_eq] at inside inside'
  exact UInt64.not_le.mpr inside.2 (UInt64.le_trans apart inside'.1)

/-- A stub of finished code does not reach out of it. -/
theorem contains_of_finish (h : (assembled base calls).finish name = .ok blob)
    (room : base.toNat + 4 * blob.code.size < 2 ^ 64) {s : Stub} (hs : s ∈ blob.stubs)
    {pc : UInt64} (inside : s.contains pc = true) : blob.contains pc = true := by
  obtain ⟨low, -, high⟩ := (stubs_of_finish h room).1 s hs
  simp only [Stub.contains, Bool.and_eq_true, decide_eq_true_eq] at inside
  exact CodeCache.contains_iff.mpr
    ⟨UInt64.le_trans low inside.1, UInt64.lt_of_lt_of_le inside.2 high⟩

end Assembly
end TemplateVm
