import TemplateVm.Proofs.Activation.Entry
import TemplateVm.Proofs.Activation.Leaving

set_option autoImplicit false
set_option synthInstance.maxSize 100000

/-!
# What a debugger is told

The services that tell a debugger about the last frame log one event each, with the method of that
frame, and do nothing else unless the frame is to be popped. The code that calls them gives the
activation back as it was, with the value that is held.
-/
namespace TemplateVm

open Memory (Guarded load)
open Guest Emit

/-- What a debugger does about a method that it is told about, and whether the frame is to be
    popped. -/
abbrev Notice := MemberRef → Hooks → Bool × Hooks

namespace Notice

def entry : Notice := fun m h => h.methodEntry m

def exit (tos : TopOfStack) : Notice := fun m h => h.methodExit m tos

end Notice

namespace Vm

variable {v : Vm} {p : UInt64} {c : Cpu} {m : Guarded} {f : Frame} {id : MethodId}
  {notice : Notice} {tos : TopOfStack} {steps : UInt64} {watched : List (UInt64 × UInt64)}

/-- The machine after the debugger was told about the method. -/
def told (v : Vm) (notice : Notice) (id : MethodId) : Vm :=
  { v with hooks := (notice (v.world.classes.member id) v.hooks).2 }

/-- The debugger lets the method go on. -/
def LetsGo (v : Vm) (notice : Notice) (id : MethodId) : Prop :=
  (notice (v.world.classes.member id) v.hooks).1 = false

/-- What both services do. -/
def notify (notice : Notice) : Action Unit := do
  let id ← methodOf (← lastFrame)
  let t ← classes
  if ← consult (notice (t.member id)) then requestPop

theorem methodExit_eq {index : UInt64} {tos : TopOfStack}
    (held : TopOfStack.ofIndex? index.toNat = some tos) :
    methodExit index = notify (.exit tos) := by
  funext vm
  have known : tosAt "method exit" index vm = .ok tos vm := by
    simp only [tosAt, held]
    rfl
  exact bind_ok known

theorem notify_letsGo
    (frame : lastFrame ((v.moved p c m).counted steps watched) =
      .ok f ((v.moved p c m).counted steps watched))
    (method : methodOf f ((v.moved p c m).counted steps watched) =
      .ok id ((v.moved p c m).counted steps watched))
    (go : v.LetsGo notice id) : notify notice ((v.moved p c m).counted steps watched) =
      .ok () (((v.told notice id).moved p c m).counted steps watched) := by
  have decided : consult (notice (v.world.classes.member id))
      ((v.moved p c m).counted steps watched) =
        .ok false (((v.told notice id).moved p c m).counted steps watched) := by
    rw [← show (notice (v.world.classes.member id) v.hooks).1 = false from go]
    rfl
  exact (bind_ok frame).trans <| (bind_ok method).trans <| (bind_ok (m := classes) rfl).trans <|
    bind_ok decided

/-- Without a debugger nothing is done about a method. -/
theorem told_eq (h : v.hooks.debugger = none) : v.told .entry id = v ∧
    ∀ tos, v.told (.exit tos) id = v := by
  constructor
  · simp only [told, Notice.entry, Hooks.methodEntry, h]
  · intro tos
    simp only [told, Notice.exit, Hooks.methodExit, h]

/-- A debugger is told once: one event is logged, with the method. -/
theorem log_told {d : Debugger} (h : v.hooks.debugger = some d) :
    (v.told .entry id).hooks.log = .entry (v.world.classes.member id) :: v.hooks.log ∧
      ∀ tos, (v.told (.exit tos) id).hooks.log =
        .exit (v.world.classes.member id) tos :: v.hooks.log := by
  constructor
  · simp only [told, Notice.entry, Hooks.methodEntry, h, Hooks.note]
  · intro tos
    simp only [told, Notice.exit, Hooks.methodExit, h, Hooks.note]

/-- If there is a debugger, it has no frame to pop. -/
def Patient (v : Vm) : Prop :=
  ∀ d, v.hooks.debugger = some d → d.popAtEntry = [] ∧ d.popAtExit = []

/-- Such a debugger lets the method go on, and whatever it is told about later. -/
theorem Patient.entry (h : v.Patient) : v.LetsGo .entry id ∧ (v.told .entry id).Patient := by
  cases present : v.hooks.debugger with
  | none =>
    rw [(told_eq present).1]
    exact ⟨by simp only [LetsGo, Notice.entry, Hooks.methodEntry, present], h⟩
  | some d =>
    obtain ⟨noEntry, noExit⟩ := h d present
    constructor
    · simp [LetsGo, Notice.entry, Hooks.methodEntry, present, noEntry]
    · simp [Patient, told, Notice.entry, Hooks.methodEntry, present, noEntry, noExit]

theorem Patient.exit (h : v.Patient) : v.LetsGo (.exit tos) id ∧ (v.told (.exit tos) id).Patient := by
  cases present : v.hooks.debugger with
  | none =>
    rw [(told_eq present).2]
    exact ⟨by simp only [LetsGo, Notice.exit, Hooks.methodExit, present], h⟩
  | some d =>
    obtain ⟨noEntry, noExit⟩ := h d present
    constructor
    · simp [LetsGo, Notice.exit, Hooks.methodExit, present, noExit]
    · simp [Patient, told, Notice.exit, Hooks.methodExit, present, noEntry, noExit]

end Vm

/-- A value that is held can be put into a cell of the state. -/
theorem Value.Held.isSome_ofValue? {w : Value} {c : Cpu} {tos : TopOfStack} (h : w.Held c tos) :
    (Cell.ofValue? tos w).isSome := by
  unfold Value.Held at h
  split at h <;> first | rfl | exact h.elim

theorem Unheld.holds {c : Cpu} {tos : TopOfStack} {stack rest : List Value}
    (h : Unheld c tos stack rest) (taken : tos ≠ .none) :
    ∃ w rest, stack = w :: rest ∧ (Cell.ofValue? tos w).isSome := by
  obtain ⟨w, hx, held⟩ : ∃ w, stack = w :: rest ∧ w.Held c tos := by
    cases tos <;> first | exact h | exact absurd rfl taken
  exact ⟨w, rest, hx, held.isSome_ofValue?⟩

/-- The thread's word about debuggers is set as long as there is one. -/
def Activation.Watched (a : Activation) (v : Vm) (m : Guarded) : Prop :=
  load m.bytes (a.thread.toNat + 56) 4 = 0 → v.hooks.debugger = none

theorem Activation.Watched.confined {a : Activation} {v : Vm} {m m' : Guarded} (h : a.Watched v m)
    (hc : a.Confined m m') (low : a.thread.toNat + 0x1000 ≤ a.low) : a.Watched v m' := fun zero =>
  h <| ((hc.agrees (s := a.thread.toNat + 56) (t := a.thread.toNat + 60) (by omega)).load
    (Nat.le_refl _) (Nat.le_refl _)).symm.trans zero

namespace Stands

variable {P : Vm → Prop} {turns : Nat} {v : Vm} {q q' : UInt64} {c : Cpu} {m m' : Guarded}
  {a : Activation} {b : Program} {bcp p : UInt64} {x : Contents} {place : CodeLabel → UInt64}
  {ctx : CodeContext} {inStub : Bool} {K S : List CodeLabel} {tos : TopOfStack} {notice : Notice}
  {id : MethodId} {w : Value}

theorem told (h : Stands a b bcp p x v c m) : Stands a b bcp p x (v.told notice id) c m :=
  h.ofVm rfl { h.inhabits with }

/-- A service that tells the debugger finds the frame and the method of the activation. -/
theorem runNotice (h : Stands a b bcp p x v c m) {s : Service} (leaf : s.isLeaf = false)
    (performed : ∀ m steps watched,
      Vm.perform s ((v.moved s.address c m).counted steps watched) =
        Vm.notify notice ((v.moved s.address c m).counted steps watched))
    (known : b.classes.methodAt? a.method = some id) (go : v.LetsGo notice id)
    (sp : load m.bytes (a.thread.toNat + 16) 8 = p)
    (fp : load m.bytes (a.thread.toNat + 24) 8 = a.frame)
    (next : ∀ m', Stands a b bcp p x (v.told notice id) c m' →
      m.Changed m' (a.thread.toNat + 40) (a.thread.toNat + 44) →
      Vm.Arrives P turns ((v.told notice id).moved (c.reg .link) c m')) :
    Vm.Arrives P (turns + 1) (v.moved s.address c m) := by
  refine h.runFrameService leaf known sp fp fun m₁ h₁ changed₁ frame method => ?_
  have performs : v.Performs (v.told notice id) s c m₁ m₁ :=
    ⟨fun steps watched => (performed _ steps watched).trans
      (Vm.notify_letsGo (frame steps watched) (method steps watched) go), rfl,
      ⟨fun quiet => quiet, rfl, rfl⟩,
      rfl, rfl⟩
  exact ⟨_, m₁, performs, fun m' changed => next m'
    (h₁.told.outside changed (.inr (.inl ⟨by omega, by omega⟩))) (changed₁.trans changed)⟩

/-- The call of a service that tells the debugger changes nothing but what it tells. -/
theorem runNoticeCall (h : Stands a b bcp p x v c m) {s : Service} {args : List Register}
    (leaf : s.isLeaf = false) (placed : ∀ r ∈ (Register.arguments.drop 1).zip args, r.1 = r.2)
    (performed : ∀ c' m steps watched, c'.reg .x1 = c.reg .x1 →
      Vm.perform s ((v.moved s.address c' m).counted steps watched) =
        Vm.notify notice ((v.moved s.address c' m).counted steps watched))
    (lay : Lays ⟨v.image.code, place⟩ ctx inStub K S (Emit.callVm none s args) q q' ())
    (known : b.classes.methodAt? a.method = some id) (go : v.LetsGo notice id)
    (next : ∀ c' m', Stands a b bcp p x (v.told notice id) c' m' → a.Confined m m' →
      Vm.Arrives P turns ((v.told notice id).moved q' c' m')) :
    Vm.Arrives P (turns + 24) (v.moved q c m) := by
  have bounds := h.bounds
  have thread := h.fits.thread
  have operands := h.fits.operands
  have above := h.fits.top
  refine h.runCallVm lay placed fun c₁ m₁ K' r resume h₁ link _ same _ saved sp fp _ kept₁ => ?_
  refine h₁.runNotice leaf (fun m steps watched => performed c₁ m steps watched
    (same _ (by decide) (by decide) (by decide))) known go sp fp fun m₂ h₂ changed₂ => ?_
  rw [link]
  refine h₂.runResumeGuest resume ?_ nofun fun c₃ m₃ h₃ _ _ _ changed₃ => next c₃ m₃ h₃ ?_
  · rw [← saved]
    exact (changed₂.agrees (s := a.frame.toNat - 56) (t := a.frame.toNat - 48)
      (by omega)).load (Nat.le_refl _) (by omega)
  · exact kept₁.trans <| (Activation.Confined.of_changed changed₂ (by omega) thread
      (by omega)).trans (.of_changed changed₃ (by omega) thread (by omega))

/-- The debugger is told that the method is entered, if there is one. -/
theorem runNotifyEntry (h : Stands a b bcp p x v c m) (watched : a.Watched v m)
    (lay : Lays ⟨v.image.code, place⟩ ctx inStub K S notifyEntry q q' ())
    (known : b.classes.methodAt? a.method = some id) (go : v.LetsGo .entry id)
    (next : ∀ c' m', Stands a b bcp p x (v.told .entry id) c' m' → a.Confined m m' →
      Vm.Arrives P turns ((v.told .entry id).moved q' c' m')) :
    Vm.Arrives P (turns + 26) (v.moved q c m) := by
  unfold notifyEntry at lay
  obtain ⟨done, lay⟩ := lay.newLabel_bind
  obtain ⟨i₁, lay⟩ := lay.emit_bind
  obtain ⟨i₂, lay⟩ := lay.emitTo_bind
  obtain ⟨⟨⟩, r, call, lay⟩ := lay.split
  obtain ⟨here, rfl⟩ := lay.bind
  rw [here] at i₂
  refine h.runThreadLoad i₁ (by decide) rfl (.branchZero i₂ (fun zero => ?_) fun _ => ?_)
  · rw [Cpu.reg_setReg_self _ _ (by decide)] at zero
    have same : v.told .entry id = v := (Vm.told_eq (watched zero)).1
    rw [same] at next
    exact (next _ m (h.setReg .x3 _ rfl) (.refl a m)).le (by omega)
  · exact (h.setReg .x3 _ rfl).runNoticeCall rfl (by simp) (fun _ _ _ _ _ => rfl) call
      known go next

end Stands

/-- The debugger is told that the method is left with the held value, if there is one. -/
theorem Represents.runNotifyExit {P : Vm → Prop} {turns : Nat} {v : Vm} {q q' : UInt64} {c : Cpu}
    {m : Guarded} {a : Activation} {b : Program} {bcp : UInt64} {x : Contents}
    {place : CodeLabel → UInt64} {ctx : CodeContext} {inStub : Bool} {K S : List CodeLabel}
    {tos : TopOfStack} {id : MethodId}
    (h : Represents a b tos bcp x v c m) (closed : x.Closed)
    (roomy : a.Roomy ctx.settings b.maxStack) (watched : a.Watched v m)
    (lay : Lays ⟨v.image.code, place⟩ ctx inStub K S (notifyExit tos) q q' ())
    (known : b.classes.methodAt? a.method = some id) (go : v.LetsGo (.exit tos) id)
    (next : ∀ c' m', Represents a b tos bcp x (v.told (.exit tos) id) c' m' → a.Confined m m' →
      Vm.Arrives P turns ((v.told (.exit tos) id).moved q' c' m')) :
    Vm.Arrives P (turns + 39) (v.moved q c m) := by
  unfold notifyExit at lay
  obtain ⟨done, lay⟩ := lay.newLabel_bind
  obtain ⟨i₁, lay⟩ := lay.emit_bind
  obtain ⟨i₂, lay⟩ := lay.emitTo_bind
  obtain ⟨⟨⟩, r₁, pushed, lay⟩ := lay.split
  obtain ⟨i₃, lay⟩ := lay.emit_bind
  obtain ⟨⟨⟩, r₂, call, lay⟩ := lay.split
  obtain ⟨⟨⟩, r₃, popped, lay⟩ := lay.split
  obtain ⟨here, rfl⟩ := lay.bind
  rw [here] at i₂
  obtain ⟨bounded, rest, p, unheld, stands⟩ := h
  have unheld' : Unheld (c.setReg .x3 (load m.bytes (a.thread.toNat + 56) 4)) tos x.stack rest :=
    unheld.mono (Cpu.reg_setReg_ne _ _ (by decide)) (Cpu.float_setReg ..)
  have h₁ : Represents a b tos bcp x v (c.setReg .x3 (load m.bytes (a.thread.toNat + 56) 4)) m :=
    ⟨bounded, rest, p, unheld', stands.setReg .x3 _ rfl⟩
  have low := stands.fits.thread
  have operands := stands.fits.operands
  have above := stands.fits.top
  refine stands.runThreadLoad i₁ (by decide) rfl (.branchZero i₂ (fun zero => ?_) fun _ => ?_)
  · rw [Cpu.reg_setReg_self _ _ (by decide)] at zero
    have same : v.told (.exit tos) id = v := (Vm.told_eq (watched zero)).2 tos
    rw [same] at next
    exact (next _ m h₁ (.refl a m)).le (by omega)
  · refine h₁.runPush closed rfl roomy pushed fun p₁ c₁ m₁ h₁ changed₁ => .movImm i₃ ?_
    refine (h₁.setReg .x1 _ rfl).runNoticeCall rfl (by decide) ?_ call known go
      fun c₂ m₂ h₂ confined => ?_
    · intro c' m steps watched same
      have index : c'.reg .x1 = tos.index.toUInt64 := same.trans (Cpu.reg_setReg_self _ _ (by decide))
      have found : TopOfStack.ofIndex? (c'.reg .x1).toNat = some tos := by
        rw [index]
        cases tos <;> rfl
      rw [← Vm.methodExit_eq found]
      rfl
    · refine h₂.runHold closed roomy popped unheld.holds fun c₃ m₃ h₃ changed₃ => next c₃ m₃ h₃ ?_
      exact (Activation.Confined.of_changed changed₁ (by omega) low (by omega)).trans <|
        confined.trans (.of_changed changed₃ (by omega) low (by omega))

end TemplateVm
