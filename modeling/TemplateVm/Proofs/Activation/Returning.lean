import TemplateVm.Proofs.Activation.Notices
import TemplateVm.Proofs.Activation.Records
import TemplateVm.Proofs.Activation.Waiting
import TemplateVm.Proofs.Guest.Closed

set_option autoImplicit false
set_option synthInstance.maxSize 100000

/-!
# Returning to the caller

A method that returns tells the debugger once, with its value held, and gives its sender the
registers back. A method that an exception leaves tells nobody. Either way a synchronized method that
is past its entry unlocks its own monitor once, and one that is not unlocks nothing.
-/
namespace TemplateVm

open Memory (Guarded load)
open Guest Emit

variable {P : Vm → Prop} {turns : Nat} {v : Vm} {q q' : UInt64} {c : Cpu} {m m' : Guarded}
  {a : Activation} {b : Program} {bcp p : UInt64} {x : Contents} {place : CodeLabel → UInt64}
  {ctx : CodeContext} {inStub : Bool} {K S : List CodeLabel} {tos : TopOfStack} {id : MethodId}
  {n : Nat} {sender : Sender}

/-! ## The callee -/

/-- The activation of a method that has nothing to unlock is removed, and the debugger is told. -/
theorem Represents.runRemoveNotified (h : Represents a b tos bcp x v c m) (closed : x.Closed)
    (roomy : a.Roomy ctx.settings b.maxStack) (watched : a.Watched v m)
    (lockless : a.Lockless m) (sent : a.SentBy sender m) {policy : MonitorPolicy}
    (lay : Lays ⟨v.image.code, place⟩ ctx inStub K S (removeActivation tos policy true) q q' ())
    (known : b.classes.methodAt? a.method = some id) (go : v.LetsGo (.exit tos) id)
    (next : ∀ c' m' rest, sender.Resumed c' → c'.reg .thread = a.thread →
      Unheld c' tos x.stack rest → a.Confined m m' →
      Vm.Arrives P turns ((v.told (.exit tos) id).moved q' c' m')) :
    Vm.Arrives P (turns + 44 + (a.frame.toNat - a.top.toNat)) (v.moved q c m) := by
  obtain ⟨bounded, rest, p, unheld, h⟩ := h
  have bounds := h.bounds
  have low := h.fits.thread
  have operands := h.fits.operands
  have top := h.fits.top
  refine (Activation.Placed.of_stands h).runUnlock lockless lay
    fun c₁ m₁ K₁ S₁ r lay spares₁ changed₁ => ?_
  obtain ⟨⟨⟩, r₁, told, removed⟩ := lay.split
  simp only [whenM, ↓reduceIte] at told
  have h₁ := (h.spares spares₁ (by decide)).outside changed₁ (.inr (.inr (.inl ⟨by omega, by omega⟩)))
  have confined₁ : a.Confined m m₁ := .of_changed changed₁ (by omega) low (by omega)
  have r₁ : Represents a b tos bcp x v c₁ m₁ := ⟨bounded, rest, p,
    unheld.mono (spares₁.regs _ (by decide)) (spares₁.floats _), h₁⟩
  refine r₁.runNotifyExit closed roomy (watched.confined confined₁ low) told known go
    fun c₂ m₂ h₂ confined₂ => ?_
  obtain ⟨-, rest₂, p₂, unheld₂, h₂⟩ := h₂
  have confined := confined₁.trans confined₂
  refine (Activation.Placed.of_stands h₂).runRemoveFrame
    (sent.agrees (confined.agrees (by omega))) removed fun c₃ resumed spares₃ =>
      next c₃ m₂ rest₂ resumed ((spares₃.regs _ (by decide)).trans h₂.registers.thread)
        (unheld₂.mono (spares₃.regs _ (by decide)) (spares₃.floats _)) confined

/-- A value that is returned is checked before the activation is removed. -/
theorem Represents.runReturnBy (h : Represents a b tos bcp x v c m) (closed : x.Closed)
    (roomy : a.Roomy ctx.settings b.maxStack)
    (lay : Lays ⟨v.image.code, place⟩ ctx inStub K S (Template.returnValue tos) q q' ())
    (removes : ∀ c₁ m₁ K' S' q₁ r, Represents a b tos bcp x v c₁ m₁ →
      m.Changed m₁ a.low a.top.toNat →
      Lays ⟨v.image.code, place⟩ ctx inStub K' S' (removeActivation tos .throwing true) q₁ r () →
      v.image.code.Fetches r (.ret .link) → Vm.Arrives P turns (v.moved q₁ c₁ m₁)) :
    Vm.Arrives P (turns + 5) (v.moved q c m) := by
  have leave {c₁ : Cpu} {m₁ : Guarded} {q₁ : UInt64} (h₁ : Represents a b tos bcp x v c₁ m₁)
      (changed : m.Changed m₁ a.low a.top.toNat)
      (lay : Lays ⟨v.image.code, place⟩ ctx inStub K S (do
        removeActivation tos .throwing true
        ret .link) q₁ q' ()) : Vm.Arrives P turns (v.moved q₁ c₁ m₁) := by
    obtain ⟨⟨⟩, r, removed, lay⟩ := lay.split
    exact removes c₁ m₁ _ _ q₁ r h₁ changed removed lay.emit.1
  unfold Template.returnValue at lay
  by_cases object : tos = .object
  · subst object
    obtain ⟨⟨⟩, q₁, checked, lay⟩ := (lay.ite_pos rfl).split
    obtain ⟨bounded, rest, p, ⟨w, hx, held⟩, stands⟩ := h
    cases w with
    | object reference =>
      have top := stands.top
      refine stands.verifyReference checked roomy ?_ fun c₁ m₁ h₁ same _ changed => leave
        ⟨bounded, rest, p, ⟨_, hx, (same _ (by decide)).trans held⟩, h₁⟩
        (changed.mono (Nat.le_refl _) (by omega)) lay
      rw [show c.reg .x0 = reference from held]
      refine stands.valid (y := x) rfl closed ?_
      rw [hx]
      exact List.mem_cons_self
    | _ => exact held.elim
  · exact (leave h (.refl m _ _) (lay.ite_neg object)).le (by omega)

/-- A method that returns tells the debugger once. -/
theorem Represents.runReturn (h : Represents a b tos bcp x v c m) (closed : x.Closed)
    (roomy : a.Roomy ctx.settings b.maxStack) (watched : a.Watched v m)
    (unlocked : a.Unlocked n m) (sent : a.SentBy sender m)
    (lay : Lays ⟨v.image.code, place⟩ ctx inStub K S (Template.returnValue tos) q q' ())
    (known : b.classes.methodAt? a.method = some id) (go : v.LetsGo (.exit tos) id)
    (next : ∀ c' m' rest, sender.Resumed c' → c'.reg .thread = a.thread →
      Unheld c' tos x.stack rest → a.Confined m m' →
      Vm.Arrives P turns ((v.told (.exit tos) id).moved sender.link c' m')) :
    Vm.Arrives P (turns + 45 + (a.frame.toNat - a.top.toNat) + 5) (v.moved q c m) := by
  refine h.runReturnBy closed roomy lay fun c₁ m₁ _ _ q₁ r h₁ changed removed i => ?_
  have ⟨_, _, _, _, stands⟩ := h₁
  have low := stands.fits.thread
  have heap := stands.fits.heap
  have operands := stands.fits.operands
  have top := stands.fits.top
  have confined₁ : a.Confined m m₁ := .of_changed changed (by omega) low (by omega)
  refine h₁.runRemoveNotified closed roomy (watched.confined confined₁ low)
    (.free (unlocked.changed changed (by omega) (.inl (Nat.le_refl _))))
    (sent.agrees (confined₁.agrees (by omega))) removed known go
    fun c₂ m₂ rest₂ resumed thread unheld confined₂ => .ret i ?_
  rw [resumed.link]
  exact next c₂ m₂ rest₂ resumed thread unheld (confined₁.trans confined₂)

/-! ## A synchronized callee -/

/-- A synchronized method is past its entry. It holds its own monitor by the record next to the frame,
    and no other one; `n` records are free. -/
structure Activation.OwnLock (a : Activation) (n : Nat) (r : UInt64) (v : Vm) (m : Guarded)
    (heap : Heap) (marks : UInt64 → UInt64) (held : List UInt64) : Prop where
  flagged : a.Flagged (load m.bytes (a.method.toNat + 8) 4) m
  synchronized : load m.bytes (a.method.toNat + 8) 4 &&& Access.synchronizedBit.toUInt64 ≠ 0
  entered : load m.bytes (a.thread.toNat + 52) 1 = 0
  locks : a.Locks v m heap marks (List.replicate n 0 ++ [r]) held
  mem : r ∈ held

/-- The thread's words about the last frame count as little as the operands. -/
theorem Activation.OwnLock.changed {r : UInt64} {heap : Heap} {marks : UInt64 → UInt64}
    {held : List UInt64} {t : ClassTable} {l s lo hi : Nat} (h : a.OwnLock n r v m heap marks held)
    (stored : a.HoldsHeap t m heap) (fits : a.Fits l s m) (hc : m.Changed m' lo hi)
    (away : a.thread.toNat + 8 ≤ lo ∧ hi ≤ a.thread.toNat + 48 ∨ a.low ≤ lo ∧ hi ≤ a.top.toNat) :
    a.OwnLock n r v m' heap marks held := by
  have below := h.flagged.below
  have low := fits.heap
  have thread := fits.thread
  have operands := fits.operands
  have top := fits.top
  have flags : load m'.bytes (a.method.toNat + 8) 4 = load m.bytes (a.method.toNat + 8) 4 :=
    (hc.agrees (s := 0) (t := a.heap.toNat) (by omega)).load (by omega) (by omega)
  exact {
    flagged := by
      rw [flags]
      exact h.flagged.agrees (hc.agrees (by omega)) (hc.agrees (by omega))
    synchronized := by
      rw [flags]
      exact h.synchronized
    entered := ((hc.agrees (s := a.thread.toNat + 52) (t := a.thread.toNat + 53) (by omega)).load
      (Nat.le_refl _) (Nat.le_refl _)).trans h.entered
    locks := h.locks.agrees stored (hc.agrees (by omega)) (hc.agrees (by omega))
    mem := h.mem }

/-- The record of the method's own monitor is the last one. -/
theorem Activation.record_first {objects : List UInt64} (monitors : a.Monitors objects m)
    (length : objects.length = n + 1) : a.frame + Frame.firstMonitor = a.record n := by
  have records := monitors.records
  have eighty : (80 : UInt64).toNat = 80 := rfl
  rw [← UInt64.toNat_inj, monitors.toNat_record (by omega)]
  change (a.frame + -80).toNat = _
  rw [toNat_add_neg (by omega)]
  omega

section
variable {r : UInt64} {o : Object} {marks : UInt64 → UInt64} {held : List UInt64}
  {policy : MonitorPolicy} {notify : Bool}

/-- A synchronized method that holds its own monitor and no other one unlocks it once. -/
theorem Represents.runRelease (h : Represents a b tos bcp x v c m) (closed : x.Closed)
    (roomy : a.Roomy ctx.settings b.maxStack) (own : a.OwnLock n r v m x.heap marks held)
    (there : x.heap r = some o)
    (lay : Lays ⟨v.image.code, place⟩ ctx inStub K S (removeActivation tos policy notify) q q' ())
    (next : ∀ v' c' m' K' S' q₁, Lays ⟨v'.image.code, place⟩ ctx inStub K' S' (do
        whenM notify (notifyExit tos)
        removeFrame) q₁ q' () →
      Represents a b tos bcp x v' c' m' →
      a.Locks v' m' x.heap marks (List.replicate (n + 1) 0) (held.erase r) →
      a.Relocked r v m v' m' → m.Agrees m' (a.thread.toNat + 8) (a.thread.toNat + 16) →
      Vm.Arrives P turns (v'.moved q₁ c' m')) :
    Vm.Arrives P (turns + (5 * n + 56)) (v.moved q c m) := by
  obtain ⟨pushed, unlock, popped, freed, left, laid⟩ := lay.removal
  obtain ⟨_, _, push⟩ := laid.push
  obtain ⟨_, _, unlocking⟩ := laid.unlocking
  obtain ⟨_, _, pop⟩ := laid.pop
  obtain ⟨_, _, others⟩ := laid.others
  obtain ⟨_, _, rest⟩ := laid.rest
  obtain ⟨bounded, rest', p, unheld, stands⟩ := h
  have records := own.locks.monitors.records
  have length : (List.replicate n 0 ++ [r]).length = n + 1 := by simp
  rw [length] at records
  have low := stands.fits.records
  have heap := stands.fits.heap
  have thread := stands.fits.thread
  have operands := stands.fits.operands
  have top := stands.fits.top
  have frame := stands.fits.frame
  have bounds := stands.bounds
  refine (Activation.Placed.of_stands stands).runBeginRemoval own.flagged laid
    (fun plain => absurd plain own.synchronized) (fun _ some => absurd own.entered some)
    fun _ _ c₁ m₁ spares₁ changed₁ => ?_
  have h₁ : Represents a b tos bcp x v c₁ m₁ := ⟨bounded, rest', p,
    unheld.mono (spares₁.regs _ (by decide)) (spares₁.floats _),
    (stands.spares spares₁ (by decide)).outside changed₁ (.inr (.inr (.inl ⟨by omega, by omega⟩)))⟩
  refine h₁.runPush closed rfl roomy push fun p₂ c₂ m₂ h₂ changed₂ => .binary laid.record ?_
  have locks₂ : a.Locks v m₂ x.heap marks (List.replicate n 0 ++ [r]) held :=
    own.locks.agrees stands.heap
      ((changed₁.agrees (by omega)).trans (changed₂.agrees (by omega)))
      ((changed₁.agrees (by omega)).trans (changed₂.agrees (by omega)))
  have named : (List.replicate n 0 ++ [r])[n]? = some r := by simp
  have record : (c₂.setReg .x1 (a.record n)).reg .x1 = a.record n :=
    Cpu.reg_setReg_self _ _ (by decide)
  rw [h₂.registers.frame]
  change Vm.Arrives P _ (v.moved _ (c₂.setReg .x1 (a.frame + Frame.firstMonitor)) m₂)
  rw [Activation.record_first locks₂.monitors length]
  obtain ⟨names, -, -⟩ := h₂.names locks₂.monitors there named
  refine .loadAt record laid.object rfl names.named names.object ?_
  have h₃ := (h₂.setReg .x1 (a.record n) rfl).setReg .x0 r rfl
  refine .branchNonzero laid.held (fun _ => ?_) fun zero =>
    absurd ((Cpu.reg_setReg_self _ _ (by decide)).symm.trans zero) (h₂.ne_zero there)
  refine h₃.runUnlock locks₂ there named ((Cpu.reg_setReg_ne _ _ (by decide)).trans record) own.mem
    unlocking fun v₄ c₄ m₄ h₄ locks₄ relocked result => ?_
  rw [← relocked.image] at pop others rest
  refine h₄.runHold closed roomy pop unheld.holds fun c₅ m₅ h₅ changed₅ => ?_
  have ⟨_, rest₅, p₅, unheld₅, stands₅⟩ := h₅
  have locks₅ := locks₄.agrees h₄.heap (changed₅.agrees (.inl (by omega)))
    (changed₅.agrees (by omega))
  have emptied : (List.replicate n 0 ++ [r]).set n 0 = List.replicate (n + 1) 0 := by
    rw [List.set_append_right _ _ (by simp), List.length_replicate, Nat.sub_self,
      List.replicate_succ']
    rfl
  rw [emptied] at locks₅
  have freed₅ : a.Freed (n + 1) m₅ := by
    refine ⟨stands₅.framed.top, records, fun k hk => locks₅.monitors.names k 0 ?_⟩
    rw [List.getElem?_replicate, if_pos hk]
  refine (Activation.Placed.of_stands stands₅).runFreeMonitors freed₅ others fun c₆ spares₆ => ?_
  refine next v₄ c₆ m₅ _ _ _ rest ⟨bounded, rest₅, p₅,
    unheld₅.mono (spares₆.regs _ (by decide)) (spares₆.floats _), stands₅.spares spares₆ (by decide)⟩
    locks₅ ?_ ?_
  · exact (Activation.Relocked.of_confined (.of_changed changed₁ (by omega) thread (by omega))).trans <|
      (Activation.Relocked.of_confined (.of_changed changed₂ (by omega) thread (by omega))).trans <|
      relocked.trans (.of_confined (.of_changed changed₅ (by omega) thread (by omega)))
  · exact (changed₁.agrees (by omega)).trans <| (changed₂.agrees (by omega)).trans <|
      result.trans (changed₅.agrees (by omega))

/-- The activation of a synchronized method is removed, and the debugger is told. -/
theorem Represents.runRemoveReleased (h : Represents a b tos bcp x v c m) (closed : x.Closed)
    (roomy : a.Roomy ctx.settings b.maxStack) (watched : a.Watched v m)
    (own : a.OwnLock n r v m x.heap marks held) (there : x.heap r = some o) (sent : a.SentBy sender m)
    (lay : Lays ⟨v.image.code, place⟩ ctx inStub K S (removeActivation tos policy true) q q' ())
    (known : b.classes.methodAt? a.method = some id) (go : v.LetsGo (.exit tos) id)
    (next : ∀ v' c' m' rest, sender.Resumed c' → c'.reg .thread = a.thread →
      Unheld c' tos x.stack rest → v'.Accounts m' x.heap marks (held.erase r) →
      a.Relocked r v m v' m' → Vm.Arrives P turns ((v'.told (.exit tos) id).moved q' c' m')) :
    Vm.Arrives P (turns + 44 + (5 * n + 56)) (v.moved q c m) := by
  refine h.runRelease closed roomy own there lay
    fun v₁ c₁ m₁ K' S' q₁ lay h₁ locks₁ relocked _ => ?_
  have ⟨_, _, _, _, stands⟩ := h₁
  have thread := stands.fits.thread
  have operands := stands.fits.operands
  have top := stands.fits.top
  have below := stands.heap.below r o there
  have size := o.sixteen_le_size
  obtain ⟨⟨⟩, r₁, told, removed⟩ := lay.split
  simp only [whenM, ↓reduceIte] at told
  have go₁ : v₁.LetsGo (.exit tos) id := by
    obtain ⟨_, rfl⟩ := relocked.table
    exact go
  have watched₁ : a.Watched v₁ m₁ := fun zero => by
    rw [relocked.hooks]
    exact watched (((relocked.kept (a.thread.toNat + 56) (a.thread.toNat + 60) (.inr (by omega))
      (by omega)).load (Nat.le_refl _) (Nat.le_refl _)).symm.trans zero)
  refine h₁.runNotifyExit closed roomy watched₁ told known go₁ fun c₂ m₂ h₂ confined => ?_
  obtain ⟨-, rest₂, p₂, unheld₂, h₂⟩ := h₂
  have relocked₂ := relocked.trans (.of_confined confined)
  have sent₂ := sent.agrees (relocked₂.kept _ _ (.inr (by omega)) (by omega))
  refine (Activation.Placed.of_stands h₂).runRemoveFrame sent₂ removed fun c₃ resumed spares₃ =>
    next v₁ c₃ m₂ rest₂ resumed ((spares₃.regs _ (by decide)).trans h₂.registers.thread)
      (unheld₂.mono (spares₃.regs _ (by decide)) (spares₃.floats _)) ?_ relocked₂
  exact locks₁.accounts.agrees stands.heap (confined.agrees (.inl (by omega)))

/-- A synchronized method that returns unlocks its own monitor once and tells the debugger once. -/
theorem Represents.runReturnReleased (h : Represents a b tos bcp x v c m) (closed : x.Closed)
    (roomy : a.Roomy ctx.settings b.maxStack) (watched : a.Watched v m)
    (own : a.OwnLock n r v m x.heap marks held) (there : x.heap r = some o) (sent : a.SentBy sender m)
    (lay : Lays ⟨v.image.code, place⟩ ctx inStub K S (Template.returnValue tos) q q' ())
    (known : b.classes.methodAt? a.method = some id) (go : v.LetsGo (.exit tos) id)
    (next : ∀ v' c' m' rest, sender.Resumed c' → c'.reg .thread = a.thread →
      Unheld c' tos x.stack rest → v'.Accounts m' x.heap marks (held.erase r) →
      a.Relocked r v m v' m' →
        Vm.Arrives P turns ((v'.told (.exit tos) id).moved sender.link c' m')) :
    Vm.Arrives P (turns + 45 + (5 * n + 56) + 5) (v.moved q c m) := by
  have ⟨_, _, _, _, stands⟩ := h
  have low := stands.fits.thread
  have operands := stands.fits.operands
  have top := stands.fits.top
  refine h.runReturnBy closed roomy lay fun c₁ m₁ _ _ q₁ r₁ h₁ changed removed i => ?_
  have confined₁ : a.Confined m m₁ := .of_changed changed (by omega) low (by omega)
  refine h₁.runRemoveReleased closed roomy (watched.confined confined₁ low)
    (own.changed stands.heap stands.fits changed (.inr (by omega))) there
    (sent.agrees (confined₁.agrees (by omega))) removed known go
    fun v₂ c₂ m₂ rest₂ resumed thread unheld accounts relocked => ?_
  have returns : (v₂.told (.exit tos) id).image.code.Fetches r₁ (.ret .link) := by
    obtain ⟨_, rfl⟩ := relocked.table
    exact i
  refine .ret returns ?_
  rw [resumed.link]
  exact next v₂ c₂ m₂ rest₂ resumed thread unheld accounts
    ((Activation.Relocked.of_confined confined₁).trans relocked)

end

/-- A method that returns to an interpreted caller tells the debugger once. The caller goes on behind
    the call with its own operands and variables, and the result is held. -/
theorem Represents.runReturnToCaller {d : Activation} {b' : Program} {bcp' : UInt64} {y : Contents}
    {place' : CodeLabel → UInt64} {ctx' : CodeContext} {inStub' : Bool} {K' S' : List CodeLabel}
    {saved words step r entry : UInt64} {bytes index : Nat} {c₀ : Cpu} {op : Bytecode.Operation}
    (callee : Represents d b' tos bcp' y v c m) (closed : y.Closed)
    (roomy : d.Roomy ctx.settings b'.maxStack) (watched : d.Watched v m)
    (unlocked : d.Unlocked n m) (sent : d.SentBy sender m)
    (lay : Lays ⟨v.image.code, place⟩ ctx inStub K S (Template.returnValue tos) q q' ())
    (known : b'.classes.methodAt? d.method = some id) (go : v.LetsGo (.exit tos) id)
    (caller : Stands a b bcp p x v c₀ m) (below : d.Below a p) (frame : sender.frame = a.frame)
    (suspended : a.Suspended bcp saved m) (resumable : a.Resumable bcp words bytes index m)
    (wide : bytes = 2 ∨ bytes = 4) (arguments : saved + words <<< 3 = p)
    (behind : Lays ⟨v.image.code, place'⟩ ctx' inStub' K' S' (returnEntry tos step bytes)
      sender.link r entry)
    (hm : op ∈ Bytecode.decode b.code) (there : bcp + step = a.code + op.bci.toUInt64)
    (next : ∀ c' m' rest, Stands a b (bcp + step) p x (v.told (.exit tos) id) c' m' →
      Unheld c' tos y.stack rest → Vm.Arrives P turns ((v.told (.exit tos) id).moved
        (v.image.normalTable.get tos op.opcode.byte) c' m')) :
    Vm.Arrives P (turns + 67 + (d.frame.toNat - d.top.toNat) + 5) (v.moved q c m) := by
  have fits := caller.fits
  have records := fits.records
  have heap := fits.heap
  have bounds := caller.bounds
  have under := caller.top
  have top := fits.top
  have thread := below.thread
  have callee' := below.frame
  refine callee.runReturn closed roomy watched unlocked sent lay known go
    fun c₁ m₁ rest resumed own unheld confined => ?_
  have suspended₁ : a.Suspended bcp saved m₁ := suspended.agrees (by omega)
    (confined.agrees (by omega)) (confined.agrees (by omega))
  have resumable₁ : a.Resumable bcp words bytes index m₁ := resumable.agrees caller.loaded.cacheAbove
    (confined.agrees (.inl (by rw [thread]; omega)))
  refine (Activation.Placed.runReturnEntry (own.trans thread) (resumed.frame.trans frame)
    (caller.confined confined below).told suspended₁ resumable₁ wide arguments behind hm there
    fun c₂ m₂ h₂ x0 v0 => next c₂ m₂ rest h₂ (unheld.mono x0 v0)).2

/-! ## Unwinding -/

/-- Where an exception goes that leaves a method with the return address. -/
def Image.Handles (i : Image) (link handler : UInt64) : Prop :=
  if i.contains link then handler = i.exceptions.rethrow
  else link = i.stubs.callStubReturn ∧ handler = i.stubs.catchException

theorem Vm.handlerForReturnAddress_ok {link handler : UInt64} (h : v.image.Handles link handler)
    (steps : UInt64) (watched : List (UInt64 × UInt64)) :
    handlerForReturnAddress link ((v.moved p c m).counted steps watched) =
      .ok handler ((v.moved p c m).counted steps watched) := by
  unfold handlerForReturnAddress
  refine (bind_ok (m := (get : Action Vm)) rfl).trans ?_
  rw [show ((v.moved p c m).counted steps watched).image = v.image from rfl]
  by_cases interpreted : v.image.contains link = true
  · rw [if_pos interpreted, show handler = v.image.exceptions.rethrow by
      simpa only [Image.Handles, interpreted, ↓reduceIte] using h]
    rfl
  · simp only [Image.Handles, interpreted, Bool.false_eq_true, ↓reduceIte] at h
    rw [if_neg interpreted, if_pos h.1, h.2]
    rfl

namespace Emit

/-- The exception in the first register goes to where the sender handles exceptions. -/
def forwarding : Emit Unit := do
  stp Register.x0 Register.link (.pre .sp (-16))
  callLeaf .handlerForReturnAddress [.thread, .link]
  mov Register.x1 Register.x0
  ldp Register.x0 Register.link (.post .sp 16)
  mov Register.x3 Register.link
  br Register.x1

/-- The exception on top of the operands leaves the activation. -/
def unwinding : Emit Unit := do
  popWord Register.x0
  str Register.x0 (threadField ThreadBlock.vmResult)
  removeActivation .none .installing false
  loadVmResult Register.x0
  forwarding

end Emit

instance Orderly.forwarding {b : Bool} : Orderly ctx b K S S 20 forwarding := by
  unfold Emit.forwarding
  exact upto inferInstance (by decide)

/-- Arguments are moved one after the other. -/
def Cpu.passed (c : Cpu) (moves : List (Register × Register)) : Cpu :=
  moves.foldl (fun c move => c.setReg move.1 (c.reg move.2)) c

theorem Vm.runPassArguments {rs args : List Register}
    (lay : Lays ⟨v.image.code, place⟩ ctx inStub K S (passArguments rs args) q q' ())
    (next : Vm.Arrives P turns (v.moved q' (c.passed (rs.zip args)) m)) :
    Vm.Arrives P (turns + rs.length) (v.moved q c m) := by
  unfold Emit.passArguments at lay
  suffices passed : Vm.Arrives P (turns + (rs.zip args).length) (v.moved q c m) from
    passed.le (by rw [List.length_zip]; omega)
  revert next
  generalize rs.zip args = moves at lay
  induction moves generalizing c q with
  | nil =>
    obtain ⟨rfl, -⟩ := lay.ended
    exact id
  | cons move moves ih =>
    intro next
    have each (x : Register × Register) :
        Orderly ctx inStub K S S 1 (if x.1 = x.2 then pure () else mov x.1 x.2) :=
      Orderly.upto inferInstance (by decide)
    obtain ⟨r, first, rest⟩ := Lays.forM_cons (o := each) lay
    by_cases same : move.1 = move.2
    · obtain ⟨rfl, -⟩ := (first.ite_pos same).ended
      refine (ih rest ?_).le (Nat.le_succ _)
      rwa [Cpu.passed, List.foldl_cons, ← same, Cpu.setReg_reg] at next
    · obtain ⟨i, rfl⟩ := (first.ite_neg same).emit
      exact .mov i (ih rest next)

/-- A leaf is called with its arguments in the first registers. -/
theorem Vm.runCallLeaf {s : Service} {args : List Register}
    (lay : Lays ⟨v.image.code, place⟩ ctx inStub K S (callLeaf s args) q q' ())
    (next : Vm.Arrives P turns (v.moved s.address (((c.passed (Register.arguments.zip args)).setReg
      .scratch1 s.address).setReg .link q') m)) : Vm.Arrives P (turns + 10) (v.moved q c m) := by
  unfold Emit.callLeaf at lay
  obtain ⟨⟨⟩, r, moved, lay⟩ := lay.split
  obtain ⟨i₁, lay⟩ := lay.emit_bind
  obtain ⟨i₂, rfl⟩ := lay.emit
  refine Vm.runPassArguments moved (.movImm i₁ (.callTo i₂ ?_))
  rw [Cpu.reg_setReg_self _ _ (by decide)]
  exact next

/-- The machine is asked where an exception goes that leaves a method with the return address in the
    register. -/
theorem Vm.runAskHandler {r : Register} {handler : UInt64} (other : r ≠ .x0)
    (handles : v.image.Handles (c.reg r) handler)
    (lay : Lays ⟨v.image.code, place⟩ ctx inStub K S
      (callLeaf .handlerForReturnAddress [.thread, r]) q q' ())
    (next : ∀ c', c.Spares c' [.x0, .x1, .scratch1, .link] → c'.reg .x0 = handler →
      Vm.Arrives P turns (v.moved q' c' m)) : Vm.Arrives P (turns + 11) (v.moved q c m) := by
  refine Vm.runCallLeaf lay ?_
  have passed : c.passed (Register.arguments.zip [.thread, r]) =
      (c.setReg .x0 (c.reg .thread)).setReg .x1 (c.reg r) := by
    change (c.setReg .x0 (c.reg .thread)).setReg .x1 ((c.setReg .x0 (c.reg .thread)).reg r) = _
    rw [Cpu.reg_setReg_ne _ _ other]
  rw [passed]
  generalize hc : Cpu.setReg _ .link q' = c₁
  have spares : c.Spares c₁ [.x0, .x1, .scratch1, .link] := hc ▸
    ((((Cpu.Spares.refl c _).setReg (by simp) _).setReg (by simp) _).setReg (by simp) _).setReg
      (by simp) _
  have asked : c₁.reg .x1 = c.reg r := by
    rw [← hc, Cpu.reg_setReg_ne _ _ (by decide), Cpu.reg_setReg_ne _ _ (by decide),
      Cpu.reg_setReg_self _ _ (by decide)]
  have returns : c₁.reg .link = q' := hc ▸ Cpu.reg_setReg_self _ _ (by decide)
  refine .leafResult (n := handler) rfl (fun steps watched => ?_) ?_
  · refine (Vm.bind_ok (m := Vm.reg .x0) rfl).trans <| (Vm.bind_ok (m := Vm.reg .x1) rfl).trans <|
      (Vm.bind_ok (m := Vm.reg .x2) rfl).trans <| Vm.bind_ok
        (Vm.handlerForReturnAddress_ok (p := Service.handlerForReturnAddress.address) ?_ steps
          watched)
    change v.image.Handles (c₁.reg .x1) handler
    rwa [asked]
  · rw [returns]
    exact next _ (spares.setReg (r := .x0) (by simp) handler) (Cpu.reg_setReg_self _ _ (by decide))

/-- The sender's handler gets the exception, and the return address. -/
theorem Vm.runForwarding {e handler link sp : UInt64} {lo hi : Nat}
    (exception : c.reg .x0 = e) (returns : c.reg .link = link) (pointer : c.reg .sp = sp)
    (handles : v.image.Handles link handler) (clear : m.Clear lo hi) (low : lo + 16 ≤ sp.toNat)
    (high : sp.toNat ≤ hi)
    (lay : Lays ⟨v.image.code, place⟩ ctx inStub K S Emit.forwarding q q' ())
    (next : ∀ c' m', c'.reg .x0 = e → c'.reg .x3 = link →
      c.Spares c' [.x0, .x1, .x3, .scratch1, .link, .sp] → c'.reg .link = link →
      c'.reg .sp = sp → m.Changed m' (sp.toNat - 16) sp.toNat →
      Vm.Arrives P turns (v.moved handler c' m')) : Vm.Arrives P (turns + 16) (v.moved q c m) := by
  unfold Emit.forwarding at lay
  obtain ⟨i₁, lay⟩ := lay.emit_bind
  obtain ⟨⟨⟩, r, called, lay⟩ := lay.split
  obtain ⟨i₂, lay⟩ := lay.emit_bind
  obtain ⟨i₃, lay⟩ := lay.emit_bind
  obtain ⟨i₄, lay⟩ := lay.emit_bind
  obtain ⟨i₅, rfl⟩ := lay.emit
  have eight : (8 : UInt64).toNat = 8 := rfl
  have sixteen : (16 : UInt64).toNat = 16 := rfl
  have bound := sp.toNat_lt
  have slot : (sp + -16).toNat = sp.toNat - 16 := toNat_add_neg (by omega)
  have second : (sp + -16 + 8).toNat = sp.toNat - 8 := by
    rw [toNat_add_of_lt (by omega)]
    omega
  have back : sp + -16 + 16 = sp := by
    rw [UInt64.add_assoc]
    exact UInt64.add_zero _
  refine .pushPair i₁ (n := sp + -16) (pointer.trans back.symm) clear (by omega) (by omega)
    (by omega) fun m₁ changed first last => ?_
  rw [exception, slot] at first
  rw [returns, slot, show sp.toNat - 16 + 8 = sp.toNat - 8 by omega] at last
  rw [slot, show sp.toNat - 16 + 16 = sp.toNat by omega] at changed
  have spares₁ := (Cpu.Spares.refl c [.x0, .x1, .x3, .scratch1, .link, .sp]).setReg (r := .sp)
    (by simp) (sp + -16)
  have handled : v.image.Handles ((c.setReg .sp (sp + -16)).reg .link) handler := by
    rwa [Cpu.reg_setReg_ne _ _ (by decide), returns]
  refine Vm.runAskHandler (by decide) handled called fun c₁ spares₁ answer => ?_
  have sp₁ : (c₁.setReg .x1 handler).reg .sp = sp + -16 := by
    rw [Cpu.reg_setReg_ne _ _ (by decide), spares₁.regs _ (by decide),
      Cpu.reg_setReg_self _ _ (by decide)]
  have clear₁ := clear.changed changed
  refine .mov i₂ ?_
  rw [answer]
  refine .loadPair i₃ ?_ ?_ ?_
  · rw [Cpu.target_post, sp₁]
    exact clear₁.open (by omega) (by omega)
  · rw [Cpu.target_post, sp₁]
    exact clear₁.open (by omega) (by omega)
  rw [Cpu.target_post, Cpu.rebase_post, sp₁, slot, second, first, last, back]
  refine .mov i₄ ?_
  rw [Cpu.reg_setReg_self _ _ (by decide)]
  refine .branchTo i₅ ?_
  have spares : c.Spares (((((c₁.setReg .x1 handler).setReg .sp sp).setReg .x0 e).setReg .link
      link).setReg .x3 link) [.x0, .x1, .x3, .scratch1, .link, .sp] := by
    have first := ((Cpu.Spares.refl c [.x0, .x1, .x3, .scratch1, .link, .sp]).setReg (r := .sp)
      (by simp) (sp + -16)).trans (spares₁.mono (by decide))
    exact ((((first.setReg (r := .x1) (by simp) _).setReg (r := .sp) (by simp) _).setReg
      (r := .x0) (by simp) _).setReg (r := .link) (by simp) _).setReg (r := .x3) (by simp) _
  have target : (((((c₁.setReg .x1 handler).setReg .sp sp).setReg .x0 e).setReg .link link).setReg
      .x3 link).reg .x1 = handler := by
    simp +decide only [Cpu.reg_setReg, ↓reduceIte]
  rw [target]
  refine next _ m₁ ?_ (Cpu.reg_setReg_self _ _ (by decide)) spares ?_ ?_ changed <;>
    simp +decide only [Cpu.reg_setReg, ↓reduceIte]

/-- What waits in the thread's block is taken from there. -/
theorem Vm.runLoadVmResult {thread e : UInt64} (own : c.reg .thread = thread)
    (ok : m.Open (thread + ThreadBlock.vmResult) 8)
    (holds : load m.bytes (thread + ThreadBlock.vmResult).toNat 8 = e)
    (lay : Lays ⟨v.image.code, place⟩ ctx inStub K S (loadVmResult .x0) q q' ())
    (next : Vm.Arrives P turns (v.moved q' (c.setReg .x0 e)
      (m.put (thread + ThreadBlock.vmResult) 8 0))) : Vm.Arrives P (turns + 2) (v.moved q c m) := by
  unfold loadVmResult at lay
  obtain ⟨i₁, lay⟩ := lay.emit_bind
  obtain ⟨i₂, rfl⟩ := lay.emit
  refine .loadAt own i₁ rfl ok holds <|
    .storeAt ((Cpu.reg_setReg_ne _ _ (by decide)).trans own) i₂ ok ?_
  rw [Cpu.reg_zero]
  exact next

/-- The exception that waits goes on where the sender handles exceptions. -/
theorem Vm.runPassOn {thread e handler : UInt64} (resumed : sender.Resumed c)
    (own : c.reg .thread = thread) (ok : m.Open (thread + ThreadBlock.vmResult) 8)
    (holds : load m.bytes (thread + ThreadBlock.vmResult).toNat 8 = e)
    (handles : v.image.Handles sender.link handler)
    (clear : m.Clear (sender.sp.toNat - 16) sender.sp.toNat) (room : 16 ≤ sender.sp.toNat)
    (lay : Lays ⟨v.image.code, place⟩ ctx inStub K S (do loadVmResult .x0; forwarding) q q' ())
    (next : ∀ c' m₁ m', sender.Resumed c' → c'.reg .thread = thread → c'.reg .x0 = e →
      c'.reg .x3 = sender.link → m.Changed m₁ (thread + ThreadBlock.vmResult).toNat
        ((thread + ThreadBlock.vmResult).toNat + 8) →
      m₁.Changed m' (sender.sp.toNat - 16) sender.sp.toNat →
      Vm.Arrives P turns (v.moved handler c' m')) : Vm.Arrives P (turns + 18) (v.moved q c m) := by
  obtain ⟨⟨⟩, r, loaded, forwarded⟩ := lay.split
  have changed := Guarded.changed_put m (thread + ThreadBlock.vmResult) 8 0
  refine Vm.runLoadVmResult own ok holds loaded ?_
  refine Vm.runForwarding (Cpu.reg_setReg_self _ _ (by decide))
    ((Cpu.reg_setReg_ne _ _ (by decide)).trans resumed.link)
    ((Cpu.reg_setReg_ne _ _ (by decide)).trans resumed.sp) handles (clear.changed changed)
    (by omega) (Nat.le_refl _) forwarded fun c₁ m₁ x0 x3 spares link sp changed₁ => ?_
  have same (s : Register) (free : s ∉ [Register.x0, .x1, .x3, .scratch1, .link, .sp]) :
      c₁.reg s = c.reg s :=
    (spares.regs s free).trans (Cpu.reg_setReg_ne _ _ fun e => free (by simp [e]))
  exact next c₁ _ m₁ ⟨(same _ (by decide)).trans resumed.frame,
    (same _ (by decide)).trans resumed.operands, sp, link⟩ ((same _ (by decide)).trans own) x0 x3
    changed changed₁

/-- An exception that leaves a method waits in the thread's block while the activation is removed, in
    one way or another, and then goes on in the sender. The debugger is told nothing. -/
theorem Stands.runUnwindingBy {others : Nat} {R : Vm → Guarded → Prop} {e handler : UInt64}
    {rest : List Value}
    (h : Stands a b bcp p x v c m) (turns : Nat) (hx : x.stack = .object e :: rest)
    (handles : v.image.Handles sender.link handler)
    (clear : m.Clear (sender.sp.toNat - 16) sender.sp.toNat) (room : 16 ≤ sender.sp.toNat)
    (lay : Lays ⟨v.image.code, place⟩ ctx inStub K S unwinding q q' ())
    (removes : ∀ c₁ m₁ K' S' q₁ r,
      Stands a b bcp (p + 8) { x with stack := rest } v c₁ m₁ →
      m.Changed m₁ (a.thread.toNat + 8) (a.thread.toNat + 16) →
      Lays ⟨v.image.code, place⟩ ctx inStub K' S' (removeActivation .none .installing false) q₁ r
        () →
      (∀ v' c' m', v'.image = v.image → sender.Resumed c' → c'.reg .thread = a.thread →
        m'.bytes.size = m₁.bytes.size → m'.guards = m₁.guards →
        m₁.Agrees m' (a.thread.toNat + 8) (a.thread.toNat + 16) → R v' m' →
        Vm.Arrives P (turns + 18) (v'.moved r c' m')) → Vm.Arrives P others (v.moved q₁ c₁ m₁))
    (next : ∀ v' c' m₁ m₂ m', sender.Resumed c' → c'.reg .thread = a.thread → c'.reg .x0 = e →
      c'.reg .x3 = sender.link → R v' m₁ →
      m₁.Changed m₂ (a.thread.toNat + 8) (a.thread.toNat + 16) →
      m₂.Changed m' (sender.sp.toNat - 16) sender.sp.toNat →
      Vm.Arrives P turns (v'.moved handler c' m')) : Vm.Arrives P (others + 2) (v.moved q c m) := by
  unfold unwinding at lay
  obtain ⟨i₁, lay⟩ := Lays.emit_bind (i := .load .x0 (.post .operands 8) .double false) lay
  obtain ⟨i₂, lay⟩ := lay.emit_bind
  obtain ⟨⟨⟩, r, removed, passed⟩ := lay.split
  obtain ⟨result, resultOk, -⟩ := h.threadField (k := ThreadBlock.vmResult) (n := 8) (by decide)
    (by decide) 0
  have eight : (8 : UInt64).toNat = 8 := rfl
  have slot : (a.thread + ThreadBlock.vmResult).toNat = a.thread.toNat + 8 := result
  refine h.runLoad hx i₁ rfl (by decide) rfl fun h₁ (holds : load m.bytes p.toNat 8 = e) => ?_
  rw [holds] at h₁ ⊢
  refine h₁.runThreadStore i₂ (by decide) (by decide) fun h₂ => ?_
  rw [Cpu.reg_setReg_self _ _ (by decide)] at h₂ ⊢
  have changed₂ := Guarded.changed_put m (a.thread + ThreadBlock.vmResult) 8 e
  have stored := Guarded.load_put (v := e) resultOk
  rw [slot] at changed₂
  refine removes _ _ _ _ _ _ h₂ changed₂ removed
    fun v₃ c₃ m₃ image resumed thread size guards kept left => ?_
  rw [← image] at passed handles
  have clear₃ := (clear.changed changed₂).congr size guards
  obtain ⟨-, open₃⟩ := (h₂.fits.congr size guards).threadField (k := ThreadBlock.vmResult) (w := 8)
    (by decide)
  have waits : load m₃.bytes (a.thread + ThreadBlock.vmResult).toNat 8 = e := by
    rw [slot] at stored ⊢
    exact (kept.load (Nat.le_refl _) (by omega)).trans stored
  refine Vm.runPassOn resumed thread open₃ waits handles clear₃ room passed
    fun c₄ m₄ m₅ resumed₄ thread₄ x0 x3 changed₄ changed₅ => ?_
  rw [slot] at changed₄
  exact next v₃ c₄ m₃ m₄ m₅ resumed₄ thread₄ x0 x3 left changed₄ changed₅

section
variable {e handler : UInt64} {rest : List Value} (h : Stands a b bcp p x v c m)
  (hx : x.stack = .object e :: rest) (sent : a.SentBy sender m)
  (handles : v.image.Handles sender.link handler)
  (clear : m.Clear (sender.sp.toNat - 16) sender.sp.toNat) (room : 16 ≤ sender.sp.toNat)
  (lay : Lays ⟨v.image.code, place⟩ ctx inStub K S unwinding q q' ())
include h hx sent handles clear room lay

/-- An exception that leaves a method which has nothing to unlock goes on in its sender. -/
theorem Stands.runUnwinding (lockless : a.Lockless m)
    (next : ∀ c' m₁ m', sender.Resumed c' → c'.reg .thread = a.thread → c'.reg .x0 = e →
      c'.reg .x3 = sender.link → a.Confined m m₁ →
      m₁.Changed m' (sender.sp.toNat - 16) sender.sp.toNat →
      Vm.Arrives P turns (v.moved handler c' m')) :
    Vm.Arrives P (turns + 18 + 5 + (a.frame.toNat - a.top.toNat) + 2) (v.moved q c m) := by
  have low := h.fits.thread
  have operands := h.fits.operands
  have top := h.fits.top
  refine h.runUnwindingBy turns (R := fun v' m' => v' = v ∧ a.Confined m m') hx handles clear room
    lay (fun c₁ m₁ K' S' q₁ r h₁ changed₁ removed back => ?_)
    fun v' c' m₁ m₂ m' resumed thread x0 x3 left changed₂ => ?_
  · have confined₁ : a.Confined m m₁ := .of_changed changed₁ (by omega) low (by omega)
    refine (Activation.Placed.of_stands h₁).runRemoveQuietly
      (lockless.changed h.fits changed₁ (Nat.le_refl _) (by omega))
      (sent.agrees (confined₁.agrees (by omega))) removed fun c₂ m₂ resumed spares changed₂ => ?_
    exact back v c₂ m₂ rfl resumed ((spares.regs _ (by decide)).trans h₁.registers.thread)
      changed₂.size changed₂.guards (changed₂.agrees (by omega))
      ⟨rfl, confined₁.trans (.of_changed changed₂ (by omega) low (by omega))⟩
  · obtain ⟨rfl, confined⟩ := left
    exact next c' m₂ m' resumed thread x0 x3
      (confined.trans (.of_changed changed₂ (by omega) low (by omega)))

/-- An exception that leaves a synchronized method which holds its own monitor and no other one unlocks
    that monitor once. -/
theorem Stands.runUnwindingReleased {r : UInt64} {o : Object} {marks : UInt64 → UInt64}
    {held : List UInt64} (closed : x.Closed) (roomy : a.Roomy ctx.settings b.maxStack)
    (own : a.OwnLock n r v m x.heap marks held) (there : x.heap r = some o)
    (next : ∀ v' c' m₁ m', sender.Resumed c' → c'.reg .thread = a.thread → c'.reg .x0 = e →
      c'.reg .x3 = sender.link → v'.Accounts m₁ x.heap marks (held.erase r) →
      a.Relocked r v m v' m₁ → m₁.Changed m' (sender.sp.toNat - 16) sender.sp.toNat →
      Vm.Arrives P turns (v'.moved handler c' m')) :
    Vm.Arrives P (turns + 23 + (5 * n + 56) + 2) (v.moved q c m) := by
  have low := h.fits.thread
  have heap := h.fits.heap
  have operands := h.fits.operands
  have top := h.fits.top
  have below := h.heap.below r o there
  have size := o.sixteen_le_size
  refine h.runUnwindingBy turns (R := fun v' m' => v'.Accounts m' x.heap marks (held.erase r) ∧
      a.HoldsHeap b.classes m' x.heap ∧ a.Relocked r v m v' m') hx handles clear room lay
    (fun c₁ m₁ K' S' q₁ r' h₁ changed₁ removed back => ?_)
    fun v' c' m₁ m₂ m' resumed thread x0 x3 left changed₂ => ?_
  · have relocked₁ : a.Relocked r v m v m₁ :=
      .of_confined (.of_changed changed₁ (by omega) low (by omega))
    refine (Represents.of_stands h₁).runRelease (closed.drop hx) roomy
      (own.changed h.heap h.fits changed₁ (by omega)) there removed
      fun v₂ c₂ m₂ K₂ S₂ r₂ lay₂ h₂ locks₂ relocked₂ kept => ?_
    obtain ⟨p₂, h₂⟩ := h₂.stands
    obtain ⟨⟨⟩, r₃, untold, removed⟩ := lay₂.split
    obtain ⟨rfl, -⟩ := Lays.ended untold
    have relocked := relocked₁.trans relocked₂
    refine (Activation.Placed.of_stands h₂).runRemoveFrame
      (sent.agrees (relocked.kept _ _ (.inr (by omega)) (by omega))) removed
      fun c₃ resumed spares₃ => ?_
    exact back v₂ c₃ m₂ relocked₂.image resumed
      ((spares₃.regs _ (by decide)).trans h₂.registers.thread) relocked₂.size relocked₂.guards kept
      ⟨locks₂.accounts, h₂.heap, relocked⟩
  · obtain ⟨accounts, stored, relocked⟩ := left
    exact next v' c' m₂ m' resumed thread x0 x3
      (accounts.agrees stored (changed₂.agrees (by omega)))
      (relocked.trans (.of_confined (.of_changed changed₂ (by omega) low (by omega))))

end

end TemplateVm
