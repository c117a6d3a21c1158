import TemplateVm.Proofs.Activation.Returning
import TemplateVm.Proofs.Calls.GuardZones
import TemplateVm.Proofs.Natives.HostCalls
import TemplateVm.Proofs.Natives.Results

set_option autoImplicit false
set_option synthInstance.maxSize 100000

/-!
# Arming the yellow zone after a native call

When the function of a native method has returned, the entry has the yellow zone armed again if it
is disarmed and the policy agrees. Nothing looks at where the frame is: a frame in the zone is lost.
A frame above the zone stays as it is, whatever the policy says.
-/
namespace TemplateVm

open Memory (Guarded load)
open Emit

/-! ## The service -/

namespace Vm

variable {P : Vm → Prop} {turns : Nat} {v : Vm} {p q q' : UInt64} {c : Cpu} {m : Guarded}
  {ctx : CodeContext} {inStub : Bool} {K S : List CodeLabel} {place : CodeLabel → UInt64}

/-- The memory once the yellow zone is armed again. -/
def yellowEnabled (v : Vm) (m : Guarded) : Guarded :=
  (m.protect v.map.redEnd v.map.yellowSize GuardTag.yellowZone).put
    (v.map.thread + ThreadBlock.guardState) 4 GuardState.enabled.code.toUInt64

/-- The machine once the policy has been asked about the yellow zone. -/
def asked (v : Vm) : Vm := { v with hooks := v.hooks.shouldReguard.2 }

/-- The machine and its memory once the yellow zone was to be armed. -/
def rearmed (v : Vm) (m : Guarded) : Vm × Guarded :=
  if v.map.guardWord m = GuardState.yellowDisabled.code.toUInt64 then
    (v.asked, if v.hooks.shouldReguard.1 then v.yellowEnabled m else m)
  else (v, m)

/-- Only the policy is another one. -/
theorem rearmed_eq (v : Vm) (m : Guarded) :
    (v.rearmed m).1 = { v with hooks := (v.rearmed m).1.hooks } := by
  unfold rearmed
  split <;> rfl

/-- A disarmed zone is armed if the policy agrees. -/
theorem reguard_ok (disabled : v.map.guardWord m = GuardState.yellowDisabled.code.toUInt64)
    (ok : m.Open (v.map.thread + ThreadBlock.guardState) 4)
    (ok' : (m.protect v.map.redEnd v.map.yellowSize GuardTag.yellowZone).Open
      (v.map.thread + ThreadBlock.guardState) 4)
    (steps : UInt64) (watched : List (UInt64 × UInt64)) :
    reguard ((v.moved p c m).counted steps watched) = .ok v.hooks.shouldReguard.1
      ((v.asked.moved p c (if v.hooks.shouldReguard.1 then v.yellowEnabled m else m)).counted steps
        watched) := by
  have guard : (ThreadBlock.guard ⟨v.map.thread⟩ : Guarded.Action GuardState) m =
      .ok .yellowDisabled m := by
    have word : load m.bytes (v.map.thread + ThreadBlock.guardState).toNat (4 : UInt64).toNat =
        GuardState.yellowDisabled.code.toUInt64 := disabled
    refine (bind_ok ok.readA).trans ?_
    rw [word]
    rfl
  have consulted : consult Hooks.shouldReguard ((v.moved p c m).counted steps watched) =
      .ok v.hooks.shouldReguard.1 ((v.asked.moved p c m).counted steps watched) := rfl
  unfold reguard
  refine (bind_ok (onThread_ok guard)).trans ?_
  rw [if_neg (by decide)]
  refine (bind_ok consulted).trans ?_
  cases agreed : v.hooks.shouldReguard.1 with
  | false => rfl
  | true =>
    have armed : (modify (·.protect v.map.redEnd v.map.yellowSize GuardTag.yellowZone) :
        Guarded.Action Unit) m =
        .ok () (m.protect v.map.redEnd v.map.yellowSize GuardTag.yellowZone) := rfl
    refine (congrFun (if_neg (by decide)) _).trans ?_
    refine (bind_ok (m := (get : Action Vm)) rfl).trans ?_
    refine (bind_ok (onMemory_ok armed)).trans ?_
    exact (bind_ok (onThread_ok ok'.write)).trans rfl

/-- The service returns with its answer. -/
theorem runArming (disabled : v.map.guardWord m = GuardState.yellowDisabled.code.toUInt64)
    (ok : m.Open (v.map.thread + ThreadBlock.guardState) 4)
    (ok' : (m.protect v.map.redEnd v.map.yellowSize GuardTag.yellowZone).Open
      (v.map.thread + ThreadBlock.guardState) 4)
    (lay : Lays ⟨v.image.code, place⟩ ctx inStub K S (callLeaf .reguardYellowZone []) q q' ())
    (next : ∀ c', c.Spares c' [.x0, .scratch1, .link] →
      Arrives P turns ((v.rearmed m).1.moved q' c' (v.rearmed m).2)) :
    Arrives P (turns + 11) (v.moved q c m) := by
  refine runCallLeaf lay ?_
  have passed : c.passed (Register.arguments.zip []) = c := rfl
  rw [passed]
  generalize hc : Cpu.setReg _ .link q' = c₁
  have spares : c.Spares c₁ [.x0, .scratch1, .link] := hc ▸
    ((Cpu.Spares.refl c _).setReg (by simp) _).setReg (by simp) _
  have returns : c₁.reg .link = q' := hc ▸ Cpu.reg_setReg_self _ _ (by decide)
  have outcome : v.rearmed m =
    (v.asked, if v.hooks.shouldReguard.1 then v.yellowEnabled m else m) := if_pos disabled
  rw [outcome] at next
  refine .leafAnswer (w := v.asked) rfl
    (fun steps watched => (bind_ok (reguard_ok disabled ok ok' steps watched)).trans rfl)
    ⟨fun quiet => quiet, rfl, rfl⟩ ?_
  rw [returns]
  exact next _ (spares.setReg (r := .x0) (by simp) v.hooks.shouldReguard.1.toUInt64)

end Vm

/-! ## The frame -/

namespace NativeCall.Ready

variable {a : NativeCall} {id : MethodId} {m₀ m m' : Guarded} {v : Vm} {c : Cpu} {P : Vm → Prop}
  {turns : Nat} {q q' : UInt64} {place : CodeLabel → UInt64} {ctx : CodeContext} {inStub : Bool}
  {K S : List CodeLabel}

theorem protect {start len : UInt64} {tag : UInt32} (h : a.Ready id m₀ v c m)
    (above : a.thread.toNat + 0x1000 ≤ start.toNat)
    (below : (start + len).toNat + 64 ≤ a.frame.toNat) :
    a.Ready id m₀ v c (m.protect start len tag) where
  registers := h.registers
  fits := { h.fits with
    clear := h.fits.clear.protect (.inr above)
    clearStack := h.fits.clearStack.protect (.inl (by omega)) }
  recorded := ⟨h.recorded.flags, h.recorded.constMethod, h.recorded.constants, h.recorded.holder,
    h.recorded.mirror⟩
  framed := ⟨h.framed.pending, h.framed.pop, h.framed.method, h.framed.locals⟩
  thread := h.thread
  known := h.known
  parameters := h.parameters

/-- The zone is between the thread's block and the frame. -/
theorem protectYellow (h : a.Ready id m₀ v c m) (zoned : v.map.Zoned)
    (above : v.map.yellowEnd.toNat + 64 ≤ a.frame.toNat) :
    a.Ready id m₀ v c (m.protect v.map.redEnd v.map.yellowSize GuardTag.yellowZone) := by
  have thread := zoned.ordered.thread
  have stack := zoned.ordered.stack
  have size : Place.threadSize.toNat = 0x1000 := rfl
  have zone : v.map.redEnd + v.map.yellowSize = v.map.yellowEnd := rfl
  rw [h.thread] at thread
  exact h.protect (by omega) (by rw [zone]; exact above)

/-- The armed zone leaves the word about the guards open. -/
theorem openArmed (h : a.Ready id m₀ v c m) (zoned : v.map.Zoned) :
    (m.protect v.map.redEnd v.map.yellowSize GuardTag.yellowZone).Open
      (v.map.thread + ThreadBlock.guardState) 4 := by
  have below := zoned.ordered.thread
  have stack := zoned.ordered.stack
  have size : Place.threadSize.toNat = 0x1000 := rfl
  have offset : ThreadBlock.guardState.toNat = 60 := rfl
  have four : (4 : UInt64).toNat = 4 := rfl
  have fits := h.fits.constMethod
  have method := h.fits.method
  have address := (h.threadField (k := ThreadBlock.guardState) (n := 4) (by decide)).1
  rw [h.thread] at below ⊢
  exact (h.fits.clear.protect (.inr (by omega))).open (by omega) (by omega)

theorem yellowEnabled (h : a.Ready id m₀ v c m) (zoned : v.map.Zoned)
    (above : v.map.yellowEnd.toNat + 64 ≤ a.frame.toNat) :
    a.Ready id m₀ v c (v.yellowEnabled m) := by
  have address := (h.threadField (k := ThreadBlock.guardState) (n := 4) (by decide)).1
  have field : ThreadBlock.guardState.toNat = 60 := rfl
  have four : (4 : UInt64).toNat = 4 := rfl
  refine (h.protectYellow zoned above).changed (Guarded.changed_put _ _ _ _) ?_
  rw [h.thread]
  unfold Spare
  omega

/-- The zone is armed if it is disarmed and the policy agrees, wherever the frame is. -/
theorem runReguard (h : a.Ready id m₀ v c m) (zoned : v.map.Zoned)
    (lay : Lays ⟨v.image.code, place⟩ ctx inStub K S Emit.reguard q q' ())
    (next : ∀ c', c.Spares c' [.x0, .scratch1, .link] →
      Vm.Arrives P turns ((v.rearmed m).1.moved q' c' (v.rearmed m).2)) :
    Vm.Arrives P (turns + 14) (v.moved q c m) := by
  unfold Emit.reguard at lay
  obtain ⟨done, lay⟩ := lay.newLabel_bind
  obtain ⟨i₁, lay⟩ := lay.emit_bind
  obtain ⟨i₂, lay⟩ := lay.emit_bind
  obtain ⟨i₃, lay⟩ := lay.emitTo_bind
  obtain ⟨⟨⟩, q₁, call, lay⟩ := lay.split
  obtain ⟨here, rfl⟩ := lay.bind
  rw [here] at i₃
  obtain ⟨address, field⟩ := h.threadField (k := ThreadBlock.guardState) (n := 4) (by decide)
  have word : load m.bytes (a.thread.toNat + 60) 4 = v.map.guardWord m := by
    rw [MemoryMap.guardWord, h.thread, address]
    rfl
  let flags := Flags.ofCompare (v.map.guardWord m) GuardState.yellowDisabled.code.toUInt64
  have looked : c.Spares ((c.setReg .scratch1 (v.map.guardWord m)).setFlags flags)
      [.x0, .scratch1, .link] := ((Cpu.Spares.refl c _).setReg (by simp) _).setFlags _
  refine h.runThreadLoad i₁ (by decide) word (.compare i₂ ?_)
  rw [Cpu.reg_setReg_self _ _ (by decide)]
  refine .branchIf i₃ (fun other => ?_) fun disabled => ?_
  · have same : v.rearmed m = (v, m) := by
      refine if_neg fun disabled => ?_
      change Condition.ne.holds flags = true at other
      rw [Condition.holds_ne, disabled] at other
      cases other
    rw [same] at next
    exact (next _ looked).le (by omega)
  · have disabled : v.map.guardWord m = GuardState.yellowDisabled.code.toUInt64 := by
      change Condition.ne.holds flags = false at disabled
      rw [Condition.holds_ne] at disabled
      exact bne_eq_false_iff_eq.mp disabled
    rw [← h.thread] at field
    exact Vm.runArming disabled field (h.openArmed zoned) call
      fun c' spares => next c' (looked.trans spares)

end NativeCall.Ready
end TemplateVm
