import TemplateVm.Proofs.Calls.Preservation

set_option autoImplicit false

/-!
# What services keep

No service moves the parts of memory, nor lays a guard on them, whether it does its work or fails.
Services write words, and objects where the heap has room; the yellow zone alone is armed and
disarmed.
-/
namespace TemplateVm

open Memory (Guarded)

namespace Safepoints

variable {m₀ : Guarded} {α : Type}

/-- Safepoints keep the shape of the memory that has their tables. -/
abbrev KeepsShape (action : Action α) : Prop :=
  ∀ m₀ : Guarded, Preserves (fun s : Safepoints × Guarded => m₀.Alike s.2) action

theorem onMemory_keepsShape {action : Guarded.Action α} (h : Guarded.KeepsShape action) :
    KeepsShape (onMemory action) := fun m₀ s alike => by
  unfold onMemory
  refine Ends.mono (Ends.zoom (h m₀ s.2 alike)) ?_ ?_
  · rintro _ _ ⟨m, alike, rfl⟩
    exact alike
  · rintro _ _ ⟨m, alike, rfl⟩
    exact alike

theorem copyTable_keepsShape (source target : UInt64) :
    Guarded.KeepsShape (copyTable source target) :=
  Guarded.KeepsShape.readBytesA.bind fun _ => .writeBytes

theorem update_keepsShape (f : Safepoints → Safepoints) : KeepsShape (update f) :=
  fun _ => .modify fun _ alike => alike

theorem poll_keepsShape : KeepsShape poll := fun m₀ => by
  unfold poll
  refine Preserves.get.bind fun s => ?_
  dsimp only
  split
  · exact .pure false
  · exact .bind (.bind (onMemory_keepsShape (.bind .write fun _ => copyTable_keepsShape _ _) m₀)
      fun _ => update_keepsShape _ m₀) fun _ => .pure true

theorem atSafepoint_keepsShape : KeepsShape atSafepoint := fun m₀ => by
  unfold atSafepoint
  refine Preserves.get.bind fun s => ?_
  dsimp only
  split
  · exact .pure []
  · exact (update_keepsShape _ m₀).bind fun _ =>
      .bind (.bind (onMemory_keepsShape (.bind (copyTable_keepsShape _ _) fun _ => .write) m₀)
        fun _ => update_keepsShape _ m₀) fun _ => .pure _

end Safepoints

namespace Vm

variable {α : Type}

/-! ## Exceptions and resolution -/

theorem steady_allocateException (e : BuiltinException) (message : Option String) :
    Steady (allocateException e message) := by
  unfold allocateException
  refine Steady.classes.bind fun t => ?_
  cases t.find? e.className with
  | none => exact .throw _
  | some id =>
    refine (Steady.onWorld fun _ => World.preserves_newInstance id).bind fun object => ?_
    cases message with
    | none => exact .pure object
    | some text =>
      dsimp only
      exact .bind (Steady.modify fun _ => ⟨rfl, rfl, rfl, rfl, rfl⟩) fun _ => .pure object

theorem steady_post (e : BuiltinException) (message : Option String) : Steady (post e message) :=
  (steady_allocateException e message).bind fun _ => Steady.onThread fun _ => .write

theorem steady_exceptionAt (index : UInt64) : Steady (exceptionAt index) := by
  unfold exceptionAt
  cases BuiltinException.ofIndex? index.toNat with
  | some e => exact .pure e
  | none => exact .throw _

theorem steady_tosAt (what : String) (index : UInt64) : Steady (tosAt what index) := by
  unfold tosAt
  cases TopOfStack.ofIndex? index.toNat with
  | some tos => exact .pure tos
  | none => exact .throw _

theorem steady_classOrPost (name : String) : Steady (classOrPost name) := by
  unfold classOrPost
  refine Steady.classes.bind fun t => ?_
  cases t.find? name with
  | some id => exact .pure (some id)
  | none => exact (steady_post _ _).bind fun _ => .pure none

theorem steady_resolveEntry (o : Opcode) (bcp : UInt64) (entry : PoolEntry) :
    Steady (resolveEntry o bcp entry) := by
  have field (m : MemberRef) : Steady (resolveField m) := by
    refine (steady_classOrPost m.holder).bind fun id? => ?_
    cases id? with
    | none => exact .pure none
    | some id =>
      refine Steady.classes.bind fun t => ?_
      cases t.findField? id m.name m.descriptor with
      | some slot => exact .pure _
      | none => exact (steady_post _ _).bind fun _ => .pure none
  have method (m : MemberRef) : Steady (resolveMethod m) := by
    refine (steady_classOrPost m.holder).bind fun id? => ?_
    cases id? with
    | none => exact .pure none
    | some id =>
      refine Steady.classes.bind fun t => ?_
      split
      · exact (steady_post _ _).bind fun _ => .pure none
      · split
        · exact .pure _
        · exact (steady_post _ _).bind fun _ => .pure none
  have classRecord (name : String) : Steady (resolveClass name) := by
    refine (steady_classOrPost name).bind fun id? => ?_
    cases id? with
    | none => exact .pure none
    | some id => exact Steady.classes.bind fun t => .pure _
  unfold resolveEntry
  split
  · exact field _
  · exact field _
  · exact method _
  · exact method _
  · exact classRecord _
  · exact classRecord _
  · exact .throw _

theorem fillEntry_keepsShape (entry : UInt64) (o : Opcode) (r : Resolved) :
    Guarded.KeepsShape (fillEntry entry o r) := by
  cases r with
  | field slot =>
    refine Guarded.KeepsShape.write.bind fun _ => Guarded.KeepsShape.write.bind fun _ =>
      Guarded.KeepsShape.write.bind fun _ => ?_
    split
    · exact .write
    · exact .pure ()
  | method m =>
    exact Guarded.KeepsShape.write.bind fun _ => Guarded.KeepsShape.write.bind fun _ => .write
  | classRecord address => exact Guarded.KeepsShape.write.bind fun _ => .write

theorem steady_resolve (raw : UInt64) : Steady (resolve raw) := by
  unfold resolve
  cases Opcode.ofByte? raw.toUInt8 with
  | none => exact .throw _
  | some o =>
    refine (Steady.of_reads lastFrame_reads).bind fun frame => ?_
    refine (Steady.of_reads (methodOf_reads frame)).bind fun id => ?_
    refine (Steady.onMemory .readA).bind fun bcp => ?_
    refine (Steady.of_reads (poolIndex_reads o bcp)).bind fun index => ?_
    refine Steady.classes.bind fun t => ?_
    dsimp only
    cases (t.get (t.method id).holder).pool[index]? with
    | none => exact .throw _
    | some entry =>
      refine (steady_resolveEntry o bcp entry).bind fun resolved? => ?_
      cases resolved? with
      | none => exact .pure ()
      | some r => exact Steady.onMemory (fillEntry_keepsShape _ o r)


/-! ## Objects and handlers -/

theorem steady_newInstance (address : UInt64) : Steady (newInstance address) := by
  unfold newInstance
  refine Steady.classes.bind fun t => ?_
  cases t.classAt? address with
  | none => exact .throw _
  | some id =>
    exact (Steady.onWorld fun _ => World.preserves_newInstance id).bind fun _ =>
      Steady.onThread fun _ => .write

theorem steady_newArray (code length : UInt64) : Steady (newArray code length) := by
  unfold newArray
  dsimp only
  split
  · exact steady_post _ _
  · cases TypeTag.ofCode? code.toUInt8.toNat with
    | none => exact .throw _
    | some element =>
      refine Steady.classes.bind fun t => ?_
      cases t.arrayOf? element with
      | none => exact .throw _
      | some id =>
        refine .bind (Steady.onWorld fun _ => World.preserves_onStore
          (Memory.Store.preserves_allocateArray _ _ _)) fun _ => ?_
        exact Steady.onThread fun _ => .write

theorem steady_createException (index message : UInt64) : Steady (createException index message) :=
  (steady_exceptionAt index).bind fun _ => (steady_allocateException _ _).bind fun _ =>
    Steady.onThread fun _ => .write

theorem steady_createClassException (index object : UInt64) :
    Steady (createClassException index object) :=
  (steady_exceptionAt index).bind fun _ =>
    (Steady.onWorld fun _ => World.preserves_classOf object).bind fun _ =>
    Steady.classes.bind fun _ => (steady_allocateException _ _).bind fun _ =>
    Steady.onThread fun _ => .write

theorem steady_newIllegalMonitorState : Steady newIllegalMonitorState :=
  (steady_allocateException _ _).bind fun _ => (Steady.onThread fun _ => .write).bind fun _ =>
    Steady.onThread fun _ => .write

theorem steady_handlerForException (exception : UInt64) : Steady (handlerForException exception) := by
  unfold handlerForException
  refine (Steady.of_reads lastFrame_reads).bind fun frame => ?_
  refine (Steady.of_reads (methodOf_reads frame)).bind fun id => ?_
  refine (Steady.onMemory .readA).bind fun bcp => ?_
  refine (Steady.onWorld fun _ => World.preserves_classOf exception).bind fun thrown => ?_
  refine Steady.classes.bind fun t => ?_
  refine (Steady.onThread fun _ => .write).bind fun _ => ?_
  refine (Steady.onThread fun _ => .write).bind fun _ => ?_
  cases handler? t (t.method id) bcp thrown with
  | some handler =>
    exact Steady.onMemory (Guarded.KeepsShape.write.bind fun _ =>
      Guarded.KeepsShape.readA.bind fun _ => .readA)
  | none => exact Steady.get.bind fun _ => .pure _

theorem steady_handlerForReturnAddress (a : UInt64) : Steady (handlerForReturnAddress a) := by
  unfold handlerForReturnAddress
  refine Steady.get.bind fun v => ?_
  dsimp only
  split
  · exact .pure _
  · split
    · exact .pure _
    · exact .throw _

/-! ## Locks -/

theorem steady_setLock (object : UInt64) (lock : Option Lock) : Steady (setLock object lock) :=
  .modify fun _ => ⟨rfl, rfl, rfl, rfl, rfl⟩

theorem steady_monitorEnter (record : UInt64) : Steady (monitorEnter record) := by
  unfold monitorEnter
  refine (Steady.onMemory .readA).bind fun object => ?_
  split
  · exact steady_post _ _
  · refine Steady.get.bind fun v => ?_
    cases v.lock? object with
    | some lock => exact (steady_setLock _ _).bind fun _ => Steady.onMemory .write
    | none =>
      exact .bind (Steady.onMemory (Guarded.KeepsShape.readA.bind fun _ =>
        Guarded.KeepsShape.write.bind fun _ => Guarded.KeepsShape.write.bind fun _ => .pure _))
        fun _ => steady_setLock _ _

theorem steady_monitorExit (record : UInt64) : Steady (monitorExit record) := by
  unfold monitorExit
  refine .bind (Steady.onMemory (Guarded.KeepsShape.readA.bind fun _ =>
    Guarded.KeepsShape.write.bind fun _ => Guarded.KeepsShape.write.bind fun _ => .pure _))
    fun object => ?_
  refine Steady.get.bind fun v => ?_
  cases v.lock? object with
  | none => exact steady_post _ _
  | some lock =>
    dsimp only
    split
    · exact (steady_setLock _ _).bind fun _ => Steady.onMemory .write
    · exact steady_setLock _ _

/-! ## Native calls -/

theorem steady_prepareNativeCall (address : UInt64) : Steady (prepareNativeCall address) := by
  unfold prepareNativeCall
  refine Steady.classes.bind fun t => ?_
  cases t.methodAt? address with
  | none => exact .throw _
  | some id =>
    refine Steady.get.bind fun v => ?_
    dsimp only
    cases v.library.find? (t.member id) with
    | none => exact steady_post _ _
    | some function =>
      intro v₀ v stays
      refine Ends.get_bind ?_
      cases supplied : v.image.signatureHandler (t.method id).descriptor
          (t.method id).access.isStatic with
      | error failure => exact stays
      | ok added =>
        refine Ends.modify_bind ?_
        have link (handler : UInt64) (format : Native.CallFormat) : Steady (onMemory do
            Guarded.write (address + MethodRecord.nativeFunction) 8 function.address
            Guarded.write (address + MethodRecord.signatureHandler) 8 handler
            Guarded.write (address + MethodRecord.callFormat) 4 format.pack.toUInt64) :=
          Steady.onMemory (Guarded.KeepsShape.write.bind fun _ =>
            Guarded.KeepsShape.write.bind fun _ => .write)
        have stays' : v₀.Stays { v with image := added.2 } :=
          ⟨⟨stays.map, stays.gains.added supplied, stays.world, stays.library⟩, stays.safepoints⟩
        cases Native.CallFormat.ofDescriptor (t.method id).descriptor with
        | error defect => exact stays'
        | ok format => exact link _ _ v₀ _ stays'

/-! ## Safepoints -/

theorem grows_atSafepoint {v₀ : Vm} : Preserves (Grows v₀) atSafepoint :=
  (grows_onSafepoints Safepoints.atSafepoint_keepsShape).bind fun _ =>
    .forM fun _ => (Steady.note _).grows

/-- A thread that is suspended goes on. -/
theorem steady_resume : Steady (onThread fun t => do
    if (← t.suspend) ≠ 0 then t.setSuspend 0) :=
  Steady.onThread fun t => (Guarded.KeepsShape.readA.bind fun _ => .pure _).bind fun flags => by
    split
    · exact .write
    · exact .pure ()

theorem grows_checkNativeTransition {v₀ : Vm} : Preserves (Grows v₀) checkNativeTransition := by
  unfold checkNativeTransition
  refine Preserves.get.bind fun v => ?_
  dsimp only
  split
  · exact grows_atSafepoint.bind fun _ => steady_resume.grows
  · exact steady_resume.grows

/-! ## Entries and exits of methods -/

theorem steady_requestPop : Steady requestPop :=
  Steady.onThread fun _ => (Guarded.KeepsShape.readA.bind fun _ => .pure _).bind fun _ => .write

theorem steady_counterOverflow : Steady counterOverflow :=
  (Steady.of_reads lastFrame_reads).bind fun frame =>
    (Steady.of_reads (methodOf_reads frame)).bind fun _ => Steady.classes.bind fun _ =>
    (Steady.onMemory .readA).bind fun _ => Steady.modify fun _ => ⟨rfl, rfl, rfl, rfl, rfl⟩

theorem steady_methodEntry : Steady methodEntry := by
  refine (Steady.of_reads lastFrame_reads).bind fun frame => ?_
  refine (Steady.of_reads (methodOf_reads frame)).bind fun id => ?_
  refine Steady.classes.bind fun t => (Steady.consult _).bind fun asked => ?_
  split
  · exact steady_requestPop
  · exact .pure ()

theorem steady_methodExit (index : UInt64) : Steady (methodExit index) := by
  refine (steady_tosAt _ index).bind fun tos => ?_
  refine (Steady.of_reads lastFrame_reads).bind fun frame => ?_
  refine (Steady.of_reads (methodOf_reads frame)).bind fun id => ?_
  refine Steady.classes.bind fun t => (Steady.consult _).bind fun asked => ?_
  split
  · exact steady_requestPop
  · exact .pure ()

theorem steady_traceBytecode (index x0 v0 : UInt64) : Steady (traceBytecode index x0 v0) := by
  refine (steady_tosAt _ index).bind fun tos => ?_
  refine (Steady.of_reads lastFrame_reads).bind fun frame => ?_
  refine (Steady.of_reads (methodOf_reads frame)).bind fun id => ?_
  refine .bind (Steady.onMemory (Guarded.KeepsShape.readA.bind fun _ =>
    Guarded.KeepsShape.readA.bind fun _ => .pure _)) fun position => ?_
  exact Steady.classes.bind fun t => Steady.modify fun _ => ⟨rfl, rfl, rfl, rfl, rfl⟩

/-! ## Popped frames -/

theorem steady_movePoppedArguments (source target : UInt64) :
    Steady (movePoppedArguments source target) := by
  refine (Steady.reg _).bind fun fp => ?_
  refine (Steady.of_reads (methodOf_reads _)).bind fun id => ?_
  refine .bind (Steady.onMemory (Guarded.KeepsShape.readA.bind fun _ =>
    Guarded.KeepsShape.readA.bind fun _ => .pure _)) fun position => ?_
  obtain ⟨bcp, byte⟩ := position
  dsimp only
  cases Opcode.ofByte? byte.toUInt8 with
  | none => exact .throw _
  | some o =>
    refine (Steady.of_reads (poolIndex_reads o bcp)).bind fun index => ?_
    refine Steady.classes.bind fun t => Steady.onMemory ?_
    refine Guarded.KeepsShape.readA.bind fun flags => ?_
    split
    · exact Guarded.KeepsShape.readBytesA.bind fun _ => .writeBytes
    · exact .pure ()

theorem steady_preserveArguments (bytes start : UInt64) : Steady (preserveArguments bytes start) :=
  (Steady.onMemory (.mapM fun _ => .readA)).bind fun _ =>
    Steady.modify fun _ => ⟨rfl, rfl, rfl, rfl, rfl⟩

theorem steady_verifyReference (reference pc : UInt64) : Steady (verifyReference reference pc) := by
  unfold verifyReference
  refine Steady.get.bind fun v => ?_
  split
  · exact .throw _
  · exact .pure ()

/-! ## Every service -/

/-- A service that neither arms the yellow zone nor takes a safepoint at most adds objects. -/
theorem steady_perform {s : Service} (guards : s ≠ .reguardYellowZone)
    (tables : s ≠ .atSafepoint ∧ s ≠ .checkNativeTransition) : Steady (perform s) := by
  unfold perform
  refine (Steady.reg _).bind fun a0 => (Steady.reg _).bind fun a1 => (Steady.reg _).bind fun a2 => ?_
  have set (r : Register) (n : UInt64) : Steady (setReg r n) := Steady.modifyCpu _
  cases s with
  | resolve => exact steady_resolve a1
  | newInstance => exact steady_newInstance a1
  | newArray => exact steady_newArray a1 a2
  | createException => exact steady_createException a1 a2
  | createClassException => exact steady_createClassException a1 a2
  | throwArrayIndexOutOfBounds | throwIllegalMonitorState | throwIncompatibleClassChange
  | throwStackOverflow | throwAbstractMethod | throwNullPointer => exact steady_post _ _
  | newIllegalMonitorState => exact steady_newIllegalMonitorState
  | throwPendingException => exact .pure ()
  | handlerForException => exact (steady_handlerForException a1).bind fun _ => set _ _
  | handlerForReturnAddress => exact (steady_handlerForReturnAddress a1).bind fun _ => set _ _
  | monitorEnter => exact steady_monitorEnter a1
  | monitorExit => exact steady_monitorExit a1
  | counterOverflow => exact steady_counterOverflow
  | prepareNativeCall => exact steady_prepareNativeCall a1
  | postMethodEntry => exact steady_methodEntry
  | postMethodExit => exact steady_methodExit a1
  | atSafepoint => exact absurd rfl tables.1
  | interpreterContains => exact Steady.get.bind fun _ => set _ _
  | popframeMoveArguments => exact steady_movePoppedArguments a1 a2
  | popframePreserveArguments => exact steady_preserveArguments a1 a2
  | traceBytecode => exact (Steady.reg _).bind fun _ => steady_traceBytecode a1 a2 _
  | checkNativeTransition => exact absurd rfl tables.2
  | reguardYellowZone => exact absurd rfl guards
  | sin | cos | tan | log | log10 | exp | pow => exact Steady.modifyCpu _
  | markBarrier => exact Steady.modify fun _ => ⟨rfl, rfl, rfl, rfl, rfl⟩
  | verifyReference => exact (Steady.reg _).bind fun _ => steady_verifyReference a0 _

/-- All services but one leave the guards alone. -/
theorem grows_perform {v₀ : Vm} {s : Service} (guards : s ≠ .reguardYellowZone) :
    Preserves (Grows v₀) (perform s) := by
  have args {next : UInt64 → UInt64 → UInt64 → Action Unit}
      (h : ∀ a0 a1 a2, Preserves (Grows v₀) (next a0 a1 a2)) : Preserves (Grows v₀) (do
        let a0 ← reg .x0
        let a1 ← reg .x1
        let a2 ← reg .x2
        next a0 a1 a2) :=
    (Steady.reg _).grows.bind fun _ => (Steady.reg _).grows.bind fun _ =>
      (Steady.reg _).grows.bind fun _ => h _ _ _
  by_cases tables : s ≠ .atSafepoint ∧ s ≠ .checkNativeTransition
  · exact (steady_perform guards tables).grows
  by_cases taken : s = .atSafepoint
  · subst taken
    exact args fun _ _ _ => grows_atSafepoint
  · obtain rfl : s = .checkNativeTransition := Decidable.of_not_not fun other => tables ⟨taken, other⟩
    exact args fun _ _ _ => grows_checkNativeTransition

/-! ## Guard zones -/

/-- Guards may change as long as none is laid below the end of the red zone. -/
theorem Mapped.guards {v : Vm} (h : v.Mapped) {f : Guarded → Guarded}
    (clear : ∀ m lo hi, hi ≤ v.map.redEnd.toNat → m.Clear lo hi → (f m).Clear lo hi)
    {next : Action α} (keeps : Keeps next) :
    Ends (fun _ w => w.Mapped) (fun _ w => w.Mapped)
      ((onMemory (modify f) >>= fun _ => next) v) := by
  have changed : Ends (fun _ m => m = f v.world.store.mem) (fun (_ : Failure) _ => False)
      ((modify f : Guarded.Action PUnit) v.world.store.mem) := rfl
  refine (onMemory_ends changed).bind (fun _ _ ⟨_, nothing, _⟩ => nothing.elim) ?_
  rintro _ _ ⟨m, rfl, rfl⟩
  exact keeps _ (h.memory (clear _))

theorem steady_setGuard (s : GuardState) : Steady (onThread (·.setGuard s)) :=
  Steady.onThread fun _ => .write

theorem keeps_reguard : Keeps reguard := by
  refine (Steady.of_reads guard_reads).keeps.bind fun s => ?_
  split
  · exact .pure true
  · refine (Steady.consult _).keeps.bind fun allowed => ?_
    split
    · exact .pure false
    · exact fun v mapped => Ends.get_bind <|
        mapped.guards (fun _ _ _ below clear => clear.protect (.inr below))
          ((steady_setGuard _).keeps.bind fun _ => .pure true)

/-- Whatever service is asked for, and with whatever arguments, memory keeps its parts. -/
theorem keeps_perform (s : Service) : Keeps (perform s) := by
  by_cases guards : s = .reguardYellowZone
  · subst guards
    exact (Steady.reg _).keeps.bind fun _ => (Steady.reg _).keeps.bind fun _ =>
      (Steady.reg _).keeps.bind fun _ => keeps_reguard.bind fun _ => (Steady.modifyCpu _).keeps
  · exact .of_grows fun _ => grows_perform guards

end Vm
end TemplateVm
