import TemplateVm.Proofs.Calls.Hosting
import TemplateVm.Proofs.Safepoints.Tables

set_option autoImplicit false

/-!
# States between two steps

What the host does and what a run does is cut into deeds, each of which is over before anything else
looks at the machine. `Comes v w` says that deeds lead from `v` to `w`, whether they are done or
fail. Runs and calls are made of deeds, so that what every deed preserves holds wherever the host,
or the next turn of a run, finds the machine.
-/
namespace TemplateVm.Vm

open Memory (Guarded)

variable {v w u : Vm} {settings : Settings} {α : Type}

/-- A call up to its first step. -/
def beginCall (id : MethodId) (arguments : List Value) : Action Unit := do
  let t ← classes
  let m := t.method id
  let words := arguments.flatMap Value.stackWords
  if words.length ≠ m.parameterWords then
    throw (.linkage
      s!"{(t.member id).text} takes {m.parameterWords} parameter words, got {words.length}")
  let entry ← onThread (prepareThread · m.address words)
  modify fun vm => { vm with preserved := none }
  enterStub ⟨(← get).map.thread⟩ m.address entry words.length

inductive Deed where
  | load (c : ClassDefinition) (small : c.pool.length < 2 ^ 58)
  /-- Makes the method through which handles are invoked. -/
  | handleInvoker (descriptor : String)
  | beginCall (id : MethodId) (arguments : List Value)
    (few : (arguments.flatMap Value.stackWords).length < 2 ^ 59)
  | turn
  /-- The run is over and the thread is in the runtime again. -/
  | settle
  | outcome (result : TypeTag)
  /-- A safepoint is asked for, with an operation or without one. -/
  | request (name : Option String)
  | poll
  | atSafepoint
  /-- The host gives other answers and other functions. -/
  | arrange (hooks : Hooks) (library : Native.Library) (bridge : Native.Bridge)

def Deed.act : Deed → Action Unit
  | .load c _ => do let _ ← onWorld (World.load c)
  | .handleInvoker descriptor => do
    let _ ← onWorld (World.handleInvoker "invokeExact" descriptor)
  | .beginCall id arguments _ => Vm.beginCall id arguments
  | .turn => do let _ ← Vm.turn
  | .settle => onThread (·.setState .inRuntime)
  | .outcome result => do let _ ← Vm.outcome result
  | .request name => modify fun vm =>
    { vm with safepoints := (name.elim Safepoints.begin fun name s => s.request name) vm.safepoints }
  | .poll => Vm.poll
  | .atSafepoint => Vm.atSafepoint
  | .arrange hooks library bridge => modify fun vm => { vm with hooks, library, bridge }

/-- Deeds lead from the one machine to the other. -/
inductive Comes (v : Vm) : Vm → Prop
  | here : Comes v v
  | next {u w : Vm} (before : Comes v u) (d : Deed) (left : Leaves d.act u w) : Comes v w

/-- What every deed preserves holds, or else the last turn before it was lost was not fair. -/
theorem Comes.holds_or {I : Vm → Prop} {Fair : Vm → Vm → Prop} (h : v.Comes w) (start : I v)
    (step : ∀ {u w} (d : Deed), I u → Leaves d.act u w → (d = .turn → Fair u w) → I w) :
    I w ∨ ∃ u u', v.Comes u ∧ I u ∧ Leaves Deed.turn.act u u' ∧ ¬ Fair u u' ∧ u'.Comes w := by
  induction h with
  | here => exact .inl start
  | @next u w before d left ih =>
    rcases ih with holds | ⟨t, t', first, holds, turn, unfair, last⟩
    · by_cases fair : d = .turn → Fair u w
      · exact .inl (step d holds left fair)
      · obtain ⟨rfl, unfair⟩ := Classical.not_imp.mp fair
        exact .inr ⟨u, w, before, holds, left, unfair, .here⟩
    · exact .inr ⟨t, t', first, holds, turn, unfair, last.next d left⟩

/-! ## What is made of deeds -/

/-- The deed is no arrangement of the host. -/
def Deed.Own : Deed → Prop
  | .arrange .. => False
  | _ => True

/-- The machine preserves it by whatever it does of its own. -/
def Closed (I : Vm → Prop) : Prop := ∀ {u w : Vm} (d : Deed), d.Own → I u → Leaves d.act u w → I w

theorem closed_comes (v : Vm) : Closed v.Comes := fun d _ before left => before.next d left

/-- Every state that the action can end in is come to by deeds of the machine's own. -/
abbrev Made (action : Action α) : Prop := ∀ I, Closed I → Preserves I action

theorem Leaves.ends {action : Action α} {I : Vm → Prop} (h : ∀ w, Leaves action v w → I w) :
    Ends (fun _ w => I w) (fun _ w => I w) (action v) := by
  cases ran : action v with
  | ok x w => exact h w (.inl ⟨x, ran⟩)
  | error e w => exact h w (.inr ⟨e, ran⟩)

theorem Leaves.ignored {action : Action α} (h : Leaves action v w) :
    Leaves (do let _ ← action : Action Unit) v w := by
  rcases h with ⟨x, ran⟩ | ⟨e, ran⟩
  · exact .inl ⟨⟨⟩, bind_ok ran⟩
  · exact .inr ⟨e, bind_error ran⟩

theorem Made.of_leaves {action : Action α} (d : Deed) (own : d.Own)
    (h : ∀ v w, Leaves action v w → Leaves d.act v w) : Made action := fun _ closed _ before =>
  Leaves.ends fun w left => closed d own before (h _ w left)

theorem Made.of_reads {action : Action α} (h : Reads action) : Made action := fun _ _ => .of_reads h

theorem Made.bind {β : Type} {action : Action α} {f : α → Action β} (h : Made action)
    (next : ∀ x, Made (f x)) : Made (action >>= f) := fun I closed =>
  (h I closed).bind fun x => next x I closed

theorem Made.throw (e : Failure) : Made (MonadExcept.throw e : Action α) := fun _ _ => .throw e

theorem made_poll : Made poll := .of_leaves .poll trivial fun _ _ left => left

/-! ## Runs -/

section
variable {I : Vm → Prop} (closed : Closed I)
include closed

theorem Closed.turn (before : I u) (left : Leaves Vm.turn u w) : I w :=
  closed .turn trivial before left.ignored

/-- What a turn asks for is part of the turn. -/
theorem Closed.work {work : Action Unit} {m : Machine} (before : I u)
    (turn : Vm.turn u = (work >>= fun _ => pure true) (u.withMachine m)) :
    Ends (fun _ w => I w) (fun _ w => I w) (work (u.withMachine m)) :=
  Leaves.ends fun w left => closed.turn before <| by
    rcases left with ⟨x, ran⟩ | ⟨e, ran⟩
    · exact .inl ⟨true, turn.trans (bind_ok ran)⟩
    · exact .inr ⟨e, turn.trans (bind_error ran)⟩

theorem Closed.of_ends {action : Action α} {d : Deed} (own : d.Own) (before : I u)
    (h : ∀ w, Leaves action u w → Leaves d.act u w) :
    Ends (fun _ w => I w) (fun _ w => I w) (action u) :=
  Leaves.ends fun w left => closed d own before (h w left)

end

/-- Every step that the processor takes in a run is a turn. -/
theorem made_runTurns (turns untilPoll : Nat) : Made (runTurns turns untilPoll) := by
  induction turns generalizing untilPoll with
  | zero => exact fun I _ => Preserves.get.bind fun _ => .throw _
  | succ turns ih =>
    have goOn (left : Nat) : Made (goOn turns left) := by
      unfold Vm.goOn
      split
      · exact made_poll.bind fun _ => ih _
      · exact ih _
    induction untilPoll with
    | zero =>
      intro I closed u before
      rw [runTurns_succ (v := u) (n := 0) rfl]
      exact goOn 0 I closed u before
    | succ n ihn =>
      intro I closed u before
      -- The first step of the run is a turn; what is left is a shorter run, or its end.
      cases step : Machine.step u.image.code u.machine with
      | ok event m =>
        cases event with
        | next =>
          rw [runTurns_next step]
          exact ihn I closed _ (closed.turn before (.inl ⟨true, turn_of_next step⟩))
        | hostReturn =>
          rw [runTurns_event step nofun]
          exact closed.turn before (.inl ⟨false, turn_of_hostReturn step⟩)
        | service s =>
          rw [runTurns_event step nofun]
          exact (closed.work before (turn_of_service step)).bind (fun _ _ h => h)
            fun _ w => goOn n I closed w
        | native target format =>
          rw [runTurns_event step nofun]
          exact (closed.work before (turn_of_native step)).bind (fun _ _ h => h)
            fun _ w => goOn n I closed w
      | error failure m =>
        rw [runTurns_failure step]
        cases failure with
        | memoryFault fault =>
          exact (closed.work before (turn_of_fault step)).bind (fun _ _ h => h)
            fun _ w => ih _ I closed w
        | _ => exact closed.turn before (.inr ⟨_, turn_of_failure step nofun⟩)

theorem made_run : Made run := fun I closed =>
  Preserves.get.bind fun _ => made_runTurns _ _ I closed

/-! ## Calls -/

/-- The thread is put into the runtime however the run ends. -/
theorem made_runGuest : Made runGuest := fun I closed u before => by
  have kept := made_run I closed u before
  have settled {w : Vm} (comes : I w) : Ends (fun _ w => I w) (fun _ w => I w)
      (onThread (·.setState .inRuntime) w) :=
    closed.of_ends (d := .settle) trivial comes fun _ left => left
  unfold runGuest
  cases ran : run u with
  | ok x w => exact settled (kept.of_ok ran)
  | error e w =>
    have comes := settled (kept.of_error ran)
    dsimp only
    cases set : onThread (·.setState .inRuntime) w with
    | ok x w' => exact comes.of_ok set
    | error e' w' => exact comes.of_error set

/-- A call begins, runs and tells its outcome. -/
theorem invoke_eq_begin (id : MethodId) (arguments : List Value) (v : Vm) :
    invoke id arguments v = (do
      beginCall id arguments
      runGuest
      outcome (v.world.classes.method id).descriptor.result : Action Outcome) v := by
  unfold invoke beginCall
  refine (bind_ok (m := classes) rfl).trans ?_
  by_cases wrong : (arguments.flatMap Value.stackWords).length ≠
      (v.world.classes.method id).parameterWords
  · refine (congrFun (if_pos wrong) v).trans (Eq.symm (bind_error ?_))
    exact (bind_ok (m := classes) rfl).trans (congrFun (if_pos wrong) v)
  · refine (congrFun (if_neg wrong) v).trans ?_
    cases prepared : onThread (prepareThread · (v.world.classes.method id).address
        (arguments.flatMap Value.stackWords)) v with
    | error e w =>
      refine (bind_error prepared).trans (Eq.symm (bind_error ?_))
      refine (bind_ok (m := classes) rfl).trans ((congrFun (if_neg wrong) v).trans ?_)
      exact bind_error prepared
    | ok entry w =>
      refine (bind_ok prepared).trans (Eq.trans rfl (Eq.symm (bind_ok (a := ⟨⟩) ?_)))
      refine (bind_ok (m := classes) rfl).trans ((congrFun (if_neg wrong) v).trans ?_)
      exact (bind_ok prepared).trans rfl

theorem made_invoke (id : MethodId) {arguments : List Value}
    (few : (arguments.flatMap Value.stackWords).length < 2 ^ 59) : Made (invoke id arguments) := by
  intro I closed u before
  have begun : Made (beginCall id arguments) :=
    .of_leaves (.beginCall id arguments few) trivial fun _ _ left => left
  have told (result : TypeTag) : Made (outcome result) :=
    .of_leaves (.outcome result) trivial fun _ _ left => left.ignored
  rw [invoke_eq_begin]
  exact (begun.bind fun _ => made_runGuest.bind fun _ => told _) I closed u before

theorem made_load (c : ClassDefinition) (small : c.pool.length < 2 ^ 58) :
    Made (onWorld (World.load c)) :=
  .of_leaves (.load c small) trivial fun _ _ left => left.ignored

theorem made_invokeExact (handle : UInt64) (descriptor : String) {arguments : List Value}
    (few : (arguments.flatMap Value.stackWords).length < 2 ^ 58) :
    Made (invokeExact handle descriptor arguments) := by
  have made : Made (onWorld (World.handleInvoker "invokeExact" descriptor)) :=
    .of_leaves (.handleInvoker descriptor) trivial fun _ _ left => left.ignored
  exact made.bind fun id => made_invoke id (withObject few)

theorem made_callStatic (className name : String) {arguments : List Value}
    (few : (arguments.flatMap Value.stackWords).length < 2 ^ 58) :
    Made (callStatic className name arguments) := by
  refine (Made.of_reads (lookup_reads className name)).bind fun id => ?_
  refine (Made.of_reads Reads.classes).bind fun t => ?_
  split
  · exact .throw _
  · exact made_invoke id (Nat.lt_trans few (by decide))

theorem made_callInstance (className name : String) (receiver : UInt64) {arguments : List Value}
    (few : (arguments.flatMap Value.stackWords).length < 2 ^ 58) :
    Made (callInstance className name receiver arguments) := by
  refine (Made.of_reads (lookup_reads className name)).bind fun id => ?_
  refine (Made.of_reads Reads.classes).bind fun t => ?_
  split
  · exact .throw _
  · exact made_invoke id (withObject few)

theorem Made.comes {action : Action α} (h : Made action) (before : v.Comes u)
    (left : Leaves action u w) : v.Comes w := left.of_preserves (h _ (closed_comes v)) before

/-- Wherever the host finds a machine, deeds have led there from the machine that was built. -/
theorem Hosted.comes (h : Hosted settings v) : ∃ v₀, create settings = .ok v₀ ∧ v₀.Comes v := by
  induction h with
  | created ran => exact ⟨_, ran, .here⟩
  | loaded _ c small left ih =>
    obtain ⟨v₀, ran, comes⟩ := ih
    exact ⟨v₀, ran, (made_load c small).comes comes left⟩
  | calledStatic _ className name arguments few left ih =>
    obtain ⟨v₀, ran, comes⟩ := ih
    exact ⟨v₀, ran, (made_callStatic className name few).comes comes left⟩
  | calledInstance _ className name receiver arguments few left ih =>
    obtain ⟨v₀, ran, comes⟩ := ih
    exact ⟨v₀, ran, (made_callInstance className name receiver few).comes comes left⟩
  | invoked _ handle descriptor arguments few left ih =>
    obtain ⟨v₀, ran, comes⟩ := ih
    exact ⟨v₀, ran, (made_invokeExact handle descriptor few).comes comes left⟩

end TemplateVm.Vm
