import TemplateVm.Proofs.Calls.CallStub
import TemplateVm.Proofs.Calls.Recovery
import TemplateVm.Proofs.Layout.Closed

set_option autoImplicit false
set_option synthInstance.maxSize 100000

/-!
# From the host to a method

A call of the host is refused before anything is changed, or it is a run that comes to the entry of
the method with the words of the arguments. Words are counted, not arguments: nothing else about them
is compared with the parameters.
-/
namespace TemplateVm

open Memory (Guarded load)

/-! ## The arguments -/

namespace Memory.Guarded

variable {m : Guarded} {l l₁ l₂ : List Write} {x : Write}

/-- What is written last to a place is there. -/
theorem load_foldl_of_mem (split : l = l₁ ++ x :: l₂) (width : x.width = 8)
    (ok : m.Open x.address 8) (apart : ∀ y ∈ l₂,
      y.address.toNat + y.width.toNat ≤ x.address.toNat ∨
        x.address.toNat + 8 ≤ y.address.toNat) :
    load (l.foldl Machine.write m).bytes x.address.toNat 8 = x.value := by
  have alike := alike_foldl (m := m) (l := l₁)
  subst split
  rw [List.foldl_append, List.foldl_cons]
  refine (load_foldl fun y hy => apart y hy).trans ?_
  rw [Machine.write, width]
  exact load_put (ok.alike alike)

end Memory.Guarded

namespace ThreadBlock

variable {t : ThreadBlock} {words : List UInt64} {m : Guarded}

/-- What is reset lies below the arguments. -/
theorem end_of_mem_resetWrites {x : Write} (hx : x ∈ t.resetWrites)
    (inside : t.base.toNat + 0x1000 < 2 ^ 64) :
    x.address.toNat + x.width.toNat ≤ t.base.toNat + 0x410 := by
  have slot {i : Nat} (small : i < 384) := t.argumentSlot_toNat small inside
  have field (f w : UInt64) (hf : f.toNat + w.toNat ≤ 0x400) :
      (t.base + f).toNat + w.toNat ≤ t.base.toNat + 0x410 := by
    rw [toNat_add_of_lt (by omega)]
    omega
  have first : (t.argumentSlot Vm.resultSlot).toNat = t.base.toNat + 0x400 := slot (by decide)
  simp only [resetWrites, List.mem_cons, List.not_mem_nil, or_false] at hx
  rcases hx with rfl | rfl | rfl | rfl | rfl | rfl
  · dsimp only
    rw [first]
    change _ + 8 ≤ _
    omega
  · have second : (t.argumentSlot Vm.resultSlot + 8).toNat = t.base.toNat + 0x408 := by
      rw [toNat_add_of_lt (by rw [first]; change _ + 8 < _; omega), first]
      rfl
    dsimp only
    rw [second]
    change _ + 8 ≤ _
    omega
  · exact field _ 8 (by decide)
  · exact field _ 8 (by decide)
  · exact field _ 8 (by decide)
  · exact field _ 4 (by decide)

/-- Every word of the arguments is where the call stub looks for it. -/
theorem lists_callWrites (few : words.length ≤ 382) (inside : t.base.toNat + 0x1000 < 2 ^ 64)
    (clear : m.Clear t.base.toNat (t.base.toNat + 0x1000)) :
    ((t.callWrites words).foldl Machine.write m).Lists (t.argumentSlot Vm.parameterSlot).toNat
      words := by
  have slot (k : Nat) (lt : k < 382) :
      (t.argumentSlot (Vm.parameterSlot + k.toUInt64)).toNat = t.base.toNat + (0x410 + 8 * k) := by
    have index : Vm.parameterSlot + k.toUInt64 = (2 + k).toUInt64 := (UInt64.ofNat_add 2 k).symm
    rw [index, t.argumentSlot_toNat (by omega) inside]
    omega
  intro k w hk
  have lt : k < words.length := (List.getElem?_eq_some_iff.mp hk).1
  have start : (t.argumentSlot Vm.parameterSlot).toNat = t.base.toNat + 0x410 := slot 0 (by omega)
  have place : (t.argumentSlot (Vm.parameterSlot + k.toUInt64)).toNat =
      (t.argumentSlot Vm.parameterSlot).toNat + 8 * k := by
    rw [slot k (by omega), start]
    omega
  let write (p : UInt64 × Nat) : Write :=
    ⟨t.argumentSlot (Vm.parameterSlot + p.2.toUInt64), 8, p.1⟩
  have split : t.callWrites words = (words.zipIdx.take k).map write ++
      write (w, k) :: ((words.zipIdx.drop (k + 1)).map write ++ t.resetWrites) := by
    have lt' : k < words.zipIdx.length := by rwa [List.length_zipIdx]
    have here : words.zipIdx[k] = (w, k) := by
      rw [List.getElem_zipIdx, Nat.zero_add, (List.getElem?_eq_some_iff.mp hk).2]
    have whole := (List.take_append_drop k words.zipIdx).symm
    rw [List.drop_eq_getElem_cons lt', here] at whole
    rw [callWrites, argumentWrites]
    conv_lhs => rw [whole]
    rw [List.map_append, List.map_cons, List.append_assoc, List.cons_append]
  rw [← place]
  refine Guarded.load_foldl_of_mem (x := write (w, k)) split rfl ?_ fun y hy => ?_
  · refine clear.open ?_ ?_
    · change _ ≤ (t.argumentSlot (Vm.parameterSlot + k.toUInt64)).toNat
      rw [slot k (by omega)]
      omega
    · change (t.argumentSlot (Vm.parameterSlot + k.toUInt64)).toNat + 8 ≤ _
      rw [slot k (by omega)]
      omega
  · change _ ∨ (t.argumentSlot (Vm.parameterSlot + k.toUInt64)).toNat + 8 ≤ _
    change _ ≤ (t.argumentSlot (Vm.parameterSlot + k.toUInt64)).toNat ∨ _
    rw [slot k (by omega)]
    rcases List.mem_append.mp hy with hy | hy
    · obtain ⟨p, hp, rfl⟩ := List.mem_map.mp hy
      obtain ⟨j, hj, rfl⟩ := List.mem_iff_getElem.mp hp
      rw [List.length_drop, List.length_zipIdx] at hj
      have later : (words.zipIdx.drop (k + 1))[j].2 = k + 1 + j := by
        rw [List.getElem_drop, List.getElem_zipIdx, Nat.zero_add]
      refine .inr ?_
      change _ ≤ (t.argumentSlot (Vm.parameterSlot + (words.zipIdx.drop (k + 1))[j].2.toUInt64)).toNat
      rw [later, slot _ (by omega)]
      omega
    · refine .inl ?_
      have := end_of_mem_resetWrites hy inside
      omega

end ThreadBlock

/-! ## Calls -/

namespace Image

/-- The call stub is where the image says. -/
def Admits (s : Settings) (i : Image) : Prop :=
  ∃ place q, Lays ⟨i.code, place⟩ { settings := s } true [] [] Stubs.callCode i.stubs.callStub q ()

variable {s : Settings} {i i' : Image}

theorem admits_of_generate (h : generate s = .ok i) (pages : s.shadowPages.toNat < 2 ^ 54) :
    i.Admits s := by
  obtain ⟨parts, laid⟩ := laid_of_generate h pages
  obtain ⟨place, p, q, lay⟩ := laid.stubs
  unfold Stubs.all at lay
  obtain ⟨⟨⟩, _, code, lay⟩ := lay.stub_bind
  obtain ⟨_, _, -, lay⟩ := lay.split
  obtain ⟨_, _, -, lay⟩ := lay.split
  obtain ⟨_, _, -, lay⟩ := lay.split
  obtain ⟨_, _, -, lay⟩ := lay.split
  obtain ⟨_, _, -, lay⟩ := lay.split
  obtain ⟨-, same⟩ := lay.ended
  rw [Admits, same]
  exact ⟨place, _, code⟩

/-- Handlers that are added to the image leave the rest of it where it is. -/
structure Keeps (i i' : Image) : Prop where
  stubs : i'.stubs = i.stubs
  methodEntries : i'.methodEntries = i.methodEntries
  exceptions : i'.exceptions = i.exceptions
  fetches : ∀ p j, i.code.Fetches p j → i'.code.Fetches p j

theorem Extends.keeps (sound : i.Sound) (more : i.Extends i') : i.Keeps i' := by
  induction more with
  | refl => exact ⟨rfl, rfl, rfl, fun _ _ j => j⟩
  | @add j k d isStatic handler before run ih =>
    obtain ⟨signature, -, -, ⟨rfl, -⟩ | ⟨blob, c, -, installed, -, rfl⟩⟩ :=
      signatureHandler_cases run
    · exact ih
    · exact ⟨ih.stubs, ih.methodEntries, ih.exceptions, fun p j fetch =>
        (sound.extends before).ranged.ordered.keeps installed (ih.fetches p j fetch)⟩

theorem Admits.keeps (h : i.Admits s) (keeps : i.Keeps i') : i'.Admits s := by
  obtain ⟨place, q, lay⟩ := h
  rw [Admits, keeps.stubs]
  exact ⟨place, q, lay.mono rfl keeps.fetches⟩

end Image

namespace Vm

variable {v : Vm} {id : MethodId} {words : List UInt64} {s : Settings}

/-- Where the stack of the machine ends. -/
def stackTop (v : Vm) : UInt64 := v.map.stackBase &&& ~~~15

/-- There is room on the stack for the frame of the call stub and for the words. -/
structure Spacious (v : Vm) (words : List UInt64) : Prop where
  clear : v.world.store.mem.Clear (v.stackTop.toNat - 128 - 8 * words.length) v.stackTop.toNat
  above : v.map.thread.toNat + 0x1000 + 8 * words.length + 128 ≤ v.stackTop.toNat

/-- The processor has come to the entry of the method. Its record and the thread are in registers,
    and the words of the arguments are on the operand stack, the first one first. -/
def Passed (v : Vm) (id : MethodId) (words : List UInt64) (w : Vm) : Prop :=
  let m := (ThreadBlock.callWrites ⟨v.map.thread⟩ words).foldl Machine.write v.world.store.mem
  let method := (v.world.classes.method id).address
  let entry := load v.world.store.mem.bytes (method + MethodRecord.fromInterpreted).toNat 8
  ∃ c' m', Passes words method entry v.map.thread v.stackTop.toNat m c' m' ∧
    w = ({ v with preserved := none } : Vm).moved entry c' m'

/-- The registers that the call stub looks at. -/
theorem reg_callRegisters (v : Vm) (id : MethodId) (words : List UInt64) (c : Cpu) :
    let c' := (v.callRegisters id words).foldl (fun c x => c.setReg x.1 x.2) c
    let method := (v.world.classes.method id).address
    c'.reg .x1 = method ∧ c'.reg .x2 = load v.world.store.mem.bytes
        (method + MethodRecord.fromInterpreted).toNat 8 ∧
      c'.reg .x3 = ThreadBlock.argumentSlot ⟨v.map.thread⟩ parameterSlot ∧
      c'.reg .x4 = words.length.toUInt64 ∧ c'.reg .x5 = v.map.thread ∧ c'.reg .sp = v.stackTop := by
  simp +decide only [callRegisters, List.foldl_cons, List.foldl_nil, Cpu.reg_setReg, ↓reduceIte]
  exact ⟨trivial, trivial, trivial, trivial, trivial, rfl⟩

/-- A call comes to the entry of its method with the words that the host has given. -/
theorem Callable.enters (h : v.Callable id words) (mapped : v.Mapped) (spacious : v.Spacious words)
    (admits : v.image.Admits s) :
    Arrives (v.Passed id words) (5 * words.length + 20) (v.atCall id words) := by
  obtain ⟨place, q, lay⟩ := admits
  have few := h.few
  have above := spacious.above
  have block := mapped.block
  have alike := Guarded.alike_foldl (m := v.world.store.mem)
    (l := ThreadBlock.callWrites ⟨v.map.thread⟩ words)
  have parameters : (ThreadBlock.argumentSlot ⟨v.map.thread⟩ parameterSlot).toNat =
      v.map.thread.toNat + 0x410 :=
    ThreadBlock.argumentSlot_toNat ⟨v.map.thread⟩ (i := 2) (by decide) mapped.block_lt
  obtain ⟨x1, x2, x3, x4, x5, sp⟩ := v.reg_callRegisters id words v.processor.cpu
  let c := (v.callRegisters id words).foldl (fun c x => c.setReg x.1 x.2) v.processor.cpu
  let m := (ThreadBlock.callWrites ⟨v.map.thread⟩ words).foldl Machine.write v.world.store.mem
  have submits : Submits words (v.world.classes.method id).address (load v.world.store.mem.bytes
      ((v.world.classes.method id).address + MethodRecord.fromInterpreted).toNat 8) v.map.thread
      c m := by
    have limit := v.stackTop.toNat_lt
    refine ⟨x1, x2, x5, x4, ?_, ?_, ?_, ?_, ?_, ?_⟩
    · rw [x3]
      exact ThreadBlock.lists_callWrites few mapped.block_lt block
    · rw [x3, parameters]
      exact (block.congr alike.size alike.guards).mono (by omega) (by
        change _ ≤ v.map.thread.toNat + 0x1000
        omega)
    · rw [x3, parameters]
      omega
    · rw [sp]
      exact spacious.clear.congr alike.size alike.guards
    · rw [sp]
      omega
    · rw [x3, sp, parameters]
      omega
  have run : Arrives (v.Passed id words) (0 + 4 + (5 * words.length + 1) + 15)
      (({ v with preserved := none } : Vm).moved v.image.stubs.callStub c m) :=
    submits.runCallCode lay fun _ c' m' hands => .here ⟨c', m', sp ▸ hands.toPasses, rfl⟩
  exact run.le (by omega)

/-! ## Calls that are declined -/

/-- A call is declined before anything is done. -/
def Declines {α : Type} (action : Action α) (v : Vm) : Prop :=
  ∃ message, action v = .error (.linkage message) v

theorem Declines.bind {α β : Type} {action : Action α} {f : α → Action β} {v : Vm}
    (h : Declines action v) : Declines (action >>= f) v :=
  let ⟨message, refused⟩ := h
  ⟨message, bind_error refused⟩

theorem lookup_cases (className name : String) (v : Vm) :
    Declines (lookup className name) v ∨ ∃ id, lookup className name v = .ok id v := by
  have required : Declines (onWorld (World.require className)) v ∨
      ∃ id, onWorld (World.require className) v = .ok id v := by
    cases found : v.world.classes.find? className with
    | none =>
      refine .inl ⟨s!"class {className} is not loaded", ?_⟩
      unfold onWorld zoom World.require
      simp only [bind_ok (m := (get : World.Action World)) (s := v.world) rfl, found]
      rfl
    | some id =>
      refine .inr ⟨id, ?_⟩
      unfold onWorld zoom World.require
      simp only [bind_ok (m := (get : World.Action World)) (s := v.world) rfl, found]
      rfl
  rcases required with refused | ⟨holder, known⟩
  · exact .inl refused.bind
  · have rest : lookup className name v = _ :=
      (bind_ok known).trans (bind_ok (m := classes) (s := v) rfl)
    cases found : v.world.classes.findMethod? holder name none with
    | none => exact .inl ⟨_, rest.trans (by rw [found]; rfl)⟩
    | some id => exact .inr ⟨id, rest.trans (by rw [found]; rfl)⟩

/-- A method is called with as many words as it takes, or the call is refused. -/
theorem invoke_cases (id : MethodId) (arguments : List Value) (v : Vm) :
    Declines (invoke id arguments) v ∨
      (arguments.flatMap Value.stackWords).length = (v.world.classes.method id).parameterWords := by
  refine Decidable.or_iff_not_imp_right.mpr fun differ => ?_
  have refused : invoke id arguments v = .error (.linkage _) v :=
    (bind_ok (m := classes) (s := v) rfl).trans ((congrFun (if_pos differ) v).trans rfl)
  exact ⟨_, refused⟩

/-- What is known of a method that a call of the host is not refused for. -/
structure Takes (v : Vm) (className name : String) (isStatic : Bool) (arguments : List Value)
    (id : MethodId) : Prop where
  found : lookup className name v = .ok id v
  access : (v.world.classes.method id).access.isStatic = isStatic
  words : (arguments.flatMap Value.stackWords).length = (v.world.classes.method id).parameterWords

/-- The host calls a static method with as many words as it takes, or is refused. -/
theorem callStatic_cases (className name : String) (arguments : List Value) (v : Vm) :
    Declines (callStatic className name arguments) v ∨ ∃ id,
      v.Takes className name true arguments id ∧
        callStatic className name arguments v = invoke id arguments v := by
  rcases lookup_cases className name v with refused | ⟨id, found⟩
  · exact .inl refused.bind
  have known : callStatic className name arguments v = _ :=
    (bind_ok found).trans (bind_ok (m := classes) (s := v) rfl)
  cases access : (v.world.classes.method id).access.isStatic with
  | false =>
    rw [access] at known
    exact .inl ⟨_, known.trans rfl⟩
  | true =>
    rw [access] at known
    replace known : _ = invoke id arguments v := known.trans rfl
    rcases invoke_cases id arguments v with ⟨message, refused⟩ | words
    · exact .inl ⟨message, known.trans refused⟩
    · exact .inr ⟨id, ⟨found, access, words⟩, known⟩

/-- So does it call a method of an object, with the receiver for the first word. -/
theorem callInstance_cases (className name : String) (receiver : UInt64) (arguments : List Value)
    (v : Vm) : Declines (callInstance className name receiver arguments) v ∨ ∃ id,
      v.Takes className name false (.object receiver :: arguments) id ∧
        callInstance className name receiver arguments v =
          invoke id (.object receiver :: arguments) v := by
  rcases lookup_cases className name v with refused | ⟨id, found⟩
  · exact .inl refused.bind
  have known : callInstance className name receiver arguments v = _ :=
    (bind_ok found).trans (bind_ok (m := classes) (s := v) rfl)
  cases access : (v.world.classes.method id).access.isStatic with
  | true =>
    rw [access] at known
    exact .inl ⟨_, known.trans rfl⟩
  | false =>
    rw [access] at known
    replace known : _ = invoke id (.object receiver :: arguments) v := known.trans rfl
    rcases invoke_cases id (.object receiver :: arguments) v with ⟨message, refused⟩ | words
    · exact .inl ⟨message, known.trans refused⟩
    · exact .inr ⟨id, ⟨found, access, words⟩, known⟩

end Vm

end TemplateVm
