import TemplateVm.Proofs.Activation.Services
import TemplateVm.Proofs.Loading.Bodies
import TemplateVm.Proofs.Loading.Bootstrap

set_option autoImplicit false

/-!
# Indices of loaded bodies

An operation that takes a pool index finds, when it is loaded, the index that the class file had:
the resolver reads it, and generated code looks for the cache entry that belongs to it. This holds
of all operations of the walk through a body. A branch may lead elsewhere, past a byte that is no
opcode, and there bytes are still in the order of the class file.
-/
namespace TemplateVm

open Memory (Guarded byteAt)
open Bytecode (Operation Walk Reaches StaysOnWalk CutOff operationAt? indexAt)

/-! ## Numbers with their bytes turned round -/

theorem Bytecode.bigEndian_append (bytes : List UInt8) (b : UInt8) :
    bigEndian (bytes ++ [b]) = 256 * bigEndian bytes + b.toNat := by
  rw [bigEndian, List.foldl_append]
  rfl

/-- What is loaded from bytes has the last of them highest. -/
theorem Memory.load_toNat {b : ByteArray} {i : Nat} {bytes : List UInt8} (short : bytes.length ≤ 8)
    (stored : ∀ (j : Nat) (y : UInt8), bytes[j]? = some y → byteAt b (i + j) = y) :
    (Memory.load b i bytes.length).toNat = Bytecode.bigEndian bytes.reverse := by
  induction bytes generalizing i with
  | nil => rfl
  | cons y bytes ih =>
    rw [List.length_cons] at short
    have first : byteAt b i = y := stored 0 y rfl
    have rest := ih (i := i + 1) (by omega) fun j z hz => by
      rw [Nat.add_assoc, Nat.add_comm 1 j]
      exact stored (j + 1) z hz
    rw [List.length_cons, load_succ (by omega), rest, first, List.reverse_cons,
      Bytecode.bigEndian_append, Nat.add_comm]

namespace World

variable {w w' w'' : World} {c : ClassDefinition} {id : ClassId} {m : MethodDefinition}
  {l : LoadedMethod} {op : Operation}

/-! ## Reading an index -/

/-- The bytes of an index behind the opcode. -/
def indexWidth (o : Opcode) : Nat := if o = .invokedynamic then 4 else 2

theorem indexWidth_toNat (o : Opcode) : (indexWidth o).toUInt64.toNat = indexWidth o := by
  unfold indexWidth
  split <;> rfl

/-- Whoever reads the index of the bytecode at an address finds the number: it is in memory, the
    resolver takes it, and generated code comes to the cache entry of this number. -/
structure FindsIndex (w : World) (o : Opcode) (bcp : UInt64) (index : Nat) : Prop where
  stored : (Memory.load w.store.mem.bytes (bcp + 1).toNat (indexWidth o)).toNat = index
  resolver : ∀ v : Vm, v.world = w → Vm.poolIndex o bcp v = .ok index v
  generated : ∀ {v : Vm} {place : CodeLabel → UInt64} {ctx : CodeContext} {inStub : Bool}
    {K S : List CodeLabel} {q q' : UInt64} {c : Cpu} {entry i : Register}, v.world = w →
    Lays ⟨v.image.code, place⟩ ctx inStub K S (Emit.loadCacheEntry entry i 1 (indexWidth o))
      q q' () →
    c.reg .bytecode = bcp → i ≠ .zero → i ≠ .cache →
    Vm.Arrives (· = v.moved q' ((c.setReg i index.toUInt64).setReg entry
        (c.reg .cache + index.toUInt64 <<< CacheRecord.entryShift.toUInt64)) w.store.mem)
      2 (v.moved q c w.store.mem)

/-- A number that is in memory is found by all readers. -/
theorem FindsIndex.of_stored {o : Opcode} {bcp : UInt64} {index : Nat}
    (clear : w.store.mem.Open (bcp + 1) (indexWidth o).toUInt64)
    (stored : (Memory.load w.store.mem.bytes (bcp + 1).toNat (indexWidth o)).toNat = index) :
    w.FindsIndex o bcp index where
  stored := stored
  resolver v same := by
    subst same
    have width : (if o = .invokedynamic then 4 else 2 : UInt64) = (indexWidth o).toUInt64 := by
      unfold indexWidth
      split <;> rfl
    have read := clear.readA
    rw [indexWidth_toNat] at read
    unfold Vm.poolIndex
    rw [width]
    have ran : Vm.onMemory (Guarded.readA (bcp + 1) (indexWidth o).toUInt64)
        ((v.moved v.processor.cpu.pc v.processor.cpu v.world.store.mem).counted v.processor.steps
          v.processor.watched) = .ok _ _ := Vm.onMemory_ok read
    refine (Vm.bind_ok ran).trans ?_
    rw [stored]
    rfl
  generated {v place ctx inStub K S q q' c entry i} same lay at_bcp notZero notCache := by
    subst same at_bcp
    have number : Memory.load v.world.store.mem.bytes (c.reg .bytecode + 1).toNat (indexWidth o) =
        index.toUInt64 := by
      rw [← stored]
      exact UInt64.ofNat_toNat.symm
    have arrives {n : Width} (bytes : n.bytes = (indexWidth o).toUInt64)
        (lay : Lays ⟨v.image.code, place⟩ ctx inStub K S (do
          Emit.emit (.load i (Register.bytecode.at 1) n false)
          Emit.add entry .cache (i.lsl CacheRecord.entryShift)) q q' ()) :
        Vm.Arrives (· = v.moved q' ((c.setReg i index.toUInt64).setReg entry
          (c.reg .cache + index.toUInt64 <<< CacheRecord.entryShift.toUInt64)) v.world.store.mem)
          2 (v.moved q c v.world.store.mem) := by
      obtain ⟨i₁, lay⟩ := lay.emit_bind
      obtain ⟨i₂, rfl⟩ := lay.emit
      rw [← bytes] at clear
      refine .load i₁ clear (.binary i₂ (.here ?_))
      have loaded : Memory.load v.world.store.mem.bytes (c.reg .bytecode + 1).toNat
          n.bytes.toNat = index.toUInt64 := by
        rw [bytes, indexWidth_toNat, number]
      rw [Cpu.target_base, Cpu.rebase_base, loaded]
      change v.moved _ (Cpu.setReg _ entry ((c.setReg i index.toUInt64).reg .cache +
        (c.setReg i index.toUInt64).reg i <<< CacheRecord.entryShift.toUInt64)) _ = _
      rw [Cpu.reg_setReg_ne _ _ notCache.symm, Cpu.reg_setReg_self _ _ notZero]
    unfold Emit.loadCacheEntry indexWidth at lay
    by_cases dynamic : o = .invokedynamic
    · simp only [dynamic, ↓reduceIte] at lay
      exact arrives (by rw [indexWidth, if_pos dynamic]; rfl) lay
    · simp only [dynamic, ↓reduceIte] at lay
      exact arrives (by rw [indexWidth, if_neg dynamic]; rfl) lay

/-! ## The operations of a body -/

/-- What is made of the body of a method when it is loaded: at every operation of the walk the index
    of the class file is found, no other byte differs, and control flow that is led to the walk
    meets no other operation. -/
structure Agrees (w : World) (m : MethodDefinition) (l : LoadedMethod) : Prop where
  indices : ∀ op, Walk m.code op.bci → operationAt? m.code op.bci = some op →
    op.opcode.isLinked = true → w.FindsIndex op.opcode (l.codeBase + op.bci.toUInt64)
      (indexAt m.code op.bci op.opcode)
  others : ∀ j, (∀ op, Walk m.code op.bci → operationAt? m.code op.bci = some op →
    op.opcode.isLinked = true → ¬(op.bci < j ∧ j < op.bci + op.opcode.length)) →
    (w.codeOf l)[j]? = m.code[j]?
  flow : StaysOnWalk m.code m.handlers → ∀ bci, Reaches (w.codeOf l) m.handlers bci →
    Walk m.code bci

theorem indexWidth_eq {o : Opcode} (linked : o.isLinked = true) : indexWidth o + 1 = o.length := by
  revert linked
  cases o <;> decide

/-- The bytes of a body are where the table says. -/
theorem Records.byteAt (h : Records id m w l) (sound : w.Sound) {j : Nat} {y : UInt8}
    (hy : (w.codeOf l)[j]? = some y) : Memory.byteAt w.store.mem.bytes (l.codeBase.toNat + j) = y := by
  have code := h.within.code
  have within := sound.writable.region.top_le
  have inside := sound.writable.clear.inside
  have lt := (List.getElem?_eq_some_iff.mp hy).1
  rw [codeOf, Memory.length_bytesFrom (by omega)] at lt
  rw [codeOf, Memory.getElem?_bytesFrom (by omega) lt] at hy
  exact Option.some.inj hy

/-- Where bytes are behind an opcode of a loaded body, the number is found of which they are the
    bytes, the last one highest. -/
theorem Records.findsIndex (h : Records id m w l) (sound : w.Sound) {o : Opcode} {bci : Nat}
    {bytes : List UInt8} (width : bytes.length = indexWidth o)
    (stored : ∀ (j : Nat) (y : UInt8), bytes[j]? = some y → (w.codeOf l)[bci + 1 + j]? = some y) :
    w.FindsIndex o (l.codeBase + bci.toUInt64) (Bytecode.bigEndian bytes.reverse) := by
  have above := h.above
  have code := h.within.code
  have within := sound.writable.region.top_le
  have inside := sound.writable.clear.inside
  have below := sound.writable.region.below
  have small : 0 < indexWidth o ∧ indexWidth o ≤ 8 := by
    unfold indexWidth
    split <;> decide
  have fits : bci + 1 + (indexWidth o - 1) < l.codeLength := by
    have last := stored (indexWidth o - 1) _ (List.getElem?_eq_getElem (by omega))
    have lt := (List.getElem?_eq_some_iff.mp last).1
    rwa [codeOf, Memory.length_bytesFrom (by omega)] at lt
  have place : (l.codeBase + bci.toUInt64 + 1).toNat = l.codeBase.toNat + bci + 1 := by
    have offset : bci.toUInt64.toNat = bci := UInt64.toNat_ofNat_of_lt' (by
      change _ < 2 ^ 64
      omega)
    have sum : (l.codeBase + bci.toUInt64).toNat = l.codeBase.toNat + bci := by
      rw [toNat_add_of_lt (by omega), offset]
    rw [toNat_add_of_lt (by rw [sum]; change _ + 1 < _; omega), sum]
    rfl
  refine .of_stored (sound.writable.clear.open (by omega) (by rw [indexWidth_toNat]; omega)) ?_
  rw [place, ← width]
  refine Memory.load_toNat (by omega) fun j y hy => ?_
  rw [Nat.add_assoc, Nat.add_assoc]
  refine h.byteAt sound ?_
  rw [← Nat.add_assoc]
  exact stored j y hy

/-- The operand bytes of a linked operation are in memory in the opposite order. -/
theorem Records.operands (h : Records id m w l) {operands : List UInt8} (walk : Walk m.code op.bci)
    (heads : op.Heads operands (m.code.drop op.bci)) (linked : op.opcode.isLinked = true) {j : Nat}
    {y : UInt8} (hy : operands.reverse[j]? = some y) :
    (w.codeOf l)[op.bci + 1 + j]? = some y := by
  have eq := (walk.native h.body heads).eq_append
  have lt := (List.getElem?_eq_some_iff.mp hy).1
  rw [Bytecode.native, if_pos linked] at eq
  rw [Nat.add_assoc, ← List.getElem?_drop, eq, Nat.add_comm 1 j, List.cons_append,
    List.getElem?_cons_succ, List.getElem?_append_left lt]
  exact hy

theorem Records.agrees (h : Records id m w l) (sound : w.Sound) : w.Agrees m l where
  indices op walk there linked := by
    obtain ⟨operands, heads⟩ := Bytecode.heads_of_operationAt? there
    have width := indexWidth_eq linked
    have length := heads.length
    have reversed : operands.reverse.length = indexWidth op.opcode := by
      rw [List.length_reverse]
      omega
    have found := h.findsIndex sound reversed fun _ _ hy => h.operands walk heads linked hy
    rw [List.reverse_reverse, ← heads.indexAt] at found
    exact found
  others j other := Bytecode.getElem?_toNativeOrder h.body other
  flow stays bci reached := reached.walk stays h.body

/-! ## Every class that is loaded -/

/-- A class that passed its check, whose superclass is there and of which no body is cut off, is
    loaded where there is room for it, unless its name is taken; and its bodies are read as the
    class file has them then and whatever is loaded later. -/
theorem load_agrees (booted : w.Booted) (valid : c.validate = .ok ())
    (super : (w.classes.find? (c.superName.getD KnownClass.object)).isSome) (room : w.Room c)
    (whole : ∀ m ∈ c.methods, ¬ CutOff m.code) :
    (∃ id w', load c w = .ok id w' ∧ ∀ w'', w'.Loads w'' → ∀ m ∈ c.methods,
      ∃ l ∈ w''.classes.methods, Records id m w'' l ∧ w''.Agrees m l) ∨
    (w.classes.find? c.name).isSome ∧
      load c w = .error (.invalidClass (c.name ++ " is already loaded")) w := by
  cases taken : w.classes.find? c.name with
  | some id =>
    refine .inr ⟨rfl, ?_⟩
    unfold load
    rw [valid]
    change (if (w.classes.find? c.name).isSome then throw _ else _ : Action ClassId) w = _
    rw [taken]
    rfl
  | none =>
    obtain ⟨id, w', ran, -, booted', has⟩ := load_ok booted ⟨valid, taken, superOf_ok super⟩ room whole
    refine .inl ⟨id, w', ran, fun w'' loads m hm => ?_⟩
    obtain ⟨grown, booted''⟩ := loads.extends booted'
    obtain ⟨l, listed, records⟩ := has.extends booted'.sound grown m hm
    exact ⟨l, listed, records, records.agrees booted''.sound⟩

/-! ## A world with two classes -/

/-- A class without members that has its records at an address. -/
def bareClass (name : String) (address : UInt64) : LoadedClass :=
  { name, address, superId := none, fields := [], pool := #[], poolAddress := address + 24,
    cacheAddress := address + 48 }

/-- The default settings' memory with the root and the class of classes. -/
def twoClasses : World :=
  { store := (Vm.emptyWorld (MemoryMap.ofSettings {}) [] {}).store
    classes :=
      { metaspace := { Memory.Region.ofSize 0x20000 0x400000 with top := 0x20080 }
        classes := #[bareClass KnownClass.object 0x20000,
          bareClass KnownClass.classOfClasses 0x20040]
        entries := []
        policy := {} } }

theorem twoClasses_metaclass : twoClasses.classes.find? KnownClass.classOfClasses = some 1 := by
  decide +kernel

theorem eq_of_mem_twoClasses {d : LoadedClass} (h : d ∈ twoClasses.classes.classes) :
    d = bareClass KnownClass.object 0x20000 ∨ d = bareClass KnownClass.classOfClasses 0x20040 := by
  simpa [twoClasses] using h

theorem twoClasses_booted : twoClasses.Booted where
  sound := by
    have sound : (Vm.emptyWorld (MemoryMap.ofSettings {}) [] {}).Sound :=
      Vm.emptyWorld_sound Vm.ordered_default
    refine ⟨⟨⟨by decide, by decide, by decide⟩, sound.writable.clear⟩, sound.store, sound.apart,
      fun d hd id hid => ?_, ⟨fun d hd => ?_, fun d hd => ?_, fun d hd => ?_⟩, fun id found => ?_⟩
    · rcases eq_of_mem_twoClasses hd with rfl | rfl <;> cases hid
    · rcases eq_of_mem_twoClasses hd with rfl | rfl <;> constructor <;> decide
    · cases Array.not_mem_empty d hd
    · cases Array.not_mem_empty d hd
    · rw [twoClasses_metaclass] at found
      cases found
      decide
  metaclass := ⟨1, twoClasses_metaclass⟩

def five : MethodDefinition := { name := "five", descriptor := "()I", code := [0x08, 0xac] }

/-- A class with one method besides `five`, which is the second constant of its pool. -/
def callerClass (code : List UInt8) : ClassDefinition :=
  { name := "Caller"
    pool := [.classRef "Caller", .methodRef ⟨"Caller", "five", "()I"⟩]
    methods := [five, { name := "run", descriptor := "()I", code }] }

theorem callerClass_room {code : List UInt8} (short : code.length ≤ 8) :
    twoClasses.Room (callerClass code) where
  pool := by
    change 2 < 2 ^ 58
    decide
  metaspace := by
    have cost : classCost (callerClass code) ≤ 400 := by
      simp only [classCost, poolCost, methodCost, constMethodCost, callerClass, five,
        List.map_cons, List.map_nil, List.sum_cons, List.sum_nil, List.length_cons, List.length_nil]
      omega
    have top : twoClasses.classes.metaspace.top.toNat = 0x20080 := rfl
    have stop : twoClasses.classes.metaspace.stop.toNat = 0x420000 := by decide
    omega
  heap metaclass found := by
    rw [twoClasses_metaclass] at found
    cases found
    decide

/-- A call at the beginning of a body. -/
def callFirst : List UInt8 := [0xb8, 0x00, 0x01, 0xac]

/-- Native order of the call is found for the class with it. -/
theorem load_agrees_callFirst :
    twoClasses.Booted ∧ (callerClass callFirst).validate = .ok () ∧
      (twoClasses.classes.find? KnownClass.object).isSome ∧
      twoClasses.Room (callerClass callFirst) ∧
      (∀ m ∈ (callerClass callFirst).methods, ¬ CutOff m.code) ∧
      ∃ id w', load (callerClass callFirst) twoClasses = .ok id w' ∧
        ∃ l ∈ w'.classes.methods, w'.FindsIndex .invokestatic l.codeBase 1 := by
  have booted := twoClasses_booted
  have valid : (callerClass callFirst).validate = .ok () := by cbv
  have super : (twoClasses.classes.find? KnownClass.object).isSome = true := by decide +kernel
  have room : twoClasses.Room (callerClass callFirst) := callerClass_room (by decide)
  have whole : ∀ m ∈ (callerClass callFirst).methods, ¬ CutOff m.code := by
    intro m hm
    refine Bytecode.toNativeOrder_ok_iff.mp ?_
    rcases List.mem_cons.mp hm with rfl | hm
    · exact ⟨_, rfl⟩
    · rw [List.mem_singleton.mp hm]
      exact ⟨_, rfl⟩
  refine ⟨booted, valid, super, room, whole, ?_⟩
  rcases load_agrees booted valid super room whole with ⟨id, w', ran, agrees⟩ | ⟨taken, -⟩
  · obtain ⟨l, listed, -, agree⟩ := agrees w' .none _ (List.mem_cons_of_mem _ List.mem_cons_self)
    have found := agree.indices ⟨0, .invokestatic, 1⟩ .first (by decide) rfl
    have index : indexAt callFirst 0 .invokestatic = 1 := by decide
    have place : l.codeBase + (0 : Nat).toUInt64 = l.codeBase := UInt64.add_zero _
    change w'.FindsIndex _ (l.codeBase + (0 : Nat).toUInt64) (indexAt callFirst 0 _) at found
    rw [index, place] at found
    exact ⟨id, w', ran, l, listed, found⟩
  · exact absurd taken (by decide +kernel)

/-- A call behind a byte that is no opcode, and a jump over the byte. -/
def jumpFirst : List UInt8 := [0xa7, 0x00, 0x04, 0xfe, 0xb8, 0x00, 0x01, 0xac]

/-- A call that has lost a byte of its operand. -/
def halfCall : List UInt8 := [0x08, 0xb8, 0x00]

/-- The check of classes does not see that control flow leaves the walk, or that an operation is cut
    off. Behind the jump the call of the second constant finds an index of 256, and a class with
    half a call is not loaded. -/
theorem jump_leaves_walk :
    ((callerClass jumpFirst).validate = .ok () ∧ twoClasses.Room (callerClass jumpFirst) ∧
      ∃ id w', load (callerClass jumpFirst) twoClasses = .ok id w' ∧
        ∃ l ∈ w'.classes.methods, l.name = "run" ∧ w'.codeOf l = jumpFirst ∧
          Reaches jumpFirst [] 4 ∧ operationAt? jumpFirst 4 = some ⟨4, .invokestatic, 1⟩ ∧
          indexAt jumpFirst 4 .invokestatic = 1 ∧
          w'.FindsIndex .invokestatic (l.codeBase + 4) 256) ∧
    (callerClass halfCall).validate = .ok () ∧ twoClasses.Room (callerClass halfCall) ∧
      ∀ id w', load (callerClass halfCall) twoClasses ≠ .ok id w' := by
  have native : Bytecode.toNativeOrder jumpFirst = .ok jumpFirst := rfl
  have valid : (callerClass jumpFirst).validate = .ok () := by cbv
  have whole : ∀ m ∈ (callerClass jumpFirst).methods, ¬ CutOff m.code := by
    intro m hm
    refine Bytecode.toNativeOrder_ok_iff.mp ?_
    rcases List.mem_cons.mp hm with rfl | hm
    · exact ⟨_, rfl⟩
    · rw [List.mem_singleton.mp hm]
      exact ⟨_, rfl⟩
  have super : ∃ superId, superOf (callerClass jumpFirst) twoClasses = .ok superId twoClasses :=
    superOf_ok (by decide +kernel)
  have absent : twoClasses.classes.find? "Caller" = none := by decide +kernel
  refine ⟨⟨valid, callerClass_room (by decide), ?_⟩, by cbv, callerClass_room (by decide), ?_⟩
  · obtain ⟨id, w', ran, -, booted, has⟩ := load_ok twoClasses_booted ⟨valid, absent, super⟩
      (callerClass_room (by decide)) whole
    obtain ⟨l, listed, records⟩ := has _ (List.mem_cons_of_mem _ List.mem_cons_self)
    have code : w'.codeOf l = jumpFirst := Except.ok.inj (records.body.symm.trans native)
    have jump : Reaches jumpFirst [] 4 :=
      Reaches.target .first (show operationAt? _ _ = some ⟨0, .goto, 4⟩ by decide) rfl rfl
    have found : w'.FindsIndex .invokestatic (l.codeBase + 4) 256 :=
      records.findsIndex booted.sound (show [0x00, 0x01].length = _ from rfl) fun j y hy => by
        rw [code]
        match j with
        | 0 => exact hy
        | 1 => exact hy
        | j + 2 => cases hy
    exact ⟨id, w', ran, l, listed, records.name, code, jump, by decide, by decide, found⟩
  · intro id w' ran
    have has := (load_has twoClasses_booted.sound (c := callerClass halfCall) (by decide)
      twoClasses_booted.few).of_ok ran
    obtain ⟨l, -, records⟩ := has _ (List.mem_cons_of_mem _ List.mem_cons_self)
    cases records.body

end World
end TemplateVm
