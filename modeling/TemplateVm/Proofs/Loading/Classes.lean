import TemplateVm.Proofs.Guest.Operations
import TemplateVm.Proofs.Loading.Growth
import TemplateVm.Proofs.Memory.Objects

set_option autoImplicit false

/-!
# Loading a class

From the moment its own records are written a class is known, and it stays known when its object or
one of its methods fails after that. All that was loaded before is left as it was, whether loading
fails or not; and if no body is cut off and there is enough room, it fails without a trace or not at
all.
-/
namespace TemplateVm

open Memory (Guarded)

theorem getD_push {α : Type} [Inhabited α] (xs : Array α) (x : α) :
    (xs.push x).getD xs.size default = x := by
  simp [Array.getD_eq_getD_getElem?]

theorem modify_push {α : Type} (xs : Array α) (x : α) (f : α → α) :
    (xs.push x).modify xs.size f = xs.push (f x) := by
  ext i h₁ h₂
  · simp
  · rw [Array.getElem_modify, Array.getElem_push, Array.getElem_push]
    by_cases last : xs.size = i
    · subst last
      simp
    · have before : i < xs.size := by
        rw [Array.size_push] at h₂
        omega
      rw [if_neg last, dif_pos before, dif_pos before]

/-- What a method that passed its check is known to be. -/
theorem MethodDefinition.of_validate {holder : String} {m : MethodDefinition}
    (h : m.validate holder = .ok ()) :
    (∃ d, MethodDescriptor.ofText m.descriptor = .ok d) ∧ m.code.length ≤ 65535 := by
  unfold validate at h
  cases descriptor : MethodDescriptor.ofText m.descriptor with
  | error e =>
    rw [descriptor] at h
    cases h
  | ok d =>
    refine ⟨⟨d, rfl⟩, Nat.le_of_not_lt fun large => ?_⟩
    rw [descriptor] at h
    change (if _ then _ else _) = _ at h
    split at h
    · cases h
    · split at h <;> cases h

/-- A method without a body needs a descriptor only. -/
theorem MethodDefinition.validate_bodyless (holder : String) {m : MethodDefinition}
    (descriptor : ∃ d, MethodDescriptor.ofText m.descriptor = .ok d) (bodyless : m.isBodyless = true)
    (code : m.code = []) (handlers : m.handlers = []) : m.validate holder = .ok () := by
  obtain ⟨d, descriptor⟩ := descriptor
  unfold validate
  rw [descriptor]
  change (if _ then _ else _) = _
  simp [bodyless, code, handlers]

theorem ClassDefinition.of_validate {c : ClassDefinition} (h : c.validate = .ok ())
    {m : MethodDefinition} (declared : m ∈ c.methods) : m.validate c.name = .ok () := by
  unfold validate at h
  split at h
  · cases h
  · obtain ⟨_, -, h⟩ := ok_of_bind h
    obtain ⟨_, -, h⟩ := ok_of_bind h
    exact forM_ok h declared

/-- Where the cache of a class has the entry of a constant. -/
def LoadedClass.entryAt (c : LoadedClass) (i : Nat) : Nat := c.cacheAddress.toNat + 16 + 32 * i

namespace World

variable {w w₀ w' : World} {c : ClassDefinition} {k : Nat}

/-! ## The object of a class -/

/-- The heap might not hold the object of a class. -/
def HeapShort (w₀ w : World) : Prop :=
  ∃ id, w.classes.find? KnownClass.classOfClasses = some id ∧
    w₀.store.heap.region.stop.toNat <
      w₀.store.heap.region.top.toNat + (16 + 8 * (w.classes.get id).fields.length + 7)

/-- The class has been given an object, which is new. -/
def GivesObject (id : ClassId) (w w' : World) : Prop :=
  ∃ (store : Memory.Store) (m : Guarded) (object : UInt64), w.store.Grows store ∧
    store.mem.Changed m (w.classes.get id).address.toNat
      ((w.classes.get id).address.toNat + 24) ∧
    w' = withTable { w with store := { store with mem := m } }
      (w.classes.classes.modify id fun c => { c with classObject := object }) w.classes.methods

/-- Of the record of the class, only the word for the object is written. -/
theorem makeClassObject_writes (sound : w.Sound) {id : ClassId} (known : id < w.classes.size) :
    Ends (fun _ w' => w' = w ∨ ∃ (store : Memory.Store) (m : Guarded) (object : UInt64),
        w.store.Grows store ∧
        store.mem.Changed m ((w.classes.get id).address.toNat + 8)
          ((w.classes.get id).address.toNat + 16) ∧
        w' = withTable { w with store := { store with mem := m } }
          (w.classes.classes.modify id fun c => { c with classObject := object })
          w.classes.methods)
      (fun e w' => w' = w ∧ HeapShort w w ∧ ∃ what, e = .internal what)
      (makeClassObject id w) := by
  unfold makeClassObject
  refine Ends.get_bind ?_
  dsimp only
  cases found : w.classes.find? KnownClass.classOfClasses with
  | none => exact .inl rfl
  | some metaclass =>
    dsimp only
    split
    · exact .inl rfl
    · have few := sound.few metaclass found
      have slots : (w.classes.get metaclass).fields.length.toUInt64.toNat =
          (w.classes.get metaclass).fields.length :=
        UInt64.toNat_ofNat_of_lt' (Nat.lt_trans few (by decide))
      have within := sound.within.classes _ (ClassTable.get_mem known)
      have top := sound.writable.region.top_le
      have limit := w.classes.metaspace.stop.toNat_lt
      have record := within.record
      have first := within.first
      have clear := sound.writable.clear.mono
        (s := (w.classes.get id).address.toNat + 8) (t := (w.classes.get id).address.toNat + 16)
        (by omega) (by omega)
      refine (Ends.zoom (Memory.Store.allocateInstance_ends sound.store
        (w.classes.get metaclass).address (by rw [slots]; exact few))).bind ?_ ?_
      · rintro _ _ ⟨_, ⟨rfl, rfl, short, -⟩, rfl⟩
        exact ⟨rfl, ⟨metaclass, found, by rw [slots] at short; exact short⟩, _, rfl⟩
      · rintro object _ ⟨store, ⟨grows, -⟩, rfl⟩
        have offset : ClassRecord.classObject.toNat = 8 := rfl
        have sum : ((w.classes.get id).address + ClassRecord.classObject).toNat =
            (w.classes.get id).address.toNat + 8 := by
          rw [toNat_add_of_lt (by omega), offset]
        have write : Guarded.Within ((w.classes.get id).address.toNat + 8)
            ((w.classes.get id).address.toNat + 16)
            (Guarded.write ((w.classes.get id).address + ClassRecord.classObject) 8 object) :=
          .write (by omega) (by rw [sum]; change _ + 8 + 8 ≤ _; omega)
        refine (onMemory_ends (write store.mem (clear.changed grows.mem))).bind ?_ ?_
        · exact fun _ _ ⟨_, nothing, _⟩ => nothing.elim
        · rintro _ _ ⟨m, changed, rfl⟩
          exact Or.inr ⟨store, m, object, grows, changed, rfl⟩

theorem makeClassObject_ends (sound : w.Sound) {id : ClassId} (known : id < w.classes.size) :
    Ends (fun _ w' => w' = w ∨ GivesObject id w w')
      (fun e w' => w' = w ∧ HeapShort w w ∧ ∃ what, e = .internal what)
      (makeClassObject id w) :=
  (makeClassObject_writes sound known).mono
    (fun _ _ done => done.imp_right fun ⟨store, m, object, grows, changed, same⟩ =>
      ⟨store, m, object, grows, changed.mono (by omega) (by omega), same⟩)
    fun _ _ h => h

/-! ## What a class costs -/

/-- Bytes of the metaspace that a method may take. -/
def methodCost (m : MethodDefinition) : Nat := constMethodCost m.code.length + 55

/-- Bytes of the metaspace that a class may take, with its methods. -/
def classCost (c : ClassDefinition) : Nat :=
  31 + poolCost c.pool.length + (c.methods.map methodCost).sum

/-! ## Records of a method -/

/-- The bytes of a method's body as they are in memory. -/
def codeOf (w : World) (l : LoadedMethod) : List UInt8 :=
  Memory.bytesFrom w.store.mem.bytes l.codeBase.toNat l.codeLength

/-- The body of a method is a matter of its own bytes only. -/
theorem codeOf_eq {l : LoadedMethod} (size : w'.store.mem.bytes.size = w.store.mem.bytes.size)
    (inside : l.codeBase.toNat + l.codeLength ≤ w.store.mem.bytes.size)
    (same : w.store.mem.Agrees w'.store.mem l.codeBase.toNat (l.codeBase.toNat + l.codeLength)) :
    w'.codeOf l = w.codeOf l := Memory.bytesFrom_congr size inside same

/-- What the table tells of a method, and where: the body is in memory in native order. -/
structure Records (holder : ClassId) (m : MethodDefinition) (w : World) (l : LoadedMethod) :
    Prop where
  holder : l.holder = holder
  name : l.name = m.name
  descriptor : MethodDescriptor.ofText m.descriptor = .ok l.descriptor
  handlers : l.handlers = m.handlers
  above : w.classes.metaspace.start.toNat ≤ l.codeBase.toNat
  within : l.Within w.classes.metaspace.start.toNat w.classes.metaspace.top.toNat
  body : Bytecode.toNativeOrder m.code = .ok (w.codeOf l)

/-- The records of a method are written before the table tells of it. -/
theorem loadMethod_writes (sound : w.Sound) (holder : ClassId) {m : MethodDefinition}
    {name : String} (valid : m.validate name = .ok ()) :
    Ends (fun _ w' => ∃ w₁ l, Fills (methodCost m) w w₁ ∧ Records holder m w₁ l ∧
        w' = w₁.withTable
          (w₁.classes.classes.modify holder
            fun c => { c with methods := c.methods ++ [w₁.classes.methods.size] })
          (w₁.classes.methods.push l))
      (fun e w' => Refused (methodCost m) w e w' ∨ w' = w ∧
        ∃ cut, Bytecode.toNativeOrder m.code = .error cut ∧ e = .invalidClass cut.message)
      (loadMethod holder m w) := by
  obtain ⟨⟨d, descriptor⟩, small⟩ := m.of_validate valid
  have words : m.parameterWords =
      .ok (d.parameterWords + if m.access.isStatic then 0 else 1) := by
    rw [MethodDefinition.parameterWords, descriptor]
    rfl
  unfold loadMethod
  rw [descriptor, words]
  refine Ends.pure_bind (Ends.pure_bind (Ends.get_bind ?_))
  dsimp only
  cases body : Bytecode.toNativeOrder m.code with
  | error cut => exact .inr ⟨rfl, cut, rfl, rfl⟩
  | ok code =>
    refine Ends.pure_bind ?_
    have length := Bytecode.toNativeOrder_length body
    have cost : constMethodCost code.length + 55 = methodCost m := by rw [length]; rfl
    refine (writeConstMethod_ends sound.writable _ _ _ _ (by omega)).bind
      (fun e w' refused => .inl (refused.mono (by omega))) ?_
    rintro constMethod w₁ ⟨fills₁, above₁, code₁, held₁⟩
    refine (reserve_ends (fills₁.writable sound.writable) MethodRecord.size).bind
      (fun e w' refused => .inl ((fills₁.refused refused).mono (Nat.le_of_eq cost))) ?_
    rintro address w₂ ⟨fills₂, -, behind, block⟩
    have size : MethodRecord.size.toNat = 48 := rfl
    have limit := w₂.classes.metaspace.top.toNat_lt
    have field {o width v : UInt64} (fits : o.toNat + width.toNat ≤ 48) :
        Guarded.Within w₁.classes.metaspace.top.toNat w₂.classes.metaspace.top.toNat
          (Guarded.write (address + o) width v) := by
      have sum : (address + o).toNat = address.toNat + o.toNat := toNat_add_of_lt (by omega)
      exact .write (by omega) (by omega)
    refine (fills₂.onMemory (fills₁.writable sound.writable) ?_).bind (fun _ _ h => h.elim) ?_
    · exact (field (by decide)).bind fun _ => (field (by decide)).bind fun _ =>
        (field (by decide)).bind fun _ => field (by decide)
    rintro _ w₃ ⟨fills₃, table⟩
    have same : w.classes.methods.size = w₃.classes.methods.size := by
      rw [fills₃.table, fills₁.table]
    have top := fills₂.top_le
    have header : ConstMethodRecord.code.toNat = 16 := rfl
    have start : (constMethod + ConstMethodRecord.code).toNat = constMethod.toNat + 16 := by
      rw [toNat_add_of_lt (by omega), header]
    have inside : (constMethod + ConstMethodRecord.code).toNat + code.length ≤
        w₁.store.mem.bytes.size := by
      have stop := fills₁.inside
      have clear := sound.writable.clear.inside
      rw [fills₁.mem.size]
      omega
    refine Ends.modify_bind
      ⟨w₃, ?method, (fills₁.trans fills₃).mono (Nat.le_of_eq cost), ?records, ?added⟩
    case added =>
      rw [same]
      rfl
    case records =>
      have first := sound.writable.region.start_le
      have later := fills₁.top_le
      refine ⟨rfl, rfl, descriptor, rfl, ?_, ⟨?_, ?_, ?_⟩, ?_⟩
      · rw [fills₃.start, fills₁.start]
        change _ ≤ (constMethod + ConstMethodRecord.code).toNat
        omega
      · rw [fills₃.start, fills₁.start]
        change _ ≤ address.toNat
        omega
      · rw [table]
        change address.toNat + 48 ≤ _
        omega
      · rw [table]
        change (constMethod + ConstMethodRecord.code).toNat + code.length ≤ _
        omega
      · have agrees := fills₃.mem.agrees (s := (constMethod + ConstMethodRecord.code).toNat)
          (t := (constMethod + ConstMethodRecord.code).toNat + code.length) (.inl (by omega))
        exact body.trans (congrArg Except.ok
          (held₁.symm.trans (Memory.bytesFrom_congr fills₃.mem.size inside agrees).symm))

/-- What can still go wrong once a class is known. `w₀` is the world before its loading, and `k` the
    bytes of the metaspace that were asked for since. -/
inductive Obstacle (c : ClassDefinition) (k : Nat) (w₀ w : World) : Failure → Prop
  | truncated {m : MethodDefinition} {cut : Bytecode.Truncated} (declared : m ∈ c.methods)
    (body : Bytecode.toNativeOrder m.code = .error cut) :
    Obstacle c k w₀ w (.invalidClass cut.message)
  | metaspace {what : String} (short : Short k w₀) : Obstacle c k w₀ w (.internal what)
  | heap {what : String} (short : HeapShort w₀ w) : Obstacle c k w₀ w (.internal what)

/-- What is known of a class from its own records: where they are, the constants of its pool, and
    the fields that it has, the inherited ones first. -/
structure Describes (w₀ : World) (c : ClassDefinition) (entry : LoadedClass) : Prop where
  name : entry.name = c.name
  pool : entry.pool = c.pool.toArray
  first : w₀.classes.metaspace.top.toNat ≤ entry.address.toNat
  behind : entry.address.toNat + 24 ≤ entry.cacheAddress.toNat
  fields : layOut (((entry.superId.map w₀.classes.get).map (·.fields)).getD []) c.fields =
    .ok entry.fields

/-- Each entry of the cache begins with its number. -/
def Numbered (w : World) (entry : LoadedClass) : Prop :=
  ∀ i < entry.pool.size,
    Memory.load w.store.mem.bytes (entry.entryAt i) 4 = i.toUInt64.toUInt32.toUInt64

theorem Numbered.agrees {entry : LoadedClass} (h : w.Numbered entry)
    (same : w.store.mem.Agrees w'.store.mem entry.cacheAddress.toNat
      (entry.cacheAddress.toNat + 16 + 32 * entry.pool.size)) : w'.Numbered entry := by
  intro i hi
  rw [← h i hi]
  unfold LoadedClass.entryAt
  exact same.load (by omega) (by omega)

/-- The class has entered the table as the last one, under a name that was free, below the superclass
    that was found for it, and its record tells so. -/
structure Entered (w₀ : World) (c : ClassDefinition) (w : World) : Prop where
  absent : w₀.classes.find? c.name = none
  super : superOf c w₀ = .ok (w.classes.get w₀.classes.size).superId w₀
  record : HeadedBy w.store.mem (w.classes.get w₀.classes.size).address
    ((((w.classes.get w₀.classes.size).superId.map w₀.classes.get).map (·.address)).getD 0)
    (w.classes.get w₀.classes.size).fields.length w₀.classes.size

theorem Entered.of_listed {entry : LoadedClass}
    (listed : w.classes.classes = w₀.classes.classes.push entry)
    (absent : w₀.classes.find? c.name = none) (super : superOf c w₀ = .ok entry.superId w₀)
    (record : HeadedBy w.store.mem entry.address
      (((entry.superId.map w₀.classes.get).map (·.address)).getD 0) entry.fields.length
      w₀.classes.size) : Entered w₀ c w := by
  have get : w.classes.get w₀.classes.size = entry := by
    rw [ClassTable.get, listed]
    exact getD_push _ _
  exact ⟨absent, get ▸ super, get ▸ record⟩

/-- The class is known in `w` as the last one, nothing that was in `w₀` has changed, and all that is
    new belongs to it. -/
structure Underway (w₀ : World) (c : ClassDefinition) (k : Nat) (w : World) : Prop where
  grown : w₀.Extends w
  sound : w.Sound
  listed : ∃ entry : LoadedClass, w.classes.classes = w₀.classes.classes.push entry ∧
    Describes w₀ c entry
  methods : ∃ more, w.classes.methods = w₀.classes.methods ++ more ∧
    ∀ m ∈ more, m.holder = w₀.classes.size
  numbered : w.Numbered (w.classes.get w₀.classes.size)
  spent : w.classes.metaspace.top.toNat ≤ w₀.classes.metaspace.top.toNat + k

theorem Obstacle.mono {e : Failure} {l : Nat} (h : Obstacle c k w₀ w e) (le : k ≤ l) :
    Obstacle c l w₀ w e := by
  cases h with
  | truncated declared body => exact .truncated declared body
  | metaspace short => exact .metaspace (short.mono le)
  | heap short => exact .heap short

namespace Underway

theorem listed_lt (h : Underway w₀ c k w) : w₀.classes.size < w.classes.size := by
  obtain ⟨entry, classes, -⟩ := h.listed
  rw [ClassTable.size, ClassTable.size, classes, Array.size_push]
  exact Nat.lt_succ_self _

theorem mono {l : Nat} (h : Underway w₀ c k w) (le : k ≤ l) : Underway w₀ c l w :=
  { h with spent := Nat.le_trans h.spent (Nat.add_le_add_left le _) }

theorem fills {l : Nat} (h : Underway w₀ c k w) (fills : Fills l w w') :
    Underway w₀ c (k + l) w' where
  grown := h.grown.trans (fills.extends h.sound)
  sound := fills.sound h.sound
  listed := by
    rw [fills.table]
    exact h.listed
  methods := by
    rw [fills.table]
    exact h.methods
  numbered := by
    have within := h.sound.within.classes _ (ClassTable.get_mem h.listed_lt)
    rw [fills.table]
    exact h.numbered.agrees (fills.mem.agrees (.inl within.cache))
  spent := by
    have := h.spent
    have := fills.slack
    omega

theorem short {l : Nat} (h : Underway w₀ c k w) (short : Short l w) : Short (k + l) w₀ := by
  have := h.spent
  unfold Short at short ⊢
  rw [h.grown.stop] at short
  omega

theorem refused {l : Nat} {e : Failure} (h : Underway w₀ c k w) (refused : Refused l w e w') :
    Underway w₀ c (k + l) w' ∧ Obstacle c (k + l) w₀ w' e := by
  obtain ⟨fills, short, what, rfl⟩ := refused
  exact ⟨h.fills fills, .metaspace (h.short short)⟩

/-! ## Its object -/

/-- The entry of the class, and that a change of it is a change of the last entry. -/
theorem entry (h : Underway w₀ c k w) : ∃ entry : LoadedClass, Describes w₀ c entry ∧
    w₀.classes.size < w.classes.size ∧ w.classes.get w₀.classes.size = entry ∧
    ∀ f : LoadedClass → LoadedClass,
      w.classes.classes.modify w₀.classes.size f = w₀.classes.classes.push (f entry) := by
  obtain ⟨entry, classes, describes⟩ := h.listed
  refine ⟨entry, describes, h.listed_lt, ?_, fun f => ?_⟩
  · rw [ClassTable.get, classes]
    exact getD_push _ _
  · rw [classes]
    exact modify_push _ _ _

theorem givesObject (h : Underway w₀ c k w) (gives : GivesObject w₀.classes.size w w') :
    Underway w₀ c k w' := by
  obtain ⟨store, m, object, grows, changed, rfl⟩ := gives
  obtain ⟨entry, describes, known, rfl, modify⟩ := h.entry
  have within := h.sound.within.classes _ (ClassTable.get_mem known)
  have last : (w.classes.get w₀.classes.size).address.toNat + 24 ≤
      w₀.classes.metaspace.stop.toNat := by
    rw [← h.grown.stop]
    exact Nat.le_trans within.record h.sound.writable.region.top_le
  have grown : w₀.Extends { w with store := { store with mem := m } } :=
    (h.grown.trans (.grows grows)).changed changed describes.first last
  refine ⟨grown.withTable ?_ h.grown.table.methods, ?_,
    ⟨_, modify fun c => { c with classObject := object }, describes.name, describes.pool,
      describes.first, describes.behind, describes.fields⟩, h.methods, ?_, h.spent⟩
  · rw [modify]
    exact ⟨#[_], Array.push_eq_append⟩
  · exact ((h.sound.grows grows).changed changed).modifyClass (fun _ => rfl) (fun _ => rfl)
      (fun _ _ _ within => ⟨within.first, within.record, within.pool, within.cache⟩)
      fun _ _ listed => .inl listed
  · change Numbered _ ((w.classes.classes.modify _ _).getD w₀.classes.classes.size default)
    rw [modify, getD_push]
    have kept : Numbered { w with store } (w.classes.get w₀.classes.size) :=
      h.numbered.agrees ((Extends.grows grows).agrees h.sound within.cache)
    exact Numbered.agrees (w := { w with store }) kept (changed.agrees (.inr describes.behind))

/-! ## Methods -/

/-- A method is added to the class that is being loaded. -/
theorem addMethod (h : Underway w₀ c k w) {m : LoadedMethod}
    (holder : m.holder = w₀.classes.size)
    (within : m.Within w.classes.metaspace.start.toNat w.classes.metaspace.top.toNat) :
    Underway w₀ c k (w.withTable
      (w.classes.classes.modify w₀.classes.size
        fun c => { c with methods := c.methods ++ [w.classes.methods.size] })
      (w.classes.methods.push m)) := by
  obtain ⟨_, describes, -, rfl, modify⟩ := h.entry
  obtain ⟨more, methods, mine⟩ := h.methods
  refine ⟨h.grown.withTable ?_ ?_, h.sound.addMethod _ within (holder ▸ h.listed_lt),
    ⟨_, modify fun c => { c with methods := c.methods ++ [w.classes.methods.size] },
      describes.name, describes.pool, describes.first, describes.behind, describes.fields⟩,
    ⟨more.push m, ?_, fun n hn => ?_⟩, ?_, h.spent⟩
  · rw [modify]
    exact ⟨#[_], Array.push_eq_append⟩
  · rw [methods]
    exact ⟨more.push m, Array.push_append⟩
  · change w.classes.methods.push m = _
    rw [methods, Array.push_append]
  · rcases Array.mem_push.mp hn with hn | rfl
    · exact mine n hn
    · exact holder
  · change Numbered _ ((w.classes.classes.modify _ _).getD w₀.classes.classes.size default)
    rw [modify, getD_push]
    exact h.numbered

theorem loadMethod_ends (h : Underway w₀ c k w) {m : MethodDefinition} (declared : m ∈ c.methods)
    (valid : m.validate c.name = .ok ()) :
    Ends (fun _ w' => Underway w₀ c (k + methodCost m) w')
      (fun e w' => Underway w₀ c (k + methodCost m) w' ∧ Obstacle c (k + methodCost m) w₀ w' e)
      (loadMethod w₀.classes.size m w) := by
  refine (loadMethod_writes h.sound w₀.classes.size valid).mono ?_ ?_
  · rintro _ _ ⟨w₁, l, fills, records, rfl⟩
    exact (h.fills fills).addMethod records.holder records.within
  · rintro _ _ (refused | ⟨rfl, cut, body, rfl⟩)
    · exact h.refused refused
    · exact ⟨h.mono (by omega), .truncated declared body⟩

/-- Method after method, with what all of them cost. -/
theorem loadMethods_ends {ms : List MethodDefinition} (h : Underway w₀ c k w)
    (declared : ∀ m ∈ ms, m ∈ c.methods) (valid : ∀ m ∈ ms, m.validate c.name = .ok ()) :
    Ends (fun _ w' => Underway w₀ c (k + (ms.map methodCost).sum) w')
      (fun e w' => Underway w₀ c (k + (ms.map methodCost).sum) w' ∧
        Obstacle c (k + (ms.map methodCost).sum) w₀ w' e)
      ((ms.forM fun m => do let _ ← loadMethod w₀.classes.size m : Action PUnit) w) := by
  induction ms generalizing k w with
  | nil => exact h
  | cons m ms ih =>
    have sum : k + ((m :: ms).map methodCost).sum =
        k + methodCost m + (ms.map methodCost).sum := by
      rw [List.map_cons, List.sum_cons, Nat.add_assoc]
    rw [sum]
    have first := h.loadMethod_ends (declared m List.mem_cons_self) (valid m List.mem_cons_self)
    have first : Ends (fun _ w' => Underway w₀ c (k + methodCost m) w') _
        ((do let _ ← loadMethod w₀.classes.size m : Action PUnit) w) :=
      first.bind (fun _ _ h => h) fun _ _ h => .pure h
    refine first.bind (fun e w' h => ?_) fun _ w' h' => ?_
    · exact ⟨h.1.mono (Nat.le_add_right _ _), h.2.mono (Nat.le_add_right _ _)⟩
    · exact ih h' (fun n hn => declared n (List.mem_cons_of_mem m hn))
        fun n hn => valid n (List.mem_cons_of_mem m hn)

/-- The class becomes known when its own records are written. -/
theorem register (sound : w.Sound) (fills : Fills k w w') {entry : LoadedClass}
    (describes : Describes w c entry)
    (within : entry.Within w'.classes.metaspace.start.toNat w'.classes.metaspace.top.toNat)
    (empty : entry.methods = []) (numbered : w'.Numbered entry)
    (few : c.name = KnownClass.classOfClasses → entry.fields.length < 2 ^ 60) :
    Underway w c k (w'.withTable (w'.classes.classes.push entry) w'.classes.methods) where
  grown := (fills.extends sound).withTable
    ⟨#[entry], by rw [fills.table]; exact Array.push_eq_append⟩
    ⟨#[], by rw [fills.table]; simp⟩
  sound := (fills.sound sound).pushClass within empty fun named => few (describes.name ▸ named)
  listed := ⟨entry, by
    change w'.classes.classes.push entry = _
    rw [fills.table], describes⟩
  methods := ⟨#[], by
    change w'.classes.methods = _
    rw [fills.table]
    simp, by simp⟩
  numbered := by
    have same : w'.classes.classes = w.classes.classes := by rw [fills.table]
    change Numbered w' ((w'.classes.classes.push entry).getD w.classes.classes.size default)
    rw [same, getD_push]
    exact numbered
  spent := fills.slack

/-- What is left to be done once the class is known. -/
theorem complete (h : Underway w₀ c k w) (heap : w.store.heap = w₀.store.heap)
    (valid : c.validate = .ok ()) :
    Ends (fun id w' => id = w₀.classes.size ∧
        Underway w₀ c (k + (c.methods.map methodCost).sum) w')
      (fun e w' => Underway w₀ c (k + (c.methods.map methodCost).sum) w' ∧
        Obstacle c (k + (c.methods.map methodCost).sum) w₀ w' e)
      ((do
        makeClassObject w₀.classes.size
        c.methods.forM fun m => do let _ ← loadMethod w₀.classes.size m
        pure w₀.classes.size : Action ClassId) w) := by
  obtain ⟨-, -, known, -, -⟩ := h.entry
  refine (makeClassObject_ends h.sound known).bind ?_ fun _ w' done => ?_
  · rintro _ _ ⟨rfl, ⟨id, found, short⟩, what, rfl⟩
    rw [heap] at short
    exact ⟨h.mono (Nat.le_add_right _ _), .heap ⟨id, found, short⟩⟩
  · have h' : Underway w₀ c k w' := by
      rcases done with rfl | gives
      · exact h
      · exact h.givesObject gives
    exact (h'.loadMethods_ends (fun m hm => hm) fun m hm =>
      ClassDefinition.of_validate valid hm).bind (fun _ _ h => h) fun _ _ h => ⟨rfl, h⟩

end Underway

/-! ## The whole class -/

/-- The ways in which loading can fail. -/
inductive Failed (c : ClassDefinition) (w : World) : Failure → World → Prop
  /-- A check failed before anything was written. -/
  | rejected {e : Failure} : Failed c w e w
  /-- The records of the class did not fit; it is not known. -/
  | refused {e : Failure} {w' : World} (fills : Fills (classCost c) w w')
    (short : Short (classCost c) w) : Failed c w e w'
  /-- The class is known. -/
  | underway {e : Failure} {w' : World} (known : Underway w c (classCost c) w')
    (obstacle : Obstacle c (classCost c) w w' e) : Failed c w e w'

theorem superOf_ends : Ends (fun _ w' => w' = w) (fun _ w' => w' = w) (superOf c w) := by
  have require (name : String) :
      Ends (fun _ w' => w' = w) (fun (_ : Failure) w' => w' = w) (require name w) := by
    unfold World.require
    refine Ends.get_bind ?_
    cases w.classes.find? name <;> exact rfl
  unfold superOf
  cases c.superName with
  | some name => exact Ends.map (g := some) (require name)
  | none =>
    by_cases root : c.name = KnownClass.object
    · simp only [root, ↓reduceIte]
      exact rfl
    · simp only [root, ↓reduceIte]
      exact Ends.map (g := some) (require _)

theorem layOut_length {inherited fields : List FieldSlot} {declared : List FieldDefinition}
    (h : layOut inherited declared = .ok fields) :
    fields.length = inherited.length + declared.length := by
  obtain ⟨own, each, h⟩ := ok_of_bind h
  cases h
  rw [List.length_append, mapM_length each, List.length_zipIdx]

/-- A class of class objects, if it is loaded now, has no more fields than an object can have. -/
def FewNewFields (w : World) (c : ClassDefinition) : Prop :=
  w.classes.find? c.name = none → c.name = KnownClass.classOfClasses →
    ∀ id, (w.classes.get id).fields.length + c.fields.length < 2 ^ 60

/-- The fields of a class that passed its check can be laid out. -/
theorem layOut_ok (valid : c.validate = .ok ()) (inherited : List FieldSlot) :
    ∃ fields, layOut inherited c.fields = .ok fields := by
  have types {f : FieldDefinition} (declared : f ∈ c.fields) :
      ∃ t, fieldType f.descriptor = .ok t := by
    unfold ClassDefinition.validate at valid
    split at valid
    · cases valid
    · obtain ⟨_, fields, -⟩ := ok_of_bind valid
      obtain ⟨t, type, -⟩ := ok_of_bind (forM_ok fields declared)
      exact ⟨t, type⟩
  refine (mapM_ok fun p hp => ?_).elim fun own laid => ⟨inherited ++ own, bind_of_ok laid⟩
  obtain ⟨f, i⟩ := p
  obtain ⟨t, type⟩ := types (List.fst_mem_of_mem_zipIdx hp)
  exact ⟨_, bind_of_ok type⟩

/-- Nothing speaks against the class but, perhaps, a lack of room: it passed its check, its name is
    free, and its superclass is there. -/
structure Admits (w : World) (c : ClassDefinition) : Prop where
  valid : c.validate = .ok ()
  absent : w.classes.find? c.name = none
  super : ∃ superId, superOf c w = .ok superId w

/-- Loading goes on with the object and the methods of the class as soon as its own records are
    written, which takes no more than that it is admitted and that there is room. -/
theorem load_begins {Q : ClassId → World → Prop} {G : Failure → World → Prop} (sound : w.Sound)
    (small : c.pool.length < 2 ^ 58) (few : FewNewFields w c)
    (rejected : ∀ e, ¬ w.Admits c → G e w)
    (refused : ∀ e w', Fills (31 + poolCost c.pool.length) w w' →
      Short (31 + poolCost c.pool.length) w → G e w')
    (next : ∀ w', c.validate = .ok () → Entered w c w' →
      Underway w c (31 + poolCost c.pool.length) w' → w'.store.heap = w.store.heap →
      Ends Q G ((do
        makeClassObject w.classes.size
        c.methods.forM fun m => do let _ ← loadMethod w.classes.size m
        pure w.classes.size : Action ClassId) w')) :
    Ends Q G (load c w) := by
  unfold load
  cases valid : c.validate with
  | error defect => exact rejected _ fun admits => by simp [admits.valid] at valid
  | ok u =>
    refine Ends.pure_bind (Ends.get_bind ?_)
    dsimp only
    split
    · next taken => exact rejected _ fun admits => by simp [admits.absent] at taken
    · next free =>
      have absent : w.classes.find? c.name = none := by simpa using free
      refine (superOf_ends.ran).bind (fun e w' ⟨failed, same⟩ => ?_)
        fun superId w' ⟨super, same⟩ => ?_
      · rw [same]
        refine rejected _ fun admits => ?_
        obtain ⟨_, super⟩ := admits.super
        rw [super] at failed
        cases failed
      rw [same] at super ⊢
      obtain ⟨fields, laid⟩ :=
        layOut_ok valid (((superId.map w.classes.get).map (·.fields)).getD [])
      rw [laid]
      have fewFields (named : c.name = KnownClass.classOfClasses) : fields.length < 2 ^ 60 := by
        have bound := few absent named
        rw [layOut_length laid]
        cases superId with
        | none => exact Nat.lt_of_le_of_lt (Nat.add_le_add_right (Nat.zero_le _) _) (bound 0)
        | some id => exact bound id
      refine Ends.pure_bind ((writeClass_ends sound.writable _ _ _).bind
        (fun e w' ⟨fills, short, _⟩ => refused e w' (fills.mono (by omega)) (short.mono (by omega)))
        ?_)
      rintro address w₁ ⟨fills₁, first, record, headed⟩
      refine (writePool_ends (fills₁.writable sound.writable) _ small).bind
        (fun e w' failed => ?_) ?_
      · obtain ⟨fills, short, -⟩ := fills₁.refused failed
        exact refused e w' fills short
      rintro ⟨pool, cache⟩ w₂ ⟨fills₂, poolRecord, behind, cacheRecord, numbers⟩
      have fills := fills₁.trans fills₂
      refine Ends.modify_bind (next _ valid ?entered (.register sound fills
        ⟨rfl, rfl, first, Nat.le_trans record behind, laid⟩
        ⟨?_, ?_, poolRecord, ?_⟩ rfl (fun i hi => numbers i ?_) fewFields) fills.heap)
      case entered =>
        have kept := fills₂.mem.agrees (s := address.toNat) (t := address.toNat + 24) (.inl record)
        refine .of_listed (by rw [fills.table]) absent super
          (headed.agrees (kept.mono ?_ ?_) (kept.mono ?_ ?_)) <;> omega
      · rw [fills.start]
        exact Nat.le_trans sound.writable.region.start_le first
      · exact Nat.le_trans record fills₂.top_le
      · simpa using cacheRecord
      · simpa using hi

theorem load_ends (sound : w.Sound) (small : c.pool.length < 2 ^ 58) (few : FewNewFields w c) :
    Ends (fun id w' => id = w.classes.size ∧ Underway w c (classCost c) w') (Failed c w)
      (load c w) := by
  have cost : 31 + poolCost c.pool.length ≤ classCost c := Nat.le_add_right _ _
  refine load_begins sound small few (fun e _ => .rejected)
    (fun e w' fills short => .refused (fills.mono cost) (short.mono cost))
    fun w' valid _ known heap => (known.complete heap valid).mono (fun _ _ h => h) ?_
  exact fun e w' ⟨known, obstacle⟩ => .underway known obstacle

/-! ## What is left behind -/

theorem Underway.find?_other (h : Underway w c k w') {name : String} (other : name ≠ c.name) :
    w'.classes.find? name = w.classes.find? name := by
  obtain ⟨entry, classes, describes⟩ := h.listed
  have unlike : (entry.name == name) = false := by
    rw [describes.name, beq_eq_false_iff_ne]
    exact other.symm
  rw [ClassTable.find?, classes, Array.findIdx?_push, unlike]
  simp [ClassTable.find?]

variable {e : Failure}

theorem Failed.grown (h : Failed c w e w') (sound : w.Sound) : w.Extends w' ∧ w'.Sound := by
  cases h with
  | rejected => exact ⟨.refl sound, sound⟩
  | refused fills short => exact ⟨fills.extends sound, fills.sound sound⟩
  | underway known obstacle => exact ⟨known.grown, known.sound⟩

/-- Whether a class can be loaded or not, all that was there before is left as it was. -/
theorem load_extends (sound : w.Sound) (small : c.pool.length < 2 ^ 58) (few : FewNewFields w c) :
    Ends (fun _ w' => w.Extends w' ∧ w'.Sound) (fun _ w' => w.Extends w' ∧ w'.Sound)
      (load c w) :=
  (load_ends sound small few).mono (fun _ _ h => ⟨h.2.grown, h.2.sound⟩)
    fun _ _ h => h.grown sound

/-- Nothing is found under another name that was not found before, or found no longer. -/
theorem load_find?_other (sound : w.Sound) (small : c.pool.length < 2 ^ 58)
    (few : FewNewFields w c) {name : String} (other : name ≠ c.name) :
    Ends (fun _ w' => w'.classes.find? name = w.classes.find? name)
      (fun _ w' => w'.classes.find? name = w.classes.find? name) (load c w) := by
  refine (load_ends sound small few).mono (fun _ _ h => h.2.find?_other other) fun _ _ h => ?_
  cases h with
  | rejected => rfl
  | refused fills short => rw [fills.table]; rfl
  | underway known obstacle => exact known.find?_other other

/-- A class that fails is not known afterwards, and then the table is what it was, unless one of its
    bodies is cut off or there is not enough room. -/
theorem load_error (sound : w.Sound) (small : c.pool.length < 2 ^ 58) (few : FewNewFields w c)
    (failed : load c w = .error e w') :
    w'.classes.classes = w.classes.classes ∧ w'.classes.methods = w.classes.methods ∨
      Underway w c (classCost c) w' ∧ Obstacle c (classCost c) w w' e := by
  have ended := (load_ends sound small few).of_error failed
  cases ended with
  | rejected => exact .inl ⟨rfl, rfl⟩
  | refused fills short => rw [fills.table]; exact .inl ⟨rfl, rfl⟩
  | underway known obstacle => exact .inr ⟨known, obstacle⟩

/-- Nothing stands in the way of a class with whole bodies for which there is enough room. -/
theorem Underway.no_obstacle (known : Underway w c (classCost c) w') {id : ClassId}
    (metaclass : w.classes.find? KnownClass.classOfClasses = some id)
    (whole : ∀ m ∈ c.methods, ∃ code, Bytecode.toNativeOrder m.code = .ok code)
    (room : w.classes.metaspace.top.toNat + classCost c ≤ w.classes.metaspace.stop.toNat)
    (heap : w.store.heap.region.top.toNat + (16 + 8 * (w.classes.get id).fields.length + 7) ≤
      w.store.heap.region.stop.toNat) : ¬ Obstacle c (classCost c) w w' e := by
  intro obstacle
  cases obstacle with
  | truncated declared body =>
    obtain ⟨code, reached⟩ := whole _ declared
    rw [reached] at body
    cases body
  | metaspace short =>
    unfold Short at short
    omega
  | heap short =>
    obtain ⟨id', found, short⟩ := short
    have same := known.grown.table.find?_of_some metaclass
    rw [found, Option.some.injEq] at same
    subst same
    have listed := (Array.findIdx?_eq_some_iff_getElem.mp metaclass).1
    rw [known.grown.table.get_eq listed] at short
    omega

/-- With whole bodies and enough room, a class is loaded or leaves no trace. -/
theorem load_all_or_nothing (sound : w.Sound) (small : c.pool.length < 2 ^ 58) {id : ClassId}
    (metaclass : w.classes.find? KnownClass.classOfClasses = some id)
    (whole : ∀ m ∈ c.methods, ∃ code, Bytecode.toNativeOrder m.code = .ok code)
    (room : w.classes.metaspace.top.toNat + classCost c ≤ w.classes.metaspace.stop.toNat)
    (heap : w.store.heap.region.top.toNat + (16 + 8 * (w.classes.get id).fields.length + 7) ≤
      w.store.heap.region.stop.toNat) :
    Ends (fun _ w' => Underway w c (classCost c) w') (fun _ w' => w' = w) (load c w) := by
  have few : FewNewFields w c := fun absent named => by
    rw [named, metaclass] at absent
    cases absent
  refine (load_ends sound small few).mono (fun _ _ h => h.2) fun e w' h => ?_
  cases h with
  | rejected => rfl
  | refused fills short =>
    unfold Short at short
    omega
  | underway known obstacle => exact (known.no_obstacle metaclass whole room heap obstacle).elim

/-! ## Class after class -/

/-- What every machine has that is ready to load classes. -/
structure Booted (w : World) : Prop where
  sound : w.Sound
  metaclass : ∃ id, w.classes.find? KnownClass.classOfClasses = some id

theorem Booted.few (h : w.Booted) : FewNewFields w c := fun absent named => by
  obtain ⟨id, metaclass⟩ := h.metaclass
  rw [named, metaclass] at absent
  cases absent

/-- Worlds that come about when classes are loaded, some of them in vain. -/
inductive Loads (w : World) : World → Prop
  | none : Loads w w
  | loaded {w' w'' : World} {id : ClassId} (before : Loads w w') (c : ClassDefinition)
    (small : c.pool.length < 2 ^ 58) (ran : load c w' = .ok id w'') : Loads w w''
  | failed {w' w'' : World} {e : Failure} (before : Loads w w') (c : ClassDefinition)
    (small : c.pool.length < 2 ^ 58) (ran : load c w' = .error e w'') : Loads w w''

/-- However many classes are loaded or fail, what a machine had before is left as it was. -/
theorem Loads.extends (h : Loads w w') (booted : w.Booted) : w.Extends w' ∧ w'.Booted := by
  have next {w' w'' : World} (before : w.Extends w' ∧ w'.Booted)
      (step : w'.Extends w'' ∧ w''.Sound) : w.Extends w'' ∧ w''.Booted := by
    obtain ⟨id, metaclass⟩ := before.2.metaclass
    exact ⟨before.1.trans step.1, step.2, id, step.1.table.find?_of_some metaclass⟩
  induction h with
  | none => exact ⟨.refl booted.sound, booted⟩
  | loaded _ c small ran ih =>
    exact next ih ((load_extends ih.2.sound small ih.2.few).of_ok ran)
  | failed _ c small ran ih =>
    exact next ih ((load_extends ih.2.sound small ih.2.few).of_error ran)

end World
end TemplateVm
