import Mathlib.Logic.Relation
import TemplateVm.Proofs.Loading.Bodies

set_option autoImplicit false

/-!
# The hierarchy of loaded classes

Every class but the first has a superclass that was loaded before it, begins with the fields of its
superclass, and has all this in the record that generated code reads. Nothing that happens to a
class after it is known touches any of it, and a class that is loaded, even if its object or one of
its methods fails, comes in the same way. So a class is a subclass of those that can be reached by
going from class to superclass: there is no way back, and every way ends at the one class without a
superclass.
-/
namespace TemplateVm

open Memory (Guarded)

/-- What never changes of a class: all but its object, its methods and the type of its elements. -/
def LoadedClass.core (c : LoadedClass) : LoadedClass :=
  { c with classObject := 0, methods := [], element := none }

namespace ClassTable

variable {t t' t'' : ClassTable} {id : ClassId}

/-- The address that the record of a class has for its superclass; the root has none. -/
def superAddress (t : ClassTable) (id : ClassId) : UInt64 :=
  (((t.get id).superId.map t.get).map (·.address)).getD 0

/-- The fields that a class takes over from its superclass. -/
def inherited (t : ClassTable) (id : ClassId) : List FieldSlot :=
  (((t.get id).superId.map t.get).map (·.fields)).getD []

/-- The fields that a class declares itself. -/
def own (t : ClassTable) (id : ClassId) : List FieldSlot :=
  (t.get id).fields.drop (t.inherited id).length

/-- The class is there, and is the same in its core. -/
def SameCore (t t' : ClassTable) (id : ClassId) : Prop := (t'.get id).core = (t.get id).core

/-- The classes of `t` are the first ones of `t'`, the same in their cores. -/
def Carries (t t' : ClassTable) : Prop :=
  ∃ more, t'.classes.map LoadedClass.core = t.classes.map LoadedClass.core ++ more

theorem core_get (t : ClassTable) (id : ClassId) : (t.get id).core =
    ((t.classes.map LoadedClass.core)[id]?).getD default := by
  rw [get, Array.getD_eq_getD_getElem?, Array.getElem?_map]
  cases t.classes[id]? <;> rfl

namespace SameCore

theorem name (h : t.SameCore t' id) : (t'.get id).name = (t.get id).name :=
  congrArg (·.name) h

theorem address (h : t.SameCore t' id) : (t'.get id).address = (t.get id).address :=
  congrArg (·.address) h

theorem superId (h : t.SameCore t' id) : (t'.get id).superId = (t.get id).superId :=
  congrArg (·.superId) h

theorem fields (h : t.SameCore t' id) : (t'.get id).fields = (t.get id).fields :=
  congrArg (·.fields) h

end SameCore

namespace Carries

theorem refl (t : ClassTable) : t.Carries t := ⟨#[], by simp⟩

theorem trans (h : t.Carries t') (h' : t'.Carries t'') : t.Carries t'' := by
  obtain ⟨more, eq⟩ := h
  obtain ⟨more', eq'⟩ := h'
  exact ⟨more ++ more', by rw [eq', eq, Array.append_assoc]⟩

theorem of_extends (h : t.Extends t') : t.Carries t' := by
  obtain ⟨more, eq⟩ := h.classes
  exact ⟨more.map LoadedClass.core, by rw [eq, Array.map_append]⟩

theorem size_le (h : t.Carries t') : t.size ≤ t'.size := by
  obtain ⟨more, eq⟩ := h
  have sizes := congrArg Array.size eq
  rw [Array.size_append, Array.size_map, Array.size_map] at sizes
  change t.classes.size ≤ t'.classes.size
  omega

theorem get (h : t.Carries t') (known : id < t.size) : t.SameCore t' id := by
  obtain ⟨more, eq⟩ := h
  rw [SameCore, core_get, core_get, eq, Array.getElem?_append_left]
  rw [Array.size_map]
  exact known

end Carries

/-- The classes of a table form a tree. The root is the first one, and every other class begins with
    the fields of its superclass; each field lies behind those before it. -/
structure Ranked (t : ClassTable) : Prop where
  below : ∀ id < t.size, ∀ super, (t.get id).superId = some super → super < id
  root : ∀ id < t.size, (t.get id).superId = none → id = 0
  first : 0 < t.size → (t.get 0).name = KnownClass.object
  distinct : ∀ i < t.size, ∀ j < t.size, (t.get i).name = (t.get j).name → i = j
  inherits : ∀ id < t.size, ∀ super, (t.get id).superId = some super →
    (t.get super).fields <+: (t.get id).fields
  offsets : ∀ id < t.size, ∀ (i : Nat) (f : FieldSlot), (t.get id).fields[i]? = some f →
    f.offset = Memory.ObjectShape.fields + i.toUInt64 * Memory.ObjectShape.slot
  few : ∀ id < t.size, (t.get id).fields.length < 2 ^ 58

theorem Ranked.of_empty (empty : t.classes = #[]) : t.Ranked := by
  have nothing {id : ClassId} {P : Prop} (known : id < t.size) : P := by
    rw [size, empty] at known
    exact absurd known (Nat.not_lt_zero _)
  exact ⟨fun _ => nothing, fun _ => nothing, nothing, fun _ => nothing, fun _ => nothing,
    fun _ => nothing, fun _ => nothing⟩

/-- The fields of a class are those of its superclass and then its own. -/
theorem Ranked.fields_eq (h : t.Ranked) (known : id < t.size) :
    (t.get id).fields = t.inherited id ++ t.own id := by
  refine (List.prefix_iff_eq_append.mp ?_).symm
  unfold inherited
  cases found : (t.get id).superId with
  | none => exact List.nil_prefix
  | some super => exact h.inherits id known super found

theorem Ranked.super_known (h : t.Ranked) (known : id < t.size) {super : ClassId}
    (found : (t.get id).superId = some super) : super < t.size :=
  Nat.lt_trans (h.below id known super found) known

theorem Ranked.inherited_eq (h : t.Ranked) (carries : t.Carries t') (known : id < t.size) :
    t'.inherited id = t.inherited id := by
  unfold inherited
  rw [(carries.get known).superId]
  cases found : (t.get id).superId with
  | none => rfl
  | some super => exact (carries.get (h.super_known known found)).fields

theorem Ranked.own_eq (h : t.Ranked) (carries : t.Carries t') (known : id < t.size) :
    t'.own id = t.own id := by
  rw [own, own, h.inherited_eq carries known, (carries.get known).fields]

/-- Classes are ranked by their cores alone. -/
theorem Ranked.carried (h : t.Ranked) (carries : t.Carries t') (size : t'.size = t.size) :
    t'.Ranked := by
  have same {id : ClassId} (known : id < t'.size) : t.SameCore t' id :=
    carries.get (size ▸ known)
  constructor
  · intro id known super found
    rw [(same known).superId] at found
    exact h.below id (size ▸ known) super found
  · intro id known found
    rw [(same known).superId] at found
    exact h.root id (size ▸ known) found
  · intro known
    rw [(same known).name]
    exact h.first (size ▸ known)
  · intro i hi j hj named
    rw [(same hi).name, (same hj).name] at named
    exact h.distinct i (size ▸ hi) j (size ▸ hj) named
  · intro id known super found
    rw [(same known).superId] at found
    have above := h.super_known (size ▸ known) found
    rw [(same known).fields, (carries.get above).fields]
    exact h.inherits id (size ▸ known) super found
  · intro id known i f
    rw [(same known).fields]
    exact h.offsets id (size ▸ known) i f
  · intro id known
    rw [(same known).fields]
    exact h.few id (size ▸ known)

/-- A class of a new name is added behind the others: below one of them, or as the root. -/
theorem Ranked.push (h : t.Ranked) {entry : LoadedClass}
    (listed : t'.classes = t.classes.push entry) (absent : t.find? entry.name = none)
    (super : ∀ super, entry.superId = some super → super < t.size ∧
      (t.get super).fields <+: entry.fields)
    (root : entry.superId = .none → entry.name = KnownClass.object)
    (offsets : ∀ (i : Nat) (f : FieldSlot), entry.fields[i]? = some f →
      f.offset = Memory.ObjectShape.fields + i.toUInt64 * Memory.ObjectShape.slot)
    (few : entry.fields.length < 2 ^ 58) : t'.Ranked := by
  have size : t'.size = t.size + 1 := by
    rw [ClassTable.size, listed, Array.size_push]
    rfl
  have last : t'.get t.size = entry := by
    rw [ClassTable.get, listed]
    exact getD_push _ _
  have old {id : ClassId} (known : id < t.size) : t'.get id = t.get id := by
    have extends_ : t.Extends { t' with methods := t.methods } :=
      ⟨⟨#[entry], by rw [listed, Array.push_eq_append]⟩, #[], by simp⟩
    exact extends_.get_eq known
  have either {id : ClassId} (known : id < t'.size) : id < t.size ∨ id = t.size := by
    rw [size] at known
    exact Nat.lt_succ_iff_lt_or_eq.mp known
  have unnamed {id : ClassId} (known : id < t.size) : (t.get id).name ≠ entry.name := by
    intro named
    rw [find?, Array.findIdx?_eq_none_iff] at absent
    exact absurd (beq_iff_eq.mpr named) (by simpa using absent _ (get_mem known))
  have top : 0 < t.size → entry.superId ≠ none := fun some none =>
    unnamed some ((h.first some).trans (root none).symm)
  constructor
  · intro id known s found
    rcases either known with known | rfl
    · exact h.below id known s (old known ▸ found)
    · exact (super s (last ▸ found)).1
  · intro id known found
    rcases either known with known | rfl
    · exact h.root id known (old known ▸ found)
    · exact Nat.eq_zero_of_not_pos fun some => top some (last ▸ found)
  · intro known
    rcases either known with known | empty
    · rw [old known]
      exact h.first known
    · rw [empty, last]
      refine root (Option.eq_none_iff_forall_ne_some.mpr fun s found => ?_)
      exact Nat.not_lt_zero s (empty ▸ (super s found).1)
  · intro i hi j hj named
    rcases either hi with hi | rfl <;> rcases either hj with hj | rfl
    · exact h.distinct i hi j hj (by rwa [old hi, old hj] at named)
    · exact absurd (by rwa [old hi, last] at named) (unnamed hi)
    · exact absurd (by rwa [old hj, last, eq_comm] at named) (unnamed hj)
    · rfl
  · intro id known s found
    rcases either known with known | rfl
    · rw [old known] at found ⊢
      rw [old (h.super_known known found)]
      exact h.inherits id known s found
    · rw [last] at found ⊢
      rw [old (super s found).1]
      exact (super s found).2
  · intro id known i f found
    rcases either known with known | rfl
    · exact h.offsets id known i f (old known ▸ found)
    · exact offsets i f (last ▸ found)
  · intro id known
    rcases either known with known | rfl
    · rw [old known]
      exact h.few id known
    · rw [last]
      exact few

end ClassTable

namespace World

variable {w w₀ w' w'' : World} {c : ClassDefinition} {k : Nat}

/-- Classes form a tree, their records follow each other, and each tells its superclass and the
    slots of its instances. -/
structure Hierarchy (w : World) : Prop where
  ranked : w.classes.Ranked
  ordered : ∀ j < w.classes.size, ∀ i < j,
    (w.classes.get i).address.toNat + 24 ≤ (w.classes.get j).address.toNat
  headed : ∀ id < w.classes.size, HeadedBy w.store.mem (w.classes.get id).address
    (w.classes.superAddress id) (w.classes.get id).fields.length id

/-- No class is added, and none is changed in its core or in those words of its record that tell
    it. -/
structure SparesClasses (w w' : World) : Prop where
  carries : w.classes.Carries w'.classes
  size : w'.classes.size = w.classes.size
  first : ∀ id < w.classes.size, w.store.mem.Agrees w'.store.mem
    (w.classes.get id).address.toNat ((w.classes.get id).address.toNat + 8)
  last : ∀ id < w.classes.size, w.store.mem.Agrees w'.store.mem
    ((w.classes.get id).address.toNat + 16) ((w.classes.get id).address.toNat + 24)

theorem SparesClasses.refl (w : World) : w.SparesClasses w :=
  ⟨.refl _, rfl, fun _ _ _ _ _ => rfl, fun _ _ _ _ _ => rfl⟩

theorem SparesClasses.trans (h : w.SparesClasses w') (h' : w'.SparesClasses w'') :
    w.SparesClasses w'' where
  carries := h.carries.trans h'.carries
  size := h'.size.trans h.size
  first id known := by
    have rest := h'.first id (h.size ▸ known)
    rw [(h.carries.get known).address] at rest
    exact (h.first id known).trans rest
  last id known := by
    have rest := h'.last id (h.size ▸ known)
    rw [(h.carries.get known).address] at rest
    exact (h.last id known).trans rest

/-- The superclass has the same address, in the record and in the table. -/
theorem superAddress_eq {t t' : ClassTable} (h : t.Ranked) (carries : t.Carries t') {id : ClassId}
    (known : id < t.size) : t'.superAddress id = t.superAddress id := by
  unfold ClassTable.superAddress
  rw [(carries.get known).superId]
  cases found : (t.get id).superId with
  | none => rfl
  | some super => exact (carries.get (h.super_known known found)).address

theorem Hierarchy.spared (h : w.Hierarchy) (spares : w.SparesClasses w') : w'.Hierarchy where
  ranked := h.ranked.carried spares.carries spares.size
  ordered j hj i hi := by
    have hj := spares.size ▸ hj
    rw [(spares.carries.get hj).address, (spares.carries.get (Nat.lt_trans hi hj)).address]
    exact h.ordered j hj i hi
  headed id known := by
    have known := spares.size ▸ known
    rw [(spares.carries.get known).address, (spares.carries.get known).fields,
      superAddress_eq h.ranked spares.carries known]
    exact (h.headed id known).agrees (spares.first id known) (spares.last id known)

/-! ## What leaves classes alone -/

theorem Fills.sparesClasses (h : Fills k w w') (sound : w.Sound) : w.SparesClasses w' where
  carries := .of_extends (h.extends sound).table
  size := by
    rw [h.table]
    rfl
  first id known := by
    have within := sound.within.classes _ (ClassTable.get_mem known)
    exact h.mem.agrees (.inl (Nat.le_trans (by omega) within.record))
  last id known := by
    have within := sound.within.classes _ (ClassTable.get_mem known)
    exact h.mem.agrees (.inl within.record)

/-- Changes of the table that no core shows. -/
theorem SparesClasses.withTable {id : ClassId} {f : LoadedClass → LoadedClass}
    (core : ∀ c, (f c).core = c.core) (methods : Array LoadedMethod) :
    w.SparesClasses (w.withTable (w.classes.classes.modify id f) methods) where
  carries := ⟨#[], by
    change (w.classes.classes.modify id f).map _ = _
    rw [map_modify core, Array.append_empty]⟩
  size := Array.size_modify
  first _ _ _ _ _ := rfl
  last _ _ _ _ _ := rfl

/-- Where records follow each other, the word for one class object is in none of the others. -/
theorem makeClassObject_sparesClasses (sound : w.Sound)
    (ordered : ∀ j < w.classes.size, ∀ i < j,
      (w.classes.get i).address.toNat + 24 ≤ (w.classes.get j).address.toNat)
    {id : ClassId} (known : id < w.classes.size) :
    Ends (fun _ w' => w.SparesClasses w' ∧ w'.Sound) (fun _ w' => w' = w)
      (makeClassObject id w) := by
  refine (makeClassObject_writes sound known).mono (fun _ w' done => ?_) fun _ _ h => h.1
  obtain rfl | ⟨store, m, object, grows, changed, rfl⟩ := done
  · exact ⟨.refl _, sound⟩
  refine ⟨?_, ((sound.grows grows).changed changed).modifyClass (fun _ => rfl) (fun _ => rfl)
    (fun _ _ _ within => ⟨within.first, within.record, within.pool, within.cache⟩)
    fun _ _ listed => .inl listed⟩
  have heap {j : ClassId} (hj : j < w.classes.size) : w.store.mem.Agrees store.mem
      (w.classes.get j).address.toNat ((w.classes.get j).address.toNat + 24) :=
    (Extends.grows grows).agrees sound (sound.within.classes _ (ClassTable.get_mem hj)).record
  have apart {j : ClassId} (hj : j < w.classes.size) (other : j ≠ id) :
      store.mem.Agrees m (w.classes.get j).address.toNat
        ((w.classes.get j).address.toNat + 24) := by
    refine changed.agrees ?_
    rcases Nat.lt_or_gt_of_ne other with before | after
    · exact .inl (Nat.le_trans (ordered id known j before) (Nat.le_add_right _ _))
    · exact .inr (Nat.le_trans (Nat.add_le_add_left (by decide) _) (ordered j hj id after))
  have kept : w.SparesClasses { w with store := { store with mem := m } } := by
    refine ⟨.refl _, rfl, ?_, ?_⟩
    · intro j hj
      refine ((heap hj).mono (Nat.le_refl _) (by omega)).trans ?_
      by_cases other : j = id
      · exact changed.agrees (.inl (by rw [other]))
      · exact (apart hj other).mono (Nat.le_refl _) (by omega)
    · intro j hj
      refine ((heap hj).mono (by omega) (Nat.le_refl _)).trans ?_
      by_cases other : j = id
      · exact changed.agrees (.inr (by rw [other]))
      · exact (apart hj other).mono (by omega) (Nat.le_refl _)
  exact kept.trans (.withTable (f := fun c => { c with classObject := object }) (fun _ => rfl) _)

theorem loadMethod_sparesClasses (sound : w.Sound) {holder : ClassId}
    (known : holder < w.classes.size)
    {m : MethodDefinition} {name : String} (valid : m.validate name = .ok ()) :
    Ends (fun _ w' => w.SparesClasses w' ∧ w'.Sound) (fun _ w' => w.SparesClasses w' ∧ w'.Sound)
      (loadMethod holder m w) := by
  refine (loadMethod_writes sound holder valid).mono ?_ ?_
  · rintro _ _ ⟨w₁, l, fills, records, rfl⟩
    have spares := fills.sparesClasses sound
    refine ⟨spares.trans (.withTable
      (f := fun c => { c with methods := c.methods ++ [w₁.classes.methods.size] })
      (fun _ => rfl) _), ?_⟩
    exact (fills.sound sound).addMethod holder records.within
      (by rw [records.holder]; exact Nat.lt_of_lt_of_eq known spares.size.symm)
  · rintro _ _ (⟨fills, -⟩ | ⟨rfl, -⟩)
    · exact ⟨fills.sparesClasses sound, fills.sound sound⟩
    · exact ⟨.refl _, sound⟩

/-! ## A class is added -/

/-- Where the superclass of a class was found. -/
theorem superOf_cases {superId : Option ClassId} (h : superOf c w = .ok superId w') :
    superId = none ∧ c.superName = none ∧ c.name = KnownClass.object ∨
      ∃ id, superId = some id ∧ w.classes.find? (c.superName.getD KnownClass.object) = some id := by
  have require {name : String} (h : (some <$> require name : Action (Option ClassId)) w =
      .ok superId w') : ∃ id, superId = some id ∧ w.classes.find? name = some id := by
    have ends : Ends (fun x _ => ∃ id, x = some id ∧ w.classes.find? name = some id)
        (fun (_ : Failure) _ => True) ((some <$> World.require name : Action _) w) := by
      refine Ends.map (g := some) ?_
      unfold World.require
      refine Ends.get_bind ?_
      cases found : w.classes.find? name with
      | none => trivial
      | some id => exact ⟨id, rfl, rfl⟩
    exact ends.of_ok h
  unfold superOf at h
  cases named : c.superName with
  | some name =>
    rw [named] at h
    exact .inr (require h)
  | none =>
    rw [named] at h
    by_cases root : c.name = KnownClass.object
    · simp only [root, ↓reduceIte] at h
      cases h
      exact .inl ⟨rfl, rfl, root⟩
    · simp only [root, ↓reduceIte] at h
      exact .inr (require h)

theorem lt_of_find? {t : ClassTable} {name : String} {id : ClassId} (h : t.find? name = some id) :
    id < t.size ∧ (t.get id).name = name := by
  obtain ⟨bound, found, -⟩ := Array.findIdx?_eq_some_iff_getElem.mp h
  refine ⟨bound, ?_⟩
  rw [ClassTable.get, Array.getD_eq_getD_getElem?, Array.getElem?_eq_getElem bound]
  exact eq_of_beq found

/-- What is laid out: the inherited slots as they are, then one for each declared field. -/
theorem layOut_cases {inherited fields : List FieldSlot} {declared : List FieldDefinition}
    (h : layOut inherited declared = .ok fields) : ∃ own : List FieldSlot,
      fields = inherited ++ own ∧
      own.map (fun f => (f.name, f.descriptor)) =
        declared.map (fun f => (f.name, f.descriptor)) ∧
      ∀ (i : Nat) (f : FieldSlot), own[i]? = some f →
        f.offset = Memory.ObjectShape.fields +
          (inherited.length + i).toUInt64 * Memory.ObjectShape.slot := by
  obtain ⟨own, each, h⟩ := ok_of_bind h
  cases h
  have length := mapM_length each
  rw [List.length_zipIdx] at length
  have slot (i : Nat) (d : FieldDefinition) (declared : declared[i]? = some d) :
      ∃ f, own[i]? = some f ∧ f.name = d.name ∧ f.descriptor = d.descriptor ∧
        f.offset = Memory.ObjectShape.fields +
          (inherited.length + i).toUInt64 * Memory.ObjectShape.slot := by
    obtain ⟨f, found, made⟩ := mapM_get each i (d, i) (by simp [declared])
    obtain ⟨type, -, made⟩ := ok_of_bind made
    cases made
    exact ⟨_, found, rfl, rfl, rfl⟩
  refine ⟨own, rfl, ?_, fun i f found => ?_⟩
  · refine List.ext_getElem? fun i => ?_
    rw [List.getElem?_map, List.getElem?_map]
    cases at_ : declared[i]? with
    | none =>
      rw [List.getElem?_eq_none_iff] at at_
      rw [List.getElem?_eq_none (by omega)]
      rfl
    | some d =>
      obtain ⟨f, found, name, descriptor, -⟩ := slot i d at_
      rw [found, Option.map_some, Option.map_some, name, descriptor]
  · have bound := (List.getElem?_eq_some_iff.mp found).1
    obtain ⟨f', found', -, -, offset⟩ := slot i declared[i] (List.getElem?_eq_getElem (by omega))
    rw [found, Option.some.injEq] at found'
    rw [found']
    exact offset

/-- No list of the host is long enough for more. -/
structure Fits (w : World) (c : ClassDefinition) : Prop where
  pool : c.pool.length < 2 ^ 58
  fields : ∀ id, (w.classes.get id).fields.length + c.fields.length < 2 ^ 58

/-- What is known of a class that has just entered the table. -/
structure Joins (w : World) (c : ClassDefinition) (w' : World) (entry : LoadedClass) : Prop where
  listed : w'.classes.classes = w.classes.classes.push entry
  get : w'.classes.get w.classes.size = entry
  describes : Describes w c entry
  super : superOf c w = .ok entry.superId w
  record : HeadedBy w'.store.mem entry.address
    (((entry.superId.map w.classes.get).map (·.address)).getD 0) entry.fields.length
    w.classes.size

theorem Entered.joins (entered : Entered w c w') (known : Underway w c k w') :
    ∃ entry, Joins w c w' entry := by
  obtain ⟨entry, listed, describes⟩ := known.listed
  have get : w'.classes.get w.classes.size = entry := by
    rw [ClassTable.get, listed]
    exact getD_push _ _
  exact ⟨entry, listed, get, describes, get ▸ entered.super, get ▸ entered.record⟩

theorem Joins.ranked {entry : LoadedClass} (joins : Joins w c w' entry)
    (absent : w.classes.find? c.name = none) (h : w.classes.Ranked) (fits : w.Fits c) :
    w'.classes.Ranked := by
  have laid := joins.describes.fields
  obtain ⟨own, fields, -, places⟩ := layOut_cases laid
  have length := layOut_length laid
  obtain ⟨root, -, named⟩ | ⟨id, below, found⟩ := superOf_cases joins.super
  · rw [root] at laid fields places length
    refine h.push joins.listed (joins.describes.name ▸ absent) (fun s some => ?_)
      (fun _ => joins.describes.name.trans named) (fun i f found => ?_) ?_
    · rw [root] at some
      cases some
    · rw [fields] at found
      have place := places i f found
      change f.offset = _ + (0 + i).toUInt64 * _ at place
      rwa [Nat.zero_add] at place
    · exact Nat.lt_of_le_of_lt (length ▸ Nat.add_le_add_right (Nat.zero_le _) _) (fits.fields 0)
  · obtain ⟨known, -⟩ := lt_of_find? found
    rw [below] at laid fields places length
    change entry.fields = (w.classes.get id).fields ++ own at fields
    change entry.fields.length = (w.classes.get id).fields.length + c.fields.length at length
    refine h.push joins.listed (joins.describes.name ▸ absent) (fun s some => ?_)
      (fun none => ?_) (fun i f found => ?_) ?_
    · rw [below, Option.some.injEq] at some
      subst some
      exact ⟨known, fields ▸ List.prefix_append _ _⟩
    · rw [below] at none
      cases none
    · rw [fields] at found
      by_cases inherited : i < (w.classes.get id).fields.length
      · rw [List.getElem?_append_left inherited] at found
        exact h.offsets id known i f found
      · rw [List.getElem?_append_right (Nat.le_of_not_lt inherited)] at found
        have place := places _ f found
        change f.offset = _ + ((w.classes.get id).fields.length + _).toUInt64 * _ at place
        rwa [Nat.add_sub_cancel' (Nat.le_of_not_lt inherited)] at place
    · exact length ▸ fits.fields id

theorem Fits.few (h : w.Fits c) : FewNewFields w c :=
  fun _ _ id => Nat.lt_trans (h.fields id) (by decide)

theorem Entered.hierarchy (entered : Entered w c w') (known : Underway w c k w')
    (sound : w.Sound) (h : w.Hierarchy) (fits : w.Fits c) : w'.Hierarchy := by
  obtain ⟨entry, joins⟩ := entered.joins known
  have ranked := joins.ranked entered.absent h.ranked fits
  have table := known.grown.table
  have carries := ClassTable.Carries.of_extends table
  have size : w'.classes.size = w.classes.size + 1 := by
    rw [ClassTable.size, joins.listed, Array.size_push]
    rfl
  have either {id : ClassId} (inside : id < w'.classes.size) :
      id < w.classes.size ∨ id = w.classes.size := by
    rw [size] at inside
    exact Nat.lt_succ_iff_lt_or_eq.mp inside
  refine ⟨ranked, fun j hj i hi => ?_, fun id inside => ?_⟩
  · rcases either hj with hj | rfl
    · rw [table.get_eq hj, table.get_eq (Nat.lt_trans hi hj)]
      exact h.ordered j hj i hi
    · rw [joins.get, table.get_eq hi]
      exact Nat.le_trans (sound.within.classes _ (ClassTable.get_mem hi)).record
        joins.describes.first
  · rcases either inside with old | rfl
    · have same := (known.grown.class_records sound (ClassTable.get_mem old)).1
      rw [table.get_eq old, superAddress_eq h.ranked carries old]
      exact (h.headed id old).agrees (same.mono (Nat.le_refl _) (by omega))
        (same.mono (by omega) (Nat.le_refl _))
    · have super : w'.classes.superAddress w.classes.size =
          ((entry.superId.map w.classes.get).map (·.address)).getD 0 := by
        rw [ClassTable.superAddress, joins.get]
        cases below : entry.superId with
        | none => rfl
        | some super =>
          obtain ⟨none, -⟩ | ⟨id, some, found⟩ := superOf_cases joins.super
          · rw [none] at below
            cases below
          · rw [some, Option.some.injEq] at below
            subst below
            exact congrArg LoadedClass.address (table.get_eq (lt_of_find? found).1)
      rw [joins.get, super]
      exact joins.record

/-- What is left to be done once a class is known leaves all classes alone. -/
theorem complete_sparesClasses (sound : w.Sound) (h : w.Hierarchy) {id : ClassId}
    (known : id < w.classes.size) (valid : c.validate = .ok ()) :
    Ends (fun _ w' => w.SparesClasses w') (fun _ w' => w.SparesClasses w')
      ((do
        makeClassObject id
        c.methods.forM fun m => do let _ ← loadMethod id m
        pure id : Action ClassId) w) := by
  refine (makeClassObject_sparesClasses sound h.ordered known).bind ?_
    fun _ w₁ ⟨spares, sound₁⟩ => ?_
  · rintro _ _ rfl
    exact .refl _
  refine (Ends.forM (J := fun w' => w.SparesClasses w' ∧ w'.Sound) (fun m declared w' h' => ?_)
    ⟨spares, sound₁⟩).bind (fun _ _ h => h) fun _ _ h => h.1
  refine (loadMethod_sparesClasses h'.2 (Nat.lt_of_lt_of_eq known h'.1.size.symm)
    (ClassDefinition.of_validate valid declared)).bind
    (fun _ _ h => h'.1.trans h.1) fun _ _ h => ⟨h'.1.trans h.1, h.2⟩

/-- The definition of a class that is known: its name, that of its superclass, and its fields. -/
structure Defines (w : World) (id : ClassId) (c : ClassDefinition) : Prop where
  known : id < w.classes.size
  name : (w.classes.get id).name = c.name
  fields : (w.classes.own id).map (fun f => (f.name, f.descriptor)) =
    c.fields.map (fun f => (f.name, f.descriptor))
  super : ∀ super, (w.classes.get id).superId = some super →
    (w.classes.get super).name = c.superName.getD KnownClass.object

theorem Defines.carried {id : ClassId} (h : w.Defines id c) (ranked : w.classes.Ranked)
    (carries : w.classes.Carries w'.classes) : w'.Defines id c where
  known := Nat.lt_of_lt_of_le h.known carries.size_le
  name := (carries.get h.known).name.trans h.name
  fields := by
    rw [ranked.own_eq carries h.known]
    exact h.fields
  super super found := by
    rw [(carries.get h.known).superId] at found
    rw [(carries.get (ranked.super_known h.known found)).name]
    exact h.super super found

/-- A class is added behind the others, as it was defined. -/
structure Enlists (w : World) (c : ClassDefinition) (w' : World) : Prop where
  carries : w.classes.Carries w'.classes
  size : w'.classes.size = w.classes.size + 1
  defines : w'.Defines w.classes.size c

theorem Enlists.spared (h : w.Enlists c w') (ranked : w'.classes.Ranked)
    (spares : w'.SparesClasses w'') :
    w.Enlists c w'' where
  carries := h.carries.trans spares.carries
  size := spares.size.trans h.size
  defines := h.defines.carried ranked spares.carries

theorem Entered.enlists (entered : Entered w c w') (known : Underway w c k w')
    (ranked : w'.classes.Ranked) : w.Enlists c w' := by
  obtain ⟨entry, joins⟩ := entered.joins known
  have table := known.grown.table
  refine ⟨.of_extends table, ?_, known.listed_lt, ?_, ?_, fun super found => ?_⟩
  · rw [ClassTable.size, joins.listed, Array.size_push]
    rfl
  · rw [joins.get]
    exact joins.describes.name
  · obtain ⟨own, fields, declared, -⟩ := layOut_cases joins.describes.fields
    have inherited : w'.classes.inherited w.classes.size =
        ((entry.superId.map w.classes.get).map (·.fields)).getD [] := by
      rw [ClassTable.inherited, joins.get]
      cases below : entry.superId with
      | none => rfl
      | some super =>
        have old := ranked.below _ known.listed_lt super (joins.get ▸ below)
        exact congrArg LoadedClass.fields (table.get_eq old)
    rw [ClassTable.own, inherited, joins.get, fields, List.drop_left]
    exact declared
  · rw [joins.get] at found
    obtain ⟨none, -⟩ | ⟨id, some, named⟩ := superOf_cases joins.super
    · rw [none] at found
      cases found
    · rw [some, Option.some.injEq] at found
      subst found
      obtain ⟨old, name⟩ := lt_of_find? named
      rw [table.get_eq old]
      exact name

/-- Whether a class is loaded or fails, it is added as it was defined or nothing is. -/
theorem load_hierarchy (sound : w.Sound) (h : w.Hierarchy) (fits : w.Fits c) :
    Ends (fun _ w' => w'.Hierarchy ∧ w.Enlists c w')
      (fun _ w' => w'.Hierarchy ∧ (w.Enlists c w' ∨ w.SparesClasses w')) (load c w) := by
  refine load_begins sound fits.pool fits.few (fun _ _ => ⟨h, .inr (.refl w)⟩)
    (fun _ _ fills _ => ?_) fun w' valid entered known _ => ?_
  · have spares := fills.sparesClasses sound
    exact ⟨h.spared spares, .inr spares⟩
  have h' := entered.hierarchy known sound h fits
  have adds := entered.enlists known h'.ranked
  exact (complete_sparesClasses known.sound h' known.listed_lt valid).mono
    (fun _ _ spares => ⟨h'.spared spares, adds.spared h'.ranked spares⟩)
    fun _ _ spares => ⟨h'.spared spares, .inl (adds.spared h'.ranked spares)⟩

end World
/-! ## Ancestors -/

namespace ClassTable

open Relation (ReflTransGen TransGen)

variable {t t' : ClassTable} {id super : ClassId}

/-- A class of the table extends another one. -/
def Below (t : ClassTable) (id super : ClassId) : Prop :=
  id < t.size ∧ (t.get id).superId = some super

namespace Ranked

theorem lineage_eq (h : t.Ranked) (known : id < t.size) : t.lineage id =
    id :: ((t.get id).superId.map t.lineage).getD [] := by
  rw [lineage]
  cases found : (t.get id).superId with
  | none => rfl
  | some super =>
    have below := h.below id known super found
    dsimp only
    rw [if_pos below]
    rfl

theorem lt_of_transGen (h : t.Ranked) (way : TransGen t.Below id super) : super < id := by
  induction way with
  | single below => exact h.below _ below.1 _ below.2
  | tail _ below ih => exact Nat.lt_trans (h.below _ below.1 _ below.2) ih

/-- No class is a proper subclass of itself. -/
theorem acyclic (h : t.Ranked) (id : ClassId) : ¬ TransGen t.Below id id :=
  fun way => Nat.lt_irrefl _ (h.lt_of_transGen way)

/-- The subclasses of a class are those that lead to it. -/
theorem isSubclass_iff (h : t.Ranked) (known : id < t.size) :
    t.isSubclass id super = true ↔ ReflTransGen t.Below id super := by
  rw [isSubclass, List.contains_iff_mem]
  induction id using Nat.strongRecOn with
  | _ id ih =>
    rw [h.lineage_eq known, List.mem_cons, ReflTransGen.cases_head_iff, eq_comm]
    refine or_congr Iff.rfl ?_
    cases found : (t.get id).superId with
    | none =>
      refine iff_of_false List.not_mem_nil ?_
      rintro ⟨next, ⟨-, below⟩, -⟩
      rw [found] at below
      cases below
    | some next =>
      have smaller := h.below id known next found
      refine (ih next smaller (Nat.lt_trans smaller known)).trans ?_
      constructor
      · exact fun way => ⟨next, ⟨known, found⟩, way⟩
      · rintro ⟨next', ⟨-, below⟩, way⟩
        rw [found, Option.some.injEq] at below
        exact below ▸ way

/-- Every class leads to the first one. -/
theorem reaches_root (h : t.Ranked) (known : id < t.size) : ReflTransGen t.Below id 0 := by
  induction id using Nat.strongRecOn with
  | _ id ih =>
    cases found : (t.get id).superId with
    | none =>
      rw [h.root id known found]
    | some next =>
      have smaller := h.below id known next found
      exact .head ⟨known, found⟩ (ih next smaller (Nat.lt_trans smaller known))

/-- The class without a superclass is the one with the name of the root. -/
theorem root_iff (h : t.Ranked) (known : id < t.size) :
    (t.get id).superId = none ↔ (t.get id).name = KnownClass.object := by
  have some : 0 < t.size := Nat.lt_of_le_of_lt (Nat.zero_le _) known
  constructor
  · intro root
    rw [h.root id known root]
    exact h.first some
  · intro named
    have first : id = 0 := h.distinct id known 0 some (named.trans (h.first some).symm)
    refine Option.eq_none_iff_forall_ne_some.mpr fun next found => ?_
    exact Nat.not_lt_zero next (first ▸ h.below id known next found)

/-- A class begins with the fields of every class that it extends. -/
theorem fields_prefix (h : t.Ranked) (way : ReflTransGen t.Below id super) :
    (t.get super).fields <+: (t.get id).fields := by
  induction way with
  | refl => exact List.prefix_refl _
  | tail _ below ih => exact (h.inherits _ below.1 _ below.2).trans ih

end Ranked
end ClassTable

end TemplateVm
