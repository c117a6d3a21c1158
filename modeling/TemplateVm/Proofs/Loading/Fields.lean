import TemplateVm.Proofs.Loading.Hierarchy
import TemplateVm.Proofs.Loading.Histories

set_option autoImplicit false

/-!
# The layout of fields

The fields of a class lie behind those of its superclass, each in a slot of its own. So a field has
the same offset in all instances that have it, and the field that a name stands for in a class is
the one that is declared nearest.
-/
namespace TemplateVm

open Memory (Guarded)
open Relation (ReflTransGen)

namespace ClassTable

variable {t t' : ClassTable} {id super : ClassId} {f g : FieldSlot} {i j : Nat}

namespace Ranked

/-! ## Slots -/

theorem offset_toNat (h : t.Ranked) (known : id < t.size) (found : (t.get id).fields[i]? = some f) :
    f.offset.toNat = 16 + 8 * i := by
  have few := h.few id known
  have bound := (List.getElem?_eq_some_iff.mp found).1
  have index : i.toUInt64.toNat = i := UInt64.toNat_ofNat_of_lt' (by change i < 2 ^ 64; omega)
  have fields : Memory.ObjectShape.fields.toNat = 16 := rfl
  have slot : Memory.ObjectShape.slot.toNat = 8 := rfl
  rw [h.offsets id known i f found, UInt64.toNat_add, UInt64.toNat_mul, index, fields, slot]
  omega

/-- Every field lies behind those before it. -/
theorem fields_apart (h : t.Ranked) (known : id < t.size) :
    (t.get id).fields.Pairwise fun f g => f.offset.toNat + 8 ≤ g.offset.toNat := by
  rw [List.pairwise_iff_getElem]
  intro i j hi hj lt
  rw [h.offset_toNat known (List.getElem?_eq_getElem hi),
    h.offset_toNat known (List.getElem?_eq_getElem hj)]
  omega

/-- Every field lies inside the instance, behind its header. -/
theorem field_inside (h : t.Ranked) (known : id < t.size) (member : f ∈ (t.get id).fields) :
    16 ≤ f.offset.toNat ∧ f.offset.toNat + 8 ≤ 16 + 8 * (t.get id).fields.length := by
  obtain ⟨i, bound, rfl⟩ := List.mem_iff_getElem.mp member
  rw [h.offset_toNat known (List.getElem?_eq_getElem bound)]
  omega

/-! ## Searches -/

/-- A field is found with the class of the lineage that declares it nearest, and there with its last
    declaration. -/
theorem findField?_eq (h : t.Ranked) (known : id < t.size) (name descriptor : String) :
    t.findField? id name descriptor = (t.lineage id).findSome? fun holder =>
      (t.own holder).reverse.find? fun f => f.name == name && f.descriptor == descriptor := by
  induction id using Nat.strongRecOn with
  | _ id ih =>
    rw [h.lineage_eq known, List.findSome?_cons, findField?, h.fields_eq known, List.reverse_append,
      List.find?_append]
    cases own : (t.own id).reverse.find? fun f => f.name == name && f.descriptor == descriptor with
    | some f => rfl
    | none =>
      rw [Option.none_or, inherited]
      cases found : (t.get id).superId with
      | none => rfl
      | some super =>
        have smaller := h.below id known super found
        exact ih super smaller (Nat.lt_trans smaller known)

/-- What is found for a class is at the same place in every class that extends it. -/
theorem findField?_inherited (h : t.Ranked) {name descriptor : String}
    (found : t.findField? id name descriptor = some f) {sub : ClassId}
    (way : ReflTransGen t.Below sub id) :
    ∃ i : Nat, (t.get id).fields[i]? = some f ∧ (t.get sub).fields[i]? = some f := by
  have member := List.mem_reverse.mp (List.mem_of_find?_eq_some found)
  obtain ⟨i, bound, rfl⟩ := List.mem_iff_getElem.mp member
  refine ⟨i, List.getElem?_eq_getElem bound, ?_⟩
  obtain ⟨rest, eq⟩ := h.fields_prefix way
  rw [← eq, List.getElem?_append_left bound]
  exact List.getElem?_eq_getElem bound

end Ranked
end ClassTable

namespace World

variable {w₀ w w' : World} {cs cs' : List ClassDefinition}

/-- A new instance has room for all its slots, behind everything that was there before. -/
theorem newInstance_block (sound : w.Sound) {id : ClassId}
    (few : (w.classes.get id).fields.length < 2 ^ 58) :
    Ends (fun object w' => w.store.heap.region.top.toNat ≤ object.toNat ∧
        object.toNat + 16 + 8 * (w.classes.get id).fields.length ≤
          w'.store.heap.region.top.toNat)
      (fun _ _ => True) (newInstance id w) := by
  have count : (w.classes.get id).fields.length.toUInt64.toNat =
      (w.classes.get id).fields.length :=
    UInt64.toNat_ofNat_of_lt' (Nat.lt_trans few (by decide))
  have fits : (Memory.Allocation.fields (w.classes.get id).address
      (w.classes.get id).fields.length.toUInt64).size < 2 ^ 64 :=
    Memory.Allocation.size_fields_lt (by omega)
  refine Ends.get_bind ((Ends.zoom (P := fun object (s : Memory.Store) =>
    w.store.heap.region.top.toNat ≤ object.toNat ∧
      object.toNat + 16 + 8 * (w.classes.get id).fields.length ≤ s.heap.region.top.toNat)
    (F := fun _ _ => True) ?_).mono ?_ fun _ _ _ => trivial)
  · refine (Memory.Allocation.fields_makes fits _).mono (fun object s made => ?_) fun _ _ _ => trivial
    obtain ⟨-, behind, block, -⟩ := sound.store.makes fits made
    rw [Memory.Allocation.toNat_words fits, Memory.Allocation.size, count] at block
    exact ⟨behind, by omega⟩
  · rintro object _ ⟨s, block, rfl⟩
    exact block

/-- However classes are loaded, the fields of a class are those of its superclass, as they are
    there, and then those of its definition. They lie apart from each other inside the instances that
    are made of the class, whose slots its record tells, as a number of 32 bits. What a name stands
    for in a class is the nearest declaration; the field that was once found lies at its offset in
    all instances of all classes that extend the class, also of those that are loaded later. -/
theorem Builds.lays_out_fields (sound : w₀.Sound) (empty : w₀.classes.classes = #[])
    (before : Builds w₀ cs w) (later : Builds w cs' w') :
    (∀ id < w'.classes.size, ∀ super, (w'.classes.get id).superId = some super →
      (w'.classes.get super).fields <+: (w'.classes.get id).fields) ∧
    (w'.classes.size = (cs ++ cs').length ∧ ∀ id c, (cs ++ cs')[id]? = some c →
      (w'.classes.get id).name = c.name ∧
      (w'.classes.get id).fields = w'.classes.inherited id ++ w'.classes.own id ∧
      (w'.classes.own id).map (fun f => (f.name, f.descriptor)) =
        c.fields.map (fun f => (f.name, f.descriptor))) ∧
    (∀ id < w'.classes.size,
      ((w'.classes.get id).fields.Pairwise fun f g => f.offset.toNat + 8 ≤ g.offset.toNat) ∧
      (∀ f ∈ (w'.classes.get id).fields, 16 ≤ f.offset.toNat ∧
        f.offset.toNat + 8 ≤ 16 + 8 * (w'.classes.get id).fields.length) ∧
      (Memory.load w'.store.mem.bytes
        ((w'.classes.get id).address + ClassRecord.instanceSlots).toNat 4).toNat =
          (w'.classes.get id).fields.length % 2 ^ 32 ∧
      Ends (fun object w'' => w'.store.heap.region.top.toNat ≤ object.toNat ∧
          object.toNat + 16 + 8 * (w'.classes.get id).fields.length ≤
            w''.store.heap.region.top.toNat)
        (fun _ _ => True) (newInstance id w')) ∧
    ∀ id < w.classes.size, ∀ name descriptor,
      (w.classes.findField? id name descriptor = (w.classes.lineage id).findSome? fun holder =>
        (w.classes.own holder).reverse.find? fun f =>
          f.name == name && f.descriptor == descriptor) ∧
      ∀ f, w.classes.findField? id name descriptor = some f →
        ∀ sub < w'.classes.size, w'.classes.isSubclass sub id = true →
          ∃ i : Nat, (w.classes.get id).fields[i]? = some f ∧
            (w'.classes.get sub).fields[i]? = some f ∧ f.offset.toNat = 16 + 8 * i := by
  have first := before.built sound (.of_empty empty)
  have last := (before.trans later).built sound (.of_empty empty)
  have on := later.built first.sound first.hierarchy
  have zero : w₀.classes.size = 0 := by
    rw [ClassTable.size, empty]
    rfl
  have ranked := last.hierarchy.ranked
  refine ⟨ranked.inherits, ⟨by rw [last.size, zero, Nat.zero_add], fun id c found => ?_⟩,
    fun id known => ⟨ranked.fields_apart known, fun f => ranked.field_inside known, ?_,
      newInstance_block last.sound (ranked.few id known)⟩,
    fun id known name descriptor => ⟨first.hierarchy.ranked.findField?_eq known name descriptor,
      fun f found sub subKnown extends_ => ?_⟩⟩
  · have defines := last.defines id c found
    rw [zero, Nat.zero_add] at defines
    exact ⟨defines.name, ranked.fields_eq defines.known, defines.fields⟩
  · have within := last.sound.within.classes _ (ClassTable.get_mem known)
    have below := last.sound.writable.region.below
    have top := last.sound.writable.region.top_le
    have record := within.record
    have place : ((w'.classes.get id).address + ClassRecord.instanceSlots).toNat =
        (w'.classes.get id).address.toNat + 16 := toNat_add_of_lt (k := 16) (by simp; omega)
    rw [place, (last.hierarchy.headed id known).slots, UInt32.toNat_toUInt64, UInt64.toNat_toUInt32]
    have count : (w'.classes.get id).fields.length.toUInt64.toNat =
        (w'.classes.get id).fields.length :=
      UInt64.toNat_ofNat_of_lt' (Nat.lt_trans (ranked.few id known) (by decide))
    rw [count]
  · have same := on.carries.get known
    have knownLater := Nat.lt_of_lt_of_le known on.carries.size_le
    have found' : w'.classes.findField? id name descriptor = some f := by
      rw [ClassTable.findField?, same.fields]
      exact found
    obtain ⟨i, here, there⟩ := ranked.findField?_inherited found'
      ((ranked.isSubclass_iff subKnown).mp extends_)
    exact ⟨i, same.fields ▸ here, there, ranked.offset_toNat subKnown there⟩

/-! ### A class that declares an inherited field again -/

/-- Nothing stands in the way of a class without methods before there are class objects. -/
theorem load_early {w : World} {c : ClassDefinition} (sound : w.Sound) (fits : w.Fits c)
    (admits : w.Admits c) (plain : c.methods = [])
    (early : w.classes.find? KnownClass.classOfClasses = none)
    (other : KnownClass.classOfClasses ≠ c.name)
    (room : w.classes.metaspace.top.toNat + classCost c ≤ w.classes.metaspace.stop.toNat) :
    ∃ id w', load c w = .ok id w' ∧ Underway w c (classCost c) w' := by
  have cost : 31 + poolCost c.pool.length ≤ classCost c := Nat.le_add_right _ _
  have ends : Ends (fun _ w' => Underway w c (classCost c) w') (fun (_ : Failure) _ => False)
      (load c w) := by
    refine load_begins sound fits.pool fits.few (fun _ rejected => rejected admits)
      (fun _ _ _ short => ?_) fun w' valid _ known same => ?_
    · unfold Short at short
      omega
    · refine (known.complete same valid).mono (fun _ _ h => h.2) ?_
      rintro e w'' ⟨known, obstacle⟩
      cases obstacle with
      | truncated declared => exact List.not_mem_nil (plain ▸ declared)
      | metaspace short =>
        unfold Short at short
        change _ < _ + classCost c at short
        omega
      | heap short =>
        obtain ⟨id, found, -⟩ := short
        rw [known.find?_other other, early] at found
        cases found
  exact ends.exists_ok

namespace Redeclared

/-- The world of a machine before any class is loaded. -/
def start : World := Vm.emptyWorld (MemoryMap.ofSettings {}) [] ⟨true, true⟩

def root : ClassDefinition := { name := KnownClass.object, fields := [⟨"x", "I"⟩, ⟨"y", "J"⟩] }

def point : ClassDefinition := { name := "Point", fields := [⟨"x", "I"⟩] }

theorem start_sound : start.Sound := Vm.emptyWorld_sound Vm.ordered_default

/-- Both classes can be loaded, one after the other. -/
theorem loads : ∃ w w', start.Builds [root] w ∧ w.Builds [point] w' := by
  have nothing (name : String) : start.classes.find? name = none := by
    simp [ClassTable.find?, start, Vm.emptyWorld]
  have size : start.classes.metaspace.top.toNat + classCost root + classCost point ≤
    start.classes.metaspace.stop.toNat := by decide
  have none (id : ClassId) : (start.classes.get id).fields.length ≤ 0 := by
    rw [get_default (Nat.zero_le id)]
    exact Nat.le_refl 0
  have first : start.Fits root := ⟨by decide, fun id => Nat.lt_of_le_of_lt
    (Nat.add_le_add_right (none id) _) (by decide)⟩
  obtain ⟨_, w, ran, known⟩ := load_early start_sound first
    ⟨by decide, nothing _, _, rfl⟩ rfl (nothing _) (by decide) (by omega)
  obtain ⟨id, super⟩ := known.find?_self
  have spent := known.spent
  have stop := known.grown.stop
  have few := ((Grown.load_ends start_sound rfl ⟨start_sound, ⟨[], .start⟩, none⟩ first.pool
    (by decide)).of_ok ran).1.fields
  have second : w.Fits point := ⟨by decide, fun id => Nat.lt_of_le_of_lt
    (Nat.add_le_add_right (few id) _) (by decide)⟩
  have absent {name : String} (other : name ≠ root.name) : w.classes.find? name = Option.none := by
    rw [known.find?_other other, nothing]
  obtain ⟨_, w', ran', -⟩ := load_early known.sound second
    ⟨by decide, absent (by decide), superOf_ok (Option.isSome_iff_exists.mpr ⟨id, super⟩)⟩ rfl
    (absent (by decide)) (by decide) (by rw [stop]; omega)
  exact ⟨w, w', .loaded .start root first ran, .loaded .start point second ran'⟩

end Redeclared

/-- The class and its superclass are there, with a slot for each of the three fields. -/
theorem Builds.lays_out_fields_redeclared : ∃ w w',
    Redeclared.start.Builds [Redeclared.root] w ∧ w.Builds [Redeclared.point] w' ∧
      w'.classes.size = 2 ∧
      (w'.classes.own 0).map (fun f => (f.name, f.descriptor)) = [("x", "I"), ("y", "J")] ∧
      (w'.classes.own 1).map (fun f => (f.name, f.descriptor)) = [("x", "I")] ∧
      (w'.classes.get 1).fields.Pairwise (fun f g => f.offset.toNat + 8 ≤ g.offset.toNat) := by
  obtain ⟨w, w', before, later⟩ := Redeclared.loads
  have laid := Builds.lays_out_fields Redeclared.start_sound rfl before later
  obtain ⟨-, ⟨size, defined⟩, slots, -⟩ := laid
  exact ⟨w, w', before, later, size, (defined 0 _ rfl).2.2, (defined 1 _ rfl).2.2,
    (slots 1 (by rw [size]; decide)).1⟩

end World
end TemplateVm
