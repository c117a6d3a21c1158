import Mathlib.Data.List.Find
import TemplateVm.Class.Table

set_option autoImplicit false

/-!
# Tables that only grow

Classes and methods are added behind those that are there. What a table has found before, it finds
again, whatever was added since.
-/
namespace TemplateVm.ClassTable

/-- The table `t'` goes on where `t` ends. -/
structure Extends (t t' : ClassTable) : Prop where
  classes : ∃ more, t'.classes = t.classes ++ more
  methods : ∃ more, t'.methods = t.methods ++ more

/-- The methods of every class are in the table. -/
def Coherent (t : ClassTable) : Prop := ∀ c ∈ t.classes, ∀ id ∈ c.methods, id < t.methods.size

theorem get_mem {t : ClassTable} {id : ClassId} (known : id < t.size) : t.get id ∈ t.classes := by
  rw [get, Array.getD_eq_getD_getElem?, Array.getElem?_eq_getElem known]
  exact Array.getElem_mem known

theorem method_mem {t : ClassTable} {m : MethodId} (known : m < t.methods.size) :
    t.method m ∈ t.methods := by
  rw [method, Array.getD_eq_getD_getElem?, Array.getElem?_eq_getElem known]
  exact Array.getElem_mem known

theorem lt_of_methodAt? {t : ClassTable} {address : UInt64} {m : MethodId}
    (h : t.methodAt? address = some m) : m < t.methods.size :=
  (Array.findIdx?_eq_some_iff_getElem.mp h).1

/-- The record that is known for a method is where it is looked for. -/
theorem address_of_methodAt? {t : ClassTable} {address : UInt64} {m : MethodId}
    (h : t.methodAt? address = some m) : (t.method m).address = address := by
  obtain ⟨bound, found, -⟩ := Array.findIdx?_eq_some_iff_getElem.mp h
  rw [method, Array.getD_eq_getD_getElem?, Array.getElem?_eq_getElem bound]
  exact eq_of_beq found

theorem findIdx?_append_of_some {α : Type} {xs ys : Array α} {p : α → Bool} {i : Nat}
    (h : xs.findIdx? p = some i) : (xs ++ ys).findIdx? p = some i := by
  rw [Array.findIdx?_append, h]
  rfl

/-! ## Methods and names -/

/-- The methods of `t` are there in `t'`, and their classes have kept their names, though they may
    have got more methods. -/
structure Declares (t t' : ClassTable) : Prop where
  methods : ∃ more, t'.methods = t.methods ++ more
  names : ∃ more, t'.classes.map (·.name) = t.classes.map (·.name) ++ more

namespace Declares

variable {t t' t'' : ClassTable} {m : MethodId} {address : UInt64}

theorem refl (t : ClassTable) : t.Declares t := ⟨⟨#[], by simp⟩, ⟨#[], by simp⟩⟩

theorem trans (h : t.Declares t') (h' : t'.Declares t'') : t.Declares t'' := by
  obtain ⟨⟨ms, hm⟩, ⟨ns, hn⟩⟩ := h
  obtain ⟨⟨ms', hm'⟩, ⟨ns', hn'⟩⟩ := h'
  exact ⟨⟨ms ++ ms', by rw [hm', hm, Array.append_assoc]⟩,
    ⟨ns ++ ns', by rw [hn', hn, Array.append_assoc]⟩⟩

theorem method_eq (h : t.Declares t') (known : m < t.methods.size) :
    t'.method m = t.method m := by
  obtain ⟨more, eq⟩ := h.methods
  simp only [method, Array.getD_eq_getD_getElem?, eq]
  rw [Array.getElem?_append_left known]

theorem methodAt?_of_some (h : t.Declares t') (found : t.methodAt? address = some m) :
    t'.methodAt? address = some m := by
  obtain ⟨more, eq⟩ := h.methods
  rw [methodAt?, eq]
  exact findIdx?_append_of_some found

theorem name_eq (h : t.Declares t') {id : ClassId} (known : id < t.size) :
    (t'.get id).name = (t.get id).name := by
  obtain ⟨more, eq⟩ := h.names
  have named (t : ClassTable) : (t.get id).name =
      ((t.classes.map (·.name))[id]?).getD (default : LoadedClass).name := by
    rw [get, Array.getD_eq_getD_getElem?, Array.getElem?_map]
    cases t.classes[id]? <;> rfl
  have inside : id < (t.classes.map (·.name)).size := by
    rw [Array.size_map]
    exact known
  rw [named, named, eq, Array.getElem?_append_left inside]

/-- A method goes by the same name, of the same class. -/
theorem member_eq (h : t.Declares t') (known : m < t.methods.size)
    (holder : (t.method m).holder < t.size) : t'.member m = t.member m := by
  simp only [member, h.method_eq known, h.name_eq holder]

end Declares

/-! ## Classes as a whole -/

namespace Extends

variable {t t' t'' : ClassTable} {id : ClassId} {name : String} {address : UInt64}

theorem declares (h : t.Extends t') : t.Declares t' := by
  obtain ⟨⟨more, eq⟩, methods⟩ := h
  exact ⟨methods, more.map (·.name), by rw [eq, Array.map_append]⟩

theorem of_eq (classes : t'.classes = t.classes) (methods : t'.methods = t.methods) :
    t.Extends t' := ⟨⟨#[], by simp [classes]⟩, ⟨#[], by simp [methods]⟩⟩

theorem refl (t : ClassTable) : t.Extends t := .of_eq rfl rfl

theorem trans (h : t.Extends t') (h' : t'.Extends t'') : t.Extends t'' := by
  obtain ⟨⟨cs, hc⟩, ⟨ms, hm⟩⟩ := h
  obtain ⟨⟨cs', hc'⟩, ⟨ms', hm'⟩⟩ := h'
  exact ⟨⟨cs ++ cs', by rw [hc', hc, Array.append_assoc]⟩,
    ⟨ms ++ ms', by rw [hm', hm, Array.append_assoc]⟩⟩

theorem get_eq (h : t.Extends t') (known : id < t.size) : t'.get id = t.get id := by
  obtain ⟨more, eq⟩ := h.classes
  simp only [get, Array.getD_eq_getD_getElem?, eq]
  rw [Array.getElem?_append_left known]

theorem method_eq (h : t.Extends t') {m : MethodId} (known : m < t.methods.size) :
    t'.method m = t.method m := h.declares.method_eq known

/-! ## Searches -/

theorem find?_of_some (h : t.Extends t') (found : t.find? name = some id) :
    t'.find? name = some id := by
  obtain ⟨more, eq⟩ := h.classes
  rw [find?, eq]
  exact findIdx?_append_of_some found

theorem classAt?_of_some (h : t.Extends t') (found : t.classAt? address = some id) :
    t'.classAt? address = some id := by
  obtain ⟨more, eq⟩ := h.classes
  rw [classAt?, eq]
  exact findIdx?_append_of_some found

theorem methodAt?_of_some (h : t.Extends t') {m : MethodId}
    (found : t.methodAt? address = some m) : t'.methodAt? address = some m :=
  h.declares.methodAt?_of_some found

theorem ofClassObject?_of_some (h : t.Extends t') (found : t.ofClassObject? address = some id) :
    t'.ofClassObject? address = some id := by
  obtain ⟨more, eq⟩ := h.classes
  unfold ofClassObject? at found ⊢
  by_cases null : address = 0
  · simp [null] at found
  · rw [if_neg null] at found ⊢
    rw [eq]
    exact findIdx?_append_of_some found

/-! ## Members of a class -/

theorem lineage_eq (h : t.Extends t') (known : id < t.size) : t'.lineage id = t.lineage id := by
  induction id using Nat.strongRecOn with
  | _ id ih =>
    rw [lineage, lineage, h.get_eq known]
    cases (t.get id).superId with
    | none => rfl
    | some super =>
      by_cases below : super < id
      · simp only [below, ↓reduceIte]
        rw [ih super below (Nat.lt_trans below known)]
      · simp only [below, ↓reduceIte]

/-- A class comes after all of its ancestors. -/
theorem le_of_mem_lineage {t : ClassTable} {id a : ClassId} (h : a ∈ t.lineage id) : a ≤ id := by
  induction id using Nat.strongRecOn with
  | _ id ih =>
    rw [lineage, List.mem_cons] at h
    rcases h with rfl | h
    · exact Nat.le_refl _
    · cases super : (t.get id).superId with
      | none => simp [super] at h
      | some s =>
        by_cases below : s < id
        · simp only [super, below, ↓reduceIte] at h
          exact Nat.le_trans (ih s below h) (Nat.le_of_lt below)
        · simp [super, below] at h

theorem isSubclass_eq (h : t.Extends t') (known : id < t.size) (super : ClassId) :
    t'.isSubclass id super = t.isSubclass id super := by
  rw [isSubclass, isSubclass, h.lineage_eq known]

theorem findField?_eq (h : t.Extends t') (known : id < t.size) (name descriptor : String) :
    t'.findField? id name descriptor = t.findField? id name descriptor := by
  rw [findField?, findField?, h.get_eq known]

theorem declared?_eq (h : t.Extends t') (coherent : t.Coherent) (known : id < t.size)
    (name : String) (descriptor : Option String) :
    t'.declared? id name descriptor = t.declared? id name descriptor := by
  rw [declared?, declared?, h.get_eq known]
  refine List.find?_congr fun m hm => ?_
  rw [h.method_eq (coherent _ (get_mem known) m hm)]

theorem findMethod?_eq (h : t.Extends t') (coherent : t.Coherent) (known : id < t.size)
    (name : String) (descriptor : Option String) :
    t'.findMethod? id name descriptor = t.findMethod? id name descriptor := by
  have each (a : ClassId) (ha : a ∈ t.lineage id) :
      t'.declared? a name descriptor = t.declared? a name descriptor :=
    h.declared?_eq coherent (Nat.lt_of_le_of_lt (le_of_mem_lineage ha) known) name descriptor
  rw [findMethod?, findMethod?, h.lineage_eq known]
  generalize t.lineage id = ancestors at each
  induction ancestors with
  | nil => rfl
  | cons a rest ih =>
    rw [List.findSome?_cons, List.findSome?_cons, each a List.mem_cons_self,
      ih fun b hb => each b (List.mem_cons_of_mem a hb)]

end Extends
end TemplateVm.ClassTable
