import TemplateVm.Proofs.Guest.Walks
import TemplateVm.Proofs.Loading.Classes

set_option autoImplicit false

/-!
# Loaded bodies

A class that is admitted, of which no body is cut off, is loaded with all of its methods if there is
room for it. From then on its bodies are in memory in native order, whatever is loaded later.
-/
namespace TemplateVm.World

variable {w w₀ w' : World} {c : ClassDefinition} {k : Nat} {id : ClassId}
  {ms : List MethodDefinition}

/-- The table tells of all these methods of a class. -/
def HasMethods (w : World) (id : ClassId) (ms : List MethodDefinition) : Prop :=
  ∀ m ∈ ms, ∃ l ∈ w.classes.methods, Records id m w l

/-- What is written behind all that has been handed out leaves bodies alone. -/
theorem HasMethods.mono (h : w.HasMethods id ms) (sound : w.Sound)
    (listed : ∀ l ∈ w.classes.methods, l ∈ w'.classes.methods)
    (start : w'.classes.metaspace.start = w.classes.metaspace.start)
    (top : w.classes.metaspace.top.toNat ≤ w'.classes.metaspace.top.toNat)
    (size : w'.store.mem.bytes.size = w.store.mem.bytes.size)
    (agrees : w.store.mem.Agrees w'.store.mem 0 w.classes.metaspace.top.toNat) :
    w'.HasMethods id ms := by
  intro m hm
  obtain ⟨l, known, records⟩ := h m hm
  have code := records.within.code
  have inside := sound.writable.clear.inside
  have within := sound.writable.region.top_le
  refine ⟨l, listed l known, { records with above := ?_, within := ⟨?_, ?_, ?_⟩, body := ?_ }⟩
  · rw [start]
    exact records.above
  · rw [start]
    exact records.within.first
  · exact Nat.le_trans records.within.record top
  · exact Nat.le_trans records.within.code top
  · rw [codeOf_eq size (by omega) (agrees.mono (Nat.zero_le _) code)]
    exact records.body

/-- A class keeps its bodies when more is loaded. -/
theorem HasMethods.extends (h : w.HasMethods id ms) (sound : w.Sound) (grown : w.Extends w') :
    w'.HasMethods id ms := by
  obtain ⟨more, eq⟩ := grown.table.methods
  refine h.mono sound (fun l known => ?_) grown.start grown.top_le grown.size
    (grown.agrees sound (Nat.le_refl _))
  rw [eq]
  exact Array.mem_append_left more known

/-! ## Method after method -/

/-- A method is added to those that are there. -/
theorem HasMethods.loadMethod_ends {m : MethodDefinition} {name : String}
    (h : w.HasMethods id ms) (sound : w.Sound) (valid : m.validate name = .ok ()) :
    Ends (fun _ w' => w'.HasMethods id (ms ++ [m])) (fun _ _ => True) (loadMethod id m w) := by
  refine (loadMethod_writes sound id valid).mono ?_ fun _ _ _ => trivial
  rintro _ _ ⟨w₁, l, fills, records, rfl⟩ n hn
  have pushed {k : LoadedMethod} (known : k ∈ w₁.classes.methods) :
      k ∈ w₁.classes.methods.push l := Array.mem_push_of_mem l known
  rcases List.mem_append.mp hn with hn | hn
  · have kept : w₁.HasMethods id ms := h.mono sound (fun l known => by rw [fills.table]; exact known)
      fills.start fills.top_le fills.mem.size (fills.mem.agrees (.inl (Nat.le_refl _)))
    obtain ⟨l', known, records'⟩ := kept n hn
    exact ⟨l', pushed known, { records' with }⟩
  · rw [List.mem_singleton.mp hn]
    exact ⟨l, Array.mem_push_self, { records with }⟩

theorem Underway.loadMethods_has {done : List MethodDefinition} (h : Underway w₀ c k w)
    (has : w.HasMethods w₀.classes.size done) (declared : ∀ m ∈ ms, m ∈ c.methods)
    (valid : ∀ m ∈ ms, m.validate c.name = .ok ()) :
    Ends (fun _ w' => w'.HasMethods w₀.classes.size (done ++ ms)) (fun _ _ => True)
      ((ms.forM fun m => do let _ ← loadMethod w₀.classes.size m : Action PUnit) w) := by
  induction ms generalizing k w done with
  | nil =>
    rw [List.append_nil]
    exact has
  | cons m ms ih =>
    have ends := (h.loadMethod_ends (declared m List.mem_cons_self)
      (valid m List.mem_cons_self)).and
      (has.loadMethod_ends h.sound (valid m List.mem_cons_self))
    have first : Ends (fun _ w' => Underway w₀ c (k + methodCost m) w' ∧
        w'.HasMethods w₀.classes.size (done ++ [m])) (fun _ _ => True)
        ((do let _ ← loadMethod w₀.classes.size m : Action PUnit) w) :=
      ends.bind (fun _ _ _ => trivial) fun _ _ h => .pure h
    refine first.bind (fun _ _ h => h) fun _ w' ⟨h', has'⟩ => ?_
    have rest := ih h' has' (fun n hn => declared n (List.mem_cons_of_mem m hn))
      fun n hn => valid n (List.mem_cons_of_mem m hn)
    rw [List.append_assoc, List.singleton_append] at rest
    exact rest

/-- What is left to be done once a class is known leads to all of its methods. -/
theorem Underway.complete_has (h : Underway w₀ c k w) (valid : c.validate = .ok ()) :
    Ends (fun id w' => w'.HasMethods id c.methods) (fun _ _ => True)
      ((do
        makeClassObject w₀.classes.size
        c.methods.forM fun m => do let _ ← loadMethod w₀.classes.size m
        pure w₀.classes.size : Action ClassId) w) := by
  obtain ⟨-, -, known, -, -⟩ := h.entry
  refine (makeClassObject_ends h.sound known).bind (fun _ _ _ => trivial) fun _ w' done => ?_
  have h' : Underway w₀ c k w' := by
    rcases done with rfl | gives
    · exact h
    · exact h.givesObject gives
  have none : w'.HasMethods w₀.classes.size [] := fun m hm => by cases hm
  exact (h'.loadMethods_has none (fun m hm => hm) fun m hm =>
    ClassDefinition.of_validate valid hm).bind (fun _ _ _ => trivial) fun _ _ h => .pure h

/-! ## The whole class -/

/-- There is room for a class: its records fit into the metaspace, with what aligns them, and the
    object that stands for it into the heap. A pool that does not fit into half of all addresses is
    ruled out beforehand. -/
structure Room (w : World) (c : ClassDefinition) : Prop where
  pool : c.pool.length < 2 ^ 58
  metaspace : w.classes.metaspace.top.toNat + classCost c ≤ w.classes.metaspace.stop.toNat
  heap : ∀ metaclass, w.classes.find? KnownClass.classOfClasses = some metaclass →
    w.store.heap.region.top.toNat + (16 + 8 * (w.classes.get metaclass).fields.length + 7) ≤
      w.store.heap.region.stop.toNat

/-- What loading leaves when it succeeds, for any class. -/
theorem load_has (sound : w.Sound) (small : c.pool.length < 2 ^ 58) (few : FewNewFields w c) :
    Ends (fun id w' => w'.HasMethods id c.methods) (fun _ _ => True) (load c w) :=
  load_begins sound small few (fun _ _ => trivial) (fun _ _ _ _ => trivial)
    fun _ valid _ known _ => known.complete_has valid

theorem superOf_ok (super : (w.classes.find? (c.superName.getD KnownClass.object)).isSome) :
    ∃ superId, superOf c w = .ok superId w := by
  have require {name : String} (known : (w.classes.find? name).isSome) :
      ∃ id, (some <$> require name : Action (Option ClassId)) w = .ok (some id) w := by
    obtain ⟨id, found⟩ := Option.isSome_iff_exists.mp known
    have ends : Ends (fun x w' => x = some id ∧ w' = w) (fun (_ : Failure) _ => False)
        ((some <$> require name : Action (Option ClassId)) w) := by
      refine Ends.map (g := some) ?_
      unfold World.require
      refine Ends.get_bind ?_
      rw [found]
      exact ⟨rfl, rfl⟩
    obtain ⟨_, _, ran, rfl, rfl⟩ := ends.exists_ok
    exact ⟨id, ran⟩
  unfold superOf
  cases superName : c.superName with
  | some name =>
    rw [superName] at super
    obtain ⟨id, ran⟩ := require super
    exact ⟨some id, ran⟩
  | none =>
    rw [superName] at super
    by_cases root : c.name = KnownClass.object
    · exact ⟨none, by simp only [root, ↓reduceIte]; rfl⟩
    · obtain ⟨id, ran⟩ := require super
      exact ⟨some id, by simp only [root, ↓reduceIte]; exact ran⟩

/-- A class that is admitted, with whole bodies, is loaded where there is room for it. -/
theorem load_ok (booted : w.Booted) (admits : w.Admits c) (room : w.Room c)
    (whole : ∀ m ∈ c.methods, ¬ Bytecode.CutOff m.code) :
    ∃ id w', load c w = .ok id w' ∧ w.Extends w' ∧ w'.Booted ∧ w'.HasMethods id c.methods := by
  obtain ⟨metaclass, found⟩ := booted.metaclass
  have heap := room.heap metaclass found
  have ends : Ends (fun id w' => w.Extends w' ∧ w'.Booted ∧ w'.HasMethods id c.methods)
      (fun (_ : Failure) _ => False) (load c w) := by
    have cost : 31 + poolCost c.pool.length ≤ classCost c := Nat.le_add_right _ _
    have metaspace := room.metaspace
    refine load_begins booted.sound room.pool booted.few (fun _ rejected => rejected admits)
      (fun _ _ _ short => ?_) fun w' valid _ known same => ?_
    · unfold Short at short
      omega
    · refine ((known.complete same valid).and (known.complete_has valid)).mono ?_ ?_
      · rintro _ w'' ⟨⟨rfl, known⟩, has⟩
        exact ⟨known.grown, ⟨known.sound, _, known.grown.table.find?_of_some found⟩, has⟩
      · rintro e w'' ⟨⟨known, obstacle⟩, -⟩
        refine known.no_obstacle found (fun m hm => ?_) metaspace heap obstacle
        exact Bytecode.toNativeOrder_ok (whole m hm)
  exact ends.exists_ok

end TemplateVm.World
