import TemplateVm.Proofs.Loading.Bootstrap
import TemplateVm.Proofs.Loading.Hierarchy

set_option autoImplicit false

/-!
# Histories of worlds

A world comes about by loading class after class, the classes of every program first. Whatever fails
on the way, what is known in the end is a hierarchy of classes that are as they were defined.
-/
namespace TemplateVm

namespace World

variable {w₀ w w' : World} {c : ClassDefinition} {cs : List ClassDefinition} {n : Nat}

/-- How a world comes about from another: classes are loaded, some of them in vain, and in between
    anything may happen that leaves classes alone. The definitions are those of the classes that
    became known, in their order. -/
inductive Builds (w₀ : World) : List ClassDefinition → World → Prop
  | start : Builds w₀ [] w₀
  | loaded {cs : List ClassDefinition} {w w' : World} {id : ClassId} (before : Builds w₀ cs w)
    (c : ClassDefinition) (fits : w.Fits c) (ran : load c w = .ok id w') : Builds w₀ (cs ++ [c]) w'
  | failed {cs : List ClassDefinition} {w w' : World} {e : Failure} (before : Builds w₀ cs w)
    (c : ClassDefinition) (fits : w.Fits c) (ran : load c w = .error e w') :
    Builds w₀ (if w.classes.size < w'.classes.size then cs ++ [c] else cs) w'
  | spared {cs : List ClassDefinition} {w w' : World} (before : Builds w₀ cs w)
    (spares : w.SparesClasses w')
    (sound : w'.Sound) : Builds w₀ cs w'

/-- What the classes of a world are: a hierarchy, in which those behind the first ones are as they
    were defined. -/
structure Built (w₀ : World) (cs : List ClassDefinition) (w : World) : Prop where
  sound : w.Sound
  hierarchy : w.Hierarchy
  carries : w₀.classes.Carries w.classes
  size : w.classes.size = w₀.classes.size + cs.length
  defines : ∀ i c, cs[i]? = some c → w.Defines (w₀.classes.size + i) c

theorem Built.enlists {cs : List ClassDefinition} (h : Built w₀ cs w) (adds : w.Enlists c w')
    (sound : w'.Sound) (hierarchy : w'.Hierarchy) : Built w₀ (cs ++ [c]) w' where
  sound := sound
  hierarchy := hierarchy
  carries := h.carries.trans adds.carries
  size := by
    rw [adds.size, h.size, List.length_append]
    rfl
  defines i d found := by
    by_cases old : i < cs.length
    · rw [List.getElem?_append_left old] at found
      exact (h.defines i d found).carried h.hierarchy.ranked adds.carries
    · rw [List.getElem?_append_right (Nat.le_of_not_lt old)] at found
      obtain ⟨last, rfl⟩ : i - cs.length = 0 ∧ c = d := by
        cases k : i - cs.length with
        | zero =>
          rw [k] at found
          exact ⟨rfl, Option.some.inj found⟩
        | succ k =>
          rw [k] at found
          cases found
      have place : w₀.classes.size + i = w.classes.size := by
        rw [h.size, Nat.le_antisymm (Nat.sub_eq_zero_iff_le.mp last) (Nat.le_of_not_lt old)]
      exact place ▸ adds.defines

theorem Built.spared {cs : List ClassDefinition} (h : Built w₀ cs w) (spares : w.SparesClasses w')
    (sound : w'.Sound) : Built w₀ cs w' where
  sound := sound
  hierarchy := h.hierarchy.spared spares
  carries := h.carries.trans spares.carries
  size := spares.size.trans h.size
  defines i d found := (h.defines i d found).carried h.hierarchy.ranked spares.carries

/-- However classes are loaded, they form a hierarchy and are as they were defined. -/
theorem Builds.built {cs : List ClassDefinition} (h : Builds w₀ cs w) (sound : w₀.Sound)
    (hierarchy : w₀.Hierarchy) : Built w₀ cs w := by
  induction h with
  | start =>
    exact ⟨sound, hierarchy, .refl _, rfl, fun i c found => by cases found⟩
  | loaded before c fits ran ih =>
    have after := (load_hierarchy ih.sound ih.hierarchy fits).of_ok ran
    have grown := (load_extends ih.sound fits.pool fits.few).of_ok ran
    exact ih.enlists after.2 grown.2 after.1
  | @failed cs w w' e before c fits ran ih =>
    have after := (load_hierarchy ih.sound ih.hierarchy fits).of_error ran
    have grown := (load_extends ih.sound fits.pool fits.few).of_error ran
    rcases after.2 with adds | spares
    · rw [if_pos (adds.size ▸ Nat.lt_succ_self _)]
      exact ih.enlists adds grown.2 after.1
    · rw [if_neg (spares.size ▸ Nat.lt_irrefl _)]
      exact ih.spared spares grown.2
  | spared before spares sound ih => exact ih.spared spares sound

/-- One history goes on with another. -/
theorem Builds.trans {cs cs' : List ClassDefinition} (h : Builds w₀ cs w) (h' : Builds w cs' w') :
    Builds w₀ (cs ++ cs') w' := by
  induction h' with
  | start =>
    rw [List.append_nil]
    exact h
  | loaded _ c fits ran ih =>
    rw [← List.append_assoc]
    exact ih.loaded c fits ran
  | failed _ c fits ran ih =>
    have next := ih.failed c fits ran
    split at next
    · rwa [if_pos ‹_›, ← List.append_assoc]
    · rwa [if_neg ‹_›]
  | spared _ spares sound ih => exact ih.spared spares sound

/-- In the beginning there are no classes. -/
theorem Hierarchy.of_empty (empty : w.classes.classes = #[]) : w.Hierarchy := by
  have nothing {id : ClassId} {P : Prop} (known : id < w.classes.size) : P := by
    rw [ClassTable.size, empty] at known
    exact absurd known (Nat.not_lt_zero _)
  exact ⟨.of_empty empty, fun _ => nothing, fun _ => nothing⟩

/-! ## The classes of every program -/

/-- A world with a history, in which no class has more than `n` fields. -/
structure Grown (w₀ : World) (n : Nat) (w : World) : Prop where
  sound : w.Sound
  history : ∃ cs, Builds w₀ cs w
  fields : ∀ id, (w.classes.get id).fields.length ≤ n

theorem get_default {t : ClassTable} {id : ClassId} (unknown : t.size ≤ id) :
    t.get id = default := by
  rw [ClassTable.get, Array.getD_eq_getD_getElem?, Array.getElem?_eq_none unknown]
  rfl

theorem Grown.spared (h : Grown w₀ n w) (spares : w.SparesClasses w') (sound : w'.Sound) :
    Grown w₀ n w' := by
  obtain ⟨cs, history⟩ := h.history
  refine ⟨sound, ⟨cs, history.spared spares sound⟩, fun id => ?_⟩
  by_cases known : id < w.classes.size
  · rw [(spares.carries.get known).fields]
    exact h.fields id
  · rw [get_default (spares.size ▸ Nat.le_of_not_lt known)]
    exact Nat.zero_le n

variable (sound₀ : w₀.Sound) (empty : w₀.classes.classes = #[])
include sound₀ empty

theorem Grown.hierarchy (h : Grown w₀ n w) : w.Hierarchy := by
  obtain ⟨cs, history⟩ := h.history
  exact (history.built sound₀ (.of_empty empty)).hierarchy

theorem Grown.load_ends (h : Grown w₀ n w) (pool : c.pool.length < 2 ^ 58)
    (few : n + c.fields.length < 2 ^ 58) :
    Ends (fun id w' => Grown w₀ (n + c.fields.length) w' ∧ id < w'.classes.size ∧
        w.classes.size ≤ w'.classes.size)
      (fun _ _ => True) (load c w) := by
  have hierarchy := h.hierarchy sound₀ empty
  have fits : w.Fits c :=
    ⟨pool, fun id => Nat.lt_of_le_of_lt (Nat.add_le_add_right (h.fields id) _) few⟩
  refine (((load_hierarchy h.sound hierarchy fits).and
    (World.load_ends h.sound pool fits.few)).ran).mono ?_ fun _ _ _ => trivial
  rintro id w' ⟨ran, ⟨hierarchy', adds⟩, rfl, known⟩
  obtain ⟨cs, history⟩ := h.history
  refine ⟨⟨known.sound, ⟨_, history.loaded c fits ran⟩, fun id => ?_⟩, known.listed_lt,
    adds.carries.size_le⟩
  by_cases old : id < w.classes.size
  · rw [(adds.carries.get old).fields]
    exact Nat.le_trans (h.fields id) (Nat.le_add_right _ _)
  by_cases last : id = w.classes.size
  · have inherited : (w'.classes.inherited id).length ≤ n := by
      unfold ClassTable.inherited
      cases found : (w'.classes.get id).superId with
      | none => exact Nat.zero_le n
      | some super =>
        have below := hierarchy'.ranked.below id (last ▸ known.listed_lt) super found
        change (w'.classes.get super).fields.length ≤ n
        rw [(adds.carries.get (last ▸ below)).fields]
        exact h.fields super
    have own := congrArg List.length adds.defines.fields
    rw [List.length_map, List.length_map, ← last] at own
    rw [hierarchy'.ranked.fields_eq (last ▸ known.listed_lt), List.length_append, own]
    exact Nat.add_le_add_right inherited _
  · have behind : w'.classes.size ≤ id := by
      rw [adds.size]
      exact Nat.lt_of_le_of_ne (Nat.le_of_not_lt old) (Ne.symm last)
    rw [get_default behind]
    exact Nat.zero_le _

theorem Grown.makeClassObject_ends (h : Grown w₀ n w) {id : ClassId} (known : id < w.classes.size) :
    Ends (fun _ w' => Grown w₀ n w' ∧ w'.classes.size = w.classes.size) (fun _ _ => True)
      (makeClassObject id w) :=
  (makeClassObject_sparesClasses h.sound (h.hierarchy sound₀ empty).ordered known).mono
    (fun _ _ ⟨spares, sound⟩ => ⟨h.spared spares sound, spares.size⟩) fun _ _ _ => trivial

/-- Classes without fields, one after the other. -/
theorem Grown.loads_ends {α : Type} {l : List α} {f : α → ClassDefinition}
    (pool : ∀ x, (f x).pool = []) (none : ∀ x, (f x).fields = []) (few : n < 2 ^ 58)
    (h : Grown w₀ n w) :
    Ends (fun _ w' => Grown w₀ n w') (fun _ _ => True)
      ((l.forM fun x => do let _ ← load (f x) : Action PUnit) w) :=
  Ends.forM (fun x _ w h => by
    have loaded := h.load_ends sound₀ empty (c := f x) (by rw [pool]; decide)
      (by rw [none]; exact few)
    rw [none] at loaded
    exact loaded.bind (fun _ _ h => h) fun _ _ h => h.1) h

/-- The classes of every program come about like all others. -/
theorem bootstrap_grown : Ends (fun _ w => Grown w₀ 2 w) (fun _ _ => True) (bootstrap w₀) := by
  have nothing (id : ClassId) : w₀.classes.get id = default :=
    get_default (by rw [ClassTable.size, empty]; exact Nat.zero_le id)
  have start : Grown w₀ 0 w₀ :=
    ⟨sound₀, ⟨[], .start⟩, fun id => by rw [nothing]; exact Nat.le_refl 0⟩
  unfold bootstrap
  refine (start.load_ends sound₀ empty (by decide) (by decide)).bind (fun _ _ _ => trivial) ?_
  rintro root w₁ ⟨h₁, rootKnown, -⟩
  refine (h₁.load_ends sound₀ empty (by decide) (by decide)).bind (fun _ _ _ => trivial) ?_
  rintro classId w₂ ⟨h₂, classKnown, more⟩
  refine (h₂.makeClassObject_ends sound₀ empty (Nat.lt_of_lt_of_le rootKnown more)).bind
    (fun _ _ _ => trivial) ?_
  rintro _ w₃ ⟨h₃, size⟩
  refine (h₃.makeClassObject_ends sound₀ empty (size ▸ classKnown)).bind (fun _ _ _ => trivial) ?_
  rintro _ w₄ ⟨h₄, -⟩
  refine (h₄.loads_ends sound₀ empty (fun _ => rfl) (fun _ => rfl) (by decide)).bind
    (fun _ _ _ => trivial) fun _ w₅ h₅ => ?_
  refine (h₅.loads_ends sound₀ empty (fun _ => rfl) (fun _ => rfl) (by decide)).bind
    (fun _ _ _ => trivial) fun _ w₆ h₆ => ?_
  refine (h₆.load_ends sound₀ empty (by decide) (by decide)).bind (fun _ _ _ => trivial) ?_
  rintro _ w₇ ⟨h₇, -⟩
  refine (h₇.load_ends sound₀ empty (by decide) (by decide)).bind (fun _ _ _ => trivial) ?_
  rintro _ w₈ ⟨h₈, -⟩
  refine Ends.forM (J := Grown w₀ 2) (fun element _ w h => ?_) h₈
  refine (h.load_ends sound₀ empty (c := { name := element.arrayClassName })
    (by change 0 < 2 ^ 58; decide) (by change 2 + 0 < 2 ^ 58; decide)).bind
    (fun _ _ _ => trivial) ?_
  rintro id w' ⟨h', -⟩
  exact h'.spared
    (.withTable (f := fun c => { c with element := some element }) (fun _ => rfl) _)
    (h'.sound.modifyClass (f := fun c => { c with element := some element }) (fun _ => rfl)
      (fun _ => rfl) (fun _ _ _ within => ⟨within.first, within.record, within.pool, within.cache⟩)
      fun _ _ listed => .inl listed)

end World

namespace Vm

/-- The tables and the block of the thread are not in the way of classes. -/
theorem prepare_grown {vm : Vm} (fresh : vm.Fresh) (image : Image) (base size : UInt64) :
    Ends (fun _ vm' => ∃ w₀ : World, w₀.Sound ∧ w₀.classes.classes = #[] ∧ w₀.Grown 2 vm'.world)
      (fun (_ : Failure) _ => True) (prepare image base size vm) := by
  obtain ⟨sound, empty, clear, apart, limit⟩ := fresh
  refine (onMemory_ends (install_keepsShape image _ _ (.refl _))).bind (fun _ _ _ => trivial) ?_
  rintro _ _ ⟨m, alike, rfl⟩
  have sound := sound.alike alike
  refine Ends.bind (onWorld_ends ((World.bootstrap_ends sound (by exact empty)).and
    (World.bootstrap_grown sound (by exact empty)))) (fun _ _ _ => trivial) ?_
  rintro _ _ ⟨world, ⟨⟨-, spares, -⟩, grown⟩, rfl⟩
  have block := (clear.congr alike.size alike.guards).congr spares.size spares.guards
  refine Ends.get_bind ((onMemory_ends (setUp_within limit base size _ block)).mono ?_
    fun _ _ _ => trivial)
  rintro _ _ ⟨m', changed, rfl⟩
  have stop : world.classes.metaspace.stop = vm.world.classes.metaspace.stop := spares.stop
  have below : world.classes.metaspace.top.toNat ≤ vm.map.thread.toNat := by
    rw [← stop] at apart
    exact Nat.le_trans grown.sound.writable.region.top_le apart
  have record {id : ClassId} (known : id < world.classes.size) :
      (world.classes.get id).address.toNat + 24 ≤ vm.map.thread.toNat :=
    Nat.le_trans (grown.sound.within.classes _ (ClassTable.get_mem known)).record below
  refine ⟨_, sound, empty, grown.spared ⟨.refl _, rfl, fun id known => ?_, fun id known => ?_⟩
    (grown.sound.changed changed)⟩
  · exact changed.agrees (.inl (Nat.le_trans (by omega) (record known)))
  · exact changed.agrees (.inl (record known))

/-- A machine that could be built has classes with a history that begins with none. -/
theorem create_built {settings : Settings} {vm : Vm}
    (ordered : (MemoryMap.ofSettings settings).Ordered) (created : create settings = .ok vm) :
    ∃ (w₀ : World) (cs : List ClassDefinition), w₀.Sound ∧ w₀.classes.classes = #[] ∧
      w₀.Builds cs vm.world := by
  obtain ⟨image, -, ran⟩ := create_ran created
  obtain ⟨w₀, sound, empty, grown⟩ := (prepare_grown (fresh_bare ordered image) image _ _).of_ok ran
  obtain ⟨cs, history⟩ := grown.history
  exact ⟨w₀, cs, sound, empty, history⟩

end Vm
end TemplateVm
