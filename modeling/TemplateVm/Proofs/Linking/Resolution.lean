import TemplateVm.Proofs.Loading.Bootstrap
import TemplateVm.Vm.Linking

set_option autoImplicit false

/-!
# Resolving constants

A bytecode that finds its entry unresolved calls the resolver. What the constant stands for goes into
its entry and nowhere else; where it stands for nothing, an exception is posted and no entry is
touched. So however loads and resolutions follow each other, caches stay coherent, and an entry that
names a bytecode keeps its words.
-/
namespace TemplateVm

open Memory (Guarded)

/-- What was written is where it was written. -/
theorem Memory.Guarded.write_ends (a w n : UInt64) (m : Guarded) :
    Ends (fun _ m' => m.Changed m' a.toNat (a.toNat + w.toNat)) (fun (_ : Failure) m' => m' = m)
      (Guarded.write a w n m) := by
  unfold Guarded.write
  cases m.fault? a w .write with
  | none => exact m.changed_put a w n
  | some fault => exact rfl

/-! ## Actions that only read -/

/-- The action leaves the state as it is, whether it is done or fails. -/
def Reads {σ α : Type} (action : EStateM Failure σ α) : Prop :=
  ∀ s, Ends (fun _ s' => s' = s) (fun (_ : Failure) s' => s' = s) (action s)

namespace Reads

variable {σ α β : Type}

theorem pure (a : α) : Reads (Pure.pure a : EStateM Failure σ α) := fun _ => rfl

theorem throw (e : Failure) : Reads (MonadExcept.throw e : EStateM Failure σ α) := fun _ => rfl

theorem bind {action : EStateM Failure σ α} {f : α → EStateM Failure σ β} (h : Reads action)
    (next : ∀ a, Reads (f a)) : Reads (action >>= f) := fun s =>
  (h s).bind (fun _ _ h => h) fun a _ same => by rw [same]; exact next a s

/-- What follows starts from the same state. -/
theorem next {action : EStateM Failure σ α} {f : α → EStateM Failure σ β} (h : Reads action) {s : σ}
    {Q : β → σ → Prop} {F : Failure → σ → Prop} (failed : ∀ e, F e s)
    (go : ∀ a, Ends Q F (f a s)) : Ends Q F ((action >>= f) s) :=
  (h s).bind (fun e _ same => by rw [same]; exact failed e) fun a _ same => by rw [same]; exact go a

theorem readA (a w : UInt64) : Reads (Guarded.readA a w) := fun m => by
  unfold Guarded.readA
  cases m.read a w <;> rfl

theorem onWorld {action : World.Action α} (h : Reads action) : Reads (Vm.onWorld action) :=
  fun v => (Vm.onWorld_ends (h v.world)).mono (fun _ _ ⟨_, same, eq⟩ => by rw [eq, same])
    fun _ _ ⟨_, same, eq⟩ => by rw [eq, same]

theorem ofWorld {action : Guarded.Action α} (h : Reads action) : Reads (World.onMemory action) :=
  fun w => (World.onMemory_ends (h w.store.mem)).mono (fun _ _ ⟨_, same, eq⟩ => by rw [eq, same])
    fun _ _ ⟨_, same, eq⟩ => by rw [eq, same]

theorem onMemory {action : Guarded.Action α} (h : Reads action) : Reads (Vm.onMemory action) :=
  onWorld (ofWorld h)

theorem onThread {action : ThreadBlock → Guarded.Action α} (h : ∀ t, Reads (action t)) :
    Reads (Vm.onThread action) := fun v => Ends.get_bind (onMemory (h _) v)

theorem classes : Reads Vm.classes := fun _ => rfl

end Reads

/-- What leaves the state as it is preserves everything. -/
theorem Preserves.of_reads {σ α : Type} {I : σ → Prop} {action : EStateM Failure σ α}
    (h : Reads action) : Preserves I action := fun s before =>
  (h s).mono (fun _ _ same => same ▸ before) fun _ _ same => same ▸ before

theorem World.classOf_reads (object : UInt64) : Reads (World.classOf object) :=
  (Reads.ofWorld (.readA _ _)).bind fun a => Reads.bind (fun _ => rfl) fun w => by
    cases w.classes.classAt? a with
    | some id => exact .pure id
    | none => exact .throw _

/-- The heap has a block for another object of the class. -/
def World.HasRoom (w : World) (id : ClassId) : Prop :=
  (w.store.heap.region.allocate? (Memory.ObjectShape.fields +
    (w.classes.get id).fields.length.toUInt64 * Memory.ObjectShape.slot) 8).isSome

namespace Vm

theorem lastFrame_reads : Reads lastFrame :=
  (Reads.onThread fun t => (Reads.readA _ _).bind fun _ => (Reads.readA _ _).bind fun _ =>
    (Reads.readA _ _).bind fun _ => .pure _).bind fun f => by
      dsimp only
      split
      · exact .throw _
      · exact .pure _

theorem methodOf_reads (f : Frame) : Reads (methodOf f) :=
  (Reads.onMemory (.readA _ _)).bind fun a => Reads.classes.bind fun t => by
    cases t.methodAt? a with
    | some id => exact .pure _
    | none => exact .throw _

theorem guard_reads : Reads (onThread (·.guard)) :=
  Reads.onThread fun t => (Reads.readA _ _).bind fun raw => by
    dsimp only
    cases GuardState.ofCode? raw.toUInt32 with
    | some s => exact .pure s
    | none => exact .throw _

theorem poolIndex_reads (o : Opcode) (bcp : UInt64) : Reads (poolIndex o bcp) :=
  (Reads.onMemory (.readA _ _)).bind fun _ => .pure _

/-! ## What resolution relies on -/

/-- A machine whose caches are coherent, and in which there is room for the fields of every class
    in an object. -/
structure Linkable (v : Vm) : Prop where
  booted : v.world.Booted
  cached : v.world.Cached
  thread : v.world.classes.metaspace.stop.toNat ≤ v.map.thread.toNat
  few : ∀ c ∈ v.world.classes.classes, c.fields.length < 2 ^ 60

/-- The classes and their caches are as they were. -/
structure Beside (v v' : Vm) : Prop where
  classes : v'.world.classes = v.world.classes
  map : v'.map = v.map
  sound : v'.world.Sound
  caches : ∀ c ∈ v.world.classes.classes,
    v.world.store.mem.Agrees v'.world.store.mem c.cacheAddress.toNat (c.entryAt c.pool.size)

variable {v v' v'' : Vm} {e : BuiltinException} {message : Option String}

theorem Linkable.sound (h : v.Linkable) : v.world.Sound := h.booted.sound

theorem Beside.refl (sound : v.world.Sound) : v.Beside v := ⟨rfl, rfl, sound, fun _ _ _ _ _ => rfl⟩

theorem Beside.trans (h : v.Beside v') (h' : v'.Beside v'') : v.Beside v'' where
  classes := h'.classes.trans h.classes
  map := h'.map.trans h.map
  sound := h'.sound
  caches c hc := (h.caches c hc).trans (h'.caches c (h.classes ▸ hc))

theorem classes_bind {α : Type} {Q : α → Vm → Prop} {F : Failure → Vm → Prop}
    {f : ClassTable → Action α} (h : Ends Q F (f v.world.classes v)) :
    Ends Q F ((classes >>= f) v) := h

/-! ## Posting an exception -/

theorem newInstance_ends {w : World} (sound : w.Sound) {id : ClassId}
    (few : (w.classes.get id).fields.length < 2 ^ 60) :
    Ends (fun a w' => ∃ store, w.store.Creates (w.classes.get id).address a store ∧
        w' = { w with store })
      (fun e w' => w' = w ∧ w.store.heap.region.stop.toNat <
          w.store.heap.region.top.toNat + (16 + 8 * (w.classes.get id).fields.length + 7) ∧
        e = w.store.heap.exhausted ∧ ¬ w.HasRoom id)
      (World.newInstance id w) := by
  have slots : (w.classes.get id).fields.length.toUInt64.toNat =
      (w.classes.get id).fields.length :=
    UInt64.toNat_ofNat_of_lt' (Nat.lt_trans few (by decide))
  refine Ends.get_bind ((Ends.zoom (Memory.Store.allocateInstance_ends sound.store _
    (by rw [slots]; exact few))).mono ?_ ?_)
  · rintro _ _ ⟨store, creates, rfl⟩
    exact ⟨store, creates, rfl⟩
  · rintro _ _ ⟨_, ⟨rfl, full, short, refused⟩, rfl⟩
    exact ⟨rfl, slots ▸ short, full, by rw [World.HasRoom, refused]; exact Bool.false_ne_true⟩

/-- New objects are not in the way of the metaspace. -/
theorem Beside.grows {store : Memory.Store} (sound : v.world.Sound)
    (h : v.world.store.Grows store) : v.Beside { v with world := { v.world with store } } where
  classes := rfl
  map := rfl
  sound := sound.grows h
  caches c hc := (World.Extends.grows h).agrees sound (sound.within.classes c hc).cache

/-- What is written from the block of the thread on is not in the way of the metaspace. -/
theorem Beside.thread {m : Guarded} {lo hi : Nat} (h : v.Linkable)
    (above : v.map.thread.toNat ≤ lo) (changed : v.world.store.mem.Changed m lo hi) :
    v.Beside { v with world := v.world.withMemory m } where
  classes := rfl
  map := rfl
  sound := h.sound.changed changed
  caches c hc := changed.agrees (.inl (Nat.le_trans (h.sound.within.classes c hc).cache
    (Nat.le_trans h.sound.writable.region.top_le (Nat.le_trans h.thread above))))

/-- An entry lies in the metaspace. -/
theorem Linkable.entry_inside (h : v.Linkable) {c : LoadedClass} (hc : c ∈ v.world.classes.classes)
    {i : Nat} (hi : i < c.pool.size) :
    v.world.classes.metaspace.start.toNat ≤ c.entryAt i ∧
      c.entryAt i + 32 ≤ v.world.classes.metaspace.stop.toNat := by
  have first := (h.sound.within.classes c hc).first
  have behind := h.cached.spread.behind c hc
  have inside := c.entryAt_le hi
  have below := h.sound.entry_below hc hi
  have region := h.sound.writable.region.top_le
  omega

theorem Beside.entry (h : v.Beside v') {c : LoadedClass} (hc : c ∈ v.world.classes.classes)
    {i : Nat} (hi : i < c.pool.size) :
    v.world.store.mem.Agrees v'.world.store.mem (c.entryAt i) (c.entryAt i + 32) :=
  (h.caches c hc).mono (c.entryAt_le hi).1 (c.entryAt_le hi).2

theorem Beside.linkable (h : v.Beside v') (linkable : v.Linkable) : v'.Linkable where
  booted := by
    refine ⟨h.sound, ?_⟩
    rw [h.classes]
    exact linkable.booted.metaclass
  cached := by
    refine ⟨linkable.cached.spread.congr (by rw [h.classes]), fun c hc i entry there => ?_⟩
    rw [h.classes] at hc ⊢
    exact (linkable.cached.coherent c hc i entry there).agrees
      (h.entry hc (Array.getElem?_eq_some_iff.mp there).1) (.refl _)
      linkable.sound.coherent
  thread := by
    rw [h.classes, h.map]
    exact linkable.thread
  few := by
    rw [h.classes]
    exact linkable.few

theorem allocateException_ends (h : v.Linkable) :
    Ends (fun _ v' => v.Beside v') (fun _ v' => v.Beside v') (allocateException e message v) := by
  unfold allocateException
  refine classes_bind ?_
  cases known : v.world.classes.find? e.className with
  | none => exact .refl h.sound
  | some id =>
    have few := h.few _ (ClassTable.get_mem (ClassTable.lt_of_find? known))
    refine Ends.bind (onWorld_ends (newInstance_ends h.sound few)) ?_ ?_
    · rintro _ _ ⟨_, ⟨rfl, -⟩, rfl⟩
      exact .refl h.sound
    · rintro object _ ⟨_, ⟨store, creates, rfl⟩, rfl⟩
      have beside := Beside.grows h.sound creates.grows
      cases message with
      | none => exact beside
      | some text => exact Ends.modify_bind { beside with }

theorem post_ends (h : v.Linkable) :
    Ends (fun _ v' => v.Beside v') (fun _ v' => v.Beside v') (post e message v) := by
  unfold post
  refine (allocateException_ends h).bind (fun _ _ h => h) fun object v' beside => ?_
  have linkable := beside.linkable h
  refine Ends.get_bind ((onMemory_ends (Guarded.write_ends _ _ _ _)).mono ?_ ?_)
  · rintro _ _ ⟨m, changed, rfl⟩
    refine beside.trans (.thread linkable (Nat.le_of_eq ?_) changed)
    exact congrArg UInt64.toNat (UInt64.add_zero _).symm
  · rintro _ _ ⟨m, rfl, rfl⟩
    exact beside

/-! ## What a constant stands for -/

/-- The answer is what is there. If there is nothing, nothing but the thread and the heap knows of
    the question. -/
structure Finds {α : Type} (v : Vm) (there answer : Option α) (v' : Vm) : Prop where
  answer : answer = there
  beside : v.Beside v'
  same : there.isSome → v' = v

theorem Finds.some {α : Type} {a : α} (sound : v.world.Sound) : v.Finds (.some a) (.some a) v :=
  ⟨rfl, .refl sound, fun _ => rfl⟩

theorem Finds.none {α : Type} (beside : v.Beside v') : v.Finds (α := α) .none .none v' :=
  ⟨rfl, beside, fun h => by cases h⟩

theorem Finds.posted {α : Type} (h : v.Linkable) :
    Ends (fun answer v' => v.Finds (α := α) .none answer v') (fun _ v' => v.Beside v')
      ((do
        post e message
        pure .none : Action (Option α)) v) :=
  (post_ends h).bind (fun _ _ h => h) fun _ _ beside => .none beside

theorem classOrPost_ends (h : v.Linkable) (name : String) :
    Ends (fun answer v' => v.Finds (v.world.classes.find? name) answer v')
      (fun _ v' => v.Beside v') (classOrPost name v) := by
  unfold classOrPost
  refine classes_bind ?_
  cases v.world.classes.find? name with
  | some id => exact Finds.some h.sound
  | none => exact Finds.posted h

theorem resolveField_ends (h : v.Linkable) (m : MemberRef) :
    Ends (fun answer v' => v.Finds (v.world.classes.stands? (.fieldRef m)) answer v')
      (fun _ v' => v.Beside v') (resolveField m v) := by
  unfold resolveField
  refine (classOrPost_ends h m.holder).bind (fun _ _ h => h) ?_
  rintro _ v' ⟨rfl, beside, same⟩
  cases known : v.world.classes.find? m.holder with
  | none =>
    rw [show v.world.classes.stands? (.fieldRef m) = .none by simp [ClassTable.stands?, known]]
    exact Finds.none beside
  | some id =>
    obtain rfl := same (by rw [known]; rfl)
    rw [show v'.world.classes.stands? (.fieldRef m) =
      (v'.world.classes.findField? id m.name m.descriptor).map .field by
        simp [ClassTable.stands?, known]]
    refine classes_bind ?_
    cases v'.world.classes.findField? id m.name m.descriptor with
    | none => exact Finds.posted h
    | some slot => exact Finds.some h.sound

theorem resolveMethod_ends (h : v.Linkable) (m : MemberRef) :
    Ends (fun answer v' => v.Finds (v.world.classes.target? m) answer v')
      (fun _ v' => v.Beside v') (resolveMethod m v) := by
  unfold resolveMethod
  refine (classOrPost_ends h m.holder).bind (fun _ _ h => h) ?_
  rintro _ v' ⟨rfl, beside, same⟩
  cases known : v.world.classes.find? m.holder with
  | none =>
    rw [show v.world.classes.target? m = .none by simp [ClassTable.target?, known]]
    exact Finds.none beside
  | some id =>
    obtain rfl := same (by rw [known]; rfl)
    refine classes_bind ?_
    cases declared : v'.world.classes.findMethod? id m.name (.some m.descriptor) with
    | none =>
      rw [show v'.world.classes.target? m = .none by simp [ClassTable.target?, known, declared]]
      exact Finds.posted h
    | some target =>
      by_cases static : (v'.world.classes.method target).access.isStatic
      · rw [show v'.world.classes.target? m = .some (.method (v'.world.classes.method target)) by
          simp [ClassTable.target?, known, declared, static]]
        simp only [static, ↓reduceIte]
        exact Finds.some h.sound
      · rw [show v'.world.classes.target? m = .none by
          simp [ClassTable.target?, known, declared, static]]
        simp only [static]
        exact Finds.posted h

theorem resolveClass_ends (h : v.Linkable) (name : String) :
    Ends (fun answer v' => v.Finds (v.world.classes.stands? (.classRef name)) answer v')
      (fun _ v' => v.Beside v') (resolveClass name v) := by
  unfold resolveClass
  refine (classOrPost_ends h name).bind (fun _ _ h => h) ?_
  rintro _ v' ⟨rfl, beside, same⟩
  cases known : v.world.classes.find? name with
  | none =>
    rw [show v.world.classes.stands? (.classRef name) = .none by simp [ClassTable.stands?, known]]
    exact Finds.none beside
  | some id =>
    obtain rfl := same (by rw [known]; rfl)
    rw [show v'.world.classes.stands? (.classRef name) =
      .some (.classRecord (v'.world.classes.get id).address) by simp [ClassTable.stands?, known]]
    exact Finds.some h.sound

/-- A constant is resolved for a bytecode that uses it, or not at all. -/
theorem resolveEntry_ends (h : v.Linkable) (o : Opcode) (bcp : UInt64) (entry : PoolEntry) :
    Ends (fun answer v' => entry.UsedBy o ∧ v.Finds (v.world.classes.stands? entry) answer v')
      (fun _ v' => v.Beside v') (resolveEntry o bcp entry v) := by
  have taken {action : Action (Option Resolved)} (used : entry.UsedBy o)
      (h : Ends (fun answer v' => v.Finds (v.world.classes.stands? entry) answer v')
        (fun _ v' => v.Beside v') (action v)) :
      Ends (fun answer v' => entry.UsedBy o ∧ v.Finds (v.world.classes.stands? entry) answer v')
        (fun _ v' => v.Beside v') (action v) := h.mono (fun _ _ h => ⟨used, h⟩) fun _ _ h => h
  unfold resolveEntry
  split
  · exact taken (.inl rfl) (resolveField_ends h _)
  · exact taken (.inr rfl) (resolveField_ends h _)
  · exact taken rfl (resolveMethod_ends h _)
  · exact taken rfl (resolveMethod_ends h _)
  · exact taken (.inl rfl) (resolveClass_ends h _)
  · exact taken (.inr rfl) (resolveClass_ends h _)
  · exact Beside.refl h.sound

/-! ## The resolver -/

/-- A constant of a class has been resolved, and nothing else has happened. -/
def Links (v v' : Vm) : Prop :=
  ∃ c ∈ v.world.classes.classes, ∃ (i : Nat) (entry : PoolEntry) (r : Resolved) (m : Guarded),
    c.pool[i]? = some entry ∧ v.world.classes.stands? entry = some r ∧
      Filled entry r (c.entryAt i) v.world.store.mem m ∧
      v' = { v with world := v.world.withMemory m }

theorem mem_of_pool {t : ClassTable} {id : ClassId} {i : Nat} {entry : PoolEntry}
    (there : (t.get id).pool[i]? = some entry) : t.get id ∈ t.classes := by
  by_cases known : id < t.classes.size
  · exact ClassTable.get_mem known
  · have none : t.get id = default := by
      rw [ClassTable.get, Array.getD_eq_getD_getElem?, Array.getElem?_eq_none (Nat.le_of_not_lt known)]
      rfl
    rw [none] at there
    cases there

/-- The place of an entry, as the resolver computes it. -/
theorem Linkable.place (h : v.Linkable) {c : LoadedClass} (hc : c ∈ v.world.classes.classes) {i : Nat}
    (hi : i < c.pool.size) :
    (c.cacheAddress + CacheRecord.entryField i.toUInt64 0).toNat = c.entryAt i ∧
      c.entryAt i + 32 < 2 ^ 64 := by
  have inside := h.entry_inside hc hi
  have below := h.sound.writable.region.below
  unfold LoadedClass.entryAt at *
  have offset := World.entryField_toNat (i := i) (by omega) (k := 0) (by decide)
  have zero : (0 : UInt64).toNat = 0 := rfl
  rw [toNat_add_of_lt (by omega), offset]
  omega

/-- What a constant stands for can always be filled in. -/
theorem Linkable.fill (h : v.Linkable) {c : LoadedClass} (hc : c ∈ v.world.classes.classes) {i : Nat}
    {entry : PoolEntry} (there : c.pool[i]? = some entry) {o : Opcode} (used : entry.UsedBy o)
    {r : Resolved} (found : v.world.classes.stands? entry = some r) :
    Ends (fun _ v' => v.Links v') (fun (_ : Failure) _ => False)
      (onMemory (fillEntry (c.cacheAddress + CacheRecord.entryField i.toUInt64 0) o r) v) := by
  have hi := (Array.getElem?_eq_some_iff.mp there).1
  obtain ⟨place, limit⟩ := h.place hc hi
  have inside := h.entry_inside hc hi
  rw [← place] at limit inside
  obtain ⟨m, ran, filled⟩ := fillEntry_ok used found limit
    (h.sound.writable.clear.mono inside.1 inside.2)
  have filling : Ends (fun _ m => Filled entry r (c.entryAt i) v.world.store.mem m)
      (fun (_ : Failure) _ => False)
      (fillEntry (c.cacheAddress + CacheRecord.entryField i.toUInt64 0) o r v.world.store.mem) := by
    rw [ran, ← place]
    exact filled
  refine (onMemory_ends filling).mono ?_ fun _ _ ⟨_, nothing, _⟩ => nothing.elim
  rintro _ _ ⟨m, filled, rfl⟩
  exact ⟨c, hc, i, entry, r, m, there, found, filled, rfl⟩

/-- The resolver fills in the entry of a constant that stands for something. In all other cases it
    leaves the metaspace as it is, with an exception posted or a failure. -/
theorem resolve_ends (h : v.Linkable) (raw : UInt64) :
    Ends (fun _ v' => v.Links v' ∨ v.Beside v') (fun _ v' => v.Beside v') (resolve raw v) := by
  have unchanged (_ : Failure) : v.Beside v := .refl h.sound
  unfold resolve
  cases Opcode.ofByte? raw.toUInt8 with
  | none => exact Beside.refl h.sound
  | some o =>
    refine lastFrame_reads.next unchanged fun frame => ?_
    refine (methodOf_reads frame).next unchanged fun id => ?_
    refine (Reads.onMemory (.readA _ _)).next unchanged fun bcp => ?_
    refine (poolIndex_reads o bcp).next unchanged fun index => classes_bind ?_
    cases there : (v.world.classes.get (v.world.classes.method id).holder).pool[index]? with
    | none => exact Beside.refl h.sound
    | some entry =>
      refine (resolveEntry_ends h o bcp entry).bind (fun _ _ h => h) ?_
      rintro _ v' ⟨used, rfl, beside, same⟩
      cases found : v.world.classes.stands? entry with
      | none => exact .inr beside
      | some r =>
        obtain rfl := same (by rw [found]; rfl)
        exact (h.fill (mem_of_pool there) there used found).mono (fun _ _ links => .inl links)
          fun _ _ nothing => nothing.elim

/-! ## From one machine to the next -/

theorem Beside.keeps (h : v.Beside v') : v.world.Keeps v'.world where
  table := by
    rw [h.classes]
    exact .refl _
  entries _ hc _ hi set :=
    have same := h.entry hc hi
    ⟨World.SetAt.agrees set same,
      payloadAt_agrees (same.mono (Nat.le_add_right _ 8) (Nat.le_refl _))⟩

/-- Two entries are one, or have no byte in common. -/
theorem Linkable.entries_apart (h : v.Linkable) {c d : LoadedClass}
    (hc : c ∈ v.world.classes.classes) (hd : d ∈ v.world.classes.classes) {i j : Nat}
    (hi : i < c.pool.size) (hj : j < d.pool.size) :
    c = d ∧ i = j ∨ c.entryAt i + 32 ≤ d.entryAt j ∨ d.entryAt j + 32 ≤ c.entryAt i := by
  have first := c.entryAt_le hi
  have second := d.entryAt_le hj
  rcases h.cached.spread.caches_apart hc hd with rfl | apart
  · unfold LoadedClass.entryAt
    by_cases same : i = j
    · exact .inl ⟨rfl, same⟩
    · exact .inr (by omega)
  · exact .inr (by omega)

theorem Links.linkable (h : v.Links v') (linkable : v.Linkable) :
    v'.Linkable ∧ v.world.Keeps v'.world := by
  obtain ⟨c, hc, i, entry, r, m, there, found, filled, rfl⟩ := h
  have hi := (Array.getElem?_eq_some_iff.mp there).1
  have old := linkable.cached.coherent c hc i entry there
  have other {d : LoadedClass} (hd : d ∈ v.world.classes.classes) {j : Nat}
      (hj : j < d.pool.size) : c = d ∧ i = j ∨
        v.world.store.mem.Agrees m (d.entryAt j) (d.entryAt j + 32) :=
    (linkable.entries_apart hc hd hi hj).imp_right fun apart =>
      filled.changed.agrees (by omega)
  refine ⟨⟨⟨linkable.sound.changed filled.changed, linkable.booted.metaclass⟩,
    ⟨linkable.cached.spread, fun d hd j entry' there' => ?_⟩, linkable.thread, linkable.few⟩,
    .refl _, fun d hd j hj set => ?_⟩
  · rcases other hd (Array.getElem?_eq_some_iff.mp there').1 with ⟨rfl, rfl⟩ | same
    · obtain rfl := Option.some.inj (there.symm.trans there')
      exact filled.coherent old found
    · exact (linkable.cached.coherent d hd j entry' there').agrees same (.refl _)
        linkable.sound.coherent
  · rcases other hd hj with ⟨rfl, rfl⟩ | same
    · exact ⟨filled.setAt, filled.payloadAt_eq old found set⟩
    · exact ⟨World.SetAt.agrees set same,
        payloadAt_agrees (same.mono (Nat.le_add_right _ 8) (Nat.le_refl _))⟩

theorem load_linkable (h : v.Linkable) {c : ClassDefinition} (small : c.pool.length ≤ 0xb40000) :
    Ends (fun _ v' => ((∀ d ∈ v'.world.classes.classes, d.fields.length < 2 ^ 60) → v'.Linkable) ∧
        v.world.Keeps v'.world)
      (fun _ v' => ((∀ d ∈ v'.world.classes.classes, d.fields.length < 2 ^ 60) → v'.Linkable) ∧
        v.world.Keeps v'.world)
      (onWorld (World.load c) v) := by
  have pool : c.pool.length < 2 ^ 58 := Nat.lt_of_le_of_lt small (by decide)
  obtain ⟨id, metaclass⟩ := h.booted.metaclass
  have next {w : World} (grown : v.world.Extends w) (sound : w.Sound) (cached : w.Cached) :
      ((∀ d ∈ w.classes.classes, d.fields.length < 2 ^ 60) → Linkable { v with world := w }) ∧
        v.world.Keeps w := by
    refine ⟨fun few => ⟨⟨sound, id, grown.table.find?_of_some metaclass⟩, cached, ?_, few⟩,
      grown.keeps h.sound⟩
    change w.classes.metaspace.stop.toNat ≤ _
    rw [grown.stop]
    exact h.thread
  refine (onWorld_ends ((World.load_extends h.sound pool h.booted.few).and
    (World.load_cached h.sound h.booted.few small h.cached))).mono ?_ ?_
  · rintro _ _ ⟨w, ⟨⟨grown, sound⟩, cached⟩, rfl⟩
    exact next grown sound cached
  · rintro _ _ ⟨w, ⟨⟨grown, sound⟩, cached⟩, rfl⟩
    exact next grown sound cached

/-! ## Step after step -/

/-- Machines that come about when classes are loaded and constants resolved, some of them in vain,
    and whatever else happens touches neither classes nor caches. -/
inductive Goes (v : Vm) : Vm → Prop
  | none : Goes v v
  | loaded {v' v'' : Vm} {id : ClassId} (before : Goes v v') (c : ClassDefinition)
    (small : c.pool.length ≤ 0xb40000)
    (few : ∀ d ∈ v''.world.classes.classes, d.fields.length < 2 ^ 60)
    (ran : onWorld (World.load c) v' = .ok id v'') : Goes v v''
  | notLoaded {v' v'' : Vm} {e : Failure} (before : Goes v v') (c : ClassDefinition)
    (small : c.pool.length ≤ 0xb40000)
    (few : ∀ d ∈ v''.world.classes.classes, d.fields.length < 2 ^ 60)
    (ran : onWorld (World.load c) v' = .error e v'') : Goes v v''
  | resolved {v' v'' : Vm} (before : Goes v v') (raw : UInt64)
    (ran : resolve raw v' = .ok () v'') : Goes v v''
  | notResolved {v' v'' : Vm} {e : Failure} (before : Goes v v') (raw : UInt64)
    (ran : resolve raw v' = .error e v'') : Goes v v''
  | elsewhere {v' v'' : Vm} (before : Goes v v') (beside : v'.Beside v'') : Goes v v''

/-- However loads and resolutions follow each other, caches are coherent, and entries that name a
    bytecode keep their words. -/
theorem Goes.linkable (h : v.Goes v') (linkable : v.Linkable) :
    v'.Linkable ∧ v.world.Keeps v'.world := by
  induction h with
  | none => exact ⟨linkable, .refl _⟩
  | loaded _ c small few ran ih =>
    obtain ⟨next, keeps⟩ := (load_linkable ih.1 small).of_ok ran
    exact ⟨next few, ih.2.trans keeps⟩
  | notLoaded _ c small few ran ih =>
    obtain ⟨next, keeps⟩ := (load_linkable ih.1 small).of_error ran
    exact ⟨next few, ih.2.trans keeps⟩
  | resolved _ raw ran ih =>
    rcases (resolve_ends ih.1 raw).of_ok ran with links | beside
    · obtain ⟨next, keeps⟩ := links.linkable ih.1
      exact ⟨next, ih.2.trans keeps⟩
    · exact ⟨beside.linkable ih.1, ih.2.trans beside.keeps⟩
  | notResolved _ raw ran ih =>
    have beside := (resolve_ends ih.1 raw).of_error ran
    exact ⟨beside.linkable ih.1, ih.2.trans beside.keeps⟩
  | elsewhere _ beside ih => exact ⟨beside.linkable ih.1, ih.2.trans beside.keeps⟩

/-- A machine that could be built can link. -/
theorem create_linkable {settings : Settings} (ordered : (MemoryMap.ofSettings settings).Ordered)
    (created : create settings = .ok v)
    (few : ∀ c ∈ v.world.classes.classes, c.fields.length < 2 ^ 60) : v.Linkable where
  booted := create_booted ordered created
  cached := (create_unlinked ordered created).cached
  thread := by
    obtain ⟨m, -, -, ⟨-, spares, -⟩, map, -⟩ := create_ends ordered created
    have metaspace := ordered.metaspace
    have heap := ordered.heap
    have thread := ordered.thread
    have stack := ordered.stack
    have size := ordered.size
    have limit := (MemoryMap.ofSettings settings).size.toNat_lt
    have stop := (ofSize_sound (MemoryMap.ofSettings settings).metaspaceStart
      (MemoryMap.ofSettings settings).metaspaceSize (by omega)).2
    rw [spares.stop, map]
    change (Memory.Region.ofSize _ _).stop.toNat ≤ _
    omega
  few := few

end Vm
end TemplateVm
