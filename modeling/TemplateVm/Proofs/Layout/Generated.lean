import TemplateVm.Proofs.Layout.Code
import TemplateVm.Proofs.Layout.Installed

set_option autoImplicit false
set_option synthInstance.maxSize 100000

/-!
# The generated image

What an image consists of: the code of the stubs and that of the interpreter, each placed as a
whole, and the tables that lead into them. Generating it succeeds for every number of shadow pages
that leaves the code its place.
-/
namespace TemplateVm

open Assembly

theorem Lays.mono {F G : Finished} {ctx : CodeContext} {b : Bool} {K S : List CodeLabel}
    {α : Type} {m : Emit α} {p q : UInt64} {x : α} (h : Lays F ctx b K S m p q x)
    (hp : G.place = F.place) (hc : ∀ p i, F.code.Fetches p i → G.code.Fetches p i) :
    Lays G ctx b K S m p q x := by
  obtain ⟨a, a', ha, hq, ready, run, within⟩ := h
  refine ⟨a, a', ha, hq, ready, run, fun k i hi => ?_, fun l p hl => ?_⟩
  · rw [hp]
    exact hc _ _ (within.fetch k i hi)
  · rw [hp]
    exact within.bound l p hl

/-! ## Blobs -/

section
variable {α : Type} {ctx : CodeContext} {m : Emit α} {n : Nat} {name : String} {base : UInt64}
  {blob : Blob} {x : α} {c c' : CodeCache}

theorem ready_nil (ctx : CodeContext) (base : UInt64) (h : ctx.popFrame = none) :
    Ready ctx false [] [] ({ base } : Assembly) where
  known := by simp
  popFrame := by simp [h]
  unbound := by simp
  nodup := .nil
  stub _ := rfl

theorem grown_size {S T : List CodeLabel} {a : Assembly}
    (g : Grown S T n ({ base } : Assembly) a) : a.code.size ≤ n := by
  obtain ⟨added, hc, hn, -⟩ := g.code
  rw [hc]
  simpa using hn

theorem grown_complete {a : Assembly} (g : Grown [] [] n ({ base } : Assembly) a) :
    a.Complete where
  stub := g.openStub
  bound i hi l hl := by
    obtain ⟨added, hc, -, ht⟩ := g.code
    rw [hc] at hi
    obtain ⟨p, hp⟩ := g.fresh l (Nat.zero_le _) (ht i (by simpa using hi) l hl)
    simp [labelAddress?, hp]

theorem toBlob_run [h : Orderly ctx false [] [] [] n m] (hpop : ctx.popFrame = none)
    (hb : Emit.toBlob name base ctx m = .ok (blob, x)) :
    ∃ a, m ctx { base } = .ok x a ∧ a.finish name = .ok blob ∧
      Grown [] [] n ({ base } : Assembly) a := by
  obtain ⟨y, a, run, g⟩ := h.runs _ (ready_nil ctx base hpop)
  have run' : (m.run ctx).run { base } = .ok y a := run
  rw [Emit.toBlob, run'] at hb
  cases hf : a.finish name with
  | error e => simp only [hf] at hb; cases hb
  | ok blob' =>
    simp only [hf] at hb
    cases hb
    exact ⟨a, run, hf, g⟩

theorem toBlob_ok [h : Orderly ctx false [] [] [] n m] (hpop : ctx.popFrame = none) (name : String)
    (base : UInt64) : ∃ blob x, Emit.toBlob name base ctx m = .ok (blob, x) ∧ blob.start = base ∧
      blob.code.size ≤ n := by
  obtain ⟨x, a, run, g⟩ := h.runs _ (ready_nil ctx base hpop)
  obtain ⟨blob, hf⟩ := (grown_complete g).finish name
  have run' : (m.run ctx).run { base } = .ok x a := run
  obtain ⟨start, size, -⟩ := finish_code hf
  refine ⟨blob, x, ?_, start.trans g.base, size ▸ grown_size g⟩
  rw [Emit.toBlob, run']
  simp only [hf]
  rfl

theorem fits_of_start (start : blob.start = base)
    (room : base.toNat + 4 * blob.code.size < 2 ^ 64) : blob.Fits := by
  rw [Blob.Fits, Blob.stop]
  exact Blob.address_toNat (by rw [start]; exact room)

/-- A blob that is installed holds the assembly that it was finished from. -/
theorem toBlob_within [h : Orderly ctx false [] [] [] n m] (hpop : ctx.popFrame = none)
    (hb : Emit.toBlob name base ctx m = .ok (blob, x)) (ho : c.Ordered)
    (hc : c.install blob = .ok c') (room : base.toNat + 4 * blob.code.size < 2 ^ 64) :
    c'.Ordered ∧ ∃ a, m ctx { base } = .ok x a ∧ a.finish name = .ok blob ∧
      Grown [] [] n ({ base } : Assembly) a ∧ Within ⟨c', a.places⟩ a := by
  obtain ⟨a, run, hf, g⟩ := toBlob_run hpop hb
  obtain ⟨start, -, code⟩ := finish_code hf
  have fits : blob.Fits := fits_of_start (start.trans g.base) room
  refine ⟨ho.install hc fits, a, run, hf, g, fun k i hi => ?_, fun l p hl => ?_⟩
  · rw [← start]
    exact ho.fetches hc fits (code k i hi)
  · simp [places, labelAddress?, hl]

/-- The code of a blob is placed where it is installed. -/
theorem toBlob_lays [h : Orderly ctx false [] [] [] n m] (hpop : ctx.popFrame = none)
    (hb : Emit.toBlob name base ctx m = .ok (blob, x)) (ho : c.Ordered)
    (hc : c.install blob = .ok c') (hn : base.toNat + 4 * n < 2 ^ 64) :
    c'.Ordered ∧ ∃ place, Lays ⟨c', place⟩ ctx false [] [] m blob.start blob.stop x := by
  obtain ⟨a, run, hf, g⟩ := toBlob_run hpop hb
  obtain ⟨start, size, -⟩ := finish_code hf
  have := grown_size g
  obtain ⟨ordered, a, run, hf, g, within⟩ := toBlob_within hpop hb ho hc (by rw [size]; omega)
  obtain ⟨start, size, -⟩ := finish_code hf
  refine ⟨ordered, a.places, { base }, a, ?_, ?_, ready_nil ctx base hpop, run, within⟩
  · simp [Assembly.pc, start, g.base]
  · rw [Assembly.pc, Blob.stop, start, size]

end

/-! ## The image -/

namespace Orderly

variable {ctx : CodeContext} {b : Bool} {K S T : List CodeLabel} {n : Nat} {α : Type}

theorem ready_popFrame {l : CodeLabel} {a : Assembly} [hl : Known l K]
    (h : Ready ctx b K S a) : Ready { ctx with popFrame := some l } b K S a where
  known := h.known
  popFrame k hk := by
    cases hk
    exact h.known l hl.mem
  unbound := h.unbound
  nodup := h.nodup
  stub := h.stub

instance withPopFrame (l : CodeLabel) (m : Emit α) [Known l K]
    [h : Orderly { ctx with popFrame := some l } b K S T n m] :
    Orderly ctx b K S T n (withReader ({ · with popFrame := some l }) m) where
  sub := h.sub
  runs a ha := h.runs a (ready_popFrame ha)

instance (stubs : Stubs) :
    Orderly ctx false K S S (30 * bangs ctx + 70000) (Image.interpreter stubs) := by
  have parts (l : CodeLabel) :
      Orderly { ctx with popFrame := some l } false (l :: K) (l :: S) S (30 * bangs ctx + 70000)
        (Image.parts stubs l) := upto inferInstance (Nat.le_refl _)
  exact newLabel_bind _ (h := fun l => withPopFrame l _)

end Orderly

namespace Image

/-- The context in which the code of the interpreter is emitted. -/
def context (s : Settings) (stubs : Stubs) (popFrame : CodeLabel) : CodeContext :=
  { settings := s, forwardException := stubs.forwardException, popFrame := some popFrame }

/-- What an image consists of. -/
structure Laid (s : Settings) (i : Image) (parts : Parts) : Prop where
  settings : i.settings = s
  ordered : i.code.Ordered
  stubs : ∃ place p q, Lays ⟨i.code, place⟩ { settings := s } false [] [] Stubs.all p q i.stubs
  interpreter : ∃ place l, Lays ⟨i.code, place⟩ (context s i.stubs l) false [l] [l]
    (Image.parts i.stubs l) i.start i.stop parts
  exceptions : i.exceptions = parts.exceptions
  methodEntries : i.methodEntries = parts.methodEntries
  callReturns : i.callReturns = parts.callReturns
  siteReturns : i.siteReturns = parts.siteReturns
  normalTable : i.normalTable = .ofOpcodes
    (fun o => ((parts.templates.find? (·.1 = o)).map (·.2)).getD
      (.uniform parts.unimplementedBytecode)) (.uniform parts.unimplementedBytecode)
  safepointTable : i.safepointTable = .ofOpcodes (fun _ => parts.safepoints)
    (.uniform parts.unimplementedBytecode)
  resultHandlers : i.resultHandlers = parts.resultHandlers

theorem generate_run {s : Settings} {i : Image} (h : generate s = .ok i) :
    ∃ stubBlob c blob parts,
      Emit.toBlob "stubs" Place.codeBase { settings := s } Stubs.all = .ok (stubBlob, i.stubs) ∧
      (CodeCache.ofRange Place.codeBase Place.codeLimit).install stubBlob = .ok c ∧
      Emit.toBlob "interpreter" c.nextBase
        { settings := s, forwardException := i.stubs.forwardException }
        (interpreter i.stubs) = .ok (blob, parts) ∧
      c.install blob = .ok i.code ∧ i.start = blob.start ∧ i.stop = blob.stop ∧ i.settings = s ∧
      i.exceptions = parts.exceptions ∧ i.methodEntries = parts.methodEntries ∧
      i.callReturns = parts.callReturns ∧ i.siteReturns = parts.siteReturns ∧
      i.normalTable = .ofOpcodes
        (fun o => ((parts.templates.find? (·.1 = o)).map (·.2)).getD
          (.uniform parts.unimplementedBytecode)) (.uniform parts.unimplementedBytecode) ∧
      i.safepointTable = .ofOpcodes (fun _ => parts.safepoints)
        (.uniform parts.unimplementedBytecode) ∧
      i.resultHandlers = parts.resultHandlers := by
  unfold generate at h
  obtain ⟨⟨stubBlob, stubs⟩, h₁, h⟩ := ok_of_bind h
  obtain ⟨c, h₂, h⟩ := ok_of_bind h
  obtain ⟨⟨blob, parts⟩, h₃, h⟩ := ok_of_bind h
  obtain ⟨c', h₄, h⟩ := ok_of_bind h
  cases h
  exact ⟨stubBlob, c, blob, parts, h₁, h₂, h₃, h₄, rfl, rfl, rfl, rfl, rfl, rfl, rfl, rfl,
    rfl, rfl⟩

theorem ordered_empty : (CodeCache.ofRange Place.codeBase Place.codeLimit).Ordered where
  limit := rfl
  aligned := by decide
  sorted := CodeCache.sorted_ofRange _ _
  start := by simp [CodeCache.ofRange]
  stop := by simp [CodeCache.ofRange]

theorem nextBase_le {c c' : CodeCache} {b : Blob} (ho : c.Ordered) (h : c.install b = .ok c') :
    c'.nextBase.toNat ≤ 0x50002000 := by
  obtain ⟨-, limit, rfl⟩ := CodeCache.install_eq h
  rw [ho.limit] at limit
  have := UInt64.le_iff_toNat_le.mp limit
  have bound : Place.codeLimit.toNat = 0x50000000 := rfl
  rw [CodeCache.baseAfter_of_le limit]
  omega

theorem lays_interpreter {F : Finished} {s : Settings} {stubs : Stubs} {p q : UInt64}
    {parts : Parts}
    (h : Lays F { settings := s, forwardException := stubs.forwardException } false [] []
      (interpreter stubs) p q parts) :
    ∃ l, Lays F (context s stubs l) false [l] [l] (Image.parts stubs l) p q parts := by
  obtain ⟨l, a, a', hp, hq, ready, run, within⟩ := h.newLabel_bind
  exact ⟨l, a, a', hp, hq, Orderly.ready_popFrame ready, run, within⟩

/-- Fewer shadow pages than this do not make the code wrap around. -/
theorem bangs_lt {s : Settings} (hs : s.shadowPages.toNat < 2 ^ 54) (p : UInt64)
    (hp : p.toNat ≤ 0x50002000) (ctx : CodeContext) (hctx : ctx.settings = s) :
    p.toNat + 4 * (30 * Orderly.bangs ctx + 70000) < 2 ^ 64 := by
  rw [Orderly.bangs, hctx]
  omega

/-- The interpreter is placed by itself, too, as code that has no other address. -/
theorem alone_of_generate {s : Settings} {i : Image} (h : generate s = .ok i)
    (hs : s.shadowPages.toNat < 2 ^ 54) : ∃ parts, Laid s i parts ∧ ∃ code place l,
      Lays ⟨code, place⟩ (context s i.stubs l) false [l] [l] (Image.parts i.stubs l) i.start i.stop
        parts ∧ ∀ p j, code.Fetches p j → i.code.Fetches p j ∧ i.contains p = true := by
  obtain ⟨stubBlob, c, blob, parts, h₁, h₂, h₃, h₄, start, stop, settings, exceptions, entries,
    calls, sites, normal, safepoint, results⟩ := generate_run h
  obtain ⟨ordered, place, stubs⟩ := toBlob_lays rfl h₁ ordered_empty h₂ (by decide)
  obtain ⟨ordered₁, one, h₅, within⟩ := ordered.alone h₄
  have room := bangs_lt hs _ (nextBase_le ordered_empty h₂)
    { settings := s, forwardException := i.stubs.forwardException } rfl
  obtain ⟨ordered₂, place', interpreter⟩ := toBlob_lays rfl h₃ ordered h₄ room
  obtain ⟨-, place₁, alone⟩ := toBlob_lays rfl h₃ ordered₁ h₅ room
  obtain ⟨l, interpreter⟩ := lays_interpreter interpreter
  obtain ⟨l₁, alone⟩ := lays_interpreter alone
  refine ⟨parts, ⟨settings, ordered₂, ⟨place, _, _, stubs.mono rfl fun p i => ordered.keeps h₄⟩,
    ⟨place', l, ?_⟩, exceptions, entries, calls, sites, normal, safepoint, results⟩,
    one, place₁, l₁, ?_, fun p j fetch => ?_⟩
  · rw [start, stop]
    exact interpreter
  · rw [start, stop]
    exact alone
  · obtain ⟨fetched, inside⟩ := within p j fetch
    refine ⟨fetched, ?_⟩
    rw [contains, start, stop]
    exact inside

theorem laid_of_generate {s : Settings} {i : Image} (h : generate s = .ok i)
    (hs : s.shadowPages.toNat < 2 ^ 54) : ∃ parts, Laid s i parts :=
  (alone_of_generate h hs).imp fun _ => And.left

theorem install_ok {c : CodeCache} {b : Blob} {n : Nat} (ho : c.Ordered)
    (start : b.start = c.nextBase) (size : b.code.size ≤ n)
    (room : c.nextBase.toNat + 4 * n ≤ 0x50000000) : ∃ c', c.install b = .ok c' := by
  have stop : b.stop.toNat = b.start.toNat + 4 * b.code.size := by
    rw [Blob.stop]
    exact Blob.address_toNat (by rw [start]; omega)
  refine ⟨{ c with blobs := c.blobs.push b, nextBase := CodeCache.baseAfter b.stop }, ?_⟩
  rw [CodeCache.install, if_neg]
  simp only [start, ne_eq, not_true_eq_false, false_or, UInt64.not_lt, ho.limit]
  rw [UInt64.le_iff_toNat_le, stop, start]
  have bound : Place.codeLimit.toNat = 0x50000000 := rfl
  omega

theorem room_of_le {p n : Nat} (hp : p ≤ 0x40003000) (hn : n ≤ 2 ^ 19) :
    p + 4 * (30 * (3 * n + 3) + 70000) ≤ 0x50000000 := by omega

/-- The code has its place for all numbers of shadow pages that a stack can have. -/
theorem generate_ok {s : Settings} (hs : s.shadowPages.toNat ≤ 2 ^ 19) :
    ∃ i, generate s = .ok i := by
  obtain ⟨stubBlob, stubs, h₁, start, size⟩ :=
    toBlob_ok (m := Stubs.all) (show CodeContext.popFrame { settings := s } = none from rfl)
      "stubs" Place.codeBase
  have room : (CodeCache.ofRange Place.codeBase Place.codeLimit).nextBase.toNat + 4 * 150 ≤
    0x50000000 := by decide
  obtain ⟨c, h₂⟩ := install_ok ordered_empty start size room
  have next : c.nextBase.toNat ≤ 0x40003000 := by
    obtain ⟨-, limit, rfl⟩ := CodeCache.install_eq h₂
    have base : Place.codeBase.toNat = 0x40000000 := rfl
    have stop : stubBlob.stop.toNat = stubBlob.start.toNat + 4 * stubBlob.code.size := by
      rw [Blob.stop]
      exact Blob.address_toNat (by rw [start, base]; omega)
    rw [CodeCache.baseAfter_of_le limit, stop, start, base]
    omega
  obtain ⟨ordered, -⟩ := toBlob_lays rfl h₁ ordered_empty h₂ (by decide)
  obtain ⟨blob, parts, h₃, start', size'⟩ :=
    toBlob_ok (m := interpreter stubs)
      (show CodeContext.popFrame
        { settings := s, forwardException := stubs.forwardException } = none from rfl)
      "interpreter" c.nextBase
  have room' : c.nextBase.toNat + 4 * (30 * Orderly.bangs
      { settings := s, forwardException := stubs.forwardException } + 70000) ≤ 0x50000000 := by
    have bangs : Orderly.bangs { settings := s, forwardException := stubs.forwardException } =
      3 * s.shadowPages.toNat + 3 := rfl
    rw [bangs]
    exact room_of_le next hs
  obtain ⟨c', h₄⟩ := install_ok ordered start' size' room'
  exact ⟨_, (bind_of_ok h₁).trans <| (bind_of_ok h₂).trans <| (bind_of_ok h₃).trans <|
    (bind_of_ok h₄).trans rfl⟩

end Image
end TemplateVm
