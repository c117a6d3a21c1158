import Mathlib.Data.Nat.Digits.Defs
import TemplateVm.Proofs.Memory.Copies

set_option autoImplicit false

/-!
# Requests to a memory

A cleared memory is asked to guard ranges, to give guards up, to read and to write, in any order.
What it answers is told by the history of these requests alone: by the ranges that are guarded
still, and for each byte by the last write to it that succeeded.
-/
namespace TemplateVm.Memory

/-! ## Guarded bytes -/

namespace GuardRange

variable {g : GuardRange} {a len : UInt64} {start n : Nat}

/-- The byte at the address is guarded. -/
def Covers (g : GuardRange) (j : Nat) : Prop := g.start.toNat ≤ j ∧ j < g.stop.toNat

instance (g : GuardRange) (j : Nat) : Decidable (g.Covers j) := inferInstanceAs (Decidable (_ ∧ _))

/-- One of the `n` bytes from `start` on is guarded. -/
def Meets (g : GuardRange) (start n : Nat) : Prop := ∃ k < n, g.Covers (start + k)

/-- Every guarded byte is among the `len` bytes from `a` on. -/
def Within (g : GuardRange) (a len : UInt64) : Prop :=
  a.toNat ≤ g.start.toNat ∧ g.stop.toNat ≤ a.toNat + len.toNat

instance (g : GuardRange) (a len : UInt64) : Decidable (g.Within a len) :=
  inferInstanceAs (Decidable (_ ∧ _))

theorem meets_iff (filled : g.start.toNat < g.stop.toNat) (some : 0 < n) :
    g.Meets start n ↔ start < g.stop.toNat ∧ g.start.toNat < start + n := by
  constructor
  · rintro ⟨k, few, low, high⟩
    omega
  · rintro ⟨high, low⟩
    -- The first byte that both have is the start of the one that begins later.
    refine ⟨g.start.toNat - start, by omega, ?_, ?_⟩ <;> omega

/-- The end of an access is held at the top of all addresses, where no guard starts. -/
theorem touches_iff_meets (filled : g.start.toNat < g.stop.toNat) (some : 0 < len.toNat) :
    g.touches a len = true ↔ g.Meets a.toNat len.toNat := by
  have top := g.stop.toNat_lt
  rw [meets_iff filled some, touches_iff]
  omega

end GuardRange

/-- The `n` bytes from `start` on are in a memory of `size` bytes, and none of them is guarded. -/
def Free (size : Nat) (guards : List GuardRange) (start n : Nat) : Prop :=
  start + n ≤ size ∧ ∀ k < n, ∀ g ∈ guards, ¬ g.Covers (start + k)

instance (size : Nat) (guards : List GuardRange) (start n : Nat) :
    Decidable (Free size guards start n) := inferInstanceAs (Decidable (_ ∧ _))

/-- The tag of the first guard that meets the `n` bytes from `start` on, if there is one. -/
def FirstTag (guards : List GuardRange) (start n : Nat) : Option UInt32 → Prop
  | none => ∀ g ∈ guards, ¬ g.Meets start n
  | some tag => ∃ before g after, guards = before ++ g :: after ∧ g.tag = tag ∧
      g.Meets start n ∧ ∀ g' ∈ before, ¬ g'.Meets start n

namespace Guarded

variable {m : Guarded} {a len : UInt64}

theorem guardOf?_eq_none_iff (filled : ∀ g ∈ m.guards, g.start.toNat < g.stop.toNat)
    (some : 0 < len.toNat) :
    m.guardOf? a len = none ↔ ∀ g ∈ m.guards, ¬ g.Meets a.toNat len.toNat := by
  unfold guardOf?
  rw [List.find?_eq_none]
  exact forall₂_congr fun g hg => not_congr (GuardRange.touches_iff_meets (filled g hg) some)

theorem fault?_eq_none_iff (filled : ∀ g ∈ m.guards, g.start.toNat < g.stop.toNat)
    (some : 0 < len.toNat) (kind : MemoryAccess) :
    m.fault? a len kind = none ↔ Free m.bytes.size m.guards a.toNat len.toNat := by
  have unmet : (∀ g ∈ m.guards, ¬ g.Meets a.toNat len.toNat) ↔
      ∀ k < len.toNat, ∀ g ∈ m.guards, ¬ g.Covers (a.toNat + k) :=
    ⟨fun h k hk g hg covers => h g hg ⟨k, hk, covers⟩, fun h g hg ⟨k, hk, covers⟩ =>
      h k hk g hg covers⟩
  rw [Free, ← unmet, ← guardOf?_eq_none_iff filled some]
  unfold fault?
  cases m.guardOf? a len <;> simp

theorem fault?_firstTag (filled : ∀ g ∈ m.guards, g.start.toNat < g.stop.toNat)
    (some : 0 < len.toNat) {kind : MemoryAccess} {fault : MemoryFault}
    (h : m.fault? a len kind = .some fault) :
    fault.access = kind ∧ FirstTag m.guards a.toNat len.toNat fault.guard := by
  unfold fault? at h
  cases met : m.guardOf? a len with
  | none =>
    rw [met] at h
    have untouched := (guardOf?_eq_none_iff filled some).mp met
    dsimp only at h
    split at h <;> cases h
    exact ⟨rfl, untouched⟩
  | some g =>
    rw [met] at h
    cases h
    unfold guardOf? at met
    obtain ⟨touched, before, after, split, first⟩ := List.find?_eq_some_iff_append.mp met
    have inside : ∀ g' ∈ before ++ g :: after, g' ∈ m.guards := fun g' hg' => split ▸ hg'
    refine ⟨rfl, before, g, after, split, rfl, ?_, fun g' hg' meets => ?_⟩
    · exact (GuardRange.touches_iff_meets (filled g (inside g (by simp))) some).mp touched
    · have untouched := first g' hg'
      rw [(GuardRange.touches_iff_meets (filled g' (inside g' (by simp [hg']))) some).mpr meets]
        at untouched
      cases untouched

end Guarded

/-! ## Bytes of an access -/

section
variable {b : ByteArray} {i n w : Nat}

/-- A number has its bytes as digits, the lowest first. -/
theorem load_eq_ofDigits (small : w ≤ 8) :
    (load b i w).toNat = Nat.ofDigits 256 ((List.range w).map fun k => (byteAt b (i + k)).toNat) := by
  induction w generalizing i with
  | zero => rfl
  | succ w ih =>
    have rest : (List.range w).map (fun k => (byteAt b (i + (k + 1))).toNat) =
        (List.range w).map fun k => (byteAt b (i + 1 + k)).toNat :=
      List.map_congr_left fun k _ => by rw [show i + (k + 1) = i + 1 + k by omega]
    rw [load_succ (by omega), ih (by omega), List.range_succ_eq_map, List.map_cons, List.map_map,
      Nat.ofDigits_cons, ← rest]
    rfl

theorem bytesFrom_eq_map (inside : i + n ≤ b.size) :
    bytesFrom b i n = (List.range n).map fun k => byteAt b (i + k) := by
  refine List.ext_getElem? fun k => ?_
  by_cases few : k < n
  · rw [getElem?_bytesFrom inside few, List.getElem?_map, List.getElem?_range few]
    rfl
  · rw [List.getElem?_eq_none (by rw [length_bytesFrom inside]; omega),
      List.getElem?_eq_none (by rw [List.length_map, List.length_range]; omega)]

end

/-! ## Requests -/

/-- What a memory can be asked. -/
inductive Request where
  | protect (start len : UInt64) (tag : UInt32)
  | unprotect (start len : UInt64)
  | read (a width : UInt64)
  | write (a width v : UInt64)
  | readBytes (a len : UInt64)
  | writeBytes (a : UInt64) (data : List UInt8)
  | fill (a len : UInt64) (byte : UInt8)

inductive Reply where
  | done
  | number (n : UInt64)
  | bytes (data : List UInt8)

namespace Request

variable {m m' : Guarded} {r : Request} {kind : MemoryAccess} {a len : UInt64} {reply : Reply}

def run : Request → Guarded.Action Reply
  | protect start len tag => do modify (·.protect start len tag); return .done
  | unprotect start len => do modify (·.unprotect start len); return .done
  | read a width => return .number (← Guarded.readA a width)
  | write a width v => do Guarded.write a width v; return .done
  | readBytes a len => return .bytes (← Guarded.readBytesA a len)
  | writeBytes a data => do Guarded.writeBytes a data; return .done
  | fill a len byte => do Guarded.fill a len byte; return .done

/-- No range is empty or wraps around, a number has at most eight bytes, and the length of data is
    a word. -/
def Proper : Request → Prop
  | protect start len _ | unprotect start len =>
    0 < len.toNat ∧ start.toNat + len.toNat < 2 ^ 64
  | read _ width | write _ width _ => 0 < width.toNat ∧ width.toNat ≤ 8
  | readBytes _ len | fill _ len _ => 0 < len.toNat
  | writeBytes _ data => 0 < data.length ∧ data.length < 2 ^ 64

instance : DecidablePred Proper
  | protect .. | unprotect .. | read .. | write .. | writeBytes .. =>
    inferInstanceAs (Decidable (_ ∧ _))
  | readBytes .. | fill .. => inferInstanceAs (Decidable (_ < _))

/-- The kind, the address and the length of an access. -/
def access? : Request → Option (MemoryAccess × UInt64 × UInt64)
  | protect .. | unprotect .. => none
  | read a width => some (.read, a, width)
  | write a width _ => some (.write, a, width)
  | readBytes a len => some (.read, a, len)
  | writeBytes a data => some (.write, a, data.length.toUInt64)
  | fill a len _ => some (.write, a, len)

/-- The byte that a write means to leave at an address: of a number the lowest byte comes first. -/
def byte? (j : Nat) : Request → Option UInt8
  | write a width v =>
    if a.toNat ≤ j ∧ j < a.toNat + width.toNat then
      some (v.toNat / 256 ^ (j - a.toNat)).toUInt8
    else none
  | writeBytes a data => if a.toNat ≤ j then data[j - a.toNat]? else none
  | fill a len byte => if a.toNat ≤ j ∧ j < a.toNat + len.toNat then some byte else none
  | _ => none

/-! ### What is answered and left -/

/-- The answer to an access that does not fault. -/
def answer (m : Guarded) : Request → Reply
  | read a width => .number (load m.bytes a.toNat width.toNat)
  | readBytes a len => .bytes (bytesFrom m.bytes a.toNat len.toNat)
  | _ => .done

/-- The memory after an access that does not fault. -/
def effect (m : Guarded) : Request → Guarded
  | write a width v => m.put a width v
  | writeBytes a data => m.putBytes a data
  | fill a len byte => m.putFill a len byte
  | _ => m

theorem run_access (h : r.access? = some (kind, a, len)) (m : Guarded) :
    r.run m = match m.fault? a len kind with
      | some fault => .error (.memoryFault fault) m
      | none => .ok (r.answer m) (r.effect m) := by
  cases r with
  | protect | unprotect => cases h
  | read | readBytes | write | writeBytes | fill =>
    cases h
    simp only [run, Guarded.readA, Guarded.read, Guarded.readBytesA, Guarded.readBytes,
      Guarded.write, Guarded.writeBytes, Guarded.fill, bind, EStateM.bind, pure, EStateM.pure]
    generalize m.fault? _ _ _ = fault
    cases fault <;> rfl

theorem length_pos (proper : r.Proper) (h : r.access? = some (kind, a, len)) : 0 < len.toNat := by
  cases r with
  | protect | unprotect => cases h
  | read | write =>
    cases h
    exact proper.1
  | readBytes | fill =>
    cases h
    exact proper
  | writeBytes =>
    cases h
    rw [UInt64.toNat_ofNat_of_lt' proper.2]
    exact proper.1

theorem alike_effect (r : Request) (m : Guarded) : m.Alike (r.effect m) := by
  cases r with
  | write => exact ⟨size_store .., rfl⟩
  | writeBytes => exact ⟨size_storeBytes .., rfl⟩
  | fill => exact ⟨size_fill .., rfl⟩
  | protect | unprotect | read | readBytes => exact .refl m

/-- A write means to leave exactly the bytes of its access, a read none. -/
theorem byte?_eq_none_iff (proper : r.Proper) (h : r.access? = some (kind, a, len)) {j : Nat} :
    r.byte? j = none ↔ kind = .read ∨ j < a.toNat ∨ a.toNat + len.toNat ≤ j := by
  cases r with
  | protect | unprotect => cases h
  | read | readBytes =>
    cases h
    exact iff_of_true rfl (.inl rfl)
  | write | fill =>
    cases h
    simp [byte?]
    omega
  | writeBytes a data =>
    cases h
    rw [UInt64.toNat_ofNat_of_lt' proper.2]
    simp [byte?]
    omega

theorem byteAt_effect_of_not (proper : r.Proper) (h : r.access? = some (kind, a, len)) {j : Nat}
    (outside : j < a.toNat ∨ a.toNat + len.toNat ≤ j) :
    byteAt (r.effect m).bytes j = byteAt m.bytes j := by
  cases r with
  | protect | unprotect => cases h
  | read | readBytes => rfl
  | write =>
    cases h
    exact byteAt_store_of_not outside
  | fill =>
    cases h
    exact byteAt_fill_of_not outside
  | writeBytes =>
    cases h
    rw [UInt64.toNat_ofNat_of_lt' proper.2] at outside
    exact byteAt_storeBytes_of_not outside

/-- An access leaves the bytes that it writes, and all others as they were. -/
theorem byteAt_effect (proper : r.Proper) (h : r.access? = some (kind, a, len))
    (inside : a.toNat + len.toNat ≤ m.bytes.size) (j : Nat) :
    byteAt (r.effect m).bytes j = (r.byte? j).getD (byteAt m.bytes j) := by
  by_cases outside : j < a.toNat ∨ a.toNat + len.toNat ≤ j
  · rw [byteAt_effect_of_not proper h outside, (byte?_eq_none_iff proper h).mpr (.inr outside)]
    rfl
  · obtain ⟨k, few, rfl⟩ : ∃ k < len.toNat, j = a.toNat + k :=
      ⟨j - a.toNat, by omega, by omega⟩
    cases r with
    | protect | unprotect => cases h
    | read | readBytes => rfl
    | write =>
      cases h
      have there : a.toNat + k < m.bytes.size := by omega
      simp [effect, byte?, few, byteAt_store few there]
    | fill =>
      cases h
      have there : a.toNat + k < m.bytes.size := by omega
      simp [effect, byte?, few, Guarded.putFill, byteAt_fill few there]
    | writeBytes a data =>
      cases h
      rw [UInt64.toNat_ofNat_of_lt' proper.2] at inside few
      have found := List.getElem?_eq_getElem few
      simp [effect, byte?, found, Guarded.putBytes, byteAt_storeBytes inside found]

end Request

/-! ## Histories -/

/-- Requests to a memory, the latest first. -/
abbrev History := List Request

namespace History

/-- The ranges that are guarded still, in the order in which they were protected: to give a range
    up takes the guards away that lie in it. -/
def guards : History → List GuardRange
  | [] => []
  | .protect start len tag :: past => guards past ++ [⟨start, start + len, tag⟩]
  | .unprotect start len :: past => (guards past).filter fun g => ¬ g.Within start len
  | _ :: past => guards past

/-- The byte that was last written at an address of a memory of `size` bytes. A write counts only
    where all of its bytes were free. -/
def byte (size j : Nat) : History → UInt8
  | [] => 0
  | r :: past =>
    match r.access? with
    | none => byte size j past
    | some (_, a, len) =>
      if Free size (guards past) a.toNat len.toNat then (r.byte? j).getD (byte size j past)
      else byte size j past

/-- What the requests make of a cleared memory. -/
def memory (size : UInt64) : History → Guarded
  | [] => .zeros size
  | r :: past =>
    match r.run (memory size past) with
    | .ok _ m => m
    | .error _ m => m

theorem guards_filled {past : History} (proper : ∀ r ∈ past, r.Proper) :
    ∀ g ∈ past.guards, g.start.toNat < g.stop.toNat := by
  induction past with
  | nil => exact fun _ hg => absurd hg List.not_mem_nil
  | cons r past ih =>
    obtain ⟨first, rest⟩ := List.forall_mem_cons.mp proper
    have ih := ih rest
    cases r with
    | protect start len tag =>
      intro g hg
      rcases List.mem_append.mp hg with hg | hg
      · exact ih g hg
      · rw [List.mem_singleton.mp hg]
        change start.toNat < (start + len).toNat
        rw [toNat_add_of_lt first.2]
        exact Nat.lt_add_of_pos_right first.1
    | unprotect => exact fun g hg => ih g (List.mem_filter.mp hg).1
    | read | write | readBytes | writeBytes | fill => exact ih

end History

/-- The memory is what the history says. -/
structure Guarded.Remembers (size : UInt64) (past : History) (m : Guarded) : Prop where
  length : m.bytes.size = size.toNat
  guards : m.guards = past.guards
  bytes : ∀ j, byteAt m.bytes j = past.byte size.toNat j

namespace History

variable {size : UInt64} {past : History} {r : Request} {kind : MemoryAccess} {a len : UInt64}

theorem guards_cons_access (access : r.access? = some (kind, a, len)) :
    guards (r :: past) = past.guards := by
  cases r with
  | protect | unprotect => cases access
  | read | write | readBytes | writeBytes | fill => rfl

theorem guards_unprotect {start : UInt64} (m : Guarded)
    (fits : start.toNat + len.toNat < 2 ^ 64) :
    (m.unprotect start len).guards = m.guards.filter fun g => ¬ g.Within start len := by
  refine List.filter_congr fun g _ => ?_
  rw [Bool.eq_iff_iff]
  simp [GuardRange.Within, UInt64.le_iff_toNat_le, toNat_add_of_lt fits]

/-- An access does what it does where its bytes are free, and nothing elsewhere. -/
theorem run_memory (h : (memory size past).Remembers size past)
    (filled : ∀ g ∈ past.guards, g.start.toNat < g.stop.toNat) (proper : r.Proper)
    (access : r.access? = some (kind, a, len)) :
    if Free size.toNat past.guards a.toNat len.toNat then
      r.run (memory size past) = .ok (r.answer (memory size past)) (r.effect (memory size past))
    else ∃ fault, r.run (memory size past) = .error (.memoryFault fault) (memory size past) ∧
      fault.access = kind ∧ FirstTag past.guards a.toNat len.toNat fault.guard := by
  have some := r.length_pos proper access
  have ran := r.run_access access (memory size past)
  rw [← h.guards] at filled ⊢
  rw [← h.length, if_congr (Guarded.fault?_eq_none_iff filled some kind).symm rfl rfl]
  cases faults : (memory size past).fault? a len kind with
  | none =>
    rw [faults] at ran
    exact ran
  | some fault =>
    rw [faults] at ran
    exact ⟨fault, ran, Guarded.fault?_firstTag filled some faults⟩

/-- One more request. -/
theorem remembers_cons (h : (memory size past).Remembers size past)
    (filled : ∀ g ∈ past.guards, g.start.toNat < g.stop.toNat) (proper : r.Proper) :
    (memory size (r :: past)).Remembers size (r :: past) := by
  cases access : r.access? with
  | none =>
    cases r with
    | protect start len tag => exact ⟨h.length, congrArg (· ++ [_]) h.guards, h.bytes⟩
    | unprotect start len =>
      refine ⟨h.length, ?_, h.bytes⟩
      exact (guards_unprotect _ proper.2).trans (congrArg (List.filter _) h.guards)
    | read | write | readBytes | writeBytes | fill => cases access
  | some entry =>
    obtain ⟨kind, a, len⟩ := entry
    have guards : History.guards (r :: past) = past.guards := guards_cons_access access
    have ran := run_memory h filled proper access
    split at ran
    · next free =>
      have left : memory size (r :: past) = r.effect (memory size past) := by
        rw [memory, ran]
      have alike := r.alike_effect (memory size past)
      rw [left]
      refine ⟨alike.size.trans h.length, (alike.guards.trans h.guards).trans guards.symm,
        fun j => ?_⟩
      rw [Request.byteAt_effect proper access (by rw [h.length]; exact free.1), h.bytes]
      simp [byte, access, free]
    · next bound =>
      obtain ⟨fault, ran, -⟩ := ran
      have left : memory size (r :: past) = memory size past := by rw [memory, ran]
      rw [left]
      refine ⟨h.length, h.guards.trans guards.symm, fun j => ?_⟩
      rw [h.bytes]
      simp [byte, access, bound]

theorem remembers (size : UInt64) (proper : ∀ r ∈ past, r.Proper) :
    (memory size past).Remembers size past := by
  induction past with
  | nil => exact ⟨size_zeros _, rfl, byteAt_zeros _⟩
  | cons r past ih =>
    obtain ⟨first, rest⟩ := List.forall_mem_cons.mp proper
    exact remembers_cons (ih rest) (guards_filled rest) first

end History

/-! ## What is answered behind a history -/

namespace History

variable {size : UInt64} {past : History} {r : Request} {kind : MemoryAccess} {a len : UInt64}
  {reply : Reply} {e : Failure} {m' : Guarded}

theorem of_run_ok (proper : ∀ r ∈ past, r.Proper) (fine : r.Proper)
    (access : r.access? = some (kind, a, len)) (done : r.run (memory size past) = .ok reply m') :
    Free size.toNat past.guards a.toNat len.toNat ∧ reply = r.answer (memory size past) ∧
      m' = r.effect (memory size past) := by
  have ran := run_memory (remembers size proper) (guards_filled proper) fine access
  split at ran
  · next free =>
    rw [ran] at done
    cases done
    exact ⟨free, rfl, rfl⟩
  · obtain ⟨fault, ran, -⟩ := ran
    rw [ran] at done
    cases done

theorem of_run_error (proper : ∀ r ∈ past, r.Proper) (fine : r.Proper)
    (access : r.access? = some (kind, a, len)) (failed : r.run (memory size past) = .error e m') :
    m' = memory size past ∧ ∃ fault, e = .memoryFault fault ∧ fault.access = kind ∧
      FirstTag past.guards a.toNat len.toNat fault.guard := by
  have ran := run_memory (remembers size proper) (guards_filled proper) fine access
  split at ran
  · rw [ran] at failed
    cases failed
  · obtain ⟨fault, ran, same, first⟩ := ran
    rw [ran] at failed
    cases failed
    exact ⟨rfl, fault, rfl, same, first⟩

end History

/-- What a memory does that was cleared to `size` bytes and then asked the past requests. -/
structure Guarded.Serves (size : UInt64) (past : History) (m : Guarded) : Prop where
  /-- The guards are those of the history. -/
  guards : m.guards = past.guards
  /-- An access succeeds exactly if its bytes are all there and none of them is guarded. -/
  succeeds : ∀ (r : Request) (kind : MemoryAccess) (a len : UInt64), r.Proper →
    r.access? = some (kind, a, len) →
    ((∃ reply m', r.run m = .ok reply m') ↔ Free size.toNat m.guards a.toNat len.toNat)
  /-- One that fails tells the tag of the first guard that it meets, and changes nothing. -/
  fails : ∀ (r : Request) (kind : MemoryAccess) (a len : UInt64) (e : Failure) (m' : Guarded),
    r.Proper → r.access? = some (kind, a, len) → r.run m = .error e m' →
    m' = m ∧ ∃ fault, e = .memoryFault fault ∧ fault.access = kind ∧
      FirstTag m.guards a.toNat len.toNat fault.guard
  /-- One that succeeds changes no guard, and exactly the bytes that it writes. -/
  changes : ∀ (r : Request) (kind : MemoryAccess) (a len : UInt64) (reply : Reply) (m' : Guarded),
    r.Proper → r.access? = some (kind, a, len) → r.run m = .ok reply m' →
    m'.guards = m.guards ∧ m'.bytes.size = m.bytes.size ∧
      (∀ j, byteAt m'.bytes j = (r.byte? j).getD (byteAt m.bytes j)) ∧
      ∀ j, r.byte? j = none ↔ kind = .read ∨ j < a.toNat ∨ a.toNat + len.toNat ≤ j
  /-- A number that is read has as digits the bytes that were written last, the lowest first. -/
  reads : ∀ (a width : UInt64) (reply : Reply) (m' : Guarded), (Request.read a width).Proper →
    (Request.read a width).run m = .ok reply m' → m' = m ∧ ∃ n, reply = .number n ∧
      n.toNat = Nat.ofDigits 256 ((List.range width.toNat).map fun k =>
        (past.byte size.toNat (a.toNat + k)).toNat)
  readsBytes : ∀ (a len : UInt64) (reply : Reply) (m' : Guarded),
    (Request.readBytes a len).Proper → (Request.readBytes a len).run m = .ok reply m' → m' = m ∧
      reply = .bytes ((List.range len.toNat).map fun k => past.byte size.toNat (a.toNat + k))
  /-- A new guard comes last. -/
  protects : ∀ (start len : UInt64) (tag : UInt32), (Request.protect start len tag).Proper →
    ∃ stop : UInt64, stop.toNat = start.toNat + len.toNat ∧
      (Request.protect start len tag).run m =
        .ok .done { m with guards := m.guards ++ [⟨start, stop, tag⟩] }
  /-- Only guards that lie in the range are given up, so that a byte which another one covers stays
      guarded. -/
  unprotects : ∀ start len : UInt64, (Request.unprotect start len).Proper →
    ∃ m', (Request.unprotect start len).run m = .ok .done m' ∧ m'.bytes = m.bytes ∧
      m'.guards = m.guards.filter (fun g => ¬ g.Within start len) ∧
      ∀ j, (∃ g ∈ m'.guards, g.Covers j) ↔ ∃ g ∈ m.guards, ¬ g.Within start len ∧ g.Covers j

/-- All that a memory does is told by the requests that it was asked before. -/
theorem History.determines_memory (size : UInt64) {past : History}
    (proper : ∀ r ∈ past, r.Proper) : (past.memory size).Serves size past := by
  have h := remembers size proper
  exact {
    guards := h.guards
    succeeds := fun r kind a len fine access => by
      have ran := run_memory h (guards_filled proper) fine access
      rw [h.guards]
      refine ⟨fun ⟨_, _, done⟩ => (of_run_ok proper fine access done).1, fun free => ?_⟩
      rw [if_pos free] at ran
      exact ⟨_, _, ran⟩
    fails := fun r kind a len e m' fine access failed => by
      rw [h.guards]
      exact of_run_error proper fine access failed
    changes := fun r kind a len reply m' fine access done => by
      obtain ⟨⟨inside, -⟩, -, rfl⟩ := of_run_ok proper fine access done
      obtain ⟨length, guards⟩ := r.alike_effect (past.memory size)
      rw [← h.length] at inside
      exact ⟨guards, length, fun j => Request.byteAt_effect fine access inside j,
        fun j => Request.byte?_eq_none_iff fine access⟩
    reads := fun a width reply m' fine done => by
      obtain ⟨-, rfl, rfl⟩ := of_run_ok proper fine rfl done
      refine ⟨rfl, _, rfl, ?_⟩
      rw [load_eq_ofDigits fine.2]
      simp only [h.bytes]
    readsBytes := fun a len reply m' fine done => by
      obtain ⟨⟨inside, -⟩, rfl, rfl⟩ := of_run_ok proper fine rfl done
      rw [← h.length] at inside
      refine ⟨rfl, congrArg Reply.bytes ?_⟩
      rw [bytesFrom_eq_map inside]
      simp only [h.bytes]
    protects := fun start len tag fine => ⟨start + len, toNat_add_of_lt fine.2, rfl⟩
    unprotects := fun start len fine => by
      refine ⟨_, rfl, rfl, guards_unprotect _ fine.2, fun j => ?_⟩
      rw [guards_unprotect _ fine.2]
      simp [and_assoc] }

/-- Two guards, one of them given up, and a number that is written over the end of another. -/
theorem History.determines_memory_overlapping :
    let past : History := [.unprotect 8 10, .write 20 4 0xaabbccdd, .protect 12 8 2,
      .protect 8 6 1, .write 16 8 0x1122334455667788]
    (∀ r ∈ past, r.Proper) ∧ (past.memory 64).Serves 64 past ∧ past.guards = [⟨12, 20, 2⟩] ∧
      [19, 20, 23, 24].map (past.byte 64 ·) = [0x55, 0xdd, 0xaa, 0] :=
  ⟨by decide, determines_memory 64 (by decide), by decide, by decide⟩

end TemplateVm.Memory
