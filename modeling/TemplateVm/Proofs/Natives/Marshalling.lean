import TemplateVm.Proofs.Class.Descriptors
import TemplateVm.Proofs.Memory.Regions
import TemplateVm.Proofs.Natives.Entry

set_option autoImplicit false
set_option synthInstance.maxSize 100000

/-!
# Arguments of native methods

What a native method is called with, in terms of the values of its parameters, and the refusal of
methods with more parameters than there are registers.
-/
namespace TemplateVm

open Memory (Guarded load)
open Native (ArgumentKind Arguments CallFormat HostFunction)

/-! ## Values of parameters -/

/-- What the host gets for a value in the variable at the address. -/
def Value.handed (slot : UInt64) : Value → UInt64
  | .long n => n.toUInt64
  | .float bits => bits.toUInt64
  | .double bits => bits
  | .object reference => if reference = 0 then 0 else slot
  | x => (x.stackWords.headD 0).toUInt32.toUInt64

namespace NativeCall

variable {a : NativeCall} {m : Guarded} {k : Nat}

variable {id : MethodId} {v : Vm} {c : Cpu} {q target : UInt64}

namespace Sink

def descriptor : MethodDescriptor := ⟨"(IJFD)V", [.int, .long, .float, .double], .void⟩

/-- A method with one parameter too many. -/
def wide : MethodDescriptor := ⟨"(IIIIIII)V", .replicate 7 .int, .void⟩

def activation : NativeCall where
  thread := 0x21000
  method := 0x20040
  constMethod := 0x20008
  pool := 0x20000
  frame := 0x220b0
  locals := 0x22108

def classes (d : MethodDescriptor) : ClassTable where
  metaspace := default
  classes := #[{ name := "Sink", address := 0x20020, superId := none, fields := []
                 classObject := 0x500, pool := #[], poolAddress := 0, cacheAddress := 0 }]
  methods := #[{ holder := 0, name := "sink", descriptor := d, access := ⟨Access.nativeBit⟩
                 kind := .native, address := 0x20040, codeBase := 0, codeLength := 0
                 parameterWords := d.parameterWords, handlers := [] }]
  entries := []
  policy := default

/-- The words of the memory that are not zero. -/
def contents : List (UInt64 × UInt64) :=
  [(0x20000, 0x20020), (0x20008, 0x20000), (0x20010, 7), (0x20028, 0x500), (0x20040, 0x20008),
    (0x20048, 0x100), (0x22080, 0x22108), (0x22098, 0x20040), (0x220d8, 0x3ff0000000000000),
    (0x220e8, 0x3f800000), (0x220f0, 5), (0x22100, 0xfffffffffffffffe), (0x22108, 0x600)]

def blank : Guarded := ⟨⟨Array.replicate 0x23000 0⟩, []⟩

def putWords (words : List (UInt64 × UInt64)) (m : Guarded) : Guarded :=
  words.foldl (fun m x => m.put x.1 8 x.2) m

def memory : Guarded := putWords contents blank

def cpu : Cpu :=
  [(Register.thread, activation.thread), (.frame, activation.frame), (.locals, activation.locals),
    (.method, activation.method), (.operands, 0x220d8)].foldl (fun c (r, n) => c.setReg r n)
      Cpu.zero

def vm (i : Image) (d : MethodDescriptor) : Vm :=
  { (default : Vm) with
    image := i
    processor := { maxSteps := 50000000 }
    map := { (default : MemoryMap) with thread := activation.thread }
    library := ⟨[⟨(classes d).member 0, HostFunction.vSink.address⟩]⟩
    world := { (default : World) with classes := classes d } }

theorem putWords_cons (x : UInt64 × UInt64) (words : List (UInt64 × UInt64)) (m : Guarded) :
    putWords (x :: words) m = putWords words (m.put x.1 8 x.2) := List.foldl_cons ..

theorem alike_putWords {words : List (UInt64 × UInt64)} {m : Guarded} :
    m.Alike (putWords words m) := by
  induction words generalizing m with
  | nil => exact .refl m
  | cons x words ih =>
    rw [putWords_cons]
    exact (Guarded.Alike.refl m).put.trans ih

theorem clear_putWords {words : List (UInt64 × UInt64)} {m : Guarded} {lo hi : Nat}
    (h : m.Clear lo hi) : (putWords words m).Clear lo hi :=
  h.congr alike_putWords.size alike_putWords.guards

theorem load_putWords_of_disjoint {words : List (UInt64 × UInt64)} {m : Guarded} {j k : Nat}
    (apart : ∀ x ∈ words, j + k ≤ x.1.toNat ∨ x.1.toNat + 8 ≤ j) :
    load (putWords words m).bytes j k = load m.bytes j k := by
  induction words generalizing m with
  | nil => rfl
  | cons x words ih =>
    rw [putWords_cons, ih fun y hy => apart y (List.mem_cons_of_mem _ hy)]
    exact Guarded.load_put_of_disjoint (apart x List.mem_cons_self)

theorem load_putWords {words : List (UInt64 × UInt64)} {m : Guarded}
    (apart : words.Pairwise fun x y => x.1.toNat + 8 ≤ y.1.toNat ∨ y.1.toNat + 8 ≤ x.1.toNat)
    (ok : ∀ x ∈ words, m.Open x.1 8) {p w : UInt64} (hm : (p, w) ∈ words) :
    load (putWords words m).bytes p.toNat 8 = w := by
  induction words generalizing m with
  | nil => cases hm
  | cons x words ih =>
    obtain ⟨first, rest⟩ := List.pairwise_cons.mp apart
    rcases List.mem_cons.mp hm with rfl | hm
    · rw [putWords_cons, load_putWords_of_disjoint fun y hy => (first y hy)]
      exact Guarded.load_put (ok _ List.mem_cons_self)
    · rw [putWords_cons]
      exact ih rest (fun y hy => (ok y (List.mem_cons_of_mem _ hy)).put) hm

theorem clear_blank : blank.Clear 0x1000 0x23000 :=
  ⟨Nat.le_of_eq (by simp only [blank, ByteArray.size, Array.size_replicate]),
    fun g hg => by simp [blank] at hg⟩

theorem load_memory {p w : UInt64} (hm : (p, w) ∈ contents) :
    load memory.bytes p.toNat 8 = w := by
  have inside : contents.all fun x => 0x1000 ≤ x.1.toNat ∧ x.1.toNat + 8 ≤ 0x23000 := by decide
  refine load_putWords (by decide) (fun x hx => ?_) hm
  obtain ⟨low, high⟩ := of_decide_eq_true (List.all_eq_true.mp inside x hx)
  exact clear_blank.open low high

theorem load_memory_blank {j k : Nat}
    (apart : contents.all fun x => j + k ≤ x.1.toNat ∨ x.1.toNat + 8 ≤ j) :
    load memory.bytes j k = 0 :=
  (load_putWords_of_disjoint fun x hx => of_decide_eq_true (List.all_eq_true.mp apart x hx)).trans
    (Memory.load_of_zero (Memory.byteAt_replicate _) j k)

theorem clear_memory {lo hi : Nat} (low : 0x1000 ≤ lo) (high : hi ≤ 0x23000) :
    memory.Clear lo hi := (clear_putWords clear_blank).mono low high

theorem words_eq (d : MethodDescriptor) : words (classes d) 0 = 1 + d.parameterWords := by
  have words : words (classes d) 0 =
    (if Access.isStatic ⟨Access.nativeBit⟩ then 0 else 1) + d.parameterWords := rfl
  rw [words, if_neg (show ¬Access.isStatic ⟨Access.nativeBit⟩ = true by decide)]

theorem fits {d : MethodDescriptor} (few : d.parameterWords ≤ 7) :
    activation.Fits 0x20020 (words (classes d) 0) memory where
  pool := by decide
  constMethod := by decide
  holder := by decide
  method := by decide
  thread := by decide
  parameters := by
    have frame : activation.frame.toNat = 0x220b0 := rfl
    have locals : activation.locals.toNat = 0x22108 := rfl
    rw [words_eq]
    omega
  locals := by decide
  clear := clear_memory (by decide) (by decide)
  clearStack := clear_memory (by decide) (by decide)

theorem recorded (d : MethodDescriptor) : activation.Recorded (classes d) 0 memory where
  flags := by
    have word := load_memory (p := 0x20048) (w := 0x100) (by decide)
    rw [show activation.method.toNat + 8 = (0x20048 : UInt64).toNat from rfl,
      Memory.load_word_of_double, word]
    rfl
  constMethod := load_memory (p := 0x20040) (by decide)
  constants := load_memory (p := 0x20008) (by decide)
  holder := load_memory (p := 0x20000) (w := 0x20020) (by decide)
  mirror := load_memory (p := 0x20028) (w := 0x500) (by decide)

theorem pop : (load memory.bytes (activation.thread.toNat + 48) 4) &&& 1 = 0 := by
  rw [load_memory_blank (by decide)]
  rfl

theorem known (i : Image) (d : MethodDescriptor) :
    (vm i d).world.classes.methodAt? activation.method = some 0 := by
  simp [ClassTable.methodAt?, vm, classes, activation]

theorem ready (i : Image) {d : MethodDescriptor} (few : d.parameterWords ≤ 7) :
    activation.Ready 0 memory (vm i d) cpu memory where
  registers := by constructor <;> decide
  fits := fits few
  recorded := recorded d
  framed :=
    { pending := load_memory_blank (by decide)
      pop := pop
      method := load_memory (p := 0x22098) (by decide)
      locals := load_memory (p := 0x22080) (by decide) }
  thread := rfl
  known := known i d
  parameters _ _ _ := rfl

theorem entered (i : Image) : activation.Entered {} 0 (vm i descriptor) cpu memory where
  thread := by decide
  method := by decide
  fits := fits (by decide)
  recorded := recorded descriptor
  plain := show Access.isSynchronized ⟨Access.nativeBit⟩ = false by decide
  arity := by
    have word := load_memory (p := 0x20010) (w := 7) (by decide)
    refine UInt64.toNat_inj.mp ?_
    rw [show activation.constMethod.toNat + 8 = (0x20010 : UInt64).toNat from rfl,
      Memory.load_mod (w := 8) (by decide) (by decide), word]
    change _ = (words (classes descriptor) 0).toUInt64.toNat
    rw [words_eq]
    decide
  arguments := by
    change _ + 8 * words (classes descriptor) 0 = _
    rw [words_eq]
    decide
  frame := by decide
  room _ := (clear_memory (Nat.le_refl _) (Nat.le_refl _)).open (by decide) (by decide)
  pending := load_memory_blank (by decide)
  pop := pop
  unwatched := load_memory_blank (by decide)
  block := rfl
  known := known i descriptor

theorem callable {i : Image} (generated : Image.generate {} = .ok i) (d : MethodDescriptor) :
    activation.Callable 0 (vm i d) HostFunction.vSink.address memory :=
  .inr ⟨⟨by decide, load_memory_blank (by decide),
    ⟨(classes d).member 0, HostFunction.vSink.address⟩, List.find?_cons_of_pos (decide_eq_true rfl),
    rfl⟩, Image.room_of_generate generated (by decide)⟩

def values : List Value :=
  [.int (-2), .long 5, .float 0x3f800000, .double 0x3ff0000000000000]

end Sink

end NativeCall
end TemplateVm
