import TemplateVm.Machine.Listing

set_option autoImplicit false

/-!
# Installed code

A blob is finished code with names for its parts. The cache holds blobs at increasing addresses,
each at the next aligned address that leaves a gap after the one before, so that no address
belongs to two.
-/
namespace TemplateVm

/-- The code from `start` up to, not including, `stop`. -/
structure Stub where
  name : String
  start : UInt64
  stop : UInt64
  deriving DecidableEq, Inhabited

namespace Stub

def contains (s : Stub) (pc : UInt64) : Bool := s.start ≤ pc && pc < s.stop
def size (s : Stub) : UInt64 := s.stop - s.start

end Stub

/-- Why code could not be assembled or installed. -/
inductive AssemblyDefect where
  | unboundLabel (id : Nat)
  | labelRebound (id : Nat)
  | stubMismatch (what : String)
  | placement (name : String) (base expected : UInt64)
  deriving DecidableEq, Inhabited

def AssemblyDefect.message : AssemblyDefect → String
  | unboundLabel id => s!"unbound label {id}"
  | labelRebound id => s!"label {id} bound twice"
  | stubMismatch what => "stub boundary mismatch: " ++ what
  | placement name base expected =>
    s!"blob {name} at {Text.hex base.toNat} does not start at the next free address " ++
      Text.hex expected.toNat

structure Blob where
  name : String
  start : UInt64
  code : Array (Instruction UInt64)
  /-- In the order of their addresses. -/
  stubs : Array Stub := #[]
  marks : Array (String × UInt64) := #[]
  /-- In the order of their addresses. -/
  comments : Array (UInt64 × String) := #[]
  deriving Inhabited

namespace Blob

def stop (b : Blob) : UInt64 := b.start + b.code.size.toUInt64 * Instruction.size

def contains (b : Blob) (pc : UInt64) : Bool := b.start ≤ pc && pc < b.stop

def instruction? (b : Blob) (pc : UInt64) : Option (Instruction UInt64) :=
  if pc < b.start ∨ pc % Instruction.size ≠ 0 then none
  else b.code[((pc - b.start) / Instruction.size).toNat]?

/-- The address of the first mark of the name. -/
def mark? (b : Blob) (name : String) : Option UInt64 :=
  (b.marks.find? (·.1 == name)).map (·.2)

def stubOf? (b : Blob) (pc : UInt64) : Option Stub := b.stubs.find? (·.contains pc)

def stubNamed? (b : Blob) (name : String) : Option Stub := b.stubs.find? (·.name == name)

/-- Appends the lines of `n` instructions from `pc` on: the header of a stub that starts there,
    the comments on the address, and the instruction. `stubs` and `comments` are those not yet
    passed. -/
def linesFrom (b : Blob) (out : String) (pc : UInt64) (stubs : List Stub)
    (comments : List (UInt64 × String)) : Nat → String
  | 0 => out
  | n + 1 =>
    let stubs := stubs.dropWhile (·.start < pc)
    let comments := comments.dropWhile (·.1 < pc)
    let out := match stubs with
      | s :: _ =>
        if s.start = pc then
          out ++ s!"----- {s.name} [{Text.hex s.start.toNat}, {Text.hex s.stop.toNat}) -----\n"
        else out
      | [] => out
    let here := comments.takeWhile (·.1 = pc)
    let out := here.foldl (fun out c => out ++ "  ;; " ++ c.2 ++ "\n") out
    let out := match b.instruction? pc with
      | some i => out ++ "  " ++ Text.hexAddress pc.toNat ++ ": " ++ i.text ++ "\n"
      | none => out
    linesFrom b out (pc + Instruction.size) stubs comments n

/-- The listing of the part of the blob between two addresses. -/
def listing (b : Blob) (first last : UInt64) : String :=
  let first := max first b.start
  let last := min last b.stop
  let n := if first < last then ((last - first + 3) / Instruction.size).toNat else 0
  b.linesFrom "" first b.stubs.toList b.comments.toList n

def fullListing (b : Blob) : String := b.listing b.start b.stop

end Blob

/-- Halves the `size` places from `first` on until one is left: the last one whose element satisfies
    `p`, if those that do come before those that do not and the first place is one of them. -/
def halve {α : Type} (xs : Array α) (p : α → Bool) : Nat → Nat → Nat → Nat
  | 0, first, _ => first
  | rounds + 1, first, size =>
    if size ≤ 1 then first
    else
      let middle := first + size / 2
      halve xs p rounds (if xs[middle]?.any p then middle else first) (size - size / 2)

/-- The number of elements that satisfy `p`, if they come before those that do not. -/
def partitionPoint {α : Type} (xs : Array α) (p : α → Bool) : Nat :=
  let last := halve xs p xs.size 0 xs.size
  if xs[last]?.any p then last + 1 else last

structure CodeCache where
  blobs : Array Blob
  nextBase : UInt64
  limit : UInt64
  deriving Inhabited

namespace CodeCache

def alignment : UInt64 := 0x1000

def ofRange (base limit : UInt64) : CodeCache := ⟨#[], base, limit⟩

/-- The next multiple of the alignment after the gap behind `stop`. -/
def baseAfter (stop : UInt64) : UInt64 :=
  (stop + alignment + (alignment - 1)) / alignment * alignment

def install (c : CodeCache) (b : Blob) : Except AssemblyDefect CodeCache :=
  if b.start ≠ c.nextBase ∨ c.limit < b.stop then .error (.placement b.name b.start c.nextBase)
  else .ok { c with blobs := c.blobs.push b, nextBase := baseAfter b.stop }

/-- The blob that holds the address: the last one that starts at or below it, if it reaches that
    far. -/
def blobOf? (c : CodeCache) (pc : UInt64) : Option Blob :=
  match partitionPoint c.blobs (·.start ≤ pc) with
  | 0 => none
  | last + 1 => c.blobs[last]?.filter (·.contains pc)

def contains (c : CodeCache) (pc : UInt64) : Bool := (c.blobOf? pc).isSome

def instruction? (c : CodeCache) (pc : UInt64) : Option (Instruction UInt64) :=
  (c.blobOf? pc).bind (·.instruction? pc)

def stubOf? (c : CodeCache) (pc : UInt64) : Option Stub := (c.blobOf? pc).bind (·.stubOf? pc)

def blobNamed? (c : CodeCache) (name : String) : Option Blob := c.blobs.find? (·.name == name)

end CodeCache
end TemplateVm
