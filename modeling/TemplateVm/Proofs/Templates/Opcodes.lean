import TemplateVm.Proofs.Templates.Arrays
import TemplateVm.Proofs.Templates.Branches
import TemplateVm.Proofs.Templates.Casts
import TemplateVm.Proofs.Templates.Fields
import TemplateVm.Proofs.Templates.Locals

set_option autoImplicit false
set_option synthInstance.maxSize 100000

/-!
# The templates of all opcodes

The code in the table of templates does what its bytecode means: it falls through with the new
contents, or it branches.
-/
namespace TemplateVm

open Bytecode (Operation)
open Guest Emit Template

variable {a : Activation} {b : Program} {s : Settings} {x x' : Contents} {op : Operation}
  {e : ExceptionEntries} {distance : Option Int}

/-- As many turns as a template takes at most. The walk of a cast comes to every class once. -/
def Guest.Program.templateTurns (b : Program) : Nat := 4 * b.classes.size + 48

/-- The template does the operation, of which the contents and a branch are the result. Only what
    falls through overwrites references in fields. -/
inductive Performs (a : Activation) (b : Program) (s : Settings) (op : Operation) (x x' : Contents) :
    Template → Option Int → Prop
  | falls {t : Template} (through : t.dispatches = false)
      (code : Overwrites a b s (a.at op) b.templateTurns (overwritten? b op x) t.tosIn t.tosOut
        t.code x x') :
      Performs a b s op x x' t none
  | branches {t : Template} {distance : Option Int} (plain : op.opcode ≠ .putfield)
      (out : t.tosOut = .none)
      (through : t.dispatches = true → distance ≠ none)
      (code : Branches a b s op b.templateTurns t.tosIn t.code x x' distance) :
      Performs a b s op x x' t distance

namespace Performs

variable {t : Template} {n : Nat}

theorem of_falling {y : Option Contents} (plain : op.opcode ≠ .putfield)
    (hx : Guest.falling y = some (x', distance)) (through : t.dispatches = false)
    (few : n ≤ b.templateTurns)
    (code : y = some x' → Implements a b s (a.at op) n t.tosIn t.tosOut t.code x x') :
    Performs a b s op x x' t distance := by
  obtain ⟨same, rfl⟩ := Guest.of_falling hx
  exact .falls through (overwritten?_of_ne plain ▸ (code same).le few)

theorem of_push {v : Value} (plain : op.opcode ≠ .putfield)
    (hx : Guest.falling (x.push v) = some (x', distance))
    (room : depth x'.stack ≤ b.maxStack) (through : t.dispatches = false)
    (few : n ≤ b.templateTurns) (code : depth (v :: x.stack) ≤ b.maxStack →
      Implements a b s (a.at op) n t.tosIn t.tosOut t.code x (x.push v)) :
    Performs a b s op x x' t distance := by
  obtain ⟨same, rfl⟩ := Guest.of_falling hx
  obtain rfl := Option.some.inj same
  exact .falls through (overwritten?_of_ne plain ▸ (code room).le few)

theorem of_branch (plain : op.opcode ≠ .putfield)
    (hx : distance.isSome = true ∨ t.dispatches = false) (out : t.tosOut = .none)
    (few : n ≤ b.templateTurns) (code : Branches a b s op n t.tosIn t.code x x' distance) :
    Performs a b s op x x' t distance :=
  .branches plain out (fun leaves => by
    rintro rfl
    rcases hx with hx | hx
    · cases hx
    · rw [leaves] at hx
      cases hx) (code.le few)

end Performs

/-- What is stored as a reference is one. -/
theorem Guest.Contents.object_of_store {n maxLocals : Nat}
    (hx : x.store n .object maxLocals = some x') : ∃ r rest, x.stack = .object r :: rest := by
  obtain ⟨w, rest, stack, kind, -⟩ := Contents.of_store hx
  cases w with
  | object r => exact ⟨r, rest, stack⟩
  | _ => cases kind

theorem Template.performs (hm : op ∈ Bytecode.decode b.code) (closed : x.Closed)
    (roomy : a.Roomy s b.maxStack) (hx : execute b op x = some (x', distance))
    (room : depth x'.stack ≤ b.maxStack) :
    Performs a b s op x x' (ofOpcode e op.opcode) distance := by
  have few {n : Nat} (le : n ≤ 48) : n ≤ b.templateTurns := by
    unfold Program.templateTurns
    omega
  have hb : a.at op = a.code + op.bci.toUInt64 := rfl
  unfold execute at hx
  dsimp only at hx
  by_cases stores : op.opcode = .putfield
  · simp only [stores] at hx
    obtain ⟨same, rfl⟩ := Guest.of_falling hx
    obtain ⟨slot, found, hx⟩ := Option.bind_eq_some_iff.mp same
    have old : overwritten? b op x = x.overwritten? b slot := by
      rw [overwritten?, if_pos stores, found]
      rfl
    have code := Overwrites.putField hm hb closed roomy found stores hx
    rw [stores]
    exact .falls rfl (old ▸ code.le (few (by decide)))
  cases ho : op.opcode <;> simp only [ho] at hx
  case nop =>
    obtain ⟨same, rfl⟩ := Guest.of_falling hx
    obtain rfl := Option.some.inj same
    exact .falls rfl (overwritten?_of_ne stores ▸ Implements.nop.le (few (by decide)))
  case aconstNull =>
    exact .of_push stores hx room rfl (few (by decide)) (Implements.movZero · fun _ h => h)
  case iconstM1 => exact .of_push stores hx room rfl (few (by decide)) (.intConstant rfl)
  case iconst0 => exact .of_push stores hx room rfl (few (by decide)) (.intConstant rfl)
  case iconst1 => exact .of_push stores hx room rfl (few (by decide)) (.intConstant rfl)
  case iconst2 => exact .of_push stores hx room rfl (few (by decide)) (.intConstant rfl)
  case iconst3 => exact .of_push stores hx room rfl (few (by decide)) (.intConstant rfl)
  case iconst4 => exact .of_push stores hx room rfl (few (by decide)) (.intConstant rfl)
  case iconst5 => exact .of_push stores hx room rfl (few (by decide)) (.intConstant rfl)
  case lconst0 => exact .of_push stores hx room rfl (few (by decide)) (.longConstant rfl)
  case lconst1 => exact .of_push stores hx room rfl (few (by decide)) (.longConstant rfl)
  case fconst0 | fconst1 | fconst2 =>
    refine .of_push stores hx room rfl (few (by decide)) (.floatConstant fun c h => ?_)
    exact (congrArg UInt64.toUInt32 h).trans rfl
  case dconst0 | dconst1 =>
    exact .of_push stores hx room rfl (few (by decide)) (.floatConstant fun c h => h)
  case bipush => exact .of_push stores hx room rfl (few (by decide)) (.bipush hm hb ho)
  case sipush => exact .of_push stores hx room rfl (few (by decide)) (.sipush hm hb ho)
  case iload | lload | fload | dload | aload =>
    exact .of_falling stores hx rfl (few (by decide)) fun hx =>
      .loadVariable hm hb (by rw [ho]; rfl) (by rw [ho]; rfl) (by rw [ho]; decide) hx room
  case iload0 | iload1 | iload2 | iload3 | aload0 | aload1 | aload2 | aload3 =>
    exact .of_falling stores hx rfl (few (by decide)) fun hx => .loadFixed hx rfl room
  case istore | lstore | fstore | dstore =>
    exact .of_falling stores hx rfl (few (by decide)) fun hx =>
      .storeVariable hm hb (by rw [ho]; rfl) (by rw [ho]; rfl) (by rw [ho]; decide) hx (by rintro ⟨⟩)
  case istore0 | istore1 | istore2 | istore3 =>
    exact .of_falling stores hx rfl (few (by decide)) fun hx => .storeFixed hx rfl (by rintro ⟨⟩)
  case astore0 | astore1 | astore2 | astore3 =>
    refine .of_falling stores hx rfl (few (show 1 + 1 ≤ 48 by decide)) fun hx => ?_
    obtain ⟨r, rest, stack⟩ := Contents.object_of_store hx
    exact .seq (.popObject stack) (.storeFixed hx rfl (by decide))
  case astore =>
    refine .of_falling stores hx rfl (few (show 3 + 1 ≤ 48 by decide)) fun hx => ?_
    obtain ⟨r, rest, stack⟩ := Contents.object_of_store hx
    exact .seq (.popObject stack)
      (.storeVariable hm hb (by rw [ho]; rfl) (by rw [ho]; rfl) (by rw [ho]; decide) hx (by decide))
  case pop => exact .of_falling stores hx rfl (few (by decide)) .pop
  case dup => exact .of_falling stores hx rfl (few (by decide)) fun hx => .dup hx room
  case iadd =>
    exact .of_falling stores hx rfl (few (by decide)) fun hx =>
      .intOperation (.binary · ·) signWord_add hx room
  case isub =>
    exact .of_falling stores hx rfl (few (by decide)) fun hx =>
      .intOperation (.binary · ·) signWord_sub hx room
  case imul =>
    exact .of_falling stores hx rfl (few (by decide)) fun hx =>
      .intOperation (.mul · ·) signWord_mul hx room
  case idiv => exact .of_falling stores hx rfl (few (by decide)) fun hx => .divide hx room
  case ineg => exact .of_falling stores hx rfl (few (by decide)) fun hx => .negate hx room
  case i2l => exact .of_falling stores hx rfl (few (by decide)) fun hx => .intToLong hx room
  case ladd => exact .of_falling stores hx rfl (few (by decide)) fun hx => .addLongs hx room
  case fadd => exact .of_falling stores hx rfl (few (by decide)) fun hx => .addFloats hx room
  case dadd => exact .of_falling stores hx rfl (few (by decide)) fun hx => .addDoubles hx room
  case iinc => exact .of_falling stores hx rfl (few (by decide)) fun hx => .increment hm hb ho hx
  case iaload => exact .of_falling stores hx rfl (few (by decide)) fun hx => .loadElement hx room
  case iastore => exact .of_falling stores hx rfl (few (by decide)) fun hx => .storeElement hx room
  case arraylength =>
    exact .of_falling stores hx rfl (few (by decide)) fun hx => .arrayLength hx room
  case getfield =>
    refine .of_falling stores hx rfl (few (show 35 ≤ 48 by decide)) fun hx => ?_
    obtain ⟨slot, found, hx⟩ := Option.bind_eq_some_iff.mp hx
    exact .getField hm hb closed roomy found ho hx room
  case putfield => exact absurd ho stores
  case checkcast =>
    refine .of_falling stores hx rfl (Nat.add_le_add_left (show 11 ≤ 48 by decide) _) fun hx => ?_
    obtain ⟨target, found, hx⟩ := Option.bind_eq_some_iff.mp hx
    exact .checkCast hm hb ho found hx
  case goto =>
    cases hx
    exact .of_branch stores (.inl rfl) rfl (few (by decide))
      (.always hm (by rw [ho]; rfl) (by rw [ho]; rfl))
  case ifeq | ifne | iflt | ifge | ifgt | ifle =>
    exact .of_branch stores (.inr rfl) rfl (few (by decide))
      (.zero hm (by rw [ho]; rfl) (by rw [ho]; rfl) rfl (fun _ => rfl) hx)
  case ifIcmpeq | ifIcmpne | ifIcmplt | ifIcmpge | ifIcmpgt | ifIcmple =>
    exact .of_branch stores (.inr rfl) rfl (few (by decide))
      (.ints hm (by rw [ho]; rfl) (by rw [ho]; rfl) rfl (fun _ _ => rfl) hx)
  case ifnull =>
    refine .of_branch stores (.inr rfl) rfl (few (by decide))
      (.null hm (by rw [ho]; rfl) (by rw [ho]; rfl) (by decide) (fun r => ?_) hx)
    simp [Condition.holds, Flags.ofCompare, Bool.beq_eq_decide_eq]
  case ifnonnull =>
    refine .of_branch stores (.inr rfl) rfl (few (by decide))
      (.null hm (by rw [ho]; rfl) (by rw [ho]; rfl) (by decide) (fun r => ?_) hx)
    simp [Condition.holds, Flags.ofCompare, Bool.beq_eq_decide_eq]
  all_goals cases hx

end TemplateVm
