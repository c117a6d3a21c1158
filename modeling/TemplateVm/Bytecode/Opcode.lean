set_option autoImplicit false

/-!
# Opcodes

The bytecodes of the machine with their encodings. A body may hold any other byte as well; it is
rejected when it is dispatched, not before.
-/
namespace TemplateVm

inductive Opcode where
  | nop | aconstNull | iconstM1 | iconst0 | iconst1 | iconst2 | iconst3 | iconst4 | iconst5
  | lconst0 | lconst1 | fconst0 | fconst1 | fconst2 | dconst0 | dconst1 | bipush | sipush | iload
  | lload | fload | dload | aload | iload0 | iload1 | iload2 | iload3 | aload0 | aload1 | aload2
  | aload3 | iaload | istore | lstore | fstore | dstore | astore | istore0 | istore1 | istore2
  | istore3 | astore0 | astore1 | astore2 | astore3 | iastore | pop | dup | iadd | ladd | fadd
  | dadd | isub | imul | idiv | ineg | iinc | i2l | ifeq | ifne | iflt | ifge | ifgt | ifle
  | ifIcmpeq | ifIcmpne | ifIcmplt | ifIcmpge | ifIcmpgt | ifIcmple | goto | ireturn | lreturn
  | freturn | dreturn | areturn | returnVoid | getfield | putfield | invokestatic | invokedynamic
  | newInstance | newarray | arraylength | athrow | checkcast | monitorenter | monitorexit
  | ifnull | ifnonnull
  deriving DecidableEq, Inhabited

namespace Opcode

/-- Encoding, length with operands, and mnemonic. -/
structure Info where
  byte : UInt8
  length : Nat
  name : String

def info : Opcode → Info
  | nop => ⟨0x00, 1, "nop"⟩
  | aconstNull => ⟨0x01, 1, "aconst_null"⟩
  | iconstM1 => ⟨0x02, 1, "iconst_m1"⟩
  | iconst0 => ⟨0x03, 1, "iconst_0"⟩
  | iconst1 => ⟨0x04, 1, "iconst_1"⟩
  | iconst2 => ⟨0x05, 1, "iconst_2"⟩
  | iconst3 => ⟨0x06, 1, "iconst_3"⟩
  | iconst4 => ⟨0x07, 1, "iconst_4"⟩
  | iconst5 => ⟨0x08, 1, "iconst_5"⟩
  | lconst0 => ⟨0x09, 1, "lconst_0"⟩
  | lconst1 => ⟨0x0a, 1, "lconst_1"⟩
  | fconst0 => ⟨0x0b, 1, "fconst_0"⟩
  | fconst1 => ⟨0x0c, 1, "fconst_1"⟩
  | fconst2 => ⟨0x0d, 1, "fconst_2"⟩
  | dconst0 => ⟨0x0e, 1, "dconst_0"⟩
  | dconst1 => ⟨0x0f, 1, "dconst_1"⟩
  | bipush => ⟨0x10, 2, "bipush"⟩
  | sipush => ⟨0x11, 3, "sipush"⟩
  | iload => ⟨0x15, 2, "iload"⟩
  | lload => ⟨0x16, 2, "lload"⟩
  | fload => ⟨0x17, 2, "fload"⟩
  | dload => ⟨0x18, 2, "dload"⟩
  | aload => ⟨0x19, 2, "aload"⟩
  | iload0 => ⟨0x1a, 1, "iload_0"⟩
  | iload1 => ⟨0x1b, 1, "iload_1"⟩
  | iload2 => ⟨0x1c, 1, "iload_2"⟩
  | iload3 => ⟨0x1d, 1, "iload_3"⟩
  | aload0 => ⟨0x2a, 1, "aload_0"⟩
  | aload1 => ⟨0x2b, 1, "aload_1"⟩
  | aload2 => ⟨0x2c, 1, "aload_2"⟩
  | aload3 => ⟨0x2d, 1, "aload_3"⟩
  | iaload => ⟨0x2e, 1, "iaload"⟩
  | istore => ⟨0x36, 2, "istore"⟩
  | lstore => ⟨0x37, 2, "lstore"⟩
  | fstore => ⟨0x38, 2, "fstore"⟩
  | dstore => ⟨0x39, 2, "dstore"⟩
  | astore => ⟨0x3a, 2, "astore"⟩
  | istore0 => ⟨0x3b, 1, "istore_0"⟩
  | istore1 => ⟨0x3c, 1, "istore_1"⟩
  | istore2 => ⟨0x3d, 1, "istore_2"⟩
  | istore3 => ⟨0x3e, 1, "istore_3"⟩
  | astore0 => ⟨0x4b, 1, "astore_0"⟩
  | astore1 => ⟨0x4c, 1, "astore_1"⟩
  | astore2 => ⟨0x4d, 1, "astore_2"⟩
  | astore3 => ⟨0x4e, 1, "astore_3"⟩
  | iastore => ⟨0x4f, 1, "iastore"⟩
  | pop => ⟨0x57, 1, "pop"⟩
  | dup => ⟨0x59, 1, "dup"⟩
  | iadd => ⟨0x60, 1, "iadd"⟩
  | ladd => ⟨0x61, 1, "ladd"⟩
  | fadd => ⟨0x62, 1, "fadd"⟩
  | dadd => ⟨0x63, 1, "dadd"⟩
  | isub => ⟨0x64, 1, "isub"⟩
  | imul => ⟨0x68, 1, "imul"⟩
  | idiv => ⟨0x6c, 1, "idiv"⟩
  | ineg => ⟨0x74, 1, "ineg"⟩
  | iinc => ⟨0x84, 3, "iinc"⟩
  | i2l => ⟨0x85, 1, "i2l"⟩
  | ifeq => ⟨0x99, 3, "ifeq"⟩
  | ifne => ⟨0x9a, 3, "ifne"⟩
  | iflt => ⟨0x9b, 3, "iflt"⟩
  | ifge => ⟨0x9c, 3, "ifge"⟩
  | ifgt => ⟨0x9d, 3, "ifgt"⟩
  | ifle => ⟨0x9e, 3, "ifle"⟩
  | ifIcmpeq => ⟨0x9f, 3, "if_icmpeq"⟩
  | ifIcmpne => ⟨0xa0, 3, "if_icmpne"⟩
  | ifIcmplt => ⟨0xa1, 3, "if_icmplt"⟩
  | ifIcmpge => ⟨0xa2, 3, "if_icmpge"⟩
  | ifIcmpgt => ⟨0xa3, 3, "if_icmpgt"⟩
  | ifIcmple => ⟨0xa4, 3, "if_icmple"⟩
  | goto => ⟨0xa7, 3, "goto"⟩
  | ireturn => ⟨0xac, 1, "ireturn"⟩
  | lreturn => ⟨0xad, 1, "lreturn"⟩
  | freturn => ⟨0xae, 1, "freturn"⟩
  | dreturn => ⟨0xaf, 1, "dreturn"⟩
  | areturn => ⟨0xb0, 1, "areturn"⟩
  | returnVoid => ⟨0xb1, 1, "return"⟩
  | getfield => ⟨0xb4, 3, "getfield"⟩
  | putfield => ⟨0xb5, 3, "putfield"⟩
  | invokestatic => ⟨0xb8, 3, "invokestatic"⟩
  | invokedynamic => ⟨0xba, 5, "invokedynamic"⟩
  | newInstance => ⟨0xbb, 3, "new"⟩
  | newarray => ⟨0xbc, 2, "newarray"⟩
  | arraylength => ⟨0xbe, 1, "arraylength"⟩
  | athrow => ⟨0xbf, 1, "athrow"⟩
  | checkcast => ⟨0xc0, 3, "checkcast"⟩
  | monitorenter => ⟨0xc2, 1, "monitorenter"⟩
  | monitorexit => ⟨0xc3, 1, "monitorexit"⟩
  | ifnull => ⟨0xc6, 3, "ifnull"⟩
  | ifnonnull => ⟨0xc7, 3, "ifnonnull"⟩

def byte (o : Opcode) : UInt8 := o.info.byte
def length (o : Opcode) : Nat := o.info.length
def name (o : Opcode) : String := o.info.name

/-- Every opcode, in the order of their bytes. -/
def all : Array Opcode := #[
  nop, aconstNull, iconstM1, iconst0, iconst1, iconst2, iconst3, iconst4, iconst5, lconst0,
  lconst1, fconst0, fconst1, fconst2, dconst0, dconst1, bipush, sipush, iload, lload, fload,
  dload, aload, iload0, iload1, iload2, iload3, aload0, aload1, aload2, aload3, iaload, istore,
  lstore, fstore, dstore, astore, istore0, istore1, istore2, istore3, astore0, astore1, astore2,
  astore3, iastore, pop, dup, iadd, ladd, fadd, dadd, isub, imul, idiv, ineg, iinc, i2l, ifeq,
  ifne, iflt, ifge, ifgt, ifle, ifIcmpeq, ifIcmpne, ifIcmplt, ifIcmpge, ifIcmpgt, ifIcmple, goto,
  ireturn, lreturn, freturn, dreturn, areturn, returnVoid, getfield, putfield, invokestatic,
  invokedynamic, newInstance, newarray, arraylength, athrow, checkcast, monitorenter, monitorexit,
  ifnull, ifnonnull]

def ofByte? (b : UInt8) : Option Opcode := all.find? (·.byte == b)
def ofName? (s : String) : Option Opcode := all.find? (·.name == s)

/-- The operand is a signed distance from the branch to its target. -/
def isBranch : Opcode → Bool
  | ifeq | ifne | iflt | ifge | ifgt | ifle | ifIcmpeq | ifIcmpne | ifIcmplt | ifIcmpge | ifIcmpgt
  | ifIcmple | goto | ifnull | ifnonnull => true
  | _ => false

def isReturn : Opcode → Bool
  | ireturn | lreturn | freturn | dreturn | areturn | returnVoid => true
  | _ => false

/-- The operand is an index into the constant pool, and into its cache once the class is loaded. -/
def isLinked : Opcode → Bool
  | getfield | putfield | invokestatic | invokedynamic | newInstance | checkcast => true
  | _ => false

end Opcode
end TemplateVm
