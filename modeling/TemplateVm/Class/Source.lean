import TemplateVm.Class.Definition
import TemplateVm.Text.Query

set_option autoImplicit false

/-!
# Class definitions in JSON

A definition is an object; what is missing has its default.
-/
namespace TemplateVm

open Text (Json)

/-- Start, end, handler, and the type that is caught. -/
def HandlerRow.ofJson (j : Json) : HandlerRow :=
  let position (i : Nat) : UInt16 := (j.item i).asWord.toUInt16
  ⟨position 0, position 1, position 2, (j.item 3).text?⟩

def MethodDefinition.ofJson (j : Json) : MethodDefinition :=
  let word (key : String) (default : UInt64) : UInt64 := (j.member key).word?.getD default
  { name := (j.member "name").asText
    descriptor := (j.member "desc").asText
    access := ⟨(word "access" Access.publicStatic.bits.toUInt64).toUInt32⟩
    maxLocals := (word "max_locals" 0).toUInt16
    maxStack := (word "max_stack" 8).toUInt16
    code := (j.member "code").asBytes
    handlers := (j.member "handlers").items.map .ofJson }

/-- A list of the kind of entry and the names in it. -/
def PoolEntry.ofJson (j : Json) : PoolEntry :=
  let text (i : Nat) : String := (j.item i).asText
  let m : MemberRef := ⟨text 1, text 2, text 3⟩
  match text 0 with
  | "class" => .classRef (text 1)
  | "field" => .fieldRef m
  | "method" => .methodRef m
  | _ => .callSite m

def ClassDefinition.ofJson (j : Json) : ClassDefinition :=
  { name := (j.member "name").asText
    superName := (j.member "super").text?
    fields := (j.member "fields").items.map fun f => ⟨(f.item 0).asText, (f.item 1).asText⟩
    pool := (j.member "cp").items.map .ofJson
    methods := (j.member "methods").items.map .ofJson }

end TemplateVm
