import TemplateVm.Text.Hex

set_option autoImplicit false

/-!
# JSON text

Reading keeps everything that a reader of settings can ask about: the literal of a number, the order
and repetition of members, and whether a string has an unpaired surrogate. Writing is compact.
-/
namespace TemplateVm.Text

inductive Json where
  | null
  | bool (b : Bool)
  | number (literal : String)
  | text (s : String)
  /-- A string with an unpaired surrogate, which no text can hold. -/
  | brokenText
  | array (items : List Json)
  | object (members : List (Option String × Json))
  deriving Inhabited

namespace Json

def isSpace (c : Char) : Bool := c = ' ' || c = '\n' || c = '\t' || c = '\r'

def skipSpace (s : List Char) : List Char := s.dropWhile isSpace

/-- One or more digits. -/
def digits? (s : List Char) : Option (List Char × List Char) :=
  match s.span Char.isDigit with
  | ([], _) => none
  | (ds, rest) => some (ds, rest)

/-- An integer part: zero, or digits that do not start with zero. -/
def integer? : List Char → Option (List Char × List Char)
  | '0' :: rest =>
    match rest with
    | c :: _ => if c.isDigit then none else some (['0'], rest)
    | [] => some (['0'], [])
  | s => digits? s

def fraction? : List Char → Option (List Char × List Char)
  | '.' :: rest => (digits? rest).map fun (ds, rest) => ('.' :: ds, rest)
  | s => some ([], s)

def exponent? : List Char → Option (List Char × List Char)
  | c :: rest =>
    if c = 'e' ∨ c = 'E' then
      match rest with
      | '+' :: rest => (digits? rest).map fun (ds, rest) => (c :: '+' :: ds, rest)
      | '-' :: rest => (digits? rest).map fun (ds, rest) => (c :: '-' :: ds, rest)
      | rest => (digits? rest).map fun (ds, rest) => (c :: ds, rest)
    else some ([], c :: rest)
  | [] => some ([], [])

def number? (s : List Char) : Option (Json × List Char) := do
  let (sign, s) := match s with
    | '-' :: s => (['-'], s)
    | s => ([], s)
  let (whole, s) ← integer? s
  let (part, s) ← fraction? s
  let (power, s) ← exponent? s
  pure (number (String.ofList (sign ++ whole ++ part ++ power)), s)

/-- The character that a one-letter escape stands for. -/
def escape? (c : Char) : Option Nat :=
  match c with
  | '"' | '\\' | '/' => some c.toNat
  | 'b' => some 8
  | 'f' => some 12
  | 'n' => some 10
  | 'r' => some 13
  | 't' => some 9
  | _ => none

/-- The code points of a string up to the closing quote; escaped surrogates are left as they are. -/
def codes? (acc : List Nat) : List Char → Option (List Nat × List Char)
  | [] => none
  | '"' :: rest => some (acc.reverse, rest)
  | '\\' :: 'u' :: a :: b :: c :: d :: rest =>
    match ofHexDigits? [a, b, c, d] with
    | some n => codes? (n :: acc) rest
    | none => none
  | '\\' :: c :: rest =>
    match escape? c with
    | some n => codes? (n :: acc) rest
    | none => none
  | c :: rest => if c < ' ' ∨ c = '\\' then none else codes? (c.toNat :: acc) rest

/-- Joins surrogate pairs; fails if a surrogate is left over. -/
def pair? : List Nat → Option (List Char)
  | [] => some []
  | n :: rest =>
    if 0xd800 ≤ n ∧ n < 0xdc00 then
      match rest with
      | m :: rest =>
        if 0xdc00 ≤ m ∧ m < 0xe000 then
          (pair? rest).map (Char.ofNat (0x10000 + (n - 0xd800) * 0x400 + (m - 0xdc00)) :: ·)
        else none
      | [] => none
    else if 0xdc00 ≤ n ∧ n < 0xe000 then none
    else (pair? rest).map (Char.ofNat n :: ·)

def string? (s : List Char) : Option (Option String × List Char) :=
  (codes? [] s).map fun (codes, rest) => ((pair? codes).map String.ofList, rest)

def expect? (word : List Char) (j : Json) (s : List Char) : Option (Json × List Char) :=
  if word.isPrefixOf s then some (j, s.drop word.length) else none

mutual

/-- A value after optional space. The fuel bounds nesting and length. -/
def value? : Nat → List Char → Option (Json × List Char)
  | 0, _ => none
  | fuel + 1, s =>
    match skipSpace s with
    | '"' :: rest => (string? rest).map fun (t, rest) => (t.elim brokenText text, rest)
    | '[' :: rest =>
      match skipSpace rest with
      | ']' :: rest => some (array [], rest)
      | rest => (items? fuel rest).map fun (items, rest) => (array items, rest)
    | '\x7b' :: rest =>
      match skipSpace rest with
      | '\x7d' :: rest => some (object [], rest)
      | rest => (members? fuel rest).map fun (members, rest) => (object members, rest)
    | 'n' :: rest => expect? ['u', 'l', 'l'] null rest
    | 't' :: rest => expect? ['r', 'u', 'e'] (bool true) rest
    | 'f' :: rest => expect? ['a', 'l', 's', 'e'] (bool false) rest
    | s => number? s

/-- Items up to the closing bracket. -/
def items? : Nat → List Char → Option (List Json × List Char)
  | 0, _ => none
  | fuel + 1, s => do
    let (item, s) ← value? fuel s
    match skipSpace s with
    | ',' :: rest => (items? fuel rest).map fun (items, rest) => (item :: items, rest)
    | ']' :: rest => some ([item], rest)
    | _ => none

/-- Members up to the closing brace. -/
def members? : Nat → List Char → Option (List (Option String × Json) × List Char)
  | 0, _ => none
  | fuel + 1, s =>
    match skipSpace s with
    | '"' :: rest => do
      let (key, s) ← string? rest
      match skipSpace s with
      | ':' :: rest =>
        let (value, s) ← value? fuel rest
        match skipSpace s with
        | ',' :: rest => (members? fuel rest).map fun (ms, rest) => ((key, value) :: ms, rest)
        | '\x7d' :: rest => some ([(key, value)], rest)
        | _ => none
      | _ => none
    | _ => none

end

/-- The value that the whole text denotes. -/
def ofText? (s : String) : Option Json :=
  match value? (2 * s.length + 2) s.toList with
  | some (j, rest) => if (skipSpace rest).isEmpty then some j else none
  | none => none

/-- The number of a literal without sign, fraction and exponent. -/
def natural? : Json → Option Nat
  | number literal => if literal.all Char.isDigit then literal.toNat? else none
  | _ => none

def escapeChar (c : Char) : String :=
  match c with
  | '"' => "\\\""
  | '\\' => "\\\\"
  | '\n' => "\\n"
  | '\r' => "\\r"
  | '\t' => "\\t"
  | c => if c < ' ' then "\\u" ++ padLeft 4 '0' (hexDigits c.toNat) else String.singleton c

def writeText (out s : String) : String :=
  (s.foldl (fun out c => out ++ escapeChar c) (out.push '"')).push '"'

mutual

/-- Appends the compact text of a value. -/
def write (out : String) : Json → String
  | null => out ++ "null"
  | bool b => out ++ (if b then "true" else "false")
  | number literal => out ++ literal
  | text s => writeText out s
  | brokenText => writeText out "\ufffd"
  | array items => (writeItems (out.push '[') true items).push ']'
  | object members => (writeMembers (out.push '\x7b') true members).push '\x7d'

def writeItems (out : String) (first : Bool) : List Json → String
  | [] => out
  | j :: rest => writeItems (write (if first then out else out.push ',') j) false rest

def writeMembers (out : String) (first : Bool) : List (Option String × Json) → String
  | [] => out
  | (key, j) :: rest =>
    let out := writeText (if first then out else out.push ',') (key.getD "\ufffd")
    writeMembers (write (out.push ':') j) false rest

end

def compact (j : Json) : String := write "" j

end Json
end TemplateVm.Text
