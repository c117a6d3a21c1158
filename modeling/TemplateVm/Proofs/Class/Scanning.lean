import TemplateVm.Proofs.Class.Descriptors

set_option autoImplicit false

/-!
# Descriptors read at byte positions

A scanner need not go through the characters of a descriptor one by one. It reads single bytes at
byte positions, and takes characters only from behind an `L` on, where the text can be cut because
the letter is one byte. So a scan never cuts a character, it comes to an end, and it accepts what
the parsers of characters accept.
-/
namespace TemplateVm

namespace Scan

/-- The ways for a scan to end without a type. -/
inductive Fault where
  /-- The text is no descriptor. -/
  | malformed
  /-- The text was to be cut inside a character or behind its end. -/
  | cut
  /-- There was more to read than the steps allowed for. -/
  | outOfSteps
  deriving DecidableEq

/-- The bytes of the characters. -/
def bytes (s : List Char) : List UInt8 := s.flatMap String.utf8EncodeChar

/-- The characters from a byte position on, if one begins there. -/
def sliceFrom? : List Char → Nat → Option (List Char)
  | s, 0 => some s
  | [], _ + 1 => none
  | c :: s, n + 1 => if c.utf8Size ≤ n + 1 then sliceFrom? s (n + 1 - c.utf8Size) else none

/-- The byte position of the first semicolon. -/
def semicolon? : List Char → Option Nat
  | [] => none
  | c :: s => if c = ';' then some 0 else (semicolon? s).map (c.utf8Size + ·)

/-- The class name that begins at a byte position, and the position behind its semicolon. -/
def objectAt (text : List Char) (pos : Nat) : Except Fault (TypeTag × Nat) :=
  match sliceFrom? text pos with
  | none => .error .cut
  | some rest =>
    match semicolon? rest with
    | none | some 0 => .error .malformed
    | some n => .ok (.object, pos + n + 1)

/-- The type that begins at a byte position, and the position behind it. Brackets are passed in one
    step, so that there is no bracket where the elements of an array begin. -/
def typeAt (text : List Char) : Nat → Nat → Except Fault (TypeTag × Nat)
  | 0, _ => .error .outOfSteps
  | steps + 1, pos =>
    match (bytes text)[pos]?.bind fun b => TypeTag.ofLetter? (Char.ofNat b.toNat) with
    | none => .error .malformed
    | some .object => objectAt text (pos + 1)
    | some .array => do
      let (t, next) ← typeAt text steps
        (pos + (((bytes text).drop pos).takeWhile (· = 0x5B)).length)
      if t = .void then .error .malformed else .ok (.array, next)
    | some t => .ok (t, pos + 1)

/-- The parameter types from a byte position on, and the position behind the parenthesis that ends
    them. -/
def parametersAt (text : List Char) : Nat → Nat → Except Fault (List TypeTag × Nat)
  | 0, _ => .error .outOfSteps
  | steps + 1, pos =>
    match (bytes text)[pos]? with
    | none => .error .malformed
    | some b =>
      if b = 0x29 then .ok ([], pos + 1) else do
        let (t, next) ← typeAt text (steps + 1) pos
        if t = .void then .error .malformed else
          let (ts, stop) ← parametersAt text steps next
          return (t :: ts, stop)

/-- The descriptor of a method, if the text is one. -/
def method (steps : Nat) (text : String) : Except Fault MethodDescriptor :=
  if (bytes text.toList)[0]? = some 0x28 then do
    let (parameters, pos) ← parametersAt text.toList steps 1
    let (result, stop) ← typeAt text.toList steps pos
    if stop = (bytes text.toList).length then return ⟨text, parameters, result⟩
    else .error .malformed
  else .error .malformed

/-- The type that a field descriptor names. -/
def field (steps : Nat) (text : String) : Except Fault TypeTag := do
  let (t, stop) ← typeAt text.toList steps 0
  if stop = (bytes text.toList).length ∧ t ≠ .void then return t else .error .malformed

variable {c : Char} {b : UInt8} {text s d rest : List Char} {pos steps n : Nat}

/-! ## Bytes of characters -/

@[simp] theorem bytes_nil : bytes [] = [] := rfl

@[simp] theorem bytes_cons : bytes (c :: s) = String.utf8EncodeChar c ++ bytes s :=
  List.flatMap_cons

@[simp] theorem bytes_append : bytes (d ++ s) = bytes d ++ bytes s := List.flatMap_append

/-- These are the bytes that the string has in memory. -/
theorem toByteArray_bytes (text : String) : (bytes text.toList).toByteArray = text.toByteArray :=
  String.utf8Encode_toList

theorem bytes_ne_nil (c : Char) (s : List Char) : bytes (c :: s) ≠ [] := by
  rw [bytes_cons]
  exact List.append_ne_nil_of_left_ne_nil String.utf8EncodeChar_ne_nil _

/-- A character is one byte, its own number, or the first of its bytes is above all of these. -/
theorem utf8EncodeChar_cases (c : Char) :
    c.toNat < 128 ∧ String.utf8EncodeChar c = [UInt8.ofNat c.toNat] ∨
      ∃ b tail, String.utf8EncodeChar c = b :: tail ∧ 128 ≤ b.toNat ∧ 128 ≤ c.toNat := by
  have number : c.val.toNat = c.toNat := rfl
  unfold String.utf8EncodeChar
  dsimp only
  split
  · exact .inl ⟨by omega, rfl⟩
  · right
    split
    · exact ⟨_, _, rfl, by rw [UInt8.toNat_ofNat']; omega, by omega⟩
    · split
      · exact ⟨_, _, rfl, by rw [UInt8.toNat_ofNat']; omega, by omega⟩
      · exact ⟨_, _, rfl, by rw [UInt8.toNat_ofNat']; omega, by omega⟩

theorem toNat_charOfNat {k : Nat} (small : k < 256) : (Char.ofNat k).toNat = k := by
  unfold Char.ofNat
  rw [dif_pos (Or.inl (by omega))]
  rfl

/-- The first byte of a text is a character of one byte exactly when the text begins with it. -/
theorem head?_bytes {k : Nat} (ascii : k < 128) :
    (bytes s).head? = some (UInt8.ofNat k) ↔ s.head? = some (Char.ofNat k) := by
  cases s with
  | nil => simp
  | cons c s =>
    rw [bytes_cons, List.head?_cons, Option.some_inj]
    have byte : (UInt8.ofNat k).toNat = k := UInt8.toNat_ofNat_of_lt' (by change k < 256; omega)
    obtain ⟨small, one⟩ | ⟨b, tail, more, high, large⟩ := utf8EncodeChar_cases c
    · rw [one, List.cons_append, List.head?_cons, Option.some_inj]
      constructor
      · intro same
        have := congrArg UInt8.toNat same
        rw [byte, UInt8.toNat_ofNat_of_lt' (by change _ < 256; omega)] at this
        rw [← this, Char.ofNat_toNat]
      · rintro rfl
        rw [toNat_charOfNat (by omega)]
    · rw [more, List.cons_append, List.head?_cons, Option.some_inj]
      constructor
      · rintro rfl
        omega
      · rintro rfl
        rw [toNat_charOfNat (by omega)] at large
        omega

theorem ofLetter?_eq_none (large : 128 ≤ c.toNat) : TypeTag.ofLetter? c = none := by
  rw [TypeTag.ofLetter?, List.find?_eq_none]
  intro t _ same
  rw [decide_eq_true_eq] at same
  subst same
  revert large
  cases t <;> decide

/-- The letter of a type can be read from the first byte alone. -/
theorem ofLetter?_head? (s : List Char) :
    ((bytes s).head?.bind fun b => TypeTag.ofLetter? (Char.ofNat b.toNat)) =
      s.head?.bind TypeTag.ofLetter? := by
  cases s with
  | nil => rfl
  | cons c s =>
    rw [bytes_cons]
    obtain ⟨small, one⟩ | ⟨b, tail, more, high, large⟩ := utf8EncodeChar_cases c
    · rw [one]
      change TypeTag.ofLetter? (Char.ofNat (UInt8.ofNat c.toNat).toNat) = _
      rw [UInt8.toNat_ofNat_of_lt' (by change _ < 256; omega), Char.ofNat_toNat]
      rfl
    · rw [more]
      change TypeTag.ofLetter? (Char.ofNat b.toNat) = TypeTag.ofLetter? c
      rw [ofLetter?_eq_none large,
        ofLetter?_eq_none (by rw [toNat_charOfNat b.toNat_lt]; exact high)]

theorem bytes_brackets_length (n : Nat) : (bytes (List.replicate n '[')).length = n := by
  induction n with
  | zero => rfl
  | succ n ih => exact congrArg (· + 1) ih

/-- As many bytes as characters are brackets. -/
theorem takeWhile_bytes (s : List Char) :
    ∃ n s', s = List.replicate n '[' ++ s' ∧ s'.head? ≠ some '[' ∧
      ((bytes s).takeWhile (· = 0x5B)).length = n := by
  induction s with
  | nil => exact ⟨0, [], rfl, by simp, rfl⟩
  | cons c s ih =>
    by_cases bracket : c = '['
    · subst bracket
      obtain ⟨n, s', rfl, ends, count⟩ := ih
      refine ⟨n + 1, s', rfl, ends, ?_⟩
      change ((0x5B :: bytes _).takeWhile _).length = _
      rw [List.takeWhile_cons_of_pos (by decide), List.length_cons, count]
    · refine ⟨0, c :: s, rfl, by simpa using bracket, ?_⟩
      have first : (bytes (c :: s)).head? ≠ some 0x5B := fun same =>
        bracket (by simpa using (head?_bytes (k := 0x5B) (by decide)).1 same)
      cases whole : bytes (c :: s) with
      | nil => rfl
      | cons b tail =>
        rw [whole] at first
        rw [List.takeWhile_cons_of_neg (by simpa using first), List.length_nil]

/-! ## Positions -/

/-- The characters begin at the byte position in the text and are the rest of it. -/
def Stands (text : List Char) (pos : Nat) (s : List Char) : Prop :=
  ∃ before, text = before ++ s ∧ pos = (bytes before).length

theorem Stands.start (text : List Char) : Stands text 0 text := ⟨[], rfl, rfl⟩

namespace Stands

theorem skip (h : Stands text pos (d ++ rest)) (n : Nat) (length : n = (bytes d).length) :
    Stands text (pos + n) rest := by
  obtain ⟨before, rfl, rfl⟩ := h
  refine ⟨before ++ d, by rw [List.append_assoc], ?_⟩
  rw [bytes_append, List.length_append, length]

theorem drop (h : Stands text pos s) : (bytes text).drop pos = bytes s := by
  obtain ⟨before, rfl, rfl⟩ := h
  rw [bytes_append, List.drop_left]

theorem getElem? (h : Stands text pos s) : (bytes text)[pos]? = (bytes s).head? := by
  rw [← h.drop, List.head?_drop]

theorem ended (h : Stands text pos s) : pos = (bytes text).length ↔ s = [] := by
  obtain ⟨before, rfl, rfl⟩ := h
  rw [bytes_append, List.length_append]
  constructor
  · intro all
    cases s with
    | nil => rfl
    | cons c s => exact absurd (List.length_eq_zero_iff.1 (by omega)) (bytes_ne_nil c s)
  · rintro rfl
    rfl

theorem length_le (h : Stands text pos s) : s.length ≤ text.length := by
  obtain ⟨before, rfl, -⟩ := h
  rw [List.length_append]
  exact Nat.le_add_left _ _

theorem slice (h : Stands text pos s) : sliceFrom? text pos = some s := by
  obtain ⟨before, rfl, rfl⟩ := h
  induction before with
  | nil => cases s <;> rfl
  | cons c before ih =>
    have size := c.utf8Size_pos
    rw [bytes_cons, List.length_append, String.length_utf8EncodeChar]
    obtain ⟨n, hn⟩ := Nat.exists_eq_add_of_lt size
    obtain ⟨k, hk⟩ : ∃ k, c.utf8Size + (bytes before).length = k + 1 :=
      ⟨c.utf8Size + (bytes before).length - 1, by omega⟩
    rw [hk, List.cons_append, sliceFrom?, if_pos (by omega), ← hk, Nat.add_sub_cancel_left, ih]

end Stands

/-! ## Names of classes -/

theorem semicolon?_cases (s : List Char) :
    semicolon? s = none ∧ ';' ∉ s ∨
      ∃ name rest, s = name ++ ';' :: rest ∧ ';' ∉ name ∧
        semicolon? s = some (bytes name).length := by
  induction s with
  | nil => exact .inl ⟨rfl, List.not_mem_nil⟩
  | cons c s ih =>
    rw [semicolon?]
    by_cases same : c = ';'
    · subst same
      exact .inr ⟨[], s, rfl, List.not_mem_nil, rfl⟩
    · have other : ';' ≠ c := fun h => same h.symm
      rw [if_neg same]
      obtain ⟨absent, nowhere⟩ | ⟨name, rest, rfl, closed, found⟩ := ih
      · rw [absent]
        exact .inl ⟨rfl, by simp [other, nowhere]⟩
      · rw [found]
        refine .inr ⟨c :: name, rest, rfl, by simp [other, closed], ?_⟩
        rw [bytes_cons, List.length_append, String.length_utf8EncodeChar]
        rfl

theorem className?_eq_none (nowhere : ';' ∉ s) : className? s = none := by
  cases found : className? s with
  | none => rfl
  | some rest =>
    obtain ⟨name, -, -, rfl⟩ := exists_of_className? found
    simp at nowhere

theorem className?_semicolon (rest : List Char) : className? (';' :: rest) = none := by
  cases found : className? (';' :: rest) with
  | none => rfl
  | some rest' =>
    obtain ⟨name, named, closed, whole⟩ := exists_of_className? found
    obtain ⟨c, name, rfl⟩ := List.exists_cons_of_ne_nil named
    rw [List.cons_append, List.cons.injEq] at whole
    simp [← whole.1] at closed

/-! ## One type -/

/-- A scan comes to what the parser found, and stands where the parser goes on. -/
def Agrees {α : Type} (text : List Char) :
    Option (α × List Char) → Except Fault (α × Nat) → Prop
  | none, scanned => scanned = .error .malformed
  | some (x, rest), scanned => ∃ next, scanned = .ok (x, next) ∧ Stands text next rest

theorem Agrees.bind {α β : Type} {found : Option (α × List Char)}
    {scanned : Except Fault (α × Nat)} {f : α × List Char → Option (β × List Char)}
    {g : α × Nat → Except Fault (β × Nat)} (h : Agrees text found scanned)
    (goes : ∀ x rest next, found = some (x, rest) → Stands text next rest →
      Agrees text (f (x, rest)) (g (x, next))) :
    Agrees text (found.bind f) (scanned.bind g) := by
  cases found with
  | none =>
    cases h
    exact rfl
  | some x =>
    obtain ⟨next, rfl, stands⟩ := h
    exact goes _ _ _ rfl stands

theorem typeFrom?_brackets (n : Nat) (s : List Char) :
    typeFrom? true (List.replicate n '[' ++ s) = typeFrom? true s := by
  induction n with
  | zero => rfl
  | succ n ih => exact ih

/-- Behind brackets the type of the elements is read, and then given up. -/
theorem typeFrom?_true (s : List Char) : typeFrom? true s =
    (typeFrom? false s).bind fun (t, rest) => if t = .void then none else some (.array, rest) := by
  cases found : typeFrom? false s with
  | none =>
    cases other : typeFrom? true s with
    | none => rfl
    | some x =>
      obtain ⟨d, t, rfl, of, -⟩ | ⟨no, -⟩ := descriptor_of_typeFrom? other
      · rw [typeFrom?_of_descriptor of] at found
        cases found
      · cases no
  | some x =>
    obtain ⟨t, rest⟩ := x
    obtain ⟨d, t, rfl, of, rfl⟩ | ⟨-, rfl, rfl⟩ := descriptor_of_typeFrom? found
    · rw [typeFrom?_of_descriptor of]
      simp [of.ne_void]
    · rfl

theorem Stands.objectAt (h : Stands text pos s) :
    Agrees text ((className? s).map (TypeTag.object, ·)) (objectAt text pos) := by
  unfold Scan.objectAt
  rw [h.slice]
  dsimp only
  obtain ⟨absent, nowhere⟩ | ⟨name, rest, rfl, closed, first⟩ := semicolon?_cases s
  · rw [absent, className?_eq_none nowhere]
    exact rfl
  · rw [first]
    cases name with
    | nil =>
      rw [List.nil_append, className?_semicolon]
      exact rfl
    | cons c name =>
      obtain ⟨n, count⟩ := Nat.exists_eq_succ_of_ne_zero fun none =>
        bytes_ne_nil c name (List.length_eq_zero_iff.1 none)
      rw [className?_append (List.cons_ne_nil _ _) closed, count]
      have after := h.skip _ count.symm
      exact ⟨_, rfl, Stands.skip (d := [';']) after 1 rfl⟩

/-- Where the text goes on with the characters, the scanner reads the type that the parser reads
    from them. -/
theorem Stands.typeAt (h : Stands text pos s) (enough : s.length < steps) :
    Agrees text (typeFrom? false s) (typeAt text steps pos) := by
  induction steps generalizing pos s with
  | zero => omega
  | succ steps ih =>
    rw [Scan.typeAt, h.getElem?, ofLetter?_head?]
    cases s with
    | nil => exact rfl
    | cons c s =>
      rw [List.head?_cons, Option.bind_some]
      cases found : TypeTag.ofLetter? c with
      | none => rw [typeFrom?, found]; exact rfl
      | some t =>
        have behind : Stands text (pos + 1) s := by
          refine Stands.skip (d := [c]) h 1 ?_
          rw [← TypeTag.letter_of_ofLetter? found]
          cases t <;> rfl
        cases t with
        | object =>
          rw [typeFrom?, found]
          exact behind.objectAt
        | array =>
          have bracket : c = '[' := (TypeTag.letter_of_ofLetter? found).symm
          subst bracket
          obtain ⟨n, s', whole, ends, count⟩ := takeWhile_bytes ('[' :: s)
          cases n with
          | zero =>
            rw [List.replicate_zero, List.nil_append] at whole
            exact absurd (congrArg List.head? whole.symm) ends
          | succ n =>
            rw [List.replicate_succ, List.cons_append, List.cons.injEq] at whole
            obtain ⟨-, rfl⟩ := whole
            dsimp only
            rw [h.drop, count]
            have there : Stands text (pos + (n + 1)) s' := by
              refine Stands.skip (d := List.replicate (n + 1) '[') h _ ?_
              rw [bytes_brackets_length]
            have shorter : s'.length < steps := by
              simp only [List.length_cons, List.length_append] at enough
              omega
            rw [typeFrom?, found]
            dsimp only
            rw [typeFrom?_brackets, typeFrom?_true]
            refine (ih there shorter).bind fun t rest next _ stands => ?_
            dsimp only
            split
            · exact rfl
            · exact ⟨next, rfl, stands⟩
        | _ =>
          rw [typeFrom?, found]
          exact ⟨pos + 1, rfl, behind⟩

theorem length_lt_of_typeFrom? {brackets : Bool} {t : TypeTag}
    (h : typeFrom? brackets s = some (t, rest)) : rest.length < s.length := by
  obtain ⟨d, t', rfl, of, -⟩ | ⟨-, -, rfl⟩ := descriptor_of_typeFrom? h
  · obtain ⟨c, d, rfl, -⟩ := of.exists_cons
    simp only [List.cons_append, List.length_cons, List.length_append]
    omega
  · simp

/-! ## Parameters -/

/-- The parser of parameters in the words of the scanner. -/
theorem parametersFrom?_succ (n : Nat) (s : List Char) : parametersFrom? (n + 1) s =
    if s.head? = some ')' then some ([], s.tail) else
      (typeFrom? false s).bind fun (t, rest) => if t = .void then none else
        (parametersFrom? n rest).bind fun (ts, rest) => some (t :: ts, rest) := by
  cases s with
  | nil => rfl
  | cons c s =>
    by_cases ends : c = ')'
    · subst ends
      rfl
    · rw [parametersFrom?.eq_4 _ _ (List.cons_ne_nil _ _) (by simpa using ends),
        if_neg (by simpa using ends)]
      cases found : typeFrom? false (c :: s) with
      | none => rfl
      | some x =>
        obtain ⟨t, rest⟩ := x
        cases t <;> first | rfl | exact Option.map_eq_bind

theorem Stands.parametersAt (h : Stands text pos s) (enough : s.length < steps) {limit : Nat}
    (bound : s.length < limit) :
    Agrees text (parametersFrom? limit s) (parametersAt text steps pos) := by
  induction steps generalizing pos s limit with
  | zero => omega
  | succ steps ih =>
    obtain ⟨limit, rfl⟩ := Nat.exists_eq_succ_of_ne_zero (Nat.ne_zero_of_lt bound)
    rw [parametersFrom?_succ, Scan.parametersAt, h.getElem?]
    have closing : (bytes s).head? = some 0x29 ↔ s.head? = some ')' := head?_bytes (by decide)
    cases first : (bytes s).head? with
    | none =>
      cases s with
      | nil => exact rfl
      | cons c s => exact absurd (List.head?_eq_none_iff.1 first) (bytes_ne_nil c s)
    | some b =>
      rw [first, Option.some_inj] at closing
      dsimp only
      by_cases ends : s.head? = some ')'
      · obtain ⟨s, rfl⟩ := List.head?_eq_some_iff.1 ends
        rw [if_pos ends, if_pos (closing.2 ends)]
        exact ⟨_, rfl, Stands.skip (d := [')']) h 1 rfl⟩
      · rw [if_neg ends, if_neg (ends ∘ closing.1)]
        refine (h.typeAt enough).bind fun t rest next found stands => ?_
        have shorter := length_lt_of_typeFrom? found
        dsimp only
        split
        · exact rfl
        · refine (ih stands (by omega) (by omega)).bind fun ts rest next _ stands => ?_
          exact ⟨next, rfl, stands⟩

/-! ## Whole texts -/

theorem length_le (s : List Char) : s.length ≤ (bytes s).length := by
  induction s with
  | nil => exact Nat.le_refl 0
  | cons c s ih =>
    have := c.utf8Size_pos
    rw [bytes_cons, List.length_append, String.length_utf8EncodeChar, List.length_cons]
    omega

/-- What a parser of characters decides, in the words of a scan. -/
def ofParser {α : Type} : Option α → Except Fault α
  | some x => .ok x
  | none => .error .malformed

theorem Agrees.finish {α β : Type} {found : Option (α × List Char)}
    {scanned : Except Fault (α × Nat)} {f : α × List Char → Option β} {g : α × Nat → Except Fault β}
    (h : Agrees text found scanned)
    (ends : ∀ x rest next, Stands text next rest → g (x, next) = ofParser (f (x, rest))) :
    scanned.bind g = ofParser (found.bind f) := by
  cases found with
  | none =>
    cases h
    rfl
  | some x =>
    obtain ⟨next, rfl, stands⟩ := h
    exact ends _ _ _ stands

/-- The scan of a field descriptor ends, cuts no character and comes to what the parser finds. -/
theorem field_eq {text : String} (enough : (bytes text.toList).length < steps) :
    field steps text = ofParser (fieldType? text) := by
  have parser : fieldType? text = (typeFrom? false text.toList).bind fun (t, rest) =>
      if rest = [] ∧ t ≠ .void then some t else none := by
    unfold fieldType?
    cases typeFrom? false text.toList with
    | none => rfl
    | some x =>
      obtain ⟨t, rest⟩ := x
      cases t <;> cases rest <;> rfl
  rw [parser]
  refine ((Stands.start text.toList).typeAt (by have := length_le text.toList; omega)).finish
    fun t rest next stands => ?_
  simp only [stands.ended]
  split <;> rfl

/-- The scan of a method descriptor ends, cuts no character and comes to what the parser finds. -/
theorem method_eq {text : String} (enough : (bytes text.toList).length < steps) :
    method steps text = ofParser (MethodDescriptor.ofText? text) := by
  have opening : (bytes text.toList)[0]? = some 0x28 ↔ text.toList.head? = some '(' := by
    rw [← List.head?_eq_getElem?]
    exact head?_bytes (by decide)
  have short := length_le text.toList
  unfold method MethodDescriptor.ofText?
  by_cases opens : text.toList.head? = some '('
  · rw [if_pos (opening.2 opens)]
    obtain ⟨s, whole⟩ := List.head?_eq_some_iff.1 opens
    rw [whole] at short enough ⊢
    have behind : Stands ('(' :: s) 1 s := Stands.skip (d := ['(']) (.start _) 1 rfl
    refine (behind.parametersAt ?_ (Nat.lt_succ_self s.length)).finish
      fun ts rest next stands => ?_
    · rw [List.length_cons] at short
      omega
    · have shorter := stands.length_le
      have agrees := stands.typeAt (show rest.length < steps by omega)
      dsimp only
      generalize typeFrom? false rest = found at agrees ⊢
      cases found with
      | none =>
        rw [show typeAt ('(' :: s) steps next = .error .malformed from agrees]
        rfl
      | some x =>
        obtain ⟨result, left⟩ := x
        obtain ⟨stop, scanned, ends⟩ := agrees
        rw [scanned]
        refine (if_congr ends.ended rfl rfl).trans ?_
        cases left <;> rfl
  · rw [if_neg (opens ∘ opening.1)]
    split
    · simp_all
    · rfl

end Scan

/-- The texts that can be parsed are those of the grammar, and the types are those it gives, each
    with its words. A scan at byte positions with more steps than there are bytes comes to the same
    result: it is never out of steps and cuts no character. -/
theorem descriptors_follow_grammar (text : String) :
    ((MethodDescriptor.ofText? text).isSome ↔ ∃ ts t, MethodSignature text.toList ts t) ∧
      (∀ ts t, MethodSignature text.toList ts t ↔
        ∃ d, MethodDescriptor.ofText? text = some d ∧ d.text = text ∧ d.parameters = ts ∧
          d.result = t ∧
          d.parameterWords = (ts.map fun t => if t = .long ∨ t = .double then 2 else 1).sum) ∧
      (∀ t, fieldType? text = some t ↔ FieldDescriptor text.toList t) ∧
      ∀ more, let steps := (Scan.bytes text.toList).length + 1 + more
        Scan.method steps text = Scan.ofParser (MethodDescriptor.ofText? text) ∧
          Scan.field steps text = Scan.ofParser (fieldType? text) := by
  have parsed : ∀ ts t, MethodSignature text.toList ts t ↔
      MethodDescriptor.ofText? text = some ⟨text, ts, t⟩ := fun ts t => by
    rw [MethodDescriptor.ofText?_eq_some]
    exact ⟨fun of => ⟨rfl, of⟩, And.right⟩
  refine ⟨?_, fun ts t => ⟨fun of => ?_, ?_⟩, fun t => fieldType?_eq_some, fun more => ?_⟩
  · rw [Option.isSome_iff_exists]
    constructor
    · rintro ⟨d, found⟩
      exact ⟨_, _, (MethodDescriptor.ofText?_eq_some.1 found).2⟩
    · rintro ⟨ts, t, of⟩
      exact ⟨_, (parsed ts t).1 of⟩
  · refine ⟨⟨text, ts, t⟩, (parsed ts t).1 of, rfl, rfl, rfl, ?_⟩
    obtain ⟨d, fields⟩ := of.fields
    exact MethodDescriptor.parameterWords_eq_sum fields
  · rintro ⟨d, found, rfl, rfl, rfl, -⟩
    exact (MethodDescriptor.ofText?_eq_some.1 found).2
  · exact ⟨Scan.method_eq (by omega), Scan.field_eq (by omega)⟩

/-- Characters of several bytes may stand in the name of a class, and only there. -/
example : (MethodDescriptor.ofText? "(JL☃;[[I)V").map (·.parameters) =
    some [.long, .object, .array] ∧ MethodDescriptor.ofText? "(☃)V" = none := by
  decide

end TemplateVm
