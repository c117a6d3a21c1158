import TemplateVm.Class.Descriptor
import Mathlib.Algebra.GroupWithZero.Nat
import Mathlib.Data.List.TakeDrop
import Mathlib.Data.List.TakeWhile

set_option autoImplicit false

/-!
# The grammar of descriptors

What a descriptor is can be said without a parser: a letter for a primitive type, the name of a
class between `L` and a semicolon, or a bracket before the descriptor of the elements. The parsers
accept these texts and no others, and hand out the types that the grammar gives them.
-/
namespace TemplateVm

/-- The letters that are descriptors on their own. -/
def primitiveLetters : List (Char × TypeTag) :=
  [('B', .byte), ('C', .char), ('D', .double), ('F', .float), ('I', .int), ('J', .long),
    ('S', .short), ('Z', .boolean)]

/-- The texts that name one type of a field, with this type. Of an array nothing is kept about its
    elements. -/
inductive FieldDescriptor : List Char → TypeTag → Prop
  | primitive {c : Char} {t : TypeTag} (letter : (c, t) ∈ primitiveLetters) :
      FieldDescriptor [c] t
  | object {name : List Char} (named : name ≠ []) (closed : ';' ∉ name) :
      FieldDescriptor ('L' :: name ++ [';']) .object
  | array {element : List Char} {t : TypeTag} (of : FieldDescriptor element t) :
      FieldDescriptor ('[' :: element) .array

/-- Field descriptors one behind the other, with their types in order. -/
inductive FieldDescriptors : List Char → List TypeTag → Prop
  | nil : FieldDescriptors [] []
  | cons {s s' : List Char} {t : TypeTag} {ts : List TypeTag} (first : FieldDescriptor s t)
      (others : FieldDescriptors s' ts) : FieldDescriptors (s ++ s') (t :: ts)

/-- The texts that name the type of a result. -/
inductive ResultDescriptor : List Char → TypeTag → Prop
  | field {s : List Char} {t : TypeTag} (of : FieldDescriptor s t) : ResultDescriptor s t
  | void : ResultDescriptor ['V'] .void

/-- The texts of method descriptors, with the types of the parameters and of the result. -/
inductive MethodSignature : List Char → List TypeTag → TypeTag → Prop
  | of {s r : List Char} {ts : List TypeTag} {t : TypeTag} (parameters : FieldDescriptors s ts)
      (result : ResultDescriptor r t) : MethodSignature ('(' :: s ++ ')' :: r) ts t

variable {c : Char} {t : TypeTag} {ts : List TypeTag} {s d rest : List Char} {brackets : Bool}

/-! ## Letters -/

theorem TypeTag.ofLetter?_letter (t : TypeTag) : ofLetter? t.letter = some t := by
  cases t <;> rfl

theorem TypeTag.letter_of_ofLetter? (h : ofLetter? c = some t) : t.letter = c := by
  simpa using List.find?_some h

theorem mem_primitiveLetters : (c, t) ∈ primitiveLetters ↔
    c = t.letter ∧ t ≠ .object ∧ t ≠ .array ∧ t ≠ .void := by
  cases t <;> simp [primitiveLetters, TypeTag.letter]

/-! ## One type -/

theorem className?_append {name : List Char} (named : name ≠ []) (closed : ';' ∉ name) :
    className? (name ++ ';' :: rest) = some rest := by
  have all : ∀ c ∈ name, decide (c ≠ ';') = true := fun c inside =>
    decide_eq_true fun same => closed (same ▸ inside)
  have cut : (name ++ ';' :: rest).span (· ≠ ';') = (name, ';' :: rest) := by
    rw [List.span_eq_takeWhile_dropWhile, List.takeWhile_append_of_pos all,
      List.dropWhile_append_of_pos all]
    simp
  obtain ⟨c, name, rfl⟩ := List.exists_cons_of_ne_nil named
  simp only [className?, cut]

theorem exists_of_className? (h : className? s = some rest) :
    ∃ name, name ≠ [] ∧ ';' ∉ name ∧ s = name ++ ';' :: rest := by
  unfold className? at h
  split at h
  case h_2 => cases h
  case h_1 c name rest' cut =>
    cases h
    rw [List.span_eq_takeWhile_dropWhile, Prod.mk.injEq] at cut
    refine ⟨c :: name, List.cons_ne_nil _ _, fun inside => ?_, ?_⟩
    · rw [← cut.1] at inside
      simpa using List.mem_takeWhile_imp inside
    · rw [← cut.1, ← cut.2, List.takeWhile_append_dropWhile]

/-- Behind a bracket every type is the type of an array. -/
theorem typeFrom?_of_descriptor (of : FieldDescriptor d t) (brackets : Bool) (rest : List Char) :
    typeFrom? brackets (d ++ rest) = some (if brackets then .array else t, rest) := by
  induction of generalizing brackets with
  | @primitive c t letter =>
    obtain ⟨rfl, nobject, narray, nvoid⟩ := mem_primitiveLetters.1 letter
    rw [List.singleton_append, typeFrom?, TypeTag.ofLetter?_letter]
    cases t <;> trivial
  | @object name named closed =>
    have cut : className? (name ++ [';'] ++ rest) = some rest := by
      rw [List.append_assoc]
      exact className?_append named closed
    change (className? (name ++ [';'] ++ rest)).map _ = _
    rw [cut, Option.map_some]
  | array _ ih =>
    change typeFrom? true (_ ++ rest) = _
    rw [ih true]
    cases brackets <;> rfl

/-- What the parser splits off is a descriptor, or void where nothing is before it. -/
theorem descriptor_of_typeFrom? (h : typeFrom? brackets s = some (t, rest)) :
    (∃ d t', s = d ++ rest ∧ FieldDescriptor d t' ∧ t = if brackets then .array else t') ∨
      brackets = false ∧ t = .void ∧ s = 'V' :: rest := by
  induction s generalizing brackets with
  | nil => cases h
  | cons c s ih =>
    rw [typeFrom?] at h
    cases found : TypeTag.ofLetter? c with
    | none => simp [found] at h
    | some u =>
      have letter := TypeTag.letter_of_ofLetter? found
      subst letter
      rw [found] at h
      cases u with
      | object =>
        obtain ⟨rest', cut, same⟩ := Option.map_eq_some_iff.1 h
        obtain ⟨rfl, rfl⟩ := Prod.mk.injEq .. ▸ same
        obtain ⟨name, named, closed, rfl⟩ := exists_of_className? cut
        exact .inl ⟨'L' :: name ++ [';'], .object, by simp [TypeTag.letter],
          .object named closed, rfl⟩
      | array =>
        obtain ⟨d, t', rfl, of, rfl⟩ | ⟨no, -⟩ := ih h
        · exact .inl ⟨'[' :: d, .array, rfl, .array of, by cases brackets <;> rfl⟩
        · cases no
      | void =>
        cases brackets
        · cases h
          exact .inr ⟨rfl, rfl, rfl⟩
        · cases h
      | _ =>
        cases h
        exact .inl ⟨[_], _, rfl, .primitive (mem_primitiveLetters.2 (by decide)), rfl⟩

theorem FieldDescriptor.ne_void (of : FieldDescriptor d t) : t ≠ .void := by
  cases of with
  | primitive letter => exact (mem_primitiveLetters.1 letter).2.2.2
  | object | array => exact TypeTag.noConfusion

/-- No descriptor begins like the end of the parameters or like void. -/
theorem FieldDescriptor.exists_cons (of : FieldDescriptor d t) :
    ∃ c d', d = c :: d' ∧ c ≠ ')' ∧ c ≠ 'V' := by
  cases of with
  | @primitive c _ letter =>
    obtain ⟨rfl, -, -, nvoid⟩ := mem_primitiveLetters.1 letter
    exact ⟨_, [], rfl, by revert nvoid; cases t <;> decide, by revert nvoid; cases t <;> decide⟩
  | object => exact ⟨'L', _, rfl, by decide, by decide⟩
  | array => exact ⟨'[', _, rfl, by decide, by decide⟩

/-- The parser of field descriptors accepts the field descriptors, with their types. -/
theorem fieldType?_eq_some {text : String} :
    fieldType? text = some t ↔ FieldDescriptor text.toList t := by
  constructor
  · intro h
    unfold fieldType? at h
    split at h
    case h_1 => cases h
    case h_3 => cases h
    case h_2 void found =>
      cases h
      obtain ⟨d, t', whole, of, rfl⟩ | ⟨-, rfl, -⟩ := descriptor_of_typeFrom? found
      · rw [whole, List.append_nil]
        exact of
      · exact (void rfl).elim
  · intro of
    have found := typeFrom?_of_descriptor of false []
    rw [List.append_nil] at found
    rw [fieldType?, found]
    cases t <;> first | rfl | exact absurd rfl of.ne_void

/-! ## A method -/

theorem parametersFrom?_cons {n : Nat} (ne : c ≠ ')') (nvoid : t ≠ .void)
    (found : typeFrom? false (c :: s) = some (t, rest)) :
    parametersFrom? (n + 1) (c :: s) =
      (parametersFrom? n rest).map fun (ts, rest) => (t :: ts, rest) := by
  rw [parametersFrom?.eq_4 _ _ (List.cons_ne_nil _ _) (by simpa using ne), found]
  cases t <;> first | rfl | exact absurd rfl nvoid

theorem parametersFrom?_of_descriptors (of : FieldDescriptors d ts) {limit : Nat}
    (enough : d.length < limit) (rest : List Char) :
    parametersFrom? limit (d ++ ')' :: rest) = some (ts, rest) := by
  induction of generalizing limit with
  | nil =>
    obtain ⟨n, rfl⟩ := Nat.exists_eq_add_of_lt enough
    rfl
  | @cons s s' t ts first others ih =>
    obtain ⟨n, rfl⟩ := Nat.exists_eq_succ_of_ne_zero (Nat.ne_zero_of_lt enough)
    obtain ⟨c, d', rfl, ne, -⟩ := first.exists_cons
    have shorter : s'.length < n := by
      simp only [List.length_append, List.length_cons] at enough
      omega
    have found := typeFrom?_of_descriptor first false (s' ++ ')' :: rest)
    rw [List.append_assoc]
    exact (parametersFrom?_cons ne first.ne_void found).trans (by rw [ih shorter]; rfl)

theorem descriptors_of_parametersFrom? {limit : Nat}
    (h : parametersFrom? limit s = some (ts, rest)) :
    ∃ d, s = d ++ ')' :: rest ∧ FieldDescriptors d ts := by
  induction limit generalizing s ts with
  | zero => cases h
  | succ n ih =>
    unfold parametersFrom? at h
    split at h
    · cases h
    · cases h
      exact ⟨[], rfl, .nil⟩
    · split at h
      · cases h
      · cases h
      · rename_i t rest' nvoid found
        obtain ⟨⟨ts', rest''⟩, others, same⟩ := Option.map_eq_some_iff.1 h
        cases same
        obtain ⟨d', rfl, of⟩ := ih others
        obtain ⟨d, t', whole, first, rfl⟩ | ⟨-, rfl, -⟩ := descriptor_of_typeFrom? found
        · exact ⟨d ++ d', by rw [whole, List.append_assoc], .cons first of⟩
        · exact (nvoid rfl).elim

theorem resultDescriptor_iff : ResultDescriptor s t ↔ typeFrom? false s = some (t, []) := by
  constructor
  · rintro (of | _)
    · simpa using typeFrom?_of_descriptor of false []
    · rfl
  · intro found
    obtain ⟨d, t', rfl, of, rfl⟩ | ⟨-, rfl, rfl⟩ := descriptor_of_typeFrom? found
    · rw [List.append_nil]
      exact .field of
    · exact .void

/-- The parser of method descriptors accepts the texts of the grammar, with their types. -/
theorem MethodDescriptor.ofText?_eq_some {text : String} {d : MethodDescriptor} :
    ofText? text = some d ↔ d.text = text ∧ MethodSignature text.toList d.parameters d.result := by
  constructor
  · intro h
    unfold ofText? at h
    split at h
    case h_2 => cases h
    case h_1 s whole =>
      obtain ⟨⟨ts, rest⟩, parsed, h⟩ := Option.bind_eq_some_iff.1 h
      dsimp only at h
      split at h
      case h_2 => cases h
      case h_1 t found =>
        cases h
        obtain ⟨ps, rfl, of⟩ := descriptors_of_parametersFrom? parsed
        exact ⟨rfl, whole ▸ .of of (resultDescriptor_iff.2 found)⟩
  · rintro ⟨rfl, of⟩
    obtain ⟨text, ts, t⟩ := d
    dsimp only at of ⊢
    generalize whole : text.toList = s at of
    cases of with
    | @of s r _ _ parameters result =>
      have parsed : parametersFrom? ((s ++ ')' :: r).length + 1) (s ++ ')' :: r) = some (_, r) :=
        parametersFrom?_of_descriptors parameters
          (Nat.lt_succ_of_le (List.length_append ▸ Nat.le_add_right _ _)) r
      have found := resultDescriptor_iff.1 result
      simp only [ofText?, whole, List.cons_append, parsed, found, Option.bind_eq_bind,
        Option.bind_some]

theorem FieldDescriptors.void_notMem (of : FieldDescriptors d ts) : .void ∉ ts := by
  induction of with
  | nil => exact List.not_mem_nil
  | cons first _ ih => exact fun h => (List.mem_cons.1 h).elim (first.ne_void ·.symm) ih

theorem MethodSignature.fields (of : MethodSignature s ts t) : ∃ d, FieldDescriptors d ts := by
  cases of with
  | of parameters => exact ⟨_, parameters⟩

/-- No parameter of a method is void. -/
theorem MethodDescriptor.void_notMem {text : String} {d : MethodDescriptor}
    (h : ofText? text = some d) : .void ∉ d.parameters := by
  obtain ⟨s, parameters⟩ := (ofText?_eq_some.1 h).2.fields
  exact parameters.void_notMem

/-- Parameters of type `long` and `double` take two words, all others one. -/
theorem MethodDescriptor.parameterWords_eq_sum {d : MethodDescriptor}
    (of : FieldDescriptors s d.parameters) : d.parameterWords =
      (d.parameters.map fun t => if t = .long ∨ t = .double then 2 else 1).sum := by
  have each : ∀ t ∈ d.parameters, t.words = if t = .long ∨ t = .double then 2 else 1 := by
    intro t inside
    have nvoid : t ≠ .void := fun same => of.void_notMem (same ▸ inside)
    cases t <;> first | rfl | exact absurd rfl nvoid
  rw [← List.map_congr_left each, List.sum_eq_foldl, List.foldl_map]
  rfl

end TemplateVm
