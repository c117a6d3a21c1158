import TemplateVm.Proofs.Memory.Regions

set_option autoImplicit false

/-!
# Copies of ranges

Bytes that are read from one range and written to another are found there in their order.
-/
namespace TemplateVm.Memory

variable {b b' : ByteArray} {i j k n w : Nat}

/-! ## Lists of bytes -/

theorem toList_loop (b : ByteArray) (i : Nat) (r : List UInt8) :
    ByteArray.toList.loop b i r = r.reverse ++ b.data.toList.drop i := by
  induction n : b.size - i generalizing i r with
  | zero =>
    unfold ByteArray.toList.loop
    have size : b.data.toList.length = b.size := Array.length_toList
    rw [if_neg (by omega), List.drop_of_length_le (by omega), List.append_nil]
  | succ n ih =>
    unfold ByteArray.toList.loop
    have size : b.data.toList.length = b.size := Array.length_toList
    have inside : i < b.data.toList.length := by omega
    have first : b.get! i = b.data.toList[i] := by
      simp [ByteArray.get!, getElem!_pos b.data i (by change i < b.size; omega)]
    rw [if_pos (by omega), ih (i + 1) _ (by omega), List.reverse_cons, List.append_assoc, first,
      List.singleton_append, List.getElem_cons_drop]

theorem toList_eq (b : ByteArray) : b.toList = b.data.toList := by
  simp [ByteArray.toList, toList_loop]

theorem length_bytesFrom (h : i + n ≤ b.size) : (bytesFrom b i n).length = n := by
  have size : b.data.size = b.size := rfl
  simp only [bytesFrom, toList_eq, ByteArray.data_extract, Array.length_toList, Array.size_extract,
    size]
  omega

theorem getElem?_bytesFrom (h : i + n ≤ b.size) (hk : k < n) :
    (bytesFrom b i n)[k]? = some (byteAt b (i + k)) := by
  have size : b.data.size = b.size := rfl
  have inside : i + k < b.size := by omega
  simp only [bytesFrom, toList_eq, ByteArray.data_extract, Array.getElem?_toList, byteAt, inside,
    ↓reduceDIte]
  rw [Array.getElem?_extract, if_pos (by omega), Array.getElem?_eq_getElem (by omega)]
  rfl

theorem byteAt_storeBytes {data : List UInt8} {byte : UInt8} (h : i + data.length ≤ b.size)
    (hk : data[k]? = some byte) : byteAt (storeBytes b i data) (i + k) = byte := by
  induction data generalizing b i k with
  | nil => simp at hk
  | cons v data ih =>
    rw [List.length_cons] at h
    rw [storeBytes]
    cases k with
    | zero =>
      rw [byteAt_storeBytes_of_not (by omega), byteAt_setByte, if_pos (by omega)]
      simpa using hk
    | succ k =>
      rw [show i + (k + 1) = i + 1 + k by omega]
      exact ih (by rw [size_setByte]; omega) (by simpa using hk)

theorem bytesFrom_eq {data : List UInt8} (inside : i + data.length ≤ b.size)
    (h : ∀ k byte, data[k]? = some byte → byteAt b (i + k) = byte) :
    bytesFrom b i data.length = data := by
  refine List.ext_getElem (length_bytesFrom inside) fun k hk hk' => ?_
  have found := getElem?_bytesFrom inside hk'
  rw [h k _ (List.getElem?_eq_getElem hk')] at found
  exact Option.some.inj ((List.getElem?_eq_getElem hk).symm.trans found)

theorem bytesFrom_storeBytes {data : List UInt8} (inside : i + data.length ≤ b.size) :
    bytesFrom (storeBytes b i data) i data.length = data :=
  bytesFrom_eq (by rw [size_storeBytes]; exact inside) fun _ _ => byteAt_storeBytes inside

theorem bytesFrom_congr (size : b'.size = b.size) (inside : i + n ≤ b.size)
    (same : ∀ j, i ≤ j → j < i + n → byteAt b' j = byteAt b j) :
    bytesFrom b' i n = bytesFrom b i n := by
  have length := length_bytesFrom inside
  have eq : bytesFrom b' i (bytesFrom b i n).length = bytesFrom b i n := bytesFrom_eq
    (by rw [length, size]; exact inside) fun k byte hk => ?_
  · rw [length] at eq
    exact eq
  · have lt := (List.getElem?_eq_some_iff.mp hk).1
    rw [length] at lt
    rw [getElem?_bytesFrom inside lt] at hk
    rw [same _ (Nat.le_add_right _ _) (by omega)]
    exact Option.some.inj hk

/-! ## Bytes and numbers -/

/-- Numbers that are the same have the same bytes. -/
theorem byteAt_of_load (hw : w ≤ 8) (h : load b' j w = load b i w) (hk : k < w) :
    byteAt b' (j + k) = byteAt b (i + k) := by
  induction w generalizing i j k with
  | zero => omega
  | succ w ih =>
    have same := congrArg UInt64.toNat h
    rw [load_succ (by omega), load_succ (by omega)] at same
    have first := (byteAt b i).toNat_lt
    have first' := (byteAt b' j).toNat_lt
    cases k with
    | zero => exact UInt8.toNat_inj.mp (by rw [Nat.add_zero, Nat.add_zero]; omega)
    | succ k =>
      rw [show i + (k + 1) = i + 1 + k by omega, show j + (k + 1) = j + 1 + k by omega]
      exact ih (by omega) (UInt64.toNat_inj.mp (by omega)) (by omega)

theorem eq_of_byteAt (size : b'.size = b.size) (h : ∀ j, byteAt b' j = byteAt b j) : b' = b := by
  refine ByteArray.ext_getElem size fun j hj hj' => ?_
  simpa [byteAt, hj, hj'] using h j

namespace Guarded

variable {m : Guarded} {a a' len : UInt64}

theorem Open.readBytesA (h : m.Open a len) :
    readBytesA a len m = .ok (bytesFrom m.bytes a.toNat len.toNat) m := by
  rw [Guarded.readBytesA, Guarded.readBytes, h .read]

/-- Bytes that could be written are there. -/
theorem writeBytes_holds {data : List UInt8} (small : data.length < 2 ^ 64) (m : Guarded) :
    Ends (fun _ m' => bytesFrom m'.bytes a.toNat data.length = data) (fun (_ : Failure) _ => True)
      (writeBytes a data m) := by
  unfold writeBytes
  cases fault : m.fault? a data.length.toUInt64 .write with
  | some _ => trivial
  | none =>
    have inside := (Open.of_fault? fault).inside
    have length : data.length.toUInt64.toNat = data.length := UInt64.toNat_ofNat_of_lt' small
    rw [length] at inside
    exact bytesFrom_storeBytes inside

/-- Numbers that are written one after the other, at places that are apart, are all there at the
    end, and what lies beside these places is as before. -/
theorem forM_write_holds {ι : Type} {l : List ι} {place value : ι → UInt64}
    (apart : l.Pairwise fun i j => (place i).toNat + 4 ≤ (place j).toNat) (m : Guarded) :
    Ends (fun _ m' =>
        (∀ i ∈ l, load m'.bytes (place i).toNat 4 = (value i).toUInt32.toUInt64) ∧
        ∀ a, (∀ i ∈ l, a + 4 ≤ (place i).toNat) → load m'.bytes a 4 = load m.bytes a 4)
      (fun (_ : Failure) _ => True) ((l.forM fun i => write (place i) 4 (value i)) m) := by
  have four : (4 : UInt64).toNat = 4 := rfl
  induction l generalizing m with
  | nil => exact ⟨fun _ none => absurd none List.not_mem_nil, fun _ _ => rfl⟩
  | cons i l ih =>
    obtain ⟨first, apart⟩ := List.pairwise_cons.mp apart
    have one : Ends (fun _ m' => m.Open (place i) 4 ∧ m' = m.put (place i) 4 (value i))
        (fun (_ : Failure) _ => True) (write (place i) 4 (value i) m) := by
      cases ran : write (place i) 4 (value i) m with
      | ok _ m' => exact of_write ran
      | error _ _ => trivial
    refine one.bind (fun _ _ _ => trivial) ?_
    rintro _ _ ⟨opened, rfl⟩
    refine (ih apart _).mono (fun _ m' ⟨each, rest⟩ => ⟨fun j hj => ?_, fun a below => ?_⟩)
      fun _ _ _ => trivial
    · rcases List.mem_cons.mp hj with rfl | hj
      · rw [rest _ first, load_put_word opened]
      · exact each j hj
    · rw [rest a fun j hj => below j (List.mem_cons_of_mem i hj)]
      exact load_put_of_disjoint (.inl (below i List.mem_cons_self))

/-- A range is copied to another. -/
theorem copy_ok (source : m.Open a len) (target : m.Open a' len) :
    ∃ m', (readBytesA a len >>= fun data => writeBytes a' data) m = .ok () m' ∧
      m.Changed m' a'.toNat (a'.toNat + len.toNat) ∧
      ∀ k < len.toNat, byteAt m'.bytes (a'.toNat + k) = byteAt m.bytes (a.toNat + k) := by
  have inside := source.inside
  have inside' := target.inside
  have length := length_bytesFrom inside
  have count : (bytesFrom m.bytes a.toNat len.toNat).length.toUInt64 = len := by
    rw [length]
    exact UInt64.ofNat_toNat
  refine ⟨m.putBytes a' (bytesFrom m.bytes a.toNat len.toNat), ?_, ?_, fun k hk => ?_⟩
  · change EStateM.bind _ _ m = _
    simp only [EStateM.bind, source.readBytesA, writeBytes, count, target .write]
  · refine ⟨size_storeBytes .., rfl, fun j hj => byteAt_storeBytes_of_not ?_⟩
    rw [length]
    exact hj
  · exact byteAt_storeBytes (by rw [length]; exact inside') (getElem?_bytesFrom inside hk)

end Guarded
end TemplateVm.Memory
