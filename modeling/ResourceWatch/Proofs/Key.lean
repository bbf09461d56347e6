import Mathlib.Data.List.Infix
import ResourceWatch.Key

/-!
# Keys are read back

What is written for an object that has a version, a kind and a name is read back
as that object. So no two such objects share a key.
-/

namespace ResourceWatch

/-- The first bytes of a text are cut off whole. -/
theorem splitBytes_append (field rest : List Char) :
    splitBytes (byteLength field) (field ++ rest) = some (field, rest) := by
  induction field with
  | nil => cases rest <;> rfl
  | cons c field ih =>
      have size : byteLength (c :: field) = (c.utf8Size - 1 + byteLength field) + 1 := by
        have := c.utf8Size_pos
        simp only [byteLength]
        omega
      have left : c.utf8Size - 1 + byteLength field + 1 - c.utf8Size = byteLength field := by
        have := c.utf8Size_pos
        omega
      rw [size, List.cons_append, splitBytes, if_pos (by omega), left, ih]
      rfl

namespace ObjectKey

theorem digit_of_mem {n : Nat} {c : Char} (h : c ∈ Nat.toDigits 10 n) :
    '0' ≤ c ∧ c ≤ '9' := by
  have digit := Nat.isDigit_of_mem_toDigits (by decide) (by decide) h
  simp only [Char.isDigit, Bool.and_eq_true, decide_eq_true_eq] at digit
  exact digit

/-- A length other than zero has no zero in front. -/
theorem head?_toDigits {n : Nat} (pos : 0 < n) : (Nat.toDigits 10 n).head? ≠ some '0' := by
  induction n using Nat.strongRecOn with
  | ind n ih =>
      obtain small | large := Nat.lt_or_ge n 10
      · rw [Nat.toDigits_of_lt_base small]
        have other : ∀ n < 10, 0 < n → n.digitChar ≠ '0' := by decide
        simpa using other n small pos
      · rw [Nat.toDigits_of_base_le (by decide) large, List.head?_append]
        have shorter := ih (n / 10) (by omega) (by omega)
        cases digits : (Nat.toDigits 10 (n / 10)).head? with
        | none => exact absurd (List.head?_eq_none_iff.1 digits) Nat.toDigits_ne_nil
        | some c => simpa [digits] using shorter

theorem readLength_toDigits {n : Nat} (bounded : n < lengthBound) :
    readLength (Nat.toDigits 10 n) = .ok n := by
  have digits : (Nat.toDigits 10 n).all (fun c => '0' ≤ c && c ≤ '9') = true := by
    simpa using fun c h => digit_of_mem h
  have canonical : ¬ (1 < (Nat.toDigits 10 n).length ∧ (Nat.toDigits 10 n).head? = some '0') := by
    rintro ⟨long, zero⟩
    obtain rfl | pos := Nat.eq_zero_or_pos n
    · simp at long
    · exact head?_toDigits pos zero
  have value : (Nat.toDigits 10 n).foldl (fun n c => 10 * n + (c.toNat - '0'.toNat)) 0 = n :=
    Nat.ofDigitChars_ten_toDigits
  rw [readLength]
  rw [digits, value]
  simp [Nat.toDigits_ne_nil, bounded]
  simpa using canonical

theorem readField_writeField {field : List Char} (bounded : byteLength field < lengthBound)
    (rest : List Char) : readField (writeField field ++ rest) = .ok (field, rest) := by
  have before : ∀ c ∈ Nat.toDigits 10 (byteLength field), (c != ':') = true := by
    intro c h
    have digit := digit_of_mem h
    rw [bne_iff_ne]
    rintro rfl
    exact absurd digit (by decide)
  have cut : (writeField field ++ rest).span (· != ':') =
      (Nat.toDigits 10 (byteLength field), ':' :: (field ++ rest)) := by
    have text : writeField field ++ rest =
        Nat.toDigits 10 (byteLength field) ++ ':' :: (field ++ rest) := by
      simp [writeField]
    rw [text, List.span_eq_takeWhile_dropWhile, List.takeWhile_append_of_pos before,
      List.dropWhile_append_of_pos before]
    simp
  rw [readField]
  rw [cut]
  simp [readLength_toDigits bounded, splitBytes_append, bind, Except.bind]

/-- Fields that are written are read back, if there are not too many. -/
theorem readFields_flatMap {fields : List (List Char)}
    (bounded : ∀ f ∈ fields, byteLength f < lengthBound) {room : Nat}
    (enough : fields.length ≤ room) :
    readFields room (fields.flatMap writeField) = .ok fields := by
  induction fields generalizing room with
  | nil => cases room <;> rfl
  | cons field fields ih =>
      obtain ⟨room, rfl⟩ : ∃ n, room = n + 1 := ⟨room - 1, by simp at enough; omega⟩
      have read := readField_writeField (bounded field (by simp)) (fields.flatMap writeField)
      have others := ih (fun f h => bounded f (by simp [h])) (by simpa using enough)
      rw [List.flatMap_cons]
      cases text : writeField field ++ fields.flatMap writeField with
      | nil => simp [writeField] at text
      | cons c cs =>
          rw [text] at read
          simp [readFields, read, others, bind, Except.bind, pure, Except.pure]

/-- What a key can be read back from: an object with a version, a kind and a name,
none of them nor its group or namespace longer than a text can be. -/
structure Readable (k : ObjectKey) : Prop where
  version : k.gvk.version ≠ ""
  kind : k.gvk.kind ≠ ""
  name : k.name ≠ ""
  bounded : ∀ f ∈ k.fields, byteLength f < lengthBound

instance (k : ObjectKey) : Decidable k.Readable :=
  decidable_of_iff (k.gvk.version ≠ "" ∧ k.gvk.kind ≠ "" ∧ k.name ≠ "" ∧
      ∀ f ∈ k.fields, byteLength f < lengthBound)
    ⟨fun ⟨a, b, c, d⟩ => ⟨a, b, c, d⟩, fun ⟨a, b, c, d⟩ => ⟨a, b, c, d⟩⟩

theorem decode_encode {k : ObjectKey} (h : k.Readable) : decode k.encode = .ok k := by
  have fields := readFields_flatMap h.bounded (Nat.le_refl fieldCount)
  have cut : marker.isPrefixOf? k.encode.toList = some (k.fields.flatMap writeField) := by
    rw [List.isPrefixOf?_eq_some_iff_append_eq, encode, String.toList_ofList]
  rw [decode]
  rw [cut]
  show readFields fieldCount (k.fields.flatMap writeField) >>= ofFields = _
  rw [fields]
  simp [bind, Except.bind, ObjectKey.fields, ofFields, h.version, h.kind, h.name]

end ObjectKey

end ResourceWatch
