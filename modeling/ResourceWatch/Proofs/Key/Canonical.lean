import ResourceWatch.Proofs.Key

/-!
# Only keys are read

Whatever is read as a key is, character for character, what is written for the
object that is read. The decoder has many ways out, and the proof follows it from
the inside: a cut puts the text back together, the digits of a length are the only
digits of that length, so a field that is read is the field as it is written, and
the fields of a key are the whole text after the marker.
-/

namespace ResourceWatch

theorem byteLength_append (cs ds : List Char) :
    byteLength (cs ++ ds) = byteLength cs + byteLength ds := by
  induction cs with
  | nil => simp [byteLength]
  | cons c cs ih => simp only [List.cons_append, byteLength, ih]; omega

/-- The two sides of a cut make up the text, and the first has the length that was
asked for. -/
theorem splitBytes_eq_some {n : Nat} {cs taken rest : List Char}
    (cut : splitBytes n cs = some (taken, rest)) :
    cs = taken ++ rest ∧ byteLength taken = n := by
  induction cs generalizing n taken with
  | nil =>
      cases n with
      | zero => cases cut; exact ⟨rfl, rfl⟩
      | succ n => cases cut
  | cons c cs ih =>
      cases n with
      | zero => cases cut; exact ⟨rfl, rfl⟩
      | succ n =>
          rw [splitBytes] at cut
          split at cut
          next room =>
            obtain ⟨⟨front, back⟩, inner, same⟩ := Option.map_eq_some_iff.1 cut
            cases same
            obtain ⟨whole, size⟩ := ih inner
            exact ⟨by rw [whole, List.cons_append], by simp only [byteLength, size]; omega⟩
          next => cases cut

namespace ObjectKey

theorem digitChar_of_digit {c : Char} (digit : '0' ≤ c ∧ c ≤ '9') :
    c.toNat - '0'.toNat < 10 ∧ (c.toNat - '0'.toNat).digitChar = c := by
  obtain ⟨low, high⟩ : 48 ≤ c.toNat ∧ c.toNat ≤ 57 := digit
  have zero : '0'.toNat = 48 := rfl
  refine ⟨by omega, Char.toNat_inj.1 ?_⟩
  rw [Nat.toNat_digitChar_of_lt_ten (by omega)]
  omega

/-- Digits that follow the digits of a number other than zero are the last digits
of the number that they make together. -/
theorem toDigits_append_digits {cs : List Char} (digits : ∀ c ∈ cs, '0' ≤ c ∧ c ≤ '9')
    {n : Nat} (pos : 0 < n) :
    Nat.toDigits 10 n ++ cs =
      Nat.toDigits 10 (cs.foldl (fun n c => 10 * n + (c.toNat - '0'.toNat)) n) := by
  induction cs generalizing n with
  | nil => simp
  | cons c cs ih =>
      obtain ⟨small, digit⟩ := digitChar_of_digit (digits c (by simp))
      have front : Nat.toDigits 10 n ++ [c] =
          Nat.toDigits 10 (10 * n + (c.toNat - '0'.toNat)) := by
        rw [← Nat.toDigits_append_toDigits (by decide) pos small,
          Nat.toDigits_of_lt_base small, digit]
      have rest := ih (fun d h => digits d (by simp [h]))
        (n := 10 * n + (c.toNat - '0'.toNat)) (by omega)
      calc
        Nat.toDigits 10 n ++ c :: cs = (Nat.toDigits 10 n ++ [c]) ++ cs := by simp
        _ = Nat.toDigits 10 (10 * n + (c.toNat - '0'.toNat)) ++ cs := by rw [front]
        _ = _ := rest

/-- The digits that a length is read from are the digits of that length. -/
theorem eq_toDigits_of_readLength {digits : List Char} {n : Nat}
    (read : readLength digits = .ok n) : digits = Nat.toDigits 10 n ∧ n < lengthBound := by
  rw [readLength] at read
  split at read
  · cases read
  next proper =>
  split at read
  · cases read
  next canonical =>
  simp only [] at read
  split at read
  next bounded =>
    cases read
    refine ⟨?_, bounded⟩
    have all : ∀ c ∈ digits, '0' ≤ c ∧ c ≤ '9' := by simp at proper; exact proper.2
    cases digits with
    | nil => simp at proper
    | cons c cs =>
        obtain ⟨small, digit⟩ := digitChar_of_digit (all c (by simp))
        have single : Nat.toDigits 10 (c.toNat - '0'.toNat) = [c] := by
          rw [Nat.toDigits_of_lt_base small, digit]
        cases cs with
        | nil => simpa using single.symm
        | cons d cs =>
            -- a zero in front of other digits has been refused
            have pos : 0 < c.toNat - '0'.toNat := by
              by_contra zero
              have : c = '0' := by rw [← digit, Nat.eq_zero_of_not_pos zero]; rfl
              simp [this] at canonical
            have others : ∀ e ∈ d :: cs, '0' ≤ e ∧ e ≤ '9' := fun e h => all e (by simp [h])
            have whole := toDigits_append_digits others pos
            rw [single] at whole
            simpa using whole
  next => cases read

theorem eq_writeField_of_readField {cs field rest : List Char}
    (read : readField cs = .ok (field, rest)) : cs = writeField field ++ rest := by
  have whole := List.takeWhile_append_dropWhile (p := (· != ':')) (l := cs)
  rw [readField, List.span_eq_takeWhile_dropWhile] at read
  cases back : cs.dropWhile (· != ':') with
  | nil => simp [back] at read
  | cons colon tail =>
      have colon : colon = ':' := by
        have stop := List.head_dropWhile_not (· != ':') (l := cs) (by simp [back])
        simpa [back] using stop
      subst colon
      simp only [back, bind, Except.bind] at read
      split at read
      · cases read
      next n length =>
      split at read
      next cut found =>
        cases read
        obtain ⟨joined, size⟩ := splitBytes_eq_some found
        calc
          cs = cs.takeWhile (· != ':') ++ ':' :: tail := by rw [← back, whole]
          _ = Nat.toDigits 10 n ++ ':' :: (field ++ rest) := by
            rw [(eq_toDigits_of_readLength length).1, joined]
          _ = writeField field ++ rest := by simp [writeField, size]
      next => cases read

/-- Fields that are read are together the text as it is written. -/
theorem eq_flatMap_of_readFields {room : Nat} {cs : List Char} {fields : List (List Char)}
    (read : readFields room cs = .ok fields) : cs = fields.flatMap writeField := by
  induction room generalizing cs fields with
  | zero =>
      cases cs with
      | nil => cases read; rfl
      | cons => cases read
  | succ room ih =>
      cases cs with
      | nil => cases read; rfl
      | cons c cs =>
          simp only [readFields, bind, Except.bind] at read
          split at read
          · cases read
          next one first =>
          split at read
          · cases read
          next others later =>
          cases read
          rw [eq_writeField_of_readField first, ih later, List.flatMap_cons]

/-- The object that is made of fields has these fields, and a version, a kind and a
name. -/
theorem fields_of_ofFields {fields : List (List Char)} {k : ObjectKey}
    (made : ofFields fields = .ok k) :
    k.fields = fields ∧ k.gvk.version ≠ "" ∧ k.gvk.kind ≠ "" ∧ k.name ≠ "" := by
  unfold ofFields at made
  split at made
  next group version kind ns name =>
    split at made
    next => cases made
    next parts =>
      cases made
      simpa [ObjectKey.fields, String.ext_iff, and_assoc] using parts
  next => cases made

theorem fields_injective : Function.Injective ObjectKey.fields := by
  rintro ⟨⟨group, version, kind⟩, ns, name⟩ ⟨⟨group', version', kind'⟩, ns', name'⟩ same
  simpa [ObjectKey.fields, String.toList_inj, and_assoc] using same

theorem encode_of_decode {raw : String} {k : ObjectKey} (read : decode raw = .ok k) :
    k.gvk.version ≠ "" ∧ k.gvk.kind ≠ "" ∧ k.name ≠ "" ∧ raw = k.encode := by
  unfold decode at read
  split at read
  · cases read
  next rest marked =>
  simp only [bind, Except.bind] at read
  split at read
  · cases read
  next fields found =>
  obtain ⟨same, version, kind, name⟩ := fields_of_ofFields read
  refine ⟨version, kind, name, ?_⟩
  have text := List.isPrefixOf?_eq_some_iff_append_eq.1 marked
  rw [eq_flatMap_of_readFields found, ← same] at text
  rw [encode, text, String.ofList_toList]

theorem bounded_of_encode {k : ObjectKey} (fits : byteLength k.encode.toList < lengthBound) :
    ∀ f ∈ k.fields, byteLength f < lengthBound := by
  intro f h
  obtain ⟨before, after, whole⟩ := List.append_of_mem h
  rw [encode, whole, String.toList_ofList] at fits
  simp only [List.flatMap_append, List.flatMap_cons, writeField, byteLength_append,
    byteLength] at fits
  omega

theorem eq_of_encode_eq {k k' : ObjectKey} (fits : byteLength k.encode.toList < lengthBound)
    (same : k.encode = k'.encode) : k = k' := by
  have fields := readFields_flatMap (bounded_of_encode fits) (Nat.le_refl fieldCount)
  have fields' := readFields_flatMap (bounded_of_encode (same ▸ fits)) (Nat.le_refl fieldCount)
  have text : k.fields.flatMap writeField = k'.fields.flatMap writeField := by
    simpa [encode, String.ofList_inj] using same
  rw [text, fields'] at fields
  exact fields_injective (Except.ok.inj fields).symm

/-- A text is read as the key of an object exactly when it is what is written for the
object and the object has a version, a kind and a name. Every other text is refused
with a reason. So no text is read where none was written, no two texts are read as
one object, and no two objects, named or not, are written as one text. -/
theorem decode_eq_ok_iff {raw : String} (fits : byteLength raw.toList < lengthBound) :
    (∀ k, decode raw = .ok k ↔
      k.gvk.version ≠ "" ∧ k.gvk.kind ≠ "" ∧ k.name ≠ "" ∧ raw = k.encode) ∧
    ((¬ ∃ k : ObjectKey,
        k.gvk.version ≠ "" ∧ k.gvk.kind ≠ "" ∧ k.name ≠ "" ∧ raw = k.encode) →
      ∃ fault, decode raw = .error fault) ∧
    (∀ raw' k, decode raw = .ok k → decode raw' = .ok k → raw' = raw) ∧
    ∀ k k' : ObjectKey, raw = k.encode → raw = k'.encode → k = k' := by
  have accepts : ∀ k, decode raw = .ok k ↔
      k.gvk.version ≠ "" ∧ k.gvk.kind ≠ "" ∧ k.name ≠ "" ∧ raw = k.encode := by
    refine fun k => ⟨encode_of_decode, ?_⟩
    rintro ⟨version, kind, name, rfl⟩
    exact decode_encode ⟨version, kind, name, bounded_of_encode fits⟩
  refine ⟨accepts, ?_, ?_, ?_⟩
  · intro none
    cases read : decode raw with
    | error fault => exact ⟨fault, rfl⟩
    | ok k => exact absurd ⟨k, (accepts k).1 read⟩ none
  · intro raw' k read read'
    rw [(encode_of_decode read).2.2.2, (encode_of_decode read').2.2.2]
  · rintro k k' rfl same
    exact eq_of_encode_eq fits same

/-- Fields that look like written fields themselves, and whose characters take more
than one byte, do not confuse the reader. -/
theorem decode_eq_ok_misleading :
    byteLength "obj:2:1:2:v15:Köl:0:5:3:ü:".toList < lengthBound ∧
    decode "obj:2:1:2:v15:Köl:0:5:3:ü:" = .ok ⟨⟨"1:", "v1", "Köl:"⟩, "", "3:ü:"⟩ :=
  ⟨by decide +kernel,
    ((decode_eq_ok_iff (by decide +kernel)).1 _).2
      ⟨by decide, by decide, by decide, by decide +kernel⟩⟩

end ObjectKey

end ResourceWatch
