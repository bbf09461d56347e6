import Mathlib.Data.List.TakeWhile
import ResourceWatch.Proofs.Key.Canonical
import ResourceWatch.Text.Blank
import ResourceWatch.Text.Numeral

/-!
# What is read as a number

A text is read as a number exactly if it is a numeral of it: the digits of the number as they
are written, after any number of zeros and at most one plus sign, between any blanks. So
every number has one numeral but for what can stand in front and behind, and a text is the
numeral of one number only.

The reader cuts off blanks, looks for a sign, and folds the digits into a value. The proof
goes the other way and finds the written digits in what was folded.
-/

namespace ResourceWatch.Text

/-- A numeral of a number, between any blanks. -/
def IsNumeral (text : String) (n : Nat) : Prop :=
  ∃ before sign zeros after, (∀ c ∈ before ++ after, isBlank c) ∧ (sign = [] ∨ sign = ['+']) ∧
    text.toList = before ++ (sign ++ (List.replicate zeros '0' ++ Nat.toDigits 10 n)) ++ after

/-! ## Digits -/

theorem isDigit_iff {c : Char} : isDigit c = true ↔ '0' ≤ c ∧ c ≤ '9' := by
  simp [isDigit]

/-- Zeros and the digits of a number are digits. -/
theorem isDigit_of_mem {zeros n : Nat} {c : Char}
    (h : c ∈ List.replicate zeros '0' ++ Nat.toDigits 10 n) : isDigit c := by
  obtain zero | digit := List.mem_append.1 h
  · rw [List.eq_of_mem_replicate zero]
    decide
  · exact isDigit_iff.2 (ObjectKey.digit_of_mem digit)

/-- Zeros in front of the digits of a number do not count. -/
theorem digitsValue_zeros_append (zeros n : Nat) :
    digitsValue (List.replicate zeros '0' ++ Nat.toDigits 10 n) = n := by
  induction zeros with
  | zero => exact Nat.ofDigitChars_ten_toDigits
  | succ zeros ih => exact ih

/-- Digits are the digits of their value, after some zeros. -/
theorem exists_zeros_of_digits {cs : List Char} (some : cs ≠ [])
    (digits : ∀ c ∈ cs, '0' ≤ c ∧ c ≤ '9') :
    ∃ zeros, cs = List.replicate zeros '0' ++ Nat.toDigits 10 (digitsValue cs) := by
  induction cs with
  | nil => exact absurd rfl some
  | cons c cs ih =>
      obtain ⟨small, digit⟩ := ObjectKey.digitChar_of_digit (digits c (by simp))
      have single : Nat.toDigits 10 (c.toNat - '0'.toNat) = [c] := by
        rw [Nat.toDigits_of_lt_base small, digit]
      have others : ∀ d ∈ cs, '0' ≤ d ∧ d ≤ '9' := fun d h => digits d (by simp [h])
      obtain zero | pos := Nat.eq_zero_or_pos (c.toNat - '0'.toNat)
      · have isZero : c = '0' := by rw [← digit, zero]; rfl
        subst isZero
        by_cases last : cs = []
        · exact ⟨0, by rw [last]; rfl⟩
        · obtain ⟨zeros, split⟩ := ih last others
          exact ⟨zeros + 1, congrArg ('0' :: ·) split⟩
      · -- a digit other than zero begins the written digits
        have whole := ObjectKey.toDigits_append_digits others pos
        rw [single] at whole
        have value : cs.foldl (fun n c => 10 * n + (c.toNat - '0'.toNat)) (c.toNat - '0'.toNat) =
            digitsValue (c :: cs) := by
          simp [digitsValue, digitValue]
        exact ⟨0, by rw [← value]; exact whole⟩

theorem readDigits?_eq_some_iff {cs : List Char} {n : Nat} :
    readDigits? cs = some n ↔ ∃ zeros, cs = List.replicate zeros '0' ++ Nat.toDigits 10 n := by
  rw [readDigits?]
  constructor
  · intro read
    split at read
    · cases read
    · rename_i proper
      cases read
      simp only [Bool.or_eq_true, List.isEmpty_iff, Bool.not_eq_true', not_or,
        Bool.not_eq_false, List.all_eq_true] at proper
      exact exists_zeros_of_digits proper.1 fun c h => isDigit_iff.1 (proper.2 c h)
  · rintro ⟨zeros, rfl⟩
    have digits : (List.replicate zeros '0' ++ Nat.toDigits 10 n).all isDigit = true :=
      List.all_eq_true.2 fun c h => isDigit_of_mem h
    rw [digits, digitsValue_zeros_append]
    simp [Nat.toDigits_ne_nil]

/-! ## Signs -/

/-- At most one plus sign may stand in front of the digits. -/
theorem readNat?_eq_some_iff {max n : Nat} {text : String} :
    readNat? max text = some n ↔ n ≤ max ∧ ∃ sign zeros, (sign = [] ∨ sign = ['+']) ∧
      text.toList = sign ++ (List.replicate zeros '0' ++ Nat.toDigits 10 n) := by
  rw [readNat?]
  simp only [Option.filter_eq_some_iff, decide_eq_true_eq, readDigits?_eq_some_iff]
  constructor
  · rintro ⟨⟨zeros, digits⟩, bounded⟩
    refine ⟨bounded, ?_⟩
    split at digits
    · rename_i rest signed
      exact ⟨['+'], zeros, .inr rfl, by rw [signed, digits]; rfl⟩
    · exact ⟨[], zeros, .inl rfl, digits⟩
  · rintro ⟨bounded, sign, zeros, rfl | rfl, whole⟩
    · refine ⟨⟨zeros, ?_⟩, bounded⟩
      split
      · rename_i rest signed
        have first : '+' ∈ List.replicate zeros '0' ++ Nat.toDigits 10 n := by
          rw [← List.nil_append (_ ++ _), ← whole, signed]
          exact List.mem_cons_self
        exact absurd (isDigit_of_mem first) (by decide)
      · exact whole
    · refine ⟨⟨zeros, ?_⟩, bounded⟩
      rw [whole]
      rfl

/-! ## Blanks -/

theorem isAllBlank_iff {text : String} : isAllBlank text = true ↔ ∀ c ∈ text.toList, isBlank c :=
  List.all_eq_true

theorem exists_trimChars (cs : List Char) :
    ∃ before after, (∀ c ∈ before ++ after, isBlank c) ∧ cs = before ++ trimChars cs ++ after := by
  have front := List.takeWhile_append_dropWhile (p := isBlank) (l := cs)
  have back := List.takeWhile_append_dropWhile (p := isBlank) (l := (cs.dropWhile isBlank).reverse)
  refine ⟨cs.takeWhile isBlank, ((cs.dropWhile isBlank).reverse.takeWhile isBlank).reverse, ?_, ?_⟩
  · intro c h
    obtain h | h := List.mem_append.1 h
    · exact List.mem_takeWhile_imp h
    · exact List.mem_takeWhile_imp (List.mem_reverse.1 h)
  · have rest : trimChars cs ++ ((cs.dropWhile isBlank).reverse.takeWhile isBlank).reverse =
        cs.dropWhile isBlank := by
      rw [trimChars, ← List.reverse_append, back, List.reverse_reverse]
    rw [List.append_assoc, rest, front]

theorem dropWhile_of_none {p : Char → Bool} {cs : List Char} (none : ∀ c ∈ cs, p c = false) :
    cs.dropWhile p = cs := by
  cases cs with
  | nil => rfl
  | cons c cs => simp [none c (by simp)]

/-- What has no blanks itself is left when the blanks around it are cut off. -/
theorem trimChars_around {before core after : List Char}
    (blanks : ∀ c ∈ before ++ after, isBlank c) (none : ∀ c ∈ core, isBlank c = false) :
    trimChars (before ++ core ++ after) = core := by
  have first : (before ++ core ++ after).dropWhile isBlank = (core ++ after).dropWhile isBlank := by
    rw [List.append_assoc]
    exact List.dropWhile_append_of_pos fun c h => blanks c (by simp [h])
  have behind : ∀ c ∈ after.reverse, isBlank c := fun c h =>
    blanks c (List.mem_append_right _ (List.mem_reverse.1 h))
  rw [trimChars, first]
  cases core with
  | nil =>
      have all : after.dropWhile isBlank = [] :=
        List.dropWhile_eq_nil_iff.2 fun c h => blanks c (by simp [h])
      rw [List.nil_append, all]
      rfl
  | cons c core =>
      have stops : (c :: core ++ after).dropWhile isBlank = c :: core ++ after := by
        simp [none c (by simp)]
      rw [stops, List.reverse_append, List.dropWhile_append_of_pos behind,
        dropWhile_of_none fun d h => none d (List.mem_reverse.1 h), List.reverse_reverse]

theorem isBlank_of_numeral {sign : List Char} (isSign : sign = [] ∨ sign = ['+']) {zeros n : Nat}
    {c : Char} (h : c ∈ sign ++ (List.replicate zeros '0' ++ Nat.toDigits 10 n)) :
    isBlank c = false := by
  obtain h | h := List.mem_append.1 h
  · obtain rfl | rfl := isSign
    · cases h
    · rw [List.mem_singleton.1 h]
      decide
  · obtain ⟨low, high⟩ : 48 ≤ c.toNat ∧ c.toNat ≤ 57 := isDigit_iff.1 (isDigit_of_mem h)
    simp [isBlank]
    omega

/-- A text is read as a number between blanks exactly if it is a numeral of a number that
there is room for. -/
theorem readNat?_trim_eq_some_iff {max n : Nat} {text : String} :
    readNat? max (trim text) = some n ↔ IsNumeral text n ∧ n ≤ max := by
  rw [readNat?_eq_some_iff, trim, String.toList_ofList, and_comm]
  refine and_congr_left fun _ => ⟨?_, ?_⟩
  · rintro ⟨sign, zeros, isSign, core⟩
    obtain ⟨before, after, blanks, whole⟩ := exists_trimChars text.toList
    exact ⟨before, sign, zeros, after, blanks, isSign, by rw [← core, ← whole]⟩
  · rintro ⟨before, sign, zeros, after, blanks, isSign, whole⟩
    refine ⟨sign, zeros, isSign, ?_⟩
    rw [whole, trimChars_around blanks fun c h => isBlank_of_numeral isSign h]

theorem IsNumeral.unique {text : String} {n m : Nat} (first : IsNumeral text n)
    (second : IsNumeral text m) : n = m := by
  have read := readNat?_trim_eq_some_iff.2 ⟨first, Nat.le_max_left n m⟩
  have again := readNat?_trim_eq_some_iff.2 ⟨second, Nat.le_max_right n m⟩
  exact Option.some.inj (read.symm.trans again)

/-! ## Letters -/

/-- A letter is made small as the standard library does it, which is to say only in ASCII. -/
theorem lowerChar_eq_toLower (c : Char) : lowerChar c = c.toLower := by
  rw [lowerChar]
  by_cases capital : c.val ≥ 'A'.val ∧ c.val ≤ 'Z'.val
  · have small : c.toLower = ⟨c.val + ('a'.val - 'A'.val), _⟩ := dif_pos capital
    rw [small, if_pos (show 'A' ≤ c ∧ c ≤ 'Z' from capital)]
    have high : c.toNat ≤ 90 := capital.2
    have sum : (c.val + ('a'.val - 'A'.val)).toNat = c.toNat + 32 := by
      rw [UInt32.toNat_add]
      show (c.toNat + 32) % 2 ^ 32 = _
      omega
    apply Char.toNat_inj.1
    rw [Char.ofNat, dif_pos (Or.inl (by omega))]
    exact sum.symm
  · have same : c.toLower = c := dif_neg capital
    rw [same]
    exact if_neg capital

theorem lower_eq_toLower (text : String) : lower text = text.toLower := by
  apply String.toList_inj.1
  show _ = (text.map Char.toLower).toList
  rw [lower, String.toList_ofList, String.toList_map]
  exact List.map_congr_left fun c _ => lowerChar_eq_toLower c

end ResourceWatch.Text
