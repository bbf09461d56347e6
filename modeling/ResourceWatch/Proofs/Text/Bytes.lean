import Mathlib.Data.String.Basic

/-!
# Texts are ordered as their bytes are

Texts are compared character by character. Where two of them part, the encodings of the
two characters part too: the lead bytes grow with the length of an encoding, and among
encodings of one length the bytes are the digits of the character in base 64. So whoever
compares the encoded bytes one by one finds the same order.
-/

namespace ResourceWatch

/-- The bytes of a text. -/
def octets (s : String) : List UInt8 := s.toByteArray.data.toList

theorem octets_eq (s : String) : octets s = s.toList.flatMap String.utf8EncodeChar := by
  conv_lhs => rw [octets, ← String.ofList_toList (s := s), String.toByteArray_ofList]
  rw [List.utf8Encode, List.data_toByteArray]

/-- Of two numbers below 2^21 the larger has the larger digits in base 64, however their
digits are shifted into bytes. -/
theorem digits_lt {m n : Nat} (smaller : m < n) (bounded : n < 2097152) (rest : Prop) :
    (m / 262144 % 8 + 240) % 256 < (n / 262144 % 8 + 240) % 256 ∨
      (m / 262144 % 8 + 240) % 256 = (n / 262144 % 8 + 240) % 256 ∧
        ((m / 4096 % 64 + 128) % 256 < (n / 4096 % 64 + 128) % 256 ∨
          (m / 4096 % 64 + 128) % 256 = (n / 4096 % 64 + 128) % 256 ∧
            ((m / 64 % 64 + 128) % 256 < (n / 64 % 64 + 128) % 256 ∨
              (m / 64 % 64 + 128) % 256 = (n / 64 % 64 + 128) % 256 ∧
                ((m % 64 + 128) % 256 < (n % 64 + 128) % 256 ∨
                  (m % 64 + 128) % 256 = (n % 64 + 128) % 256 ∧ rest))) := by
  have first : m / 262144 < n / 262144 ∨ m / 262144 = n / 262144 := by omega
  have second : m / 4096 < n / 4096 ∨ m / 4096 = n / 4096 := by omega
  obtain first | first := first
  · exact .inl (by omega)
  · refine .inr ⟨by omega, ?_⟩
    obtain second | second := second
    · exact .inl (by omega)
    · exact .inr ⟨by omega, by omega⟩

/-- The larger of two characters has the larger encoding, whatever follows. -/
theorem utf8EncodeChar_append_lt {c d : Char} (smaller : c < d) (x y : List UInt8) :
    String.utf8EncodeChar c ++ x < String.utf8EncodeChar d ++ y := by
  have numbers : c.val.toNat < d.val.toNat := smaller
  have bounded : d.val.toNat < 2097152 := by
    have valid : d.val.toNat < 0xd800 ∨ 0xdfff < d.val.toNat ∧ d.val.toNat < 0x110000 := d.valid
    omega
  -- Encodings of different lengths part at the first byte.
  unfold String.utf8EncodeChar
  dsimp only
  split_ifs
  all_goals
    simp only [List.cons_append, List.nil_append, List.cons_lt_cons_iff,
      UInt8.lt_iff_toNat_lt, ← UInt8.toNat_inj, UInt8.toNat_ofNat', Nat.reducePow]
  all_goals first | exact digits_lt numbers bounded _ | omega

/-- The encodings of two lists of characters are ordered as the lists are. -/
theorem flatMap_utf8EncodeChar_lt {a b : List Char} (smaller : a < b) :
    a.flatMap String.utf8EncodeChar < b.flatMap String.utf8EncodeChar := by
  induction smaller with
  | nil =>
      rename_i c b
      rw [List.flatMap_cons]
      cases bytes : String.utf8EncodeChar c with
      | nil => exact absurd bytes String.utf8EncodeChar_ne_nil
      | cons => exact List.nil_lt_cons _ _
  | cons _ ih => exact List.append_left_lt ih
  | rel smaller => exact utf8EncodeChar_append_lt smaller _ _

/-- Of two texts the one whose bytes come first comes first. -/
theorem octets_lt {a b : String} : octets a < octets b ↔ a < b := by
  rw [octets_eq, octets_eq]
  constructor
  · intro first
    by_contra other
    obtain same | smaller := (not_lt.1 other).eq_or_lt
    · exact List.lt_irrefl _ (same ▸ first)
    · exact List.lt_asymm first (flatMap_utf8EncodeChar_lt smaller)
  · exact flatMap_utf8EncodeChar_lt

end ResourceWatch
