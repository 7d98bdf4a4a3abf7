import Mathlib

/-!
# The bytes of a text

A text as the list of its UTF-8 bytes: what concatenation is on bytes, that a text is known from
its bytes, and which texts are made of one-byte characters.
-/

namespace Sentinel.Utf8

def bytes (s : String) : List UInt8 := s.toUTF8.data.toList

theorem bytes_injective : Function.Injective bytes := by
  intro s t same
  have arrays : s.toUTF8 = t.toUTF8 := ByteArray.ext (Array.toList_inj.mp same)
  exact String.toByteArray_inj.mp arrays

theorem bytes_append (s t : String) : bytes (s ++ t) = bytes s ++ bytes t := by
  have joined : (s ++ t).toUTF8 = s.toUTF8 ++ t.toUTF8 := String.toByteArray_append
  rw [bytes, bytes, bytes, joined, ByteArray.data_append, Array.toList_append]

/-- The bytes of a text are those of its characters. -/
theorem bytes_eq_flatMap (s : String) : bytes s = s.toList.flatMap String.utf8EncodeChar := by
  have encoded : s.toUTF8 = s.toList.utf8Encode := String.utf8Encode_toList.symm
  rw [bytes, encoded, List.utf8Encode, List.data_toByteArray, List.toList_toArray]

/-- A character whose first byte is below 128 is that byte. -/
theorem encode_of_head_lt {c : Char} {b : UInt8} {rest : List UInt8}
    (encoded : String.utf8EncodeChar c = b :: rest) (ascii : b.toNat < 128) :
    rest = [] ∧ c = Char.ofNat b.toNat := by
  have code : c = Char.ofNat c.val.toNat := (Char.ofNat_toNat c).symm
  unfold String.utf8EncodeChar at encoded
  dsimp only at encoded
  -- the first byte of a longer encoding is 192 or more
  by_cases one : c.val.toNat ≤ 0x7f
  · rw [if_pos one] at encoded
    obtain ⟨rfl, rfl⟩ := List.cons.inj encoded
    have small : c.val.toNat < UInt8.size := lt_of_le_of_lt one (by decide)
    rw [UInt8.toNat_ofNat_of_lt' small]
    exact ⟨rfl, code⟩
  · rw [if_neg one] at encoded
    exfalso
    have first : ∀ n, 192 ≤ n → n < 256 → b = UInt8.ofNat n → False := by
      intro n low high same
      rw [same, UInt8.toNat_ofNat_of_lt' high] at ascii
      omega
    split at encoded
    · exact first _ (by omega) (by omega) (List.cons.inj encoded).1.symm
    · split at encoded
      · exact first _ (by omega) (by omega) (List.cons.inj encoded).1.symm
      · exact first _ (by omega) (by omega) (List.cons.inj encoded).1.symm

end Sentinel.Utf8
