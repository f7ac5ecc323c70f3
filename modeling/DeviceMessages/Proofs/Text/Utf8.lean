import DeviceMessages.Text.Basic

/-!
# Reading UTF-8

`ofUtf8?` goes through the byte arrays of the strings of the language, of which a byte list is one
if and only if it is the UTF-8 form of a text.

The code of an ASCII character is a byte of a text only where the character itself stands, because
all bytes of other characters are above the ASCII range (`mem_toList_of_mem_utf8`). This is what
makes such characters fit as delimiters of a message.
-/

namespace DeviceMessages.Text

theorem toByteArray_eq (s : String) : s.toByteArray = ⟨(utf8 s).toArray⟩ := by
  rw [← String.utf8Encode_toList, List.utf8Encode, utf8]
  ext1
  rw [List.data_toByteArray]

/-- Bytes are read as a text if and only if they are its UTF-8 form. -/
theorem ofUtf8?_eq_some_iff {bytes : Bytes} {s : String} :
    ofUtf8? bytes = some s ↔ bytes = utf8 s := by
  unfold ofUtf8? String.fromUTF8?
  constructor
  · intro h
    split at h
    · next hvalid =>
        have harray : (String.fromUTF8 ⟨bytes.toArray⟩ hvalid).toByteArray = ⟨bytes.toArray⟩ := rfl
        rw [Option.some.inj h, toByteArray_eq, ByteArray.mk.injEq] at harray
        simpa using harray.symm
    · cases h
  · rintro rfl
    have hvalid : ByteArray.IsValidUTF8 ⟨(utf8 s).toArray⟩ := by
      rw [← toByteArray_eq]
      exact s.isValidUTF8
    rw [dif_pos hvalid, Option.some.injEq, ← String.toByteArray_inj, toByteArray_eq s]
    rfl

theorem ofUtf8?_utf8 (s : String) : ofUtf8? (utf8 s) = some s :=
  ofUtf8?_eq_some_iff.2 rfl

/-! ## ASCII characters among the bytes -/

/-- The UTF-8 form of an ASCII character is its code. -/
theorem utf8EncodeChar_of_ascii {c : Char} (hc : c.toNat < 128) :
    String.utf8EncodeChar c = [c.toUInt8] := by
  have hsize : c.utf8Size = 1 := by
    rw [Char.utf8Size_eq_one_iff, UInt32.le_iff_toNat_le]
    exact Nat.le_of_lt_succ hc
  exact String.utf8EncodeChar_eq_singleton hsize

/-- The UTF-8 form of any other character has no byte that is the code of an ASCII character. -/
theorem le_toNat_of_mem_utf8EncodeChar {c : Char} (hc : 128 ≤ c.toNat) {b : UInt8}
    (h : b ∈ String.utf8EncodeChar c) : 128 ≤ b.toNat := by
  have hv : c.val.toNat = c.toNat := rfl
  simp only [String.utf8EncodeChar, hv] at h
  rw [if_neg (by omega)] at h
  split at h
  · simp only [List.mem_cons, List.not_mem_nil, or_false] at h
    rcases h with rfl | rfl <;> rw [UInt8.toNat_ofNat'] <;> omega
  · split at h
    · simp only [List.mem_cons, List.not_mem_nil, or_false] at h
      rcases h with rfl | rfl | rfl <;> rw [UInt8.toNat_ofNat'] <;> omega
    · simp only [List.mem_cons, List.not_mem_nil, or_false] at h
      rcases h with rfl | rfl | rfl | rfl <;> rw [UInt8.toNat_ofNat'] <;> omega

theorem toNat_ofNat_of_ascii {n : Nat} (hn : n < 128) : (Char.ofNat n).toNat = n := by
  have hvalid : n.isValidChar := Or.inl (by omega)
  rw [Char.ofNat, dif_pos hvalid]
  rfl

theorem toNat_toUInt8_of_ascii {c : Char} (hc : c.toNat < 128) : c.toUInt8.toNat = c.toNat := by
  have hv : c.toUInt8.toNat = c.toNat % 256 := rfl
  omega

theorem eq_of_toUInt8_eq {c d : Char} (hc : c.toNat < 128) (hd : d.toNat < 128)
    (h : c.toUInt8 = d.toUInt8) : c = d := by
  have hnat : c.toNat = d.toNat := by
    rw [← toNat_toUInt8_of_ascii hc, ← toNat_toUInt8_of_ascii hd, h]
  exact Char.toNat_inj.1 hnat

/-- An ASCII character whose code is a byte of the UTF-8 form of a text is a character of it. -/
theorem mem_toList_of_mem_utf8 {c : Char} (hc : c.toNat < 128) {s : String}
    (h : c.toUInt8 ∈ utf8 s) : c ∈ s.toList := by
  obtain ⟨d, hd, hbyte⟩ := List.mem_flatMap.1 h
  by_cases hascii : d.toNat < 128
  · rw [utf8EncodeChar_of_ascii hascii, List.mem_singleton] at hbyte
    rwa [eq_of_toUInt8_eq hc hascii hbyte]
  · have hle := le_toNat_of_mem_utf8EncodeChar (Nat.le_of_not_lt hascii) hbyte
    rw [toNat_toUInt8_of_ascii hc] at hle
    omega

theorem utf8_singleton_of_ascii {c : Char} (hc : c.toNat < 128) :
    utf8 (String.singleton c) = [c.toUInt8] := by
  rw [utf8, String.toList_singleton, List.flatMap_singleton, utf8EncodeChar_of_ascii hc]

end DeviceMessages.Text
