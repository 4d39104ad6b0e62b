import BucketCare.Proofs.Text.Bytes
import BucketCare.Text.Percent

/-!
# Percent encoding can be undone

Each byte of a text is written for itself. A byte that stands for itself is no percent sign, so what
begins with one is the two digits of a byte, and the bytes are read off one after the other.
Whatever the text, it is written in letters, digits, the four marks and percent signs, none of which
has a meaning of its own in an address.

## Main results

* `decodeBytes?_flatMap_encodeByte` — bytes are read as they were written
* `decode?_encode` — a text is read as it was written
* `isPlain_of_mem_encode` — the characters that are written
-/

namespace BucketCare.Text.Percent

/-! ## One byte -/

/-- The bytes that stand for themselves, by their numbers. -/
theorem isUnreserved_iff {b : UInt8} : isUnreserved b = true ↔
    0x30 ≤ b.toNat ∧ b.toNat ≤ 0x39 ∨ 0x41 ≤ b.toNat ∧ b.toNat ≤ 0x5A ∨
      0x61 ≤ b.toNat ∧ b.toNat ≤ 0x7A ∨ b.toNat = 0x2D ∨ b.toNat = 0x5F ∨ b.toNat = 0x2E ∨
      b.toNat = 0x7E := by
  simp [isUnreserved, or_assoc]

theorem toNat_lt_of_isUnreserved {b : UInt8} (h : isUnreserved b = true) : b.toNat < 0x80 := by
  rw [isUnreserved_iff] at h
  omega

theorem hexValue?_hexDigit : ∀ n < 16, hexValue? (hexDigit n) = some n := by decide

/-- What is written for a byte is read as the byte, whatever stands behind it. -/
theorem decodeBytes?_encodeByte_append (b : UInt8) (rest : List Char) :
    decodeBytes? (encodeByte b ++ rest) = (decodeBytes? rest).map (b :: ·) := by
  have hbyte : b.toNat < 256 := b.toNat_lt
  unfold encodeByte
  split
  next hself =>
    have hnumber := toNat_ofNat_toNat b
    have hascii := toNat_lt_of_isUnreserved hself
    -- A byte that stands for itself is not taken for the start of two digits.
    have hpercent : Char.ofNat b.toNat ≠ '%' := by
      intro heq
      rw [heq] at hnumber
      rw [isUnreserved_iff, ← hnumber] at hself
      exact absurd hself (by decide)
    rw [List.singleton_append, decodeBytes?]
    · rw [hnumber, if_neg (not_or.mpr ⟨hpercent, Nat.not_le.mpr hascii⟩), UInt8.ofNat_toNat]
    · exact fun _ _ _ heq _ => hpercent heq
  next =>
    have hhigh := hexValue?_hexDigit (b.toNat / 16) (by omega)
    have hlow := hexValue?_hexDigit (b.toNat % 16) (by omega)
    have hsame : UInt8.ofNat (16 * (b.toNat / 16) + b.toNat % 16) = b := by
      rw [Nat.div_add_mod, UInt8.ofNat_toNat]
    simp only [List.cons_append, List.nil_append, decodeBytes?, hhigh, hlow, Option.bind_eq_bind,
      Option.bind_some, hsame]
    cases decodeBytes? rest <;> rfl

/-! ## A text -/

theorem decodeBytes?_flatMap_encodeByte (bytes : List UInt8) :
    decodeBytes? (bytes.flatMap encodeByte) = some bytes := by
  induction bytes with
  | nil => rfl
  | cons b bytes ih => rw [List.flatMap_cons, decodeBytes?_encodeByte_append, ih, Option.map_some]

/-- A text is read as it was written. -/
theorem decode?_encode (s : String) : decode? (encode s) = some s := by
  have hbytes : decodeBytes? (encode s).toList = some (bytes s) := by
    rw [encode, String.toList_ofList, toList_toUTF8, decodeBytes?_flatMap_encodeByte]
  have hvalid : s.toUTF8.IsValidUTF8 := s.isValidUTF8
  simp only [decode?, hbytes, Option.bind_eq_bind, Option.bind_some, bytes, Array.toArray_toList]
  exact dif_pos hvalid

/-! ## What is written -/

/-- A character that may stand in a percent-encoded text: a percent sign, or one that stands for
itself. -/
def IsPlain (c : Char) : Prop :=
  c = '%' ∨ c.toNat < 0x80 ∧ isUnreserved (UInt8.ofNat c.toNat) = true

instance (c : Char) : Decidable (IsPlain c) := inferInstanceAs (Decidable (_ ∨ _))

theorem IsPlain.toNat_lt {c : Char} (h : IsPlain c) : c.toNat < 0x80 := by
  rcases h with rfl | ⟨hascii, -⟩
  · decide
  · exact hascii

theorem isPlain_hexDigit : ∀ n < 16, IsPlain (hexDigit n) := by decide

theorem isPlain_of_mem_encodeByte {b : UInt8} {c : Char} (h : c ∈ encodeByte b) : IsPlain c := by
  have hbyte : b.toNat < 256 := b.toNat_lt
  unfold encodeByte at h
  split at h
  next hself =>
    obtain rfl := List.mem_singleton.mp h
    have hnumber := toNat_ofNat_toNat b
    have hascii := toNat_lt_of_isUnreserved hself
    exact .inr ⟨by rwa [hnumber], by rwa [hnumber, UInt8.ofNat_toNat]⟩
  next =>
    simp only [List.mem_cons, List.not_mem_nil, or_false] at h
    obtain rfl | rfl | rfl := h
    · exact .inl rfl
    · exact isPlain_hexDigit _ (by omega)
    · exact isPlain_hexDigit _ (by omega)

/-- A percent-encoded text has these characters and no others. -/
theorem isPlain_of_mem_encode {s : String} {c : Char} (h : c ∈ (encode s).toList) : IsPlain c := by
  rw [encode, String.toList_ofList, List.mem_flatMap] at h
  obtain ⟨b, -, hmem⟩ := h
  exact isPlain_of_mem_encodeByte hmem

end BucketCare.Text.Percent
