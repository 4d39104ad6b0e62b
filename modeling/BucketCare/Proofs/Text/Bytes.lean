import Mathlib.Data.String.Basic

/-!
# Texts and their bytes

The bytes of a text are those of its characters, one behind the other. Texts are compared character
by character. That is the order of their bytes: of two characters the lesser one is written with
fewer bytes, or with as many of which the first to differ is the lesser.

## Main definitions

* `Text.bytes` — the bytes of a text

## Main results

* `Text.eq_singleton_of_bytes` — a text of one byte is the character of this number
* `Text.bytes_lt_bytes` — the order of texts is the order of their bytes
-/

namespace BucketCare.Text

/-- The bytes of a text. -/
def bytes (s : String) : List UInt8 := s.toUTF8.data.toList

theorem bytes_eq (s : String) : bytes s = s.toList.flatMap String.utf8EncodeChar := by
  rw [bytes, String.toUTF8_eq_toByteArray, ← String.utf8Encode_toList, List.utf8Encode]
  simp

theorem toList_loop_eq (content : ByteArray) (at_ : Nat) (before : List UInt8) :
    ByteArray.toList.loop content at_ before =
      before.reverse ++ content.data.toList.drop at_ := by
  fun_induction ByteArray.toList.loop content at_ before with
  | case1 at_ before hlt ih =>
    have hbound : at_ < content.data.toList.length := hlt
    have hget : content.get! at_ = content.data.toList[at_] := by simp [ByteArray.get!, hlt]
    rw [ih, List.reverse_cons, List.append_assoc, List.singleton_append, hget,
      List.getElem_cons_drop]
  | case2 at_ before hle =>
    have hend : content.data.toList.length ≤ at_ := Nat.le_of_not_lt hle
    rw [List.drop_eq_nil_of_le hend, List.append_nil]

theorem toList_toUTF8 (s : String) : s.toUTF8.toList = bytes s := by
  rw [ByteArray.toList, toList_loop_eq]
  rfl

/-- The character of a byte has its number. -/
theorem toNat_ofNat_toNat (byte : UInt8) : (Char.ofNat byte.toNat).toNat = byte.toNat := by
  have hvalid : byte.toNat.isValidChar := .inl (Nat.lt_trans byte.toNat_lt (by decide))
  rw [Char.ofNat, dif_pos hvalid]
  rfl

/-- A text of one byte is one character, and the byte is its number. -/
theorem eq_singleton_of_bytes {s : String} {byte : UInt8} (h : bytes s = [byte]) :
    s = String.singleton (Char.ofNat byte.toNat) := by
  rw [bytes_eq] at h
  cases hs : s.toList with
  | nil =>
    rw [hs] at h
    cases h
  | cons c rest =>
    rw [hs, List.flatMap_cons] at h
    obtain ⟨hc, hnone⟩ := (List.append_eq_singleton_iff.mp h).resolve_left
      fun hnil => String.utf8EncodeChar_ne_nil hnil.1
    have hsize : c.utf8Size = 1 := by
      rw [← String.length_utf8EncodeChar, hc]
      rfl
    have hmax : c.val.toNat ≤ 127 := UInt32.le_iff_toNat_le.mp (Char.utf8Size_eq_one_iff.mp hsize)
    have hbyte : byte.toNat = c.toNat := by
      rw [String.utf8EncodeChar_eq_singleton hsize] at hc
      rw [← List.head_eq_of_cons_eq hc, UInt32.toNat_toUInt8]
      exact Nat.mod_eq_of_lt (by omega)
    have hrest : rest = [] := by
      cases rest with
      | nil => rfl
      | cons d more =>
        rw [List.flatMap_cons] at hnone
        exact absurd (List.append_eq_nil_iff.mp hnone).1 String.utf8EncodeChar_ne_nil
    rw [hbyte, Char.ofNat_toNat, ← String.toList_inj, hs, hrest, String.toList_singleton]

/-- The bytes of a lesser character come first, whatever stands behind them. -/
theorem utf8EncodeChar_lt {c d : Char} (h : c < d) (rest other : List UInt8) :
    String.utf8EncodeChar c ++ rest < String.utf8EncodeChar d ++ other := by
  have hless : c.val.toNat < d.val.toNat := h
  have hmax : d.val.toNat < 1114112 := by
    rcases d.valid with hlow | ⟨-, hhigh⟩
    · exact Nat.lt_trans hlow (by decide)
    · exact hhigh
  unfold String.utf8EncodeChar
  generalize c.val.toNat = v at hless ⊢
  generalize d.val.toNat = w at hless hmax ⊢
  dsimp only
  split_ifs
  all_goals try omega
  all_goals
    simp only [List.cons_append, List.nil_append, List.cons_lt_cons_iff, UInt8.lt_iff_toNat_lt,
      ← UInt8.toNat_inj, UInt8.toNat_ofNat']
    simp (disch := omega) only [Nat.mod_eq_of_lt]
    omega

/-- The order of texts is the order of their bytes. -/
theorem bytes_lt_bytes {a b : String} : bytes a < bytes b ↔ a < b := by
  have hmono : ∀ cs ds : List Char, cs < ds →
      cs.flatMap String.utf8EncodeChar < ds.flatMap String.utf8EncodeChar := by
    intro cs ds h
    induction cs generalizing ds with
    | nil =>
      cases ds with
      | nil => exact absurd h (List.lt_irrefl _)
      | cons d ds =>
        rw [List.flatMap_cons]
        cases hd : String.utf8EncodeChar d with
        | nil => exact absurd hd String.utf8EncodeChar_ne_nil
        | cons => exact List.nil_lt_cons _ _
    | cons c cs ih =>
      cases ds with
      | nil => exact absurd h (List.not_lt_nil _)
      | cons d ds =>
        rw [List.flatMap_cons, List.flatMap_cons]
        rcases List.cons_lt_cons_iff.mp h with hless | ⟨rfl, hrest⟩
        · exact utf8EncodeChar_lt hless _ _
        · exact List.append_left_lt (ih ds hrest)
  rw [bytes_eq, bytes_eq, String.lt_iff]
  refine ⟨fun h => ?_, hmono a.toList b.toList⟩
  rcases lt_trichotomy a.toList b.toList with hless | heq | hless
  · exact hless
  · rw [heq] at h
    exact absurd h (List.lt_irrefl _)
  · exact absurd h (List.lt_asymm (hmono _ _ hless))

/-- What is sorted by a text ascends in that text. -/
theorem pairwise_mergeSort {α : Type} (key : α → String) (items : List α) :
    (items.mergeSort fun a b => decide (key a ≤ key b)).Pairwise fun a b => key a ≤ key b := by
  refine (List.pairwise_mergeSort ?_ ?_ items).imp of_decide_eq_true
  · intro a b c hab hbc
    exact decide_eq_true (String.le_trans (of_decide_eq_true hab) (of_decide_eq_true hbc))
  · intro a b
    simpa using String.le_total (key a) (key b)

end BucketCare.Text
