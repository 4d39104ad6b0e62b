import BucketCare.Masking
import BucketCare.Proofs.Text.Quoted
import BucketCare.Session

/-!
# What masked values tell

A masked value shows its two first characters and how many it has, and nothing else. It shows these
in full: behind its last opening bracket stand the digits of the count, and in front of the stars
the characters. So two values are masked alike exactly when these are the same.

## Main definitions

* `Masking.Alike` — two values have the same start and length
* `Masking.ShownAlike` — the same for values that may be absent

## Main results

* `Masking.mask_eq_mask_iff` — when two values are masked alike
* `Masking.sanitize_eq_sanitize_iff` — when the values of an option that is a secret are shown alike
* `SessionCredentials.describe_eq_describe_iff` — when credentials are described alike
-/

namespace BucketCare

namespace Masking

variable {a b name : String}

/-- Two values have the same two first characters, and as many characters. -/
def Alike (a b : String) : Prop := a.toList.take 2 = b.toList.take 2 ∧ a.length = b.length

/-- Two values that may be absent are both absent or empty, or else are both there and alike. -/
inductive ShownAlike : Option String → Option String → Prop
  | blank {a b : Option String} (ha : a = none ∨ a = some "") (hb : b = none ∨ b = some "") :
      ShownAlike a b
  | alike {a b : String} (h : Alike a b) : ShownAlike (some a) (some b)

theorem Alike.isEmpty_eq (h : Alike a b) : a.isEmpty = b.isEmpty := by
  rw [Bool.eq_iff_iff, String.isEmpty_iff, String.isEmpty_iff, ← String.length_eq_zero_iff,
    ← String.length_eq_zero_iff, h.2]

theorem eq_empty_of_alike (h : Alike a "") : a = "" := by
  have hlength : a.length = 0 := h.2
  simpa using hlength

/-- An absent value is shown as an empty one. -/
theorem shownAlike_iff {a b : Option String} :
    ShownAlike a b ↔ Alike (a.getD "") (b.getD "") := by
  constructor
  · rintro (⟨ha, hb⟩ | h)
    · have hleft : a.getD "" = "" := by rcases ha with rfl | rfl <;> rfl
      have hright : b.getD "" = "" := by rcases hb with rfl | rfl <;> rfl
      rw [hleft, hright]
      exact ⟨rfl, rfl⟩
    · exact h
  · intro h
    cases a with
    | none =>
      cases b with
      | none => exact .blank (.inl rfl) (.inl rfl)
      | some b =>
        obtain rfl : b = "" := eq_empty_of_alike ⟨h.1.symm, h.2.symm⟩
        exact .blank (.inl rfl) (.inr rfl)
    | some a =>
      cases b with
      | none =>
        obtain rfl : a = "" := eq_empty_of_alike h
        exact .blank (.inr rfl) (.inl rfl)
      | some b => exact .alike h

/-! ## Masks -/

/-- Digits behind an opening bracket can be told from what stands in front of it. -/
theorem bracket_append_inj {before after ds es : List Char} (hds : ∀ c ∈ ds, c.isDigit = true)
    (hes : ∀ c ∈ es, c.isDigit = true) (h : before ++ '(' :: ds = after ++ '(' :: es) :
    before = after ∧ ds = es := by
  -- Read from the end, the digits reach up to the bracket, which is none.
  have hdigits (start : List Char) {digits : List Char} (hall : ∀ c ∈ digits, c.isDigit = true) :
      (start ++ '(' :: digits).reverse.takeWhile Char.isDigit = digits.reverse := by
    have hreverse : ∀ c ∈ digits.reverse, c.isDigit = true := by simpa using hall
    rw [List.reverse_append, List.reverse_cons, List.append_assoc,
      List.takeWhile_append_of_pos hreverse]
    exact List.append_nil _
  have hsame : ds = es := by
    rw [← List.reverse_inj, ← hdigits before hds, h, hdigits after hes]
  subst hsame
  exact ⟨List.append_cancel_right h, rfl⟩

theorem toList_mask (h : a.isEmpty = false) : (mask a).toList =
    a.toList.take 2 ++ "********** ".toList ++ '(' :: Nat.toDigits 10 a.length ++
      " chars)".toList := by
  have htext : mask a = String.ofList (a.toList.take 2) ++
      ("********** (" ++ toString a.length ++ " chars)") := by
    rw [mask, h]
    rfl
  simp [htext]

/-- A value that is not empty is not masked as an empty one. -/
theorem mask_ne_emptyMark (h : a.isEmpty = false) : mask a ≠ emptyMark := by
  intro heq
  have hlast := congrArg (fun text => text.toList.getLast?) heq
  simp only [toList_mask h, List.getLast?_append] at hlast
  cases hlast

/-- Two values are masked alike exactly when they have the same start and length. -/
theorem mask_eq_mask_iff : mask a = mask b ↔ Alike a b := by
  constructor
  · intro h
    cases ha : a.isEmpty with
    | true =>
      cases hb : b.isEmpty with
      | true =>
        rw [String.isEmpty_iff.mp ha, String.isEmpty_iff.mp hb]
        exact ⟨rfl, rfl⟩
      | false =>
        have hempty : mask a = emptyMark := by simp [mask, ha]
        exact absurd (h.symm.trans hempty) (mask_ne_emptyMark hb)
    | false =>
      cases hb : b.isEmpty with
      | true =>
        have hempty : mask b = emptyMark := by simp [mask, hb]
        exact absurd (h.trans hempty) (mask_ne_emptyMark ha)
      | false =>
        -- The stars and the words are the same, so the starts and the digits of the counts are.
        have hlist := congrArg String.toList h
        rw [toList_mask ha, toList_mask hb] at hlist
        have hdigits (n : Nat) : ∀ c ∈ Nat.toDigits 10 n, c.isDigit = true :=
          fun _ hmem => Nat.isDigit_of_mem_toDigits (by decide) (by decide) hmem
        obtain ⟨hstart, hcount⟩ :=
          bracket_append_inj (hdigits _) (hdigits _) (List.append_cancel_right hlist)
        refine ⟨List.append_cancel_right hstart, ?_⟩
        calc a.length = Nat.ofDigitChars 10 (Nat.toDigits 10 a.length) 0 :=
              Nat.ofDigitChars_ten_toDigits.symm
          _ = Nat.ofDigitChars 10 (Nat.toDigits 10 b.length) 0 := by rw [hcount]
          _ = b.length := Nat.ofDigitChars_ten_toDigits
  · intro h
    rw [mask, mask, h.isEmpty_eq, h.1, h.2]

/-- The value of an option that is a secret is masked. -/
theorem sanitize_eq_mask (h : isSensitive name = true) (a : String) :
    sanitize name a = mask a := by
  rw [sanitize, if_pos h, mask]
  split <;> rfl

theorem sanitize_eq_sanitize_iff (h : isSensitive name = true) :
    sanitize name a = sanitize name b ↔ Alike a b := by
  rw [sanitize_eq_mask h, sanitize_eq_mask h, mask_eq_mask_iff]

end Masking

/-! ## Credentials -/

namespace SessionCredentials

/-- Of the secrets a description holds the literals of what masks show. -/
theorem exists_describe_eq : ∃ ending : Option Instant → String,
    ∀ credentials : SessionCredentials, credentials.describe =
      "SessionCredentials \x7b access_key_id: " ++ (Text.quote credentials.accessKey ++
      (", secret_access_key: " ++ (Text.quote (Masking.mask credentials.secretKey) ++
      (", session_token: " ++ (Text.quote (Masking.mask credentials.token) ++
        ending credentials.expiration))))) := by
  refine ⟨fun expiration => ", expiration: " ++
    expiration.elim "None" (fun t => "Some(" ++ t.isoUtc ++ ")") ++ " \x7d", ?_⟩
  rintro ⟨key, secret, token, expiration⟩
  unfold describe
  cases expiration with
  | none => simp only [Option.elim, String.append_assoc]
  | some t => simp only [Option.elim, String.append_assoc]

/-- Credentials that agree in what is no secret are described alike exactly when their secrets have
the same start and length. -/
theorem describe_eq_describe_iff {a b : SessionCredentials} (hkey : a.accessKey = b.accessKey)
    (hexpiration : a.expiration = b.expiration) :
    a.describe = b.describe ↔
      Masking.Alike a.secretKey b.secretKey ∧ Masking.Alike a.token b.token := by
  obtain ⟨ending, hdescribe⟩ := exists_describe_eq
  rw [hdescribe, hdescribe, hkey, hexpiration, ← Masking.mask_eq_mask_iff,
    ← Masking.mask_eq_mask_iff]
  constructor
  · intro h
    -- The secrets are read off one after the other: each literal tells where it ends.
    simp only [String.append_right_inj] at h
    obtain ⟨hsecret, hrest⟩ := Text.quote_append_inj h
    rw [String.append_right_inj] at hrest
    exact ⟨hsecret, (Text.quote_append_inj hrest).1⟩
  · rintro ⟨hsecret, htoken⟩
    rw [hsecret, htoken]

end SessionCredentials

end BucketCare
