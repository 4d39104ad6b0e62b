import BucketCare.Text.Percent
import BucketCare.Masking

/-!
# Quoted text can be read again

What is written for a character inside a literal tells the character, and where it ends. The
closing mark is never written for a character. So a literal tells its text, whatever follows it.

## Main definitions

* `readQuoted?` — the character at the start of what stands inside a literal

## Main results

* `readQuoted?_quoteChar` — a character is read as it was written
* `quote_append_inj` — a literal tells its text, and where it ends
-/

namespace BucketCare.Text

/-! ## Numbers in base sixteen -/

/-- The number that some digits in base sixteen stand for. -/
def hexNumber (ds : List Char) : Nat :=
  ds.foldl (fun n c => 16 * n + (Percent.hexValue? c).getD 0) 0

theorem hexValue?_digitChar : ∀ n < 16, Percent.hexValue? (Nat.digitChar n) = some n := by decide

theorem hexNumber_concat (ds : List Char) (c : Char) :
    hexNumber (ds ++ [c]) = 16 * hexNumber ds + (Percent.hexValue? c).getD 0 := by
  simp [hexNumber]

theorem hexNumber_hexLower (n : Nat) : hexNumber (hexLower n) = n := by
  induction n using Nat.strongRecOn with
  | ind n ih =>
    unfold hexLower at ih ⊢
    rw [Nat.toDigits_eq_if (by decide)]
    split
    next hlt => simp [hexNumber, hexValue?_digitChar n hlt]
    next hmore =>
      rw [hexNumber_concat, ih (n / 16) (by omega),
        hexValue?_digitChar _ (Nat.mod_lt n (by decide))]
      exact Nat.div_add_mod n 16

theorem isSome_hexValue?_of_mem_hexLower {c : Char} (n : Nat) (h : c ∈ hexLower n) :
    (Percent.hexValue? c).isSome = true := by
  induction n using Nat.strongRecOn with
  | ind n ih =>
    unfold hexLower at ih h
    rw [Nat.toDigits_eq_if (by decide)] at h
    split at h
    next hlt =>
      rw [List.mem_singleton.mp h, hexValue?_digitChar n hlt]
      rfl
    next hmore =>
      rcases List.mem_append.mp h with habove | hlast
      · exact ih (n / 16) (by omega) habove
      · rw [List.mem_singleton.mp hlast, hexValue?_digitChar _ (Nat.mod_lt n (by decide))]
        rfl

/-! ## Characters -/

/-- What a letter behind a backslash stands for. -/
def shortEscape? : Char → Option Char
  | '0' => some '\x00'
  | 't' => some '\t'
  | 'r' => some '\r'
  | 'n' => some '\n'
  | '\x22' => some '\x22'
  | '\\' => some '\\'
  | _ => none

/-- The character at the start of what stands inside a literal, and what stands behind it; there is
none at the end of the literal. -/
def readQuoted? : List Char → Option (Char × List Char)
  | [] => none
  | '\x22' :: _ => none
  | '\\' :: 'u' :: '\x7b' :: rest =>
    some (Char.ofNat (hexNumber (rest.takeWhile (· != '\x7d'))),
      (rest.dropWhile (· != '\x7d')).tail)
  | '\\' :: c :: rest => (shortEscape? c).map (·, rest)
  | c :: rest => some (c, rest)

theorem readQuoted?_self {c : Char} (hmark : c ≠ '\x22') (hback : c ≠ '\\') (rest : List Char) :
    readQuoted? (c :: rest) = some (c, rest) := by
  rw [readQuoted?]
  · exact hmark
  · rintro _ rfl
    exact absurd rfl hback
  · rintro _ _ rfl
    exact absurd rfl hback

theorem readQuoted?_escapeNumber (c : Char) (rest : List Char) :
    readQuoted? (escapeNumber c ++ rest) = some (c, rest) := by
  -- The number ends at the first closing brace, which is no digit.
  have hdigits : ∀ d ∈ hexLower c.toNat, (d != '\x7d') = true := by
    intro d hmem
    have hsome := isSome_hexValue?_of_mem_hexLower _ hmem
    rw [bne_iff_ne]
    rintro rfl
    cases hsome
  have hlist : escapeNumber c ++ rest =
      '\\' :: 'u' :: '\x7b' :: (hexLower c.toNat ++ '\x7d' :: rest) := by
    simp [escapeNumber]
  rw [hlist, readQuoted?, List.takeWhile_append_of_pos hdigits,
    List.dropWhile_append_of_pos hdigits]
  simp [hexNumber_hexLower]

/-- What is written for a character tells the character, and where it ends. -/
theorem readQuoted?_quoteChar (c : Char) (rest : List Char) :
    readQuoted? (quoteChar c ++ rest) = some (c, rest) := by
  unfold quoteChar
  split
  next h => subst h; rfl
  split
  next h => subst h; rfl
  split
  next h => subst h; rfl
  split
  next h => subst h; rfl
  split
  next h => subst h; rfl
  next hmark =>
    split
    next h => subst h; rfl
    next hback =>
      -- What is left stands for itself or is written by its number.
      split
      · exact readQuoted?_self hmark hback rest
      split
      · exact readQuoted?_escapeNumber c rest
      · exact readQuoted?_self hmark hback rest

/-! ## Literals -/

theorem quoteChar_append_inj {c d : Char} {before after : List Char}
    (h : quoteChar c ++ before = quoteChar d ++ after) : c = d ∧ before = after := by
  have hread := congrArg readQuoted? h
  rw [readQuoted?_quoteChar, readQuoted?_quoteChar] at hread
  exact Prod.ext_iff.mp (Option.some.inj hread)

/-- What stands inside a literal tells the text, up to the closing mark. -/
theorem flatMap_quoteChar_inj {cs ds before after : List Char}
    (h : cs.flatMap quoteChar ++ '\x22' :: before = ds.flatMap quoteChar ++ '\x22' :: after) :
    cs = ds ∧ before = after := by
  -- A literal that is longer than the other would hold a closing mark.
  have hclosed (c : Char) (rest behind : List Char) :
      '\x22' :: rest ≠ quoteChar c ++ behind := by
    intro heq
    have hread := congrArg readQuoted? heq
    rw [readQuoted?_quoteChar] at hread
    cases hread
  induction cs generalizing ds with
  | nil =>
    cases ds with
    | nil => exact ⟨rfl, (List.cons.inj h).2⟩
    | cons d ds =>
      rw [List.flatMap_cons, List.append_assoc] at h
      exact absurd h (hclosed d _ _)
  | cons c cs ih =>
    cases ds with
    | nil =>
      rw [List.flatMap_cons, List.append_assoc] at h
      exact absurd h.symm (hclosed c _ _)
    | cons d ds =>
      rw [List.flatMap_cons, List.flatMap_cons, List.append_assoc, List.append_assoc] at h
      obtain ⟨rfl, hrest⟩ := quoteChar_append_inj h
      obtain ⟨rfl, hbehind⟩ := ih hrest
      exact ⟨rfl, hbehind⟩

/-- A literal tells its text, and where it ends. -/
theorem quote_append_inj {s t before after : String}
    (h : quote s ++ before = quote t ++ after) : s = t ∧ before = after := by
  have hlist := congrArg String.toList h
  simp only [quote, String.toList_append, String.toList_ofList, List.append_assoc,
    List.cons_append, List.nil_append, List.cons.injEq, true_and] at hlist
  obtain ⟨htext, hbehind⟩ := flatMap_quoteChar_inj hlist
  exact ⟨String.toList_inj.mp htext, String.toList_inj.mp hbehind⟩

end BucketCare.Text
