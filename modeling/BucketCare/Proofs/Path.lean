import BucketCare.Path
import Mathlib.Data.List.Infix
import Mathlib.Data.List.TakeWhile

/-!
# URIs of places

A URI is read as a place exactly if it is a scheme, a bucket without a slash and, behind a slash, a
key, which may hold anything. The two schemes differ in their third character, so no URI has both,
and the first slash behind the scheme ends the bucket, so no URI names two places. Writing a place
and reading it again gives the place; reading a URI and writing the place settles the scheme to `s3`
and the slash behind a bare bucket, and changes nothing else.

## Main results

* `StorePath.stripScheme_eq_some_iff` — what follows the scheme
* `StorePath.cut_iff` — the cut at the first slash
* `StorePath.parse_eq_ok_iff` — the URIs of a place
* `StorePath.parse_display_round_trip` — reading and writing places
-/

namespace BucketCare

theorem Text.beginsWith_iff {start text : List Char} :
    beginsWith start text = true ↔ start <+: text := by
  induction start generalizing text with
  | nil => simp [beginsWith]
  | cons a start ih =>
    cases text with
    | nil => simp [beginsWith]
    | cons b text => simp [beginsWith, List.cons_prefix_cons, ih]

namespace StorePath

/-! ## The scheme -/

theorem stripScheme_eq_some_iff {uri rest : List Char} :
    stripScheme uri = some rest ↔ ∃ scheme ∈ schemes, uri = scheme.toList ++ rest := by
  constructor
  · intro h
    obtain ⟨start, hmem, hstart⟩ := List.exists_of_findSome?_eq_some h
    obtain ⟨scheme, hscheme, rfl⟩ := List.mem_map.mp hmem
    split at hstart
    next hbegins =>
      obtain ⟨behind, rfl⟩ := Text.beginsWith_iff.mp hbegins
      rw [List.drop_left] at hstart
      exact ⟨scheme, hscheme, by rw [Option.some.inj hstart]⟩
    next => cases hstart
  · rintro ⟨scheme, hmem, rfl⟩
    simp only [schemes, List.mem_cons, List.not_mem_nil, or_false] at hmem
    obtain rfl | rfl := hmem
    · rfl
    · -- the third character keeps the first scheme from being found here
      rfl

/-! ## The bucket and the key -/

/-- What is read up to the first slash, and what stands behind it. -/
theorem cut_iff {rest bucket key : List Char} :
    rest.takeWhile (· != '/') = bucket ∧ (rest.dropWhile (· != '/')).drop 1 = key ↔
      '/' ∉ bucket ∧ (rest = bucket ++ '/' :: key ∨ rest = bucket ∧ key = []) := by
  have hfree : '/' ∉ bucket → ∀ c ∈ bucket, (c != '/') = true := by
    intro h c hc
    rw [bne_iff_ne]
    rintro rfl
    exact h hc
  constructor
  · rintro ⟨rfl, rfl⟩
    refine ⟨fun hmem => by simpa using List.mem_takeWhile_imp hmem, ?_⟩
    have hsplit := List.takeWhile_append_dropWhile (p := (· != '/')) (l := rest)
    cases hbehind : rest.dropWhile (· != '/') with
    | nil =>
      rw [hbehind, List.append_nil] at hsplit
      exact .inr ⟨hsplit.symm, rfl⟩
    | cons c key =>
      have hc : c = '/' := by
        have hhead := List.head?_dropWhile_not (· != '/') rest
        simpa [hbehind] using hhead
      rw [hbehind, hc] at hsplit
      exact .inl hsplit.symm
  · rintro ⟨hslash, rfl | ⟨rfl, rfl⟩⟩
    · rw [List.takeWhile_append_of_pos (hfree hslash), List.takeWhile_cons_of_neg (by simp),
        List.dropWhile_append_of_pos (hfree hslash), List.dropWhile_cons_of_neg (by simp)]
      simp
    · rw [List.takeWhile_eq_self_iff.mpr (hfree hslash),
        List.dropWhile_eq_nil_iff.mpr (hfree hslash)]
      exact ⟨rfl, rfl⟩

/-! ## Reading a URI -/

theorem parse_eq_ok_iff_cut {uri : String} {path : StorePath} :
    parse uri = .ok path ↔ path.bucket ≠ "" ∧ ∃ rest, stripScheme uri.toList = some rest ∧
      rest.takeWhile (· != '/') = path.bucket.toList ∧
      (rest.dropWhile (· != '/')).drop 1 = path.key.toList := by
  have hempty : path.bucket ≠ "" ↔ path.bucket.toList ≠ [] := by
    rw [ne_eq, ne_eq, String.toList_eq_nil_iff]
  rw [hempty]
  unfold parse
  constructor
  · intro h
    split at h
    next => cases h
    next rest hstrip =>
      dsimp only at h
      split at h
      next => cases h
      next hsome =>
        obtain rfl := Except.ok.inj h
        simp only [String.toList_ofList]
        exact ⟨by simpa using hsome, rest, hstrip, rfl, rfl⟩
  · rintro ⟨hsome, rest, hstrip, hbucket, hkey⟩
    rw [hstrip]
    dsimp only
    rw [hbucket, hkey, if_neg (by simpa using hsome), String.ofList_toList, String.ofList_toList]

/-- The URIs of a place: a scheme and the bucket, and the key behind a slash, which may be missing
where the key is empty. -/
theorem parse_eq_ok_iff {uri : String} {path : StorePath} :
    parse uri = .ok path ↔ path.bucket ≠ "" ∧ '/' ∉ path.bucket.toList ∧
      ∃ scheme ∈ schemes, uri = scheme ++ path.bucket ++ "/" ++ path.key ∨
        uri = scheme ++ path.bucket ∧ path.key = "" := by
  have hfull (scheme : String) : uri = scheme ++ path.bucket ++ "/" ++ path.key ↔
      uri.toList = scheme.toList ++ (path.bucket.toList ++ '/' :: path.key.toList) := by
    rw [← String.toList_inj]
    simp
  have hbare (scheme : String) : uri = scheme ++ path.bucket ∧ path.key = "" ↔
      uri.toList = scheme.toList ++ path.bucket.toList ∧ path.key.toList = [] := by
    rw [← String.toList_inj, String.toList_append, String.toList_eq_nil_iff]
  simp only [parse_eq_ok_iff_cut, cut_iff, stripScheme_eq_some_iff, hfull, hbare]
  refine and_congr_right fun _ => ⟨?_, ?_⟩
  · rintro ⟨rest, ⟨scheme, hscheme, huri⟩, hslash, rfl | ⟨rfl, hkey⟩⟩
    · exact ⟨hslash, scheme, hscheme, .inl huri⟩
    · exact ⟨hslash, scheme, hscheme, .inr ⟨huri, hkey⟩⟩
  · rintro ⟨hslash, scheme, hscheme, huri | ⟨huri, hkey⟩⟩
    · exact ⟨_, ⟨scheme, hscheme, huri⟩, hslash, .inl rfl⟩
    · exact ⟨_, ⟨scheme, hscheme, huri⟩, hslash, .inr ⟨rfl, hkey⟩⟩

/-- Reading gives back a place that was written. -/
theorem parse_display_self {path : StorePath} (hbucket : path.bucket ≠ "")
    (hslash : '/' ∉ path.bucket.toList) : parse path.display = .ok path :=
  parse_eq_ok_iff.mpr ⟨hbucket, hslash, "s3://", by decide, .inl rfl⟩

/-- Writing what a URI was read as gives the URI, with the first scheme and with the slash behind
the bucket. -/
theorem display_of_parse {uri : String} {path : StorePath} (h : parse uri = .ok path) :
    ∃ scheme ∈ schemes, ∃ rest, uri = scheme ++ rest ∧
      path.display = "s3://" ++ rest ++ (if '/' ∈ rest.toList then "" else "/") := by
  obtain ⟨-, hslash, scheme, hscheme, rfl | ⟨rfl, hkey⟩⟩ := parse_eq_ok_iff.mp h
  · refine ⟨scheme, hscheme, path.bucket ++ "/" ++ path.key, by simp only [String.append_assoc], ?_⟩
    rw [if_pos (by simp), display]
    simp only [String.append_assoc, String.append_empty]
  · refine ⟨scheme, hscheme, path.bucket, rfl, ?_⟩
    rw [if_neg hslash, display, hkey, String.append_empty]

/-- A text is read as a place exactly if it is one of the two schemes with a bucket that is not
empty and has no slash, and with any key behind a slash or with nothing for the empty key. So
reading undoes writing, and writing undoes reading up to the scheme and the slash behind a bare
bucket. -/
theorem parse_display_round_trip :
    (∀ uri bucket key : String, parse uri = .ok ⟨bucket, key⟩ ↔
      bucket ≠ "" ∧ '/' ∉ bucket.toList ∧ ∃ scheme ∈ ["s3://", "s3a://"],
        uri = scheme ++ bucket ++ "/" ++ key ∨ uri = scheme ++ bucket ∧ key = "") ∧
    (∀ path : StorePath, path.bucket ≠ "" → '/' ∉ path.bucket.toList →
      parse path.display = .ok path) ∧
    ∀ uri path, parse uri = .ok path → ∃ scheme ∈ ["s3://", "s3a://"], ∃ rest,
      uri = scheme ++ rest ∧
      path.display = "s3://" ++ rest ++ (if '/' ∈ rest.toList then "" else "/") :=
  ⟨fun _ _ _ => parse_eq_ok_iff, fun _ => parse_display_self, fun _ _ => display_of_parse⟩

/-- A key with slashes at its start and a scheme inside, a bare bucket, and a text with the letters
of both schemes. -/
theorem parse_display_round_trip_nested :
    parse "s3a://data//a/s3://b" = .ok ⟨"data", "/a/s3://b"⟩ ∧
    parse (display ⟨"data", "/a/s3://b"⟩) = .ok ⟨"data", "/a/s3://b"⟩ ∧
    (∃ scheme ∈ ["s3://", "s3a://"], ∃ rest, "s3://data" = scheme ++ rest ∧
      display ⟨"data", ""⟩ = "s3://" ++ rest ++ (if '/' ∈ rest.toList then "" else "/")) ∧
    parse "s3:a//data" ≠ .ok ⟨"data", ""⟩ := by
  obtain ⟨hread, hback, hwrite⟩ := parse_display_round_trip
  have hnested : parse "s3a://data//a/s3://b" = .ok ⟨"data", "/a/s3://b"⟩ :=
    (hread _ _ _).mpr ⟨by decide, by decide, "s3a://", by decide, .inl (by decide)⟩
  have hbare : parse "s3://data" = .ok ⟨"data", ""⟩ :=
    (hread _ _ _).mpr ⟨by decide, by decide, "s3://", by decide, .inr ⟨by decide, rfl⟩⟩
  refine ⟨hnested, hback _ (by decide) (by decide), hwrite _ _ hbare, fun h => ?_⟩
  obtain ⟨-, -, scheme, hscheme, huri⟩ := (hread _ _ _).mp h
  revert huri
  revert scheme
  decide

end StorePath

end BucketCare
