import BucketCare.Proofs.Path
import BucketCare.Proofs.Text.Percent
import BucketCare.Store.Client

/-!
# The source of a copy names one version

The source of a copy is a bucket, a key and perhaps a version in one text. A bucket has no slash, so
the first slash ends it. The key is percent-encoded and holds no question mark any more, so the
first mark of a version is the one that was put there, or there is none. What is cut apart in this
way is decoded to the same bucket, key and version.

## Main definitions

* `Text.cutAt` — a text cut at the first place of a mark
* `readCopySource` — the bucket, the key and the version that a copy source stands for

## Main results

* `readCopySource_copySource` — a copy source is read as it was written
* `copySource_tells_version` — different versions have different sources, in ASCII behind the bucket
-/

namespace BucketCare

/-! ## Cutting a text -/

namespace Text

/-- A text cut at the first place where a mark stands, which is not empty: what is before it, and
what is behind it if it stands anywhere. -/
def cutAt (mark : List Char) : List Char → List Char × Option (List Char)
  | [] => ([], none)
  | c :: rest =>
    if beginsWith mark (c :: rest) then ([], some ((c :: rest).drop mark.length))
    else (c :: (cutAt mark rest).1, (cutAt mark rest).2)

variable {c : Char} {mark before text : List Char}

/-- A character other than the first of a mark stays in front of the cut. -/
theorem cutAt_cons_of_ne {d : Char} (h : c ≠ d) (rest : List Char) :
    cutAt (c :: mark) (d :: rest) =
      (d :: (cutAt (c :: mark) rest).1, (cutAt (c :: mark) rest).2) := by
  rw [cutAt, if_neg]
  simp [beginsWith, h]

theorem cutAt_of_notMem (h : c ∉ text) : cutAt (c :: mark) text = (text, none) := by
  induction text with
  | nil => rfl
  | cons d text ih =>
    rw [cutAt_cons_of_ne (List.ne_of_not_mem_cons h), ih (List.not_mem_of_not_mem_cons h)]

theorem cutAt_append_of_notMem (h : c ∉ before) (mark behind : List Char) :
    cutAt (c :: mark) (before ++ (c :: mark ++ behind)) = (before, some behind) := by
  induction before with
  | nil =>
    have hbegins : beginsWith (c :: mark) (c :: mark ++ behind) = true :=
      beginsWith_iff.mpr (List.prefix_append _ _)
    rw [List.nil_append, List.cons_append, cutAt, ← List.cons_append, if_pos hbegins,
      List.drop_left]
  | cons d before ih =>
    rw [List.cons_append, cutAt_cons_of_ne (List.ne_of_not_mem_cons h),
      ih (List.not_mem_of_not_mem_cons h)]

end Text

/-! ## Reading a source -/

/-- What stands between a key and a version. -/
def versionMark : List Char := ['?', 'v', 'e', 'r', 's', 'i', 'o', 'n', 'I', 'd', '=']

theorem toList_versionMark : "?versionId=".toList = versionMark := by decide

/-- The bucket, the key and the version that a copy source stands for: it is cut at the first slash,
and behind that at the first mark of a version if there is one, and the key and the version are
decoded. -/
def readCopySource (source : String) : Option (String × String × Option String) :=
  match Text.cutAt ['/'] source.toList with
  | (_, none) => none
  | (bucket, some object) =>
    match Text.cutAt versionMark object with
    | (key, none) => do
      let key ← Text.Percent.decode? (String.ofList key)
      return (String.ofList bucket, key, none)
    | (key, some version) => do
      let key ← Text.Percent.decode? (String.ofList key)
      let version ← Text.Percent.decode? (String.ofList version)
      return (String.ofList bucket, key, some version)

variable {bucket : String}

/-- What stands behind the bucket and the slash in a copy source. -/
theorem copySource_toList (bucket key : String) (version : Option String) :
    (copySource bucket key version).toList = bucket.toList ++ (['/'] ++
      ((Text.Percent.encode key).toList ++ version.elim [] fun version =>
        versionMark ++ (Text.Percent.encode version).toList)) := by
  cases version <;> simp [copySource, toList_versionMark]

theorem mark_notMem_encode (s : String) : '?' ∉ (Text.Percent.encode s).toList := fun hmem =>
  absurd (Text.Percent.isPlain_of_mem_encode hmem) (by decide)

/-- A copy source is read as it was written. -/
theorem readCopySource_copySource (hbucket : '/' ∉ bucket.toList) (key : String)
    (version : Option String) :
    readCopySource (copySource bucket key version) = some (bucket, key, version) := by
  -- The bucket ends at its slash, and the key at the mark, which an encoded key does not hold.
  have hmark : '?' ∉ (Text.Percent.encode key).toList := mark_notMem_encode key
  have hobject := Text.cutAt_append_of_notMem hbucket []
    ((Text.Percent.encode key).toList ++ version.elim [] fun version =>
        versionMark ++ (Text.Percent.encode version).toList)
  simp only [readCopySource, copySource_toList, hobject]
  cases version with
  | none =>
    rw [Option.elim_none, List.append_nil, versionMark, Text.cutAt_of_notMem hmark]
    simp [Text.Percent.decode?_encode]
  | some version =>
    rw [Option.elim_some, versionMark, Text.cutAt_append_of_notMem hmark]
    simp [Text.Percent.decode?_encode]

/-- Behind the bucket a copy source is ASCII. -/
theorem toNat_lt_of_mem_drop {key : String} {version : Option String} {c : Char}
    (h : c ∈ (copySource bucket key version).toList.drop bucket.toList.length) :
    c.toNat < 0x80 := by
  rw [copySource_toList, List.drop_left, List.mem_append, List.mem_append] at h
  rcases h with hslash | hkey | hversion
  · obtain rfl := List.mem_singleton.mp hslash
    decide
  · exact (Text.Percent.isPlain_of_mem_encode hkey).toNat_lt
  · cases version with
    | none => cases hversion
    | some version =>
      rw [Option.elim_some, List.mem_append] at hversion
      rcases hversion with hmark | hversion
      · have hascii : ∀ c ∈ versionMark, c.toNat < 0x80 := by simp [versionMark]
        exact hascii c hmark
      · exact (Text.Percent.isPlain_of_mem_encode hversion).toNat_lt

/-- The source of a copy from a bucket without a slash is read as the bucket, the key and the
version that it was written for, with a version exactly if there was one. So no other bucket, key or
version has the same source. Whatever the key and the version, it is ASCII behind the bucket. -/
theorem copySource_tells_version (hbucket : '/' ∉ bucket.toList) (key : String)
    (version : Option String) :
    readCopySource (copySource bucket key version) = some (bucket, key, version) ∧
    (∀ (bucket' key' : String) (version' : Option String), '/' ∉ bucket'.toList →
      copySource bucket' key' version' = copySource bucket key version →
        bucket' = bucket ∧ key' = key ∧ version' = version) ∧
    ∀ c ∈ (copySource bucket key version).toList.drop bucket.toList.length, c.toNat < 0x80 := by
  have hread := readCopySource_copySource hbucket key version
  refine ⟨hread, fun bucket' key' version' hbucket' heq => ?_, fun _ => toNat_lt_of_mem_drop⟩
  -- Both are read from one source, which says what either was written for.
  have hread' := readCopySource_copySource hbucket' key' version'
  rw [heq, hread] at hread'
  simpa using hread'.symm

/-- A key that looks like a key with a version, and the version of a key with all marks. -/
theorem copySource_tells_version_of_marks :
    '/' ∉ "bé".toList ∧ '/' ∉ "b".toList ∧
    readCopySource (copySource "bé" "a?/+%2F 😀" (some "v=1&?versionId=")) =
      some ("bé", "a?/+%2F 😀", some "v=1&?versionId=") ∧
    copySource "b" "k?versionId=v" none ≠ copySource "b" "k" (some "v") ∧
    copySource "b" "k?versionId=v" none = "b/k%3FversionId%3Dv" := by
  have haccent : '/' ∉ "bé".toList := by decide
  have hplain : '/' ∉ "b".toList := by decide
  refine ⟨haccent, hplain, (copySource_tells_version haccent _ _).1, fun heq => ?_,
    by decide +kernel⟩
  have hsame := (copySource_tells_version hplain "k" (some "v")).2.1 _ _ _ hplain heq
  exact absurd hsame.2.1 (by decide)

end BucketCare
