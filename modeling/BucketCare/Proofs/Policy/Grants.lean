import BucketCare.Policy
import BucketCare.Proofs.Child
import BucketCare.Proofs.Command.Scope
import BucketCare.Proofs.Path
import Mathlib.Data.List.Infix
import Mathlib.Data.List.TakeWhile

/-!
# What a policy grants

The resources of a policy are patterns: an asterisk stands for any text and a question mark for any
one character. The policy for a path names the objects below the path by the path as it is written,
with an asterisk behind its folder. So everything below the path is granted, and as long as the path
holds no asterisk and no question mark nothing else is. A path may hold one, since keys may and
reading a path refuses neither; it is a wildcard in the policy, and the grant reaches beyond the
path.

## Main definitions

* `Pattern.Matches` — a pattern matches a text
* `objectName` — the resource name of an object
* `Statement.IsAboutObjects`, `Policy.Grants` — statements on objects, and what a policy grants
* `StorePath.IsPlain` — a path without wildcards

## Main results

* `Pattern.matches_append_iff` — a pattern that begins without wildcards
* `Pattern.matches_filled` — a pattern with wildcards matches another text of its length
* `Policy.grants_only_below` — nothing outside a plain path is granted
* `Policy.objects_granted` — the objects of a policy are those below the path exactly where the path
  is plain
* `Policy.grants_beyond_path` — a path with an asterisk grants more
-/

namespace BucketCare

/-! ## Patterns -/

/-- A character that stands for others in a pattern. -/
def isWildcard (c : Char) : Bool := c == '*' || c == '?'

namespace Pattern

/-- A pattern matches a text: an asterisk any text, a question mark any one character, and any other
character itself. -/
inductive Matches : List Char → List Char → Prop
  | nil : Matches [] []
  | any {pattern text : List Char} (skipped : List Char) (h : Matches pattern text) :
      Matches ('*' :: pattern) (skipped ++ text)
  | one {pattern text : List Char} (c : Char) (h : Matches pattern text) :
      Matches ('?' :: pattern) (c :: text)
  | same {pattern text : List Char} {c : Char} (hplain : isWildcard c = false)
      (h : Matches pattern text) : Matches (c :: pattern) (c :: text)

theorem Matches.append {pattern text pattern' text' : List Char} (h : Matches pattern text)
    (h' : Matches pattern' text') : Matches (pattern ++ pattern') (text ++ text') := by
  induction h with
  | nil => exact h'
  | any skipped _ ih =>
    rw [List.append_assoc]
    exact ih.any skipped
  | one c _ ih => exact ih.one c
  | same hplain _ ih => exact ih.same hplain

/-- An asterisk matches any text. -/
theorem matches_asterisk (text : List Char) : Matches ['*'] text := by
  simpa using Matches.any text .nil

/-- A pattern matches itself, since wildcards stand for themselves too. -/
theorem matches_self (pattern : List Char) : Matches pattern pattern := by
  induction pattern with
  | nil => exact .nil
  | cons c pattern ih =>
    cases hc : isWildcard c with
    | false => exact ih.same hc
    | true =>
      obtain rfl | rfl : c = '*' ∨ c = '?' := by simpa [isWildcard] using hc
      · exact ih.any ['*']
      · exact ih.one '?'

/-- A pattern that begins without wildcards matches the texts that begin in the same way. -/
theorem matches_append_iff {start : List Char} (hplain : ∀ c ∈ start, isWildcard c = false)
    (pattern text : List Char) :
    Matches (start ++ pattern) text ↔ ∃ rest, text = start ++ rest ∧ Matches pattern rest := by
  induction start generalizing text with
  | nil => simp
  | cons c start ih =>
    have hc : isWildcard c = false := hplain c (.head _)
    have hstart : ∀ d ∈ start, isWildcard d = false := fun d hd => hplain d (.tail _ hd)
    constructor
    · intro h
      cases h with
      | any | one => simp [isWildcard] at hc
      | same _ h =>
        obtain ⟨rest, rfl, hrest⟩ := (ih hstart _).mp h
        exact ⟨rest, rfl, hrest⟩
    · rintro ⟨rest, rfl, hrest⟩
      exact ((ih hstart _).mpr ⟨rest, rfl, hrest⟩).same hc

/-- A text with some letter in place of each wildcard. -/
def filled (pattern : List Char) : List Char :=
  pattern.map fun c => if isWildcard c then 'x' else c

/-- A pattern matches the text with a letter in place of each wildcard. -/
theorem matches_filled (pattern : List Char) : Matches pattern (filled pattern) := by
  induction pattern with
  | nil => exact .nil
  | cons c pattern ih =>
    cases hc : isWildcard c with
    | false => simpa [filled, hc] using ih.same hc
    | true =>
      obtain rfl | rfl : c = '*' ∨ c = '?' := by simpa [isWildcard] using hc
      · simpa [filled, hc] using ih.any ['x']
      · simpa [filled, hc] using ih.one 'x'

theorem length_filled (pattern : List Char) : (filled pattern).length = pattern.length :=
  List.length_map _

/-- Only a text without wildcards is left as it is. -/
theorem filled_eq_self_iff {pattern : List Char} :
    filled pattern = pattern ↔ ∀ c ∈ pattern, isWildcard c = false := by
  induction pattern with
  | nil => simp [filled]
  | cons c pattern ih =>
    cases hc : isWildcard c with
    | false => simpa [filled, hc] using ih
    | true =>
      have hx : 'x' ≠ c := by
        rintro rfl
        cases hc
      simp [filled, hc, hx]

theorem notMem_filled {c : Char} (hc : c ≠ 'x') {pattern : List Char} (h : c ∉ pattern) :
    c ∉ filled pattern := by
  intro hmem
  obtain ⟨d, hd, heq⟩ := List.mem_map.mp hmem
  split at heq
  · exact hc heq.symm
  · exact h (heq ▸ hd)

/-- A pattern matches a text, decided by all ends of the text that an asterisk may leave. -/
def matches? : List Char → List Char → Bool
  | [], text => text.isEmpty
  | c :: pattern, text =>
    if c = '*' then text.tails.any (matches? pattern)
    else (text.head?.any fun d => c = '?' || c = d) && matches? pattern text.tail

theorem matches?_iff {pattern text : List Char} :
    matches? pattern text = true ↔ Matches pattern text := by
  constructor
  · intro h
    induction pattern generalizing text with
    | nil =>
      obtain rfl : text = [] := by simpa [matches?] using h
      exact .nil
    | cons c pattern ih =>
      rw [matches?] at h
      split at h
      next hc =>
        obtain ⟨rest, hrest, hmatch⟩ := List.any_eq_true.mp h
        obtain ⟨skipped, rfl⟩ := (List.mem_tails _ _).mp hrest
        exact hc ▸ (ih hmatch).any skipped
      next hc =>
        cases text with
        | nil => cases h
        | cons d rest =>
          obtain ⟨hsame, hmatch⟩ : (c = '?' ∨ c = d) ∧ matches? pattern rest = true := by
            simpa using h
          by_cases hone : c = '?'
          · exact hone ▸ (ih hmatch).one d
          · obtain rfl := hsame.resolve_left hone
            exact (ih hmatch).same (by simp [isWildcard, hc, hone])
  · intro h
    induction h with
    | nil => rfl
    | @any pattern text skipped _ ih =>
      rw [matches?, if_pos rfl]
      exact List.any_eq_true.mpr ⟨text, (List.mem_tails _ _).mpr (List.suffix_append _ _), ih⟩
    | one c _ ih => simpa [matches?] using ih
    | @same pattern text c hplain _ ih =>
      obtain ⟨hany, -⟩ : c ≠ '*' ∧ c ≠ '?' := by simpa [isWildcard] using hplain
      simpa [matches?, hany] using ih

instance (pattern text : List Char) : Decidable (Matches pattern text) :=
  decidable_of_iff _ matches?_iff

end Pattern

/-! ## Statements and policies -/

/-- The resource name of an object. -/
def objectName (bucket key : String) : String := "arn:aws:s3:::" ++ bucket ++ "/" ++ key

/-- The actions of policies that are on objects; all others are on buckets. -/
def objectActions : List String :=
  ["s3:GetObject", "s3:GetObjectVersion", "s3:PutObject", "s3:DeleteObject",
    "s3:DeleteObjectVersion", "s3:AbortMultipartUpload", "s3:ListMultipartUploadParts"]

/-- A statement is on objects. -/
def Statement.IsAboutObjects (statement : Statement) : Prop :=
  ∃ action ∈ statement.actions, action ∈ objectActions

/-- A pattern for resources matches a resource name. -/
def Covers (pattern resource : String) : Prop := Pattern.Matches pattern.toList resource.toList

instance (pattern resource : String) : Decidable (Covers pattern resource) :=
  inferInstanceAs (Decidable (Pattern.Matches _ _))

/-- A policy grants an action on a resource. -/
def Policy.Grants (policy : Policy) (action resource : String) : Prop :=
  ∃ statement ∈ policy.statements, statement.effect = "Allow" ∧ action ∈ statement.actions ∧
    ∃ pattern ∈ statement.resources, Covers pattern resource

/-- A pattern covers the objects below a path and no other objects. -/
def CoversExactly (pattern : String) (path : StorePath) : Prop :=
  ∀ bucket key, '/' ∉ bucket.toList →
    (Covers pattern (objectName bucket key) ↔ bucket = path.bucket ∧ BeginsWith path.folder key)

namespace StorePath

/-- A path without wildcards. -/
def IsPlain (path : StorePath) : Prop :=
  ∀ c ∈ path.bucket.toList ++ path.key.toList, isWildcard c = false

instance (path : StorePath) : Decidable path.IsPlain :=
  List.decidableBAll (isWildcard · = false) (path.bucket.toList ++ path.key.toList)

variable {path : StorePath}

theorem IsPlain.bucket (h : path.IsPlain) : ∀ c ∈ path.bucket.toList, isWildcard c = false :=
  fun c hc => h c (List.mem_append_left _ hc)

/-- The bucket of a path that is read ends before the first slash. -/
theorem slash_notMem_bucket {uri : String} (h : parse uri = .ok path) :
    '/' ∉ path.bucket.toList :=
  (parse_eq_ok_iff.mp h).2.1

/-- The folder of a path has the wildcards of its key. -/
theorem forall_mem_folder {p : Char → Prop} (hslash : p '/') :
    (∀ c ∈ path.folder.toList, p c) ↔ ∀ c ∈ path.key.toList, p c := by
  unfold folder
  split
  · exact Iff.rfl
  · simp [or_imp, forall_and, hslash]

theorem isPlain_iff : path.IsPlain ↔ (∀ c ∈ path.bucket.toList, isWildcard c = false) ∧
    ∀ c ∈ path.folder.toList, isWildcard c = false := by
  rw [forall_mem_folder (by decide), IsPlain, List.forall_mem_append]

end StorePath

namespace Policy

variable {path : StorePath} {options : PolicyOptions}

/-- The start of all resource names holds no wildcard. -/
theorem plain_of_mem_start : ∀ c ∈ "arn:aws:s3:::".toList, isWildcard c = false := by
  have hall : ("arn:aws:s3:::".toList.all fun c => isWildcard c == false) = true := by decide
  intro c hc
  exact eq_of_beq (List.all_eq_true.mp hall c hc)

theorem toList_below (start bucket key : String) : (start ++ bucket ++ "/" ++ key).toList =
    start.toList ++ (bucket.toList ++ '/' :: key.toList) := by
  simp

theorem toList_objectName (bucket key : String) : (objectName bucket key).toList =
    "arn:aws:s3:::".toList ++ (bucket.toList ++ '/' :: key.toList) :=
  toList_below _ bucket key

theorem toList_objectResource : (objectResource path).toList =
    "arn:aws:s3:::".toList ++ (path.bucket.toList ++ '/' :: (path.folder.toList ++ ['*'])) :=
  calc (objectResource path).toList
      = (objectName path.bucket path.folder).toList ++ ['*'] := String.toList_append
    _ = ("arn:aws:s3:::".toList ++ (path.bucket.toList ++ '/' :: path.folder.toList)) ++ ['*'] :=
      congrArg (· ++ ['*']) (toList_objectName path.bucket path.folder)
    _ = _ := by rw [List.append_assoc, List.append_assoc, List.cons_append]

/-- The bucket of a resource name ends before the first slash. -/
theorem takeWhile_append_slash {bucket : List Char} (h : '/' ∉ bucket) (key : List Char) :
    (bucket ++ '/' :: key).takeWhile (· != '/') = bucket := by
  have hpos : ∀ c ∈ bucket, (c != '/') = true := by
    intro c hc
    simpa using ne_of_mem_of_not_mem hc h
  rw [List.takeWhile_append_of_pos hpos, List.takeWhile_cons_of_neg (by simp), List.append_nil]

/-- Each statement of the policy for a path is on the bucket or on the objects below the path. -/
theorem statement_cases {statement : Statement}
    (h : statement ∈ (forPath path options).statements) :
    statement.effect = "Allow" ∧
      (statement = bucketAccess path ∨ statement.resources = [objectResource path]) := by
  rcases List.mem_cons.mp h with rfl | h
  · exact ⟨rfl, .inl rfl⟩
  · unfold objectStatements at h
    split at h
    · obtain rfl := List.mem_singleton.mp h
      exact ⟨rfl, .inr rfl⟩
    split at h <;> simp only [List.mem_cons, List.not_mem_nil, or_false] at h
    · rcases h with rfl | rfl <;> exact ⟨rfl, .inr rfl⟩
    · rcases h with rfl | rfl | rfl <;> exact ⟨rfl, .inr rfl⟩

theorem bucketAccess_not_isAboutObjects : ¬(bucketAccess path).IsAboutObjects := by
  change ¬∃ action ∈ ["s3:ListBucket", "s3:ListBucketVersions", "s3:ListBucketMultipartUploads",
    "s3:GetBucketLocation"], action ∈ objectActions
  decide

/-- What lies below a path is covered, wildcards or not. -/
theorem covers_of_beginsWith {key : String} (h : BeginsWith path.folder key) :
    Covers (objectResource path) (objectName path.bucket key) := by
  obtain ⟨rest, hrest⟩ := h
  rw [Covers, toList_objectName, toList_objectResource, ← hrest]
  have hself := Pattern.matches_self
    ("arn:aws:s3:::".toList ++ (path.bucket.toList ++ '/' :: path.folder.toList))
  simpa using hself.append (Pattern.matches_asterisk rest)

/-- For a plain path what is covered is named below the path. -/
theorem covers_objectResource_iff (hplain : path.IsPlain) {resource : String} :
    Covers (objectResource path) resource ↔
      ∃ key, BeginsWith path.folder key ∧ resource = objectName path.bucket key := by
  constructor
  · intro h
    obtain ⟨hbucket, hfolder⟩ := StorePath.isPlain_iff.mp hplain
    have hstart : ∀ c ∈ "arn:aws:s3:::".toList ++ (path.bucket.toList ++ '/' ::
        path.folder.toList), isWildcard c = false := by
      rw [List.forall_mem_append, List.forall_mem_append, List.forall_mem_cons]
      exact ⟨plain_of_mem_start, hbucket, by decide, hfolder⟩
    have hsplit : (objectResource path).toList = ("arn:aws:s3:::".toList ++
        (path.bucket.toList ++ '/' :: path.folder.toList)) ++ ['*'] := by
      simp [toList_objectResource]
    rw [Covers, hsplit, Pattern.matches_append_iff hstart] at h
    obtain ⟨rest, hrest, -⟩ := h
    refine ⟨path.folder ++ String.ofList rest, by simp [BeginsWith], ?_⟩
    rw [← String.toList_inj, hrest, toList_objectName]
    simp
  · rintro ⟨key, hkey, rfl⟩
    exact covers_of_beginsWith hkey

/-- The bucket itself is all that a plain bucket name covers. -/
theorem covers_bucketResource_iff (hplain : path.IsPlain) {resource : String} :
    Covers (bucketResource path) resource ↔ resource = bucketResource path := by
  have hstart : ∀ c ∈ (bucketResource path).toList, isWildcard c = false := by
    have hparts : (bucketResource path).toList = "arn:aws:s3:::".toList ++ path.bucket.toList :=
      String.toList_append
    rw [hparts, List.forall_mem_append]
    exact ⟨plain_of_mem_start, hplain.bucket⟩
  rw [Covers, ← List.append_nil (bucketResource path).toList, Pattern.matches_append_iff hstart,
    ← String.toList_inj]
  constructor
  · rintro ⟨rest, hrest, hnil⟩
    cases hnil
    simpa using hrest
  · intro h
    exact ⟨[], by simpa using h, .nil⟩

/-- Nothing is granted outside of a plain path: its bucket and the objects below it. -/
theorem grants_only_below (hplain : path.IsPlain) {action resource : String}
    (h : (forPath path options).Grants action resource) :
    resource = bucketResource path ∨
      ∃ key, BeginsWith path.folder key ∧ resource = objectName path.bucket key := by
  obtain ⟨statement, hmem, -, -, pattern, hpattern, hcovers⟩ := h
  obtain ⟨-, rfl | hresources⟩ := statement_cases hmem
  · obtain rfl := List.mem_singleton.mp hpattern
    exact .inl ((covers_bucketResource_iff hplain).mp hcovers)
  · rw [hresources] at hpattern
    obtain rfl := List.mem_singleton.mp hpattern
    exact .inr ((covers_objectResource_iff hplain).mp hcovers)

/-- With a letter in place of each wildcard an object is covered still. -/
theorem covers_filled (path : StorePath) : Covers (objectResource path)
    (objectName (String.ofList (Pattern.filled path.bucket.toList))
      (String.ofList (Pattern.filled path.folder.toList))) := by
  have hslash := Pattern.matches_self ['/']
  have hbelow := (Pattern.matches_filled path.bucket.toList).append
    (hslash.append ((Pattern.matches_filled path.folder.toList).append
      (Pattern.matches_asterisk [])))
  rw [Covers, toList_objectName, toList_objectResource]
  simpa using (Pattern.matches_self "arn:aws:s3:::".toList).append hbelow

/-- The objects that a policy is on are those below its path exactly where the path is plain. -/
theorem coversExactly_iff (hslash : '/' ∉ path.bucket.toList) :
    CoversExactly (objectResource path) path ↔ path.IsPlain := by
  constructor
  · intro h
    -- A letter in place of each wildcard must leave the bucket and the folder as they are.
    have hfilled := (h _ _ (by
      rw [String.toList_ofList]
      exact Pattern.notMem_filled (by decide) hslash)).mp (covers_filled path)
    obtain ⟨hbucket, hfolder⟩ := hfilled
    rw [StorePath.isPlain_iff, ← Pattern.filled_eq_self_iff, ← Pattern.filled_eq_self_iff]
    constructor
    · simpa using congrArg String.toList hbucket
    · rw [BeginsWith, String.toList_ofList] at hfolder
      exact (hfolder.eq_of_length (Pattern.length_filled _).symm).symm
  · intro hplain bucket key hbucket
    rw [covers_objectResource_iff hplain]
    constructor
    · rintro ⟨key', hkey', heq⟩
      rw [← String.toList_inj, toList_objectName, toList_objectName,
        List.append_cancel_left_eq] at heq
      have hsame : bucket.toList = path.bucket.toList := by
        rw [← takeWhile_append_slash hbucket, heq, takeWhile_append_slash hslash]
      rw [hsame, List.append_cancel_left_eq] at heq
      obtain rfl := String.toList_inj.mp (List.cons.inj heq).2
      exact ⟨String.toList_inj.mp hsame, hkey'⟩
    · rintro ⟨rfl, hkey⟩
      exact ⟨key, hkey, rfl⟩

/-- The policy for a path grants its statements on objects for all objects below the path, those
that are resolved below it included. It is on no other objects exactly where the path holds no
wildcard, and then it grants nothing but its bucket and the objects below it. -/
theorem objects_granted (uri : String) (path : StorePath) (options : PolicyOptions)
    (hpath : StorePath.parse uri = .ok path) :
    (∀ statement ∈ (forPath path options).statements, statement.IsAboutObjects →
      ∃ resource, statement.resources = [resource] ∧
        (∀ key, BeginsWith path.folder key → Covers resource (objectName path.bucket key)) ∧
        (∀ relative, Covers resource
          (objectName (path.child relative).bucket (path.child relative).key)) ∧
        (CoversExactly resource path ↔ path.IsPlain)) ∧
    (path.IsPlain → ∀ action resource, (forPath path options).Grants action resource →
      resource = bucketResource path ∨
        ∃ key, BeginsWith path.folder key ∧ resource = objectName path.bucket key) := by
  refine ⟨?_, fun hplain action resource => grants_only_below hplain⟩
  intro statement hmem hobjects
  obtain ⟨-, rfl | hresources⟩ := statement_cases hmem
  · exact absurd hobjects bucketAccess_not_isAboutObjects
  · exact ⟨_, hresources, fun key => covers_of_beginsWith,
      fun relative => covers_of_beginsWith (path.folder_prefix_child relative),
      coversExactly_iff (StorePath.slash_notMem_bucket hpath)⟩

/-- A plain path: reading is granted for what lies below it, and not for what begins like it. -/
theorem objects_granted_of_plain :
    StorePath.parse "s3://b/data" = .ok ⟨"b", "data"⟩ ∧ StorePath.IsPlain ⟨"b", "data"⟩ ∧
      ∃ resource, (objectRead ⟨"b", "data"⟩).resources = [resource] ∧
        Covers resource (objectName "b" "data/a") ∧
        ¬Covers resource (objectName "b" "data2/a") := by
  have hpath : StorePath.parse "s3://b/data" = .ok ⟨"b", "data"⟩ := by decide +kernel
  have hplain : StorePath.IsPlain ⟨"b", "data"⟩ := by decide +kernel
  obtain ⟨hobjects, -⟩ := objects_granted _ _ ⟨true, false⟩ hpath
  obtain ⟨resource, hresource, hbelow, -, hexact⟩ := hobjects (objectRead ⟨"b", "data"⟩)
    (.tail _ (.head _)) ⟨"s3:GetObject", .head _, .head _⟩
  refine ⟨hpath, hplain, resource, hresource, hbelow _ (by decide +kernel), ?_⟩
  rw [hexact.mpr hplain "b" "data2/a" (by decide)]
  exact fun h => absurd h.2 (by decide +kernel)

/-- A path with an asterisk grants reading objects that do not lie below it. -/
theorem grants_beyond_path :
    StorePath.parse "s3://b/a*" = .ok ⟨"b", "a*"⟩ ∧
      (forPath ⟨"b", "a*"⟩ ⟨true, false⟩).Grants "s3:GetObject" (objectName "b" "accounts/1") ∧
      ¬BeginsWith (StorePath.folder ⟨"b", "a*"⟩) "accounts/1" := by
  refine ⟨by decide +kernel, ?_, by decide +kernel⟩
  exact ⟨objectRead ⟨"b", "a*"⟩, .tail _ (.head _), rfl, .head _, _, .head _, by decide +kernel⟩

end Policy

end BucketCare
