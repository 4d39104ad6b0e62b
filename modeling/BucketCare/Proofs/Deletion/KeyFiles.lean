import BucketCare.Deletion.Batcher
import BucketCare.Proofs.Text.Lines

/-!
# Files of keys

Each line of a key file is read by itself. What is left of it when it is trimmed is a key or counts
for nothing, so a file that is laid out with blanks around its keys, with blank lines and with
comments in any places is read as its keys, in their order. The keys that are read from any text,
written one to a line, are such a file of these keys.

## Main definitions

* `KeyList.IsKeyText` — a key that can stand in a key file
* `KeyList.Says` — what a line says
* `KeyList.KeyFile` — the files of some keys

## Main results

* `KeyList.parse_line` — a file is read line by line
* `KeyList.KeyFile.parse_eq` — a file of some keys is read as these keys
* `KeyList.parse_intercalate_parse` — what was read, one key to a line, is read again
-/

namespace BucketCare.KeyList

open Text

/-- A key that can stand in a key file. -/
structure IsKeyText (key : String) : Prop where
  ne_empty : key ≠ ""
  one_line : '\n' ∉ key.toList
  trimmed : IsTrimmed key.toList
  no_comment : key.toList.head? ≠ some '#'

instance (key : String) : Decidable (IsKeyText key) :=
  decidable_of_iff (key ≠ "" ∧ '\n' ∉ key.toList ∧ IsTrimmed key.toList ∧
    key.toList.head? ≠ some '#')
    ⟨fun ⟨h₁, h₂, h₃, h₄⟩ => ⟨h₁, h₂, h₃, h₄⟩, fun ⟨h₁, h₂, h₃, h₄⟩ => ⟨h₁, h₂, h₃, h₄⟩⟩

/-- What a line says: a key with blanks around it, or nothing. -/
inductive Says : Option String → String → Prop
  | key {before after : String} (key : String) (hbefore : AllBlank before.toList)
      (hafter : AllBlank after.toList) : Says (some key) (before ++ key ++ after)
  | blank {line : String} (hblank : AllBlank line.toList) : Says none line
  | comment {before : String} (text : String) (hbefore : AllBlank before.toList) :
      Says none (before ++ "#" ++ text)

/-- The files of some keys, line by line. The last line has no line end, and where it is empty the
file ends with that of the line before. -/
inductive KeyFile : List String → String → Prop
  | last {said : Option String} {line : String} (hsaid : Says said line)
      (hline : '\n' ∉ line.toList) : KeyFile said.toList line
  | line {said : Option String} {line ending rest : String} {keys : List String}
      (hsaid : Says said line) (hline : '\n' ∉ line.toList)
      (hending : ending = "\n" ∨ ending = "\r\n") (hrest : KeyFile keys rest) :
      KeyFile (said.toList ++ keys) (line ++ ending ++ rest)

variable {said : Option String} {key line rest : String} {keys : List String}

/-! ## One line -/

/-- The keys among some trimmed lines. -/
def keysIn (trimmed : List (List Char)) : List String := (trimmed.filter isKey).map String.ofList

theorem parse_eq_keysIn (text : String) : parse text = keysIn ((lines text.toList).map trim) := rfl

theorem keysIn_cons (line : List Char) (trimmed : List (List Char)) :
    keysIn (line :: trimmed) = keysIn [line] ++ keysIn trimmed := by
  rw [keysIn, ← List.singleton_append, List.filter_append, List.map_append]
  rfl

theorem isKey_iff {cs : List Char} : isKey cs = true ↔ cs ≠ [] ∧ cs.head? ≠ some '#' := by
  simp [isKey]

theorem keysIn_of_isKey {cs : List Char} (h : isKey cs = true) :
    keysIn [cs] = [String.ofList cs] := by
  rw [keysIn, List.filter_cons_of_pos h]
  rfl

theorem keysIn_of_not_isKey {cs : List Char} (h : ¬ isKey cs = true) : keysIn [cs] = [] := by
  rw [keysIn, List.filter_cons_of_neg h]
  rfl

theorem IsKeyText.isKey (h : IsKeyText key) : KeyList.isKey key.toList = true :=
  isKey_iff.mpr ⟨mt String.toList_eq_nil_iff.mp h.ne_empty, h.no_comment⟩

/-- What begins with a number sign is no key, however its end is trimmed. -/
theorem not_isKey_trimRight (text : List Char) : ¬ isKey (trimRight ('#' :: text)) = true := by
  rw [isKey_iff]
  rintro ⟨hsome, hhead⟩
  obtain ⟨behind, hsplit⟩ := trimRight_isPrefix ('#' :: text)
  cases hleft : trimRight ('#' :: text) with
  | nil => exact hsome hleft
  | cons c rest =>
    rw [hleft, List.cons_append] at hsplit
    rw [hleft, (List.cons.inj hsplit).1] at hhead
    exact hhead rfl

/-- A line names the key that it says. -/
theorem Says.keysIn_eq (h : Says said line) (hkey : ∀ key ∈ said, IsKeyText key) :
    keysIn [trim line.toList] = said.toList := by
  cases h with
  | @key before after key hbefore hafter =>
    have htext := hkey key rfl
    rw [String.toList_append, String.toList_append, trim_pad hbefore hafter, htext.trimmed.trim_eq,
      keysIn_of_isKey htext.isKey, String.ofList_toList]
    rfl
  | blank hblank =>
    rw [hblank.trim_eq]
    rfl
  | @comment before text hbefore =>
    have hleft : trim (before ++ "#" ++ text).toList = trimRight ('#' :: text.toList) := by
      rw [String.append_assoc, String.toList_append, trim_append_left hbefore,
        String.toList_append]
      rfl
    rw [hleft, keysIn_of_not_isKey (not_isKey_trimRight _)]
    rfl

/-! ## Line by line -/

/-- A file is read line by line, and a carriage return at the end of a line does not count. -/
theorem parse_line (hline : '\n' ∉ line.toList) {ending : String}
    (hending : ending = "\n" ∨ ending = "\r\n") :
    parse (line ++ ending ++ rest) = keysIn [trim line.toList] ++ parse rest := by
  rcases hending with rfl | rfl
  · have htext : (line ++ "\n" ++ rest).toList = line.toList ++ '\n' :: rest.toList := by simp
    rw [parse_eq_keysIn, htext, map_trim_lines_append hline, keysIn_cons, parse_eq_keysIn]
  · have htext : (line ++ "\r\n" ++ rest).toList =
        (line.toList ++ ['\r']) ++ '\n' :: rest.toList := by simp
    have hreturn : '\n' ∉ line.toList ++ ['\r'] := by simpa using hline
    rw [parse_eq_keysIn, htext, map_trim_lines_append hreturn, trim_append_right (by decide),
      keysIn_cons, parse_eq_keysIn]

theorem parse_last (hline : '\n' ∉ line.toList) : parse line = keysIn [trim line.toList] := by
  rw [parse_eq_keysIn, lines_of_notMem hline]
  split
  next hempty => rw [hempty]; rfl
  next => rfl

/-- A file of some keys is read as these keys. -/
theorem KeyFile.parse_eq {text : String} (h : KeyFile keys text)
    (hkeys : ∀ key ∈ keys, IsKeyText key) : parse text = keys := by
  induction h with
  | last hsaid hline => rw [parse_last hline, hsaid.keysIn_eq (by simpa using hkeys)]
  | line hsaid hline hending _ ih =>
    rw [List.forall_mem_append] at hkeys
    rw [parse_line hline hending, hsaid.keysIn_eq (by simpa using hkeys.1), ih hkeys.2]

/-! ## What was read -/

/-- Every key that is read can stand in a key file. -/
theorem isKeyText_of_mem_parse {text : String} (h : key ∈ parse text) : IsKeyText key := by
  obtain ⟨cs, hmem, rfl⟩ := List.mem_map.mp h
  obtain ⟨htrimmed, hkey⟩ := List.mem_filter.mp hmem
  obtain ⟨line, hline, rfl⟩ := List.mem_map.mp htrimmed
  obtain ⟨hsome, hcomment⟩ := isKey_iff.mp hkey
  constructor
  case ne_empty => rwa [ne_eq, ← String.toList_eq_nil_iff, String.toList_ofList]
  case one_line =>
    rw [String.toList_ofList]
    exact fun hnewline =>
      newline_notMem_of_mem_lines hline ((trim_isInfix line).subset hnewline)
  case trimmed =>
    rw [String.toList_ofList]
    exact isTrimmed_trim line
  case no_comment => rwa [String.toList_ofList]

/-- Keys that are written one to a line are a file of these keys. -/
theorem keyFile_intercalate (hkeys : ∀ key ∈ keys, IsKeyText key) :
    KeyFile keys ("\n".intercalate keys) := by
  have hplain (key : String) : Says (some key) key := by
    have hsaid : Says (some key) ("" ++ key ++ "") := .key key (by decide) (by decide)
    rwa [String.empty_append, String.append_empty] at hsaid
  induction keys with
  | nil => exact .last (.blank (by decide)) (by decide)
  | cons key rest ih =>
    obtain ⟨hkey, hrest⟩ := List.forall_mem_cons.mp hkeys
    cases rest with
    | nil =>
      rw [String.intercalate_singleton]
      exact .last (hplain key) hkey.one_line
    | cons next rest =>
      rw [String.intercalate_cons_cons]
      exact .line (hplain key) hkey.one_line (.inl rfl) (ih hrest)

/-- What was read, one key to a line, is read again. -/
theorem parse_intercalate_parse (text : String) :
    parse ("\n".intercalate (parse text)) = parse text := by
  have hkeys : ∀ key ∈ parse text, IsKeyText key := fun _ => isKeyText_of_mem_parse
  exact (keyFile_intercalate hkeys).parse_eq hkeys

end BucketCare.KeyList
