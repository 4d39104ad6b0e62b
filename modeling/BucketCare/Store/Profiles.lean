import BucketCare.Text.Blank

/-!
# Profiles

The shared files that name profiles: sections under headers, and in each section properties. There
is one file for settings and one for credentials, and the two differ in how the header of a profile
is written. A file with a line that cannot be read has no profiles at all.

A property may go on over several lines; the further ones begin with a blank. Below a property
without a value these lines must be properties themselves.

## Main definitions

* `Profiles` — the profiles and their properties
* `Profiles.readSections` — the sections of a file, as they are written
* `Profiles.ofSections` — the profiles among some sections
* `Profiles.merge` — the profiles of two files
* `Profiles.region?` — the region of a profile
-/

namespace BucketCare

/-- Names with their values. -/
abbrev Properties := List (String × String)

/-- Profiles, or the sections of a file, by their names. -/
abbrev Profiles := List (String × Properties)

/-- The two shared files. -/
inductive SharedFile where
  | settings
  | credentials
  deriving DecidableEq, Repr

namespace Profiles

/-! ## Lines -/

/-- A blank within a line. -/
def isGap (c : Char) : Bool := c == ' ' || c == '\t'

/-- A text without the blanks at its two ends. -/
def trimGaps (cs : List Char) : List Char :=
  ((cs.dropWhile isGap).reverse.dropWhile isGap).reverse

/-- A mark that may begin a comment. -/
def isCommentMark (c : Char) : Bool := c == '#' || c == ';'

/-- The text before the first comment; `open_` tells whether a mark would begin one here. Inside a
header any mark does, and in a property one behind a blank. -/
def beforeComment (header : Bool) : (open_ : Bool) → List Char → List Char
  | _, [] => []
  | open_, c :: rest =>
    if isCommentMark c && (header || open_) then []
    else c :: beforeComment header (Text.isBlank c) rest

/-- The content of a line: without the blanks at its ends and without a comment. -/
def content (header : Bool) (line : List Char) : List Char :=
  trimGaps (beforeComment header false (trimGaps line))

/-- The name of a section from its header, which stands between brackets. -/
def header? (line : List Char) : Option String :=
  match content true line with
  | '[' :: rest => if rest.getLast? = some ']' then some (String.ofList rest.dropLast) else none
  | _ => none

/-- The name and the value of a property, with an equals sign between them. -/
def property? (line : List Char) : Option (String × String) :=
  let cs := content false line
  let name := trimGaps (cs.takeWhile (· != '='))
  if !cs.contains '=' || name.isEmpty then none
  else some (Text.lowerAscii (String.ofList name),
    String.ofList (trimGaps ((cs.dropWhile (· != '=')).drop 1)))

/-! ## Sections -/

/-- Properties with one more, or with another value for one of them. -/
def put (name value : String) : Properties → Properties
  | [] => [(name, value)]
  | (n, v) :: rest => if n = name then (n, value) :: rest else (n, v) :: put name value rest

/-- Profiles with other properties for one of them. -/
def alter (name : String) (change : Properties → Properties) (profiles : Profiles) : Profiles :=
  profiles.map fun (n, properties) => (n, if n = name then change properties else properties)

/-- Profiles with one more, unless it is among them. -/
def ensure (name : String) (profiles : Profiles) : Profiles :=
  if (profiles.lookup name).isSome then profiles else profiles ++ [(name, [])]

/-- Where the reader of a file stands. -/
inductive Position where
  /-- Before the first header. -/
  | outside
  /-- Behind a header. -/
  | inSection (name : String)
  /-- Behind a property, which may hold properties of its own. -/
  | inProperty (name property : String) (nested : Bool)
  deriving DecidableEq, Repr

/-- A file as far as it is read. -/
structure Draft where
  sections : Profiles
  position : Position
  deriving DecidableEq, Repr

/-- The file with the header of a section. -/
def addHeader (draft : Draft) (line : List Char) : Option Draft :=
  (header? line).map fun name => ⟨ensure name draft.sections, .inSection name⟩

/-- The file with a property of the open section. -/
def addProperty (draft : Draft) (line : List Char) : Option Draft :=
  let add (name : String) : Option Draft :=
    (property? line).map fun (property, value) =>
      ⟨alter name (put property value) draft.sections, .inProperty name property value.isEmpty⟩
  match draft.position with
  | .outside => none
  | .inSection name => add name
  | .inProperty name _ _ => add name

/-- The file with one more line of a property. -/
def addFurther (draft : Draft) (line : List Char) : Option Draft :=
  match draft.position with
  | .outside | .inSection _ => none
  | .inProperty name property nested =>
    if nested && (property? line).isNone then none
    else
      let extend (properties : Properties) : Properties :=
        let value := (properties.lookup property).getD ""
        put property (value ++ "\n" ++ String.ofList (trimGaps line)) properties
      some { draft with sections := alter name extend draft.sections }

/-- The file with one more line; lines that are blank or begin with a comment are passed over. -/
def addLine (draft : Draft) (line : List Char) : Option Draft :=
  match line with
  | [] => some draft
  | c :: _ =>
    if (trimGaps line).isEmpty || isCommentMark c then some draft
    else if c = '[' then addHeader draft line
    else if isGap c then addFurther draft line
    else addProperty draft line

/-- The sections of a file, as they are written. -/
def readSections (text : String) : Option Profiles :=
  ((Text.lines text.toList).foldlM addLine ⟨[], .outside⟩).map (·.sections)

/-! ## Profiles -/

/-- The name of the profile that is used when none is named. -/
def usualName : String := "default"

/-- A character that names of profiles and of properties may have. -/
def isNameChar (c : Char) : Bool := c.isAlphanum || "_-/.%@:+".toList.contains c

/-- A text is a name. -/
def isName (s : String) : Bool := s.toList.all isNameChar

/-- What a section is: the kind in front of its name, if there is one, and its name. -/
def kindAndName (section_ : String) : Option String × String :=
  let cs := trimGaps section_.toList
  let kind := cs.takeWhile fun c => !isGap c
  let trimmed (cs : List Char) : String := String.ofList (Text.trim cs)
  if kind.length < cs.length then (some (trimmed kind), trimmed (cs.drop kind.length))
  else (none, trimmed cs)

/-- The name of the profile that a section is, if it is one. Among the settings every profile but
the usual one has the word `profile` in front; among the credentials none has. -/
def profileName? (file : SharedFile) (section_ : String) : Option String :=
  match file, kindAndName section_ with
  | .settings, (none, name) => if name = usualName then some name else none
  | .settings, (some kind, name) => if kind = "profile" && isName name then some name else none
  | .credentials, (none, name) => if isName name then some name else none
  | .credentials, (some _, _) => none

/-- The usual profile with the word `profile` in front. -/
def isFullUsual (file : SharedFile) (section_ : String) : Bool :=
  (kindAndName section_).1.isSome && profileName? file section_ == some usualName

/-- Profiles with the properties of one more section; its values count. -/
def mergeOne (profiles : Profiles) (name : String) (properties : Properties) : Profiles :=
  alter name (fun old => properties.foldl (fun old (n, v) => put n v old) old)
    (ensure name profiles)

/-- The profiles of two files; the values of the second count. -/
def merge (first second : Profiles) : Profiles :=
  second.foldl (fun profiles (name, properties) => mergeOne profiles name properties) first

/-- The profiles among the sections of a file. The usual profile counts only with the word
`profile` in front, if there is such a section. -/
def ofSections (file : SharedFile) (sections : Profiles) : Profiles :=
  let full := sections.any fun (section_, _) => isFullUsual file section_
  merge [] <| sections.filterMap fun (section_, properties) =>
    (profileName? file section_).bind fun name =>
      if full && name == usualName && !isFullUsual file section_ then none
      else some (name, properties.filter fun (n, _) => isName n)

/-- The profiles of a file. -/
def read (file : SharedFile) (text : String) : Option Profiles :=
  (readSections text).map (ofSections file)

/-! ## Properties -/

/-- The region of a profile, or of the profile that it names as its source. The number bounds the
profiles on the way. -/
def regionWithin (profiles : Profiles) : Nat → String → Option String
  | 0, _ => none
  | fuel + 1, name => do
    let properties ← profiles.lookup name
    match properties.lookup "region" with
    | some region => return region
    | none => regionWithin profiles fuel (← properties.lookup "source_profile")

/-- The region of a profile. No profile is passed twice on the way to it. -/
def region? (profiles : Profiles) (name : String) : Option String :=
  regionWithin profiles profiles.length name

end Profiles

end BucketCare
