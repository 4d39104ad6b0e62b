import BucketCare.Text.Blank

/-!
# Command lines

How the words of a command line are told apart: options with and without a value, arguments by
their place, and the names of commands. An option is written once at most, its value behind an
equals sign or as the next word, which then must not look like an option.

A value that is a word of its own is refused only when the next option or argument is read, or all
words are: help on a command can still be asked for behind it.

## Main definitions

* `OptionKind`, `OptionForm` — what an option takes, and how it is written
* `Words` — the options and arguments that were written
* `Words.read` — the options and arguments of a command line, up to the name of a command if one is
  expected
-/

namespace BucketCare.Command

/-- What an option takes. -/
inductive OptionKind where
  /-- Nothing. -/
  | flag
  /-- Any text. -/
  | text
  /-- A path, which is not empty. -/
  | path
  /-- A number that is not negative and below a bound. -/
  | natural (bound : Nat)
  /-- A number of 32 bits with a sign. -/
  | integer
  deriving DecidableEq, Repr

/-- How an option is written. -/
structure OptionForm where
  long : String
  short : Option Char
  kind : OptionKind
  deriving Repr

/-- Why the reading of a command line ends early. -/
inductive Stop where
  /-- Help is asked for. -/
  | help
  /-- The version is asked for. -/
  | version
  /-- The command line is refused. -/
  | refused (reason : String)
  deriving DecidableEq, Repr

/-! ## Values -/

/-- A number in base ten, a plus sign in front allowed. -/
def readNatural (value : String) : Option Nat :=
  let digits := match value.toList with
    | '+' :: rest => rest
    | cs => cs
  if digits.isEmpty || !digits.all Char.isDigit then none
  else some (digits.foldl (fun n c => n * 10 + (c.toNat - 48)) 0)

/-- A number in base ten with a sign. -/
def readInteger (value : String) : Option Int :=
  match value.toList with
  | '-' :: rest =>
    if rest.head?.any Char.isDigit then
      (readNatural (String.ofList rest)).map fun n => -(n : Int)
    else none
  | _ => (readNatural value).map Int.ofNat

/-- A number of 32 bits with a sign. -/
def readInteger32 (value : String) : Option Int :=
  (readInteger value).filter fun n => -(Nat.pow 2 31 : Nat) ≤ n ∧ n < (Nat.pow 2 31 : Nat)

/-- An option takes a value. -/
def OptionKind.takes (kind : OptionKind) (value : String) : Bool :=
  match kind with
  | .flag => false
  | .text => true
  | .path => !value.isEmpty
  | .natural bound => (readNatural value).any (· < bound)
  | .integer => (readInteger32 value).isSome

/-! ## Words -/

/-- The options and arguments that were written. -/
structure Words where
  flags : List String
  values : List (String × String)
  arguments : List String
  /-- Why the value that was read last, a word of its own, is refused. -/
  doubt : Option Stop
  deriving DecidableEq, Repr, Inhabited

namespace Words

/-- Nothing was written. -/
def none_ : Words := ⟨[], [], [], none⟩

/-- An option was written. -/
def mentions (words : Words) (long : String) : Bool :=
  words.flags.contains long || (words.values.lookup long).isSome

/-- One more option without a value. -/
def addFlag (words : Words) (long : String) : Except Stop Words :=
  if words.mentions long then
    .error (.refused ("the argument '--" ++ long ++ "' cannot be used multiple times"))
  else .ok { words with flags := words.flags ++ [long] }

/-- One more option with a value. -/
def addValue (words : Words) (form : OptionForm) (value : String) : Except Stop Words :=
  if words.mentions form.long then
    .error (.refused ("the argument '--" ++ form.long ++ "' cannot be used multiple times"))
  else if !form.kind.takes value then
    .error (.refused ("invalid value '" ++ value ++ "' for '--" ++ form.long ++ "'"))
  else .ok { words with values := words.values ++ [(form.long, value)] }

/-- One more option with a value that is a word of its own. -/
def addWord (words : Words) (form : OptionForm) (value : String) : Words :=
  match words.addValue form value with
  | .ok words => words
  | .error stop => { words with doubt := some stop }

/-- The words, unless the value that was read last is refused. -/
def settle (words : Words) : Except Stop Words :=
  match words.doubt with
  | none => .ok words
  | some stop => .error stop

/-- One more argument, of those that are expected. -/
def addArgument (expected : List OptionKind) (words : Words) (value : String) :
    Except Stop Words :=
  match expected[words.arguments.length]? with
  | none => .error (.refused ("unexpected argument '" ++ value ++ "' found"))
  | some kind =>
    if kind.takes value then .ok { words with arguments := words.arguments ++ [value] }
    else .error (.refused ("invalid value '" ++ value ++ "'"))

/-- What a level of a command line allows. -/
structure Level where
  options : List OptionForm
  arguments : List OptionKind
  /-- The name of a command follows instead of arguments. -/
  namesCommand : Bool
  /-- The version may be asked for. -/
  hasVersion : Bool

/-- The words of a group of short options. -/
def readShort (level : Level) : Words → List Char → Except Stop Words
  | words, [] => .ok words
  | words, c :: rest =>
    if c = 'h' then .error .help
    else if c = 'V' ∧ level.hasVersion then .error .version
    else match level.options.find? fun form => form.short == some c with
      | some form =>
        match words.addFlag form.long with
        | .ok words => readShort level words rest
        | .error stop => .error stop
      | none => .error (.refused ("unexpected argument '-" ++ c.toString ++ "' found"))

/-- A word may be the value of an option that stands before it. -/
def mayBeValue (word : String) : Bool := word.toList.head? != some '-' || word == "-"

/-- The arguments behind two hyphens. -/
def readArguments (level : Level) : Words → List String → Except Stop Words
  | words, [] => .ok words
  | words, word :: rest =>
    match words.addArgument level.arguments word with
    | .ok words => readArguments level words rest
    | .error stop => .error stop

/-- The words of a command line, and the name of a command with the words behind it. -/
def read (level : Level) : Words → List String →
    Except Stop (Words × Option (String × List String))
  | words, [] => words.settle.map fun words => (words, none)
  | words, word :: rest =>
    if level.namesCommand && mayBeValue word then .ok (words, some (word, rest))
    else if let some stop := words.doubt then .error stop
    else match word.toList with
    | ['-', '-'] => (readArguments level words rest).map fun words => (words, none)
    | '-' :: '-' :: long =>
      let name := String.ofList (long.takeWhile (· != '='))
      let value := (long.dropWhile (· != '='))
      if name = "help" ∧ value.isEmpty then .error .help
      else if name = "version" ∧ value.isEmpty ∧ level.hasVersion then .error .version
      else match level.options.find? fun form => form.long == name with
        | none => .error (.refused ("unexpected argument '--" ++ name ++ "' found"))
        | some form =>
          if form.kind = .flag then
            if value.isEmpty then
              match words.addFlag name with
              | .ok words => read level words rest
              | .error stop => .error stop
            else .error (.refused ("unexpected value for '--" ++ name ++ "' found"))
          else match value with
            | _ :: value =>
              match words.addValue form (String.ofList value) with
              | .ok words => read level words rest
              | .error stop => .error stop
            | [] =>
              match rest with
              | value :: rest =>
                if mayBeValue value then read level (words.addWord form value) rest
                else .error (.refused ("a value is required for '--" ++ name ++ "'"))
              | [] => .error (.refused ("a value is required for '--" ++ name ++ "'"))
    | '-' :: c :: short =>
      match readShort level words (c :: short) with
      | .ok words => read level words rest
      | .error stop => .error stop
    | _ =>
      match words.addArgument level.arguments word with
      | .ok words => read level words rest
      | .error stop => .error stop

/-- The value of an option. -/
def value? (words : Words) (long : String) : Option String := words.values.lookup long

/-- The number that is the value of an option. -/
def natural? (words : Words) (long : String) : Option Nat := (words.value? long).bind readNatural

/-- An option without a value was written. -/
def has (words : Words) (long : String) : Bool := words.flags.contains long

/-- The argument at a place. -/
def argument (words : Words) (place : Nat) : String := (words.arguments[place]?).getD ""

end Words

end BucketCare.Command
