import BucketCare.Command.World

/-!
# Shell completion

The command that prints a script which lets a shell complete the names of the commands. How the
script is put to use is told beside the output, so that the output can be read by the shell.

## Main definitions

* `Shell` — the shells that are supported, and `Shell.ofName`
* `Shell.script` — the script of a shell
* `completion` — the command
-/

namespace BucketCare.Command

/-- The shells that are supported. -/
inductive Shell where
  | bash | zsh | fish | elvish | powershell
  deriving DecidableEq, Repr

namespace Shell

/-- The shell of some name. -/
def ofName (name : String) : Except Error Shell :=
  match name with
  | "bash" => .ok bash
  | "zsh" => .ok zsh
  | "fish" => .ok fish
  | "elvish" => .ok elvish
  | "powershell" | "pwsh" => .ok powershell
  | _ =>
    .error (.usage ("Unsupported shell: " ++ name ++
      "\nSupported shells: bash, zsh, fish, elvish, powershell"))

/-- The names of the commands. -/
def commandNames : List String := forms.map (·.name) ++ [settingsCommand, "help"]

/-- The script that completes the names of the commands. -/
def script (shell : Shell) : String :=
  let words := " ".intercalate commandNames
  match shell with
  | bash => "complete -W \x22" ++ words ++ "\x22 " ++ programName
  | zsh =>
    "#compdef " ++ programName ++ "\n_arguments '1:command:(" ++ words ++ ")' '*:file:_files'"
  | fish =>
    "complete -c " ++ programName ++ " -n __fish_use_subcommand -f -a \x22" ++ words ++ "\x22"
  | elvish =>
    "set edit:completion:arg-completer[" ++ programName ++ "] = \x7b|@words| put " ++ words ++
      " \x7d"
  | powershell =>
    "Register-ArgumentCompleter -Native -CommandName " ++ programName ++
      " -ScriptBlock \x7b param($word) -split \x22" ++ words ++
      "\x22 | Where-Object \x7b $_ -like \x22$word*\x22 \x7d \x7d"

/-- How the script is put to use. -/
def installation (shell : Shell) : List String :=
  let command := programName ++ " completion "
  match shell with
  | bash => ["  # Add to your ~/.bashrc:", "  source <(" ++ command ++ "bash)"]
  | zsh =>
    ["  " ++ command ++ "zsh > ~/.zsh/completion/_" ++ programName, "  # then add to ~/.zshrc:",
      "  fpath=(~/.zsh/completion $fpath)", "  autoload -U compinit && compinit"]
  | fish =>
    ["  " ++ command ++ "fish > ~/.config/fish/completions/" ++ programName ++ ".fish"]
  | elvish =>
    ["  " ++ command ++ "elvish > ~/.elvish/lib/" ++ programName ++ ".elv",
      "  # then add to rc.elv:", "  use ~/.elvish/lib/" ++ programName]
  | powershell => ["  " ++ command ++ "powershell | Out-String | Invoke-Expression"]

end Shell

/-- Print the script of a shell, and beside it how it is put to use. -/
def completion {σ : Type} (name : String) : Run σ Unit := do
  let shell ← Run.ofExcept (Shell.ofName name)
  Run.printLine shell.script
  Run.note ""
  Run.note "Installation instructions:"
  for line in shell.installation do
    Run.note line

end BucketCare.Command
