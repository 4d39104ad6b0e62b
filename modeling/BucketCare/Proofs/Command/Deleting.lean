import BucketCare.Command.Buckets
import BucketCare.Proofs.Child
import BucketCare.Proofs.Command.Gathering
import BucketCare.Proofs.Command.Scope
import BucketCare.Proofs.Deletion.KeyFiles
import BucketCare.Proofs.Deletion.Totals
import BucketCare.Proofs.Files.Writing

/-!
# Deleting the keys of a file

The command that deletes the keys of a file pushes a candidate for each key, in the order of the
file, and stops at the first push that fails. A candidate has the key below the path and no version.
So however the file is laid out, what is pushed are the keys it lists, or a leading part of them if
a request failed, and what is sent are pages of them.

## Main definitions

* `Batcher.PushesAll` — pushes up to the first failure
* `Batcher.Deletes` — the deletion of some candidates

## Main results

* `Batcher.exists_pushAll` — candidates are pushed up to the first failure
* `Batcher.Deletes.batches_prefix`, `Batcher.Deletes.batches_eq_of_ok` — the requests are for pages
  of the candidates, and for all of them where nothing fails
* `Command.bulkDelete_pushes_listed` — the command
-/

namespace BucketCare

variable {σ : Type}

namespace Batcher

/-! ## Pushing up to the first failure -/

/-- Pushes one after the other up to the first failure: how they end, the candidates that were
pushed, the requests that were made and the batcher after them. -/
inductive PushesAll (batcher : Batcher) (candidates : List Candidate) :
    Except Error Unit → List Candidate → List DeleteCall → Batcher → Prop
  /-- No push failed. -/
  | all {results : List (Except Error Unit)} {calls : List DeleteCall} {batcher' : Batcher}
      (runs : Runs batcher candidates results calls batcher')
      (ok : ∀ result ∈ results, result = .ok ()) :
      PushesAll batcher candidates (.ok ()) candidates calls batcher'
  /-- The last push that was made failed, and the others did not. -/
  | stopped {pushed rest : List Candidate} {results : List (Except Error Unit)} {error : Error}
      {calls : List DeleteCall} {batcher' : Batcher} (split : candidates = pushed ++ rest)
      (runs : Runs batcher pushed (results ++ [.error error]) calls batcher')
      (ok : ∀ result ∈ results, result = .ok ()) :
      PushesAll batcher candidates (.error error) pushed calls batcher'

variable {batcher batcher₁ batcher₂ : Batcher} {candidate : Candidate} {candidates : List Candidate}

/-- A push that does not fail is followed by the others. -/
theorem PushesAll.cons {result : Except Error Unit} {pushed : List Candidate}
    {calls more : List DeleteCall} (head : Pushes batcher candidate (.ok ()) calls batcher₁)
    (tail : PushesAll batcher₁ candidates result pushed more batcher₂) :
    PushesAll batcher (candidate :: candidates) result (candidate :: pushed) (calls ++ more)
      batcher₂ := by
  cases tail with
  | all runs ok => exact .all (.cons head runs) (List.forall_mem_cons.mpr ⟨rfl, ok⟩)
  | stopped split runs ok =>
    exact .stopped (congrArg (candidate :: ·) split) (.cons head runs)
      (List.forall_mem_cons.mpr ⟨rfl, ok⟩)

/-- A push that fails is the last one. -/
theorem PushesAll.of_failed {error : Error} {calls : List DeleteCall}
    (head : Pushes batcher candidate (.error error) calls batcher₁) :
    PushesAll batcher (candidate :: candidates) (.error error) [candidate] calls batcher₁ := by
  have hruns : Runs batcher [candidate] ([] ++ [.error error]) (calls ++ []) batcher₁ :=
    .cons head .nil
  rw [List.append_nil] at hruns
  exact .stopped rfl hruns nofun

/-- Candidates are pushed up to the first failure. -/
theorem exists_pushAll (deleter : Deleter σ) (batcher : Batcher) (candidates : List Candidate)
    (state : σ) : ∃ result pushed calls batcher' state',
      (pushAll deleter batcher candidates).run state = ((result, batcher'), state') ∧
        PushesAll batcher candidates result pushed calls batcher' ∧
        deleter.Answers state calls state' := by
  induction candidates generalizing batcher state with
  | nil => exact ⟨_, _, _, batcher, state, rfl, .all .nil nofun, .nil⟩
  | cons candidate rest ih =>
    obtain ⟨result, calls, batcher₁, state₁, hpush, hpushes, hcalls⟩ :=
      exists_push deleter batcher state candidate
    cases result with
    | error error =>
      refine ⟨_, _, calls, batcher₁, state₁, ?_, .of_failed hpushes, hcalls⟩
      rw [pushAll, StateT.run_bind, hpush]
      rfl
    | ok _ =>
      obtain ⟨result, pushed, more, batcher₂, state₂, hrest, hall, hmore⟩ := ih batcher₁ state₁
      refine ⟨result, _, _, batcher₂, state₂, ?_, .cons hpushes hall, hcalls.append hmore⟩
      rw [pushAll, StateT.run_bind, hpush]
      exact hrest

/-! ## A whole deletion -/

/-- The deletion of some candidates in pages of some size: the candidates that were pushed, the
requests that were made, and the totals or the failure it ends with. -/
inductive Deletes (size : Nat) (candidates : List Candidate) :
    List Candidate → List DeleteCall → Except Error DeleteSummary → Prop
  /-- No push failed, and what still waited was sent. -/
  | finished {pushed : List Candidate} {calls last : List DeleteCall} {batcher : Batcher}
      {result : Except Error DeleteSummary}
      (pushes : PushesAll ⟨size, [], ⟨0, 0, 0⟩⟩ candidates (.ok ()) pushed calls batcher)
      (finishes : Finishes batcher result last) :
      Deletes size candidates pushed (calls ++ last) result
  /-- A push failed. -/
  | stopped {pushed : List Candidate} {calls : List DeleteCall} {batcher : Batcher} {error : Error}
      (pushes : PushesAll ⟨size, [], ⟨0, 0, 0⟩⟩ candidates (.error error) pushed calls batcher) :
      Deletes size candidates pushed calls (.error error)

section Deletes

variable {size : Nat} {pushed : List Candidate} {calls : List DeleteCall}
variable {result : Except Error DeleteSummary}

/-- All candidates are pushed, unless a push fails. -/
theorem Deletes.pushed_eq_or (h : Deletes size candidates pushed calls result) :
    pushed = candidates ∨ ∃ error, result = .error error ∧ pushed <+: candidates := by
  cases h with
  | finished pushes _ =>
    cases pushes with
    | all _ _ => exact .inl rfl
  | stopped pushes =>
    cases pushes with
    | stopped split _ _ => exact .inr ⟨_, rfl, split ▸ List.prefix_append _ _⟩

/-- Pushes into a new batcher share the candidates out. -/
theorem Runs.accounted {results : List (Except Error Unit)} {batcher : Batcher} (hpos : 0 < size)
    (h : Runs ⟨size, [], ⟨0, 0, 0⟩⟩ pushed results calls batcher) :
    Accounted size pushed calls batcher := by
  have hstart : Accounted size [] [] ⟨size, [], ⟨0, 0, 0⟩⟩ := ⟨⟨rfl, rfl, hpos, by simp⟩, rfl⟩
  have hall := hstart.runs h
  rwa [List.nil_append, List.nil_append] at hall

/-- The requests are for pages of the candidates. -/
theorem Deletes.batches_prefix (hpos : 0 < size)
    (h : Deletes size candidates pushed calls result) :
    calls.map DeleteCall.batch <+: inPages size candidates := by
  cases h with
  | finished pushes finishes =>
    cases pushes with
    | all runs _ => rw [(runs.accounted hpos).batches_eq finishes]
  | stopped pushes =>
    cases pushes with
    | stopped split runs _ =>
      -- The requests so far are full pages, whatever is left to be pushed.
      have hbatched := (runs.accounted hpos).batched
      rw [split, ← hbatched.sent_append_pending, List.append_assoc,
        inPages_flatten_append hpos hbatched.batch_full]
      exact List.prefix_append _ _

/-- A deletion that does not fail has sent all pages of the candidates. -/
theorem Deletes.batches_eq_of_ok (hpos : 0 < size) {summary : DeleteSummary}
    (h : Deletes size candidates pushed calls (.ok summary)) :
    calls.map DeleteCall.batch = inPages size candidates := by
  cases h with
  | finished pushes finishes =>
    cases pushes with
    | all runs _ => exact (runs.accounted hpos).batches_eq finishes

end Deletes

end Batcher

namespace Command

open KeyList (IsKeyText KeyFile Says)

/-! ## The command -/

/-- The candidates of keys that do not begin with a slash. -/
theorem keyCandidates_eq (path : StorePath) {keys : List String}
    (h : ∀ key ∈ keys, key.toList.head? ≠ some '/') :
    keyCandidates path keys = keys.map fun key => ⟨path.folder ++ key, none⟩ := by
  apply List.map_congr_left
  intro key hmem
  rw [StorePath.child_of_relative path (h key hmem)]

/-- What is said of a failure does not matter where there is none. -/
theorem Run.doing_run_of_ok {α : Type} (context : String) {run : Run σ α} {a : α}
    {world world' : World σ} (h : run.run.run world = (.ok a, world')) :
    (Run.doing context run).run.run world = (.ok a, world') := by
  rw [Run.doing, ExceptT.run_tryCatch, StateT.run_bind, h]
  rfl

theorem readKeys_run {file text : String} {world : World σ}
    (h : world.files.readText file = .ok text) :
    (readKeys file).run.run world = (.ok (KeyList.parse text), world) := by
  apply Run.doing_run_of_ok
  rw [Run.run_get_bind, h]
  rfl

section Keys

variable {machine : Machine σ} {settingsPath : Option String} {options : BulkDeleteOptions}
variable {path : StorePath} {settings : Settings} {world : World σ} {text : String}

/-- What the command comes to once it has read the keys. -/
theorem deleteKeys_run {size : Nat} (keys : List String)
    (hsettings : Settings.load world.files machine.around.home settingsPath = .ok settings)
    (hsize : options.pageSize.getD settings.transfer.deletePageSize.toNat = size) (hpos : 1 ≤ size)
    (hmax : size ≤ maxPageSize) :
    ∃ answer out link pushed calls result,
      (deleteKeys machine settingsPath options path keys).run.run world =
        (answer, { world with out, link }) ∧
      Batcher.Deletes size (keyCandidates path keys) pushed calls result ∧
      (chooseDeleter (Client.connect machine.link machine.around world.files settings) path.bucket
        options.dryRun).Answers world.link calls link ∧
      answer = (result.map fun _ => ()).mapError .ofError := by
  rw [deleteKeys, Run.run_bind_of_ok (Run.connect_run hsettings)]
  dsimp only
  let deleter := chooseDeleter (Client.connect machine.link machine.around world.files settings)
    path.bucket options.dryRun
  obtain ⟨result, pushed, calls, batcher, state₁, hpush, hpushes, hcalls⟩ :=
    Batcher.exists_pushAll deleter ⟨size, [], ⟨0, 0, 0⟩⟩ (keyCandidates path keys) world.link
  rw [hsize, Batcher.new_eq_ok hpos hmax, Run.run_ofExcept_bind, Run.run_printLine_bind,
    Run.run_onLink_bind, hpush]
  dsimp only
  cases result with
  | error error => exact ⟨_, _, _, pushed, calls, _, rfl, .stopped hpushes, hcalls, rfl⟩
  | ok _ =>
    obtain ⟨result, last, state₂, hfinish, hfinishes, hlast⟩ :=
      Batcher.exists_finishing deleter batcher state₁
    have hsent := hcalls.append hlast
    rw [Run.run_ofExcept_bind, Run.run_onLink_bind]
    dsimp only
    rw [hfinish]
    cases result with
    | error error => exact ⟨_, _, _, _, _, _, rfl, .finished hpushes hfinishes, hsent, rfl⟩
    | ok summary =>
      rw [Run.run_ofExcept_bind]
      split
      · exact ⟨_, _, _, _, _, _, rfl, .finished hpushes hfinishes, hsent, rfl⟩
      · exact ⟨_, _, _, _, _, _, rfl, .finished hpushes hfinishes, hsent, rfl⟩

/-- However the file of some keys is laid out, the candidates that are pushed are these keys below
the path, in order and without a version, unless a push fails; then they are a leading part of them.
What is sent are pages of them, and all pages unless something fails. And what is read from any
content, one key to a line, is read again as it is. -/
theorem bulkDelete_pushes_listed {keys : List String} {size : Nat}
    (hpath : StorePath.parse options.path = .ok path)
    (hread : world.files.readText options.file = .ok text) (hfile : KeyFile keys text)
    (hkeys : ∀ key ∈ keys, IsKeyText key ∧ key.toList.head? ≠ some '/')
    (hsettings : Settings.load world.files machine.around.home settingsPath = .ok settings)
    (hsize : options.pageSize.getD settings.transfer.deletePageSize.toNat = size) (hpos : 1 ≤ size)
    (hmax : size ≤ 1000) :
    let candidates : List Candidate := keys.map fun key => ⟨path.folder ++ key, none⟩
    let deleter := chooseDeleter
      (Client.connect machine.link machine.around world.files settings) path.bucket options.dryRun
    (∃ answer out link pushed calls result,
      (bulkDelete machine settingsPath options).run.run world =
        (answer, { world with out, link }) ∧
      Batcher.Deletes size candidates pushed calls result ∧
      deleter.Answers world.link calls link ∧
      answer = (result.map fun _ => ()).mapError .ofError ∧
      (pushed = candidates ∨ ∃ error, result = .error error ∧ pushed <+: candidates) ∧
      calls.map DeleteCall.batch <+: inPages size candidates ∧
      (answer = .ok () → calls.map DeleteCall.batch = inPages size candidates)) ∧
    ∀ content, KeyList.parse ("\n".intercalate (KeyList.parse content)) =
      KeyList.parse content := by
  intro candidates deleter
  refine ⟨?_, KeyList.parse_intercalate_parse⟩
  have hparse : KeyList.parse text = keys := hfile.parse_eq fun key hmem => (hkeys key hmem).1
  have hcandidates : keyCandidates path keys = candidates :=
    keyCandidates_eq path fun key hmem => (hkeys key hmem).2
  rw [bulkDelete, hpath, Run.run_ofExcept_bind, Run.run_bind_of_ok (readKeys_run hread), hparse]
  cases keys with
  | nil =>
    have hnone : Batcher.Deletes size [] [] [] _ := .finished (.all .nil nofun) (.empty rfl)
    exact ⟨_, _, _, [], [], _, rfl, hnone, .nil, rfl, .inl rfl, List.nil_prefix,
      fun _ => hnone.batches_eq_of_ok hpos⟩
  | cons key rest =>
    obtain ⟨answer, out, link, pushed, calls, result, hrun, hdeletes, hcalls, hanswer⟩ :=
      deleteKeys_run (key :: rest) hsettings hsize hpos hmax
    rw [hcandidates] at hdeletes
    refine ⟨answer, out, link, pushed, calls, result, hrun, hdeletes, hcalls, hanswer,
      hdeletes.pushed_eq_or, hdeletes.batches_prefix hpos, ?_⟩
    rintro rfl
    cases result with
    | error error => cases hanswer
    | ok summary => exact hdeletes.batches_eq_of_ok hpos

end Keys

/-- A tree that holds one file of keys. -/
def keyFiles (text : String) : FileTree := ⟨.dir [("keys", .file text.toUTF8 Node.newMode)], []⟩

/-- A file with comments, an empty line, blanks around a key, line ends of both kinds and none at
its end. What is sent are its three keys below the path, two to a page. -/
theorem bulkDelete_pushes_listed_of_mixed :
    let text := "# kept\r\n\n\t a b \r\n \t# not this\nc/d\r\ne"
    let world : World Unit := ⟨keyFiles text, "", "", ()⟩
    let machine := Machine.plain (.shelf [] [] [])
    let options : BulkDeleteOptions := ⟨"s3://b/data", "keys", some 2, false⟩
    let candidates : List Candidate := [⟨"data/a b", none⟩, ⟨"data/c/d", none⟩, ⟨"data/e", none⟩]
    ∃ (answer : Except Failure Unit) (out : String) (link : Unit) (pushed : List Candidate)
        (calls : List DeleteCall) (result : Except Error DeleteSummary),
      (bulkDelete machine none options).run.run world = (answer, { world with out, link }) ∧
      Batcher.Deletes 2 candidates pushed calls result ∧
      calls.map DeleteCall.batch <+:
        [[⟨"data/a b", none⟩, ⟨"data/c/d", none⟩], [⟨"data/e", none⟩]] := by
  intro text world machine options candidates
  have hlocate : (keyFiles text).locate "keys" =
      .ok (.found ["keys"] (.file text.toUTF8 Node.newMode)) := by
    generalize text = content
    rfl
  have hread : world.files.readText options.file = .ok text := FileTree.readText_of_locate hlocate
  have hsettings : Settings.load (keyFiles text) "/home/user" none = .ok .default := by
    generalize text = content
    rfl
  have hpath : StorePath.parse "s3://b/data" = .ok ⟨"b", "data"⟩ := rfl
  have hfile : KeyFile ["a b", "c/d", "e"] text := by
    have hkept : Says none ("" ++ "#" ++ " kept") := .comment " kept" nofun
    have hgap : Says none "" := .blank nofun
    have hpadded : Says (some "a b") ("\t " ++ "a b" ++ " ") := .key "a b" (by decide) (by decide)
    have hnote : Says none (" \t" ++ "#" ++ " not this") := .comment " not this" (by decide)
    have hplain : Says (some "c/d") ("" ++ "c/d" ++ "") := .key "c/d" nofun nofun
    have hlast : Says (some "e") ("" ++ "e" ++ "") := .key "e" nofun nofun
    exact .line hkept (by decide) (.inr rfl) <| .line hgap (by decide) (.inl rfl) <|
      .line hpadded (by decide) (.inr rfl) <| .line hnote (by decide) (.inl rfl) <|
      .line hplain (by decide) (.inr rfl) <| .last hlast (by decide)
  have hkeys : ∀ key ∈ ["a b", "c/d", "e"], IsKeyText key ∧ key.toList.head? ≠ some '/' := by
    decide
  have hpages : inPages 2 candidates =
      [[⟨"data/a b", none⟩, ⟨"data/c/d", none⟩], [⟨"data/e", none⟩]] := by decide +kernel
  obtain ⟨⟨answer, out, link, pushed, calls, result, hrun, hdeletes, -, -, -, hcalls, -⟩, -⟩ :=
    bulkDelete_pushes_listed (show StorePath.parse options.path = _ from hpath) hread hfile hkeys
      (show Settings.load world.files machine.around.home none = _ from hsettings)
      (show options.pageSize.getD _ = 2 from rfl) (by decide) (by decide)
  exact ⟨answer, out, link, pushed, calls, result, hrun, hdeletes, hpages ▸ hcalls⟩

end Command

end BucketCare
