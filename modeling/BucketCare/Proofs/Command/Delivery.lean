import BucketCare.Proofs.Command.Gathering
import BucketCare.Proofs.Files.Writing

/-!
# Files that are made first and filled last

A listing and its report go to files that are made, or emptied, before anything is asked of the
store, and that are filled when everything is read. What the store does in between does not touch
them: when they are filled they are still open and empty. The two paths may lead to one file; if
they do not, each file holds what was meant for it.

## Main results

* `Command.Run.fillFile_run` — a file that was made is filled
* `Command.deliver_run` — a listing goes to its file or to the screen
* `Command.deliverBoth_run` — a listing and its report, each to its file
-/

namespace BucketCare.Command

variable {σ : Type}

/-- The text lies at the start of a file, and what lay behind stays. -/
def filled (text : String) (old : ByteArray) : ByteArray :=
  text.toUTF8 ++ old.extract text.toUTF8.size old.size

@[simp] theorem filled_empty (text : String) : filled text .empty = text.toUTF8 := by
  have hrest : ByteArray.empty.extract text.toUTF8.size ByteArray.empty.size = .empty := by simp
  rw [filled, hrest, ByteArray.append_empty]

/-- To make a file changes the files alone. -/
theorem Run.of_createFile_run {path : String} {world opened : World σ}
    (h : (Run.createFile path).run.run world = (.ok (), opened)) :
    world.files.write path ByteArray.empty = .ok opened.files ∧
      opened = { world with files := opened.files } := by
  rw [Run.createFile, Run.run_get_bind] at h
  cases hwrite : world.files.write path ByteArray.empty with
  | error e =>
    rw [hwrite] at h
    cases h
  | ok files =>
    rw [hwrite] at h
    cases h
    exact ⟨rfl, rfl⟩

/-- A file that is open can be filled, and no other file changes. -/
theorem Run.fillFile_run {path : String} {target : List String} {old : ByteArray}
    {world : World σ} (h : world.files.IsOpen path target old) (text : String) :
    ∃ files, (Run.fillFile path text).run.run world = (.ok (), { world with files }) ∧
      files.IsOpen path target (filled text old) ∧
      ∀ {other : String} {place : List String} {content : ByteArray},
        world.files.IsOpen other place content →
        files.IsOpen other place (if place = target then filled text old else content) := by
  obtain ⟨files, hwrite⟩ := h.exists_write (filled text old)
  obtain ⟨hopen, hothers⟩ := h.after_write hwrite
  refine ⟨files, ?_, hopen, hothers⟩
  rw [Run.fillFile, Run.run_get_bind, h.readBytes_eq]
  unfold filled at hwrite
  dsimp only
  rw [hwrite]
  rfl

/-- A command that succeeds has succeeded in its parts. -/
theorem Run.of_run_bind {α β : Type} {run : Run σ α} {next : α → Run σ β} {world after : World σ}
    {b : β} (h : (run >>= next).run.run world = (.ok b, after)) :
    ∃ a between, run.run.run world = (.ok a, between) ∧
      (next a).run.run between = (.ok b, after) := by
  rw [ExceptT.run_bind, StateT.run_bind] at h
  rcases hrun : run.run.run world with ⟨answer, between⟩
  rw [hrun] at h
  cases answer with
  | error e => cases h
  | ok a => exact ⟨a, between, rfl, h⟩

/-- The file of a listing is open, if there is one, and nothing else has changed. -/
theorem of_openOut_run {out : Option String} {world opened : World σ}
    (h : (openOut out).run.run world = (.ok (), opened)) :
    opened = { world with files := opened.files } ∧
      (out = none → opened.files = world.files) ∧
      ∀ file, out = some file → ∃ target, opened.files.IsOpen file target .empty := by
  cases out with
  | none =>
    cases h
    exact ⟨rfl, fun _ => rfl, nofun⟩
  | some path =>
    obtain ⟨hmade, hopened⟩ := Run.of_createFile_run h
    obtain ⟨target, hopen, -⟩ := FileTree.exists_isOpen_of_write hmade
    refine ⟨hopened, nofun, ?_⟩
    rintro _ ⟨⟩
    exact ⟨target, hopen⟩

/-- Once its file is made, a listing is delivered to it, or else to the screen. -/
theorem deliver_run {out : Option String} {world opened : World σ}
    (hopen : (openOut out).run.run world = (.ok (), opened)) (text : String) (link : σ) :
    ∃ files, (deliver out text).run.run { opened with link } = (.ok (),
        { world with files, link, out := world.out ++ out.elim text fun _ => "" }) ∧
      (out = none → files = world.files) ∧
      ∀ file, out = some file → files.readText file = .ok text := by
  obtain ⟨hopened, hsame, hmade⟩ := of_openOut_run hopen
  rw [hopened]
  cases out with
  | none =>
    rw [hsame rfl]
    exact ⟨_, rfl, fun _ => rfl, nofun⟩
  | some path =>
    obtain ⟨target, hempty⟩ := hmade path rfl
    -- The store may have changed its state since.
    let begun : World σ := { world with files := opened.files, link }
    have hbegun : begun.files.IsOpen path target .empty := hempty
    obtain ⟨files, hrun, hfile, -⟩ := Run.fillFile_run hbegun text
    rw [filled_empty] at hfile
    refine ⟨files, hrun.trans ?_, nofun, ?_⟩
    · rw [Option.elim_some, String.append_empty]
    · rintro _ ⟨⟩
      exact hfile.readText_eq

/-- The file of a report is open, if there is one, and a file that was empty is so still. -/
theorem of_openReport_run {path : Option String} {separator : UInt8} {csv : Option Csv.Report}
    {world opened : World σ} (h : (openReport path separator).run.run world = (.ok csv, opened)) :
    opened = { world with files := opened.files } ∧
      (path = none → opened.files = world.files) ∧
      (∀ file, path = some file → ∃ target, opened.files.IsOpen file target .empty) ∧
      ∀ {file : String} {target : List String}, world.files.IsOpen file target .empty →
        opened.files.IsOpen file target .empty := by
  cases path with
  | none =>
    cases h
    exact ⟨rfl, fun _ => rfl, nofun, id⟩
  | some path =>
    obtain ⟨_, made, hcreate, hreport⟩ := Run.of_run_bind h
    obtain ⟨hmade, hworld⟩ := Run.of_createFile_run hcreate
    rw [Csv.Report.new_eq] at hreport
    cases hreport
    obtain ⟨target, hopen, hothers⟩ := FileTree.exists_isOpen_of_write hmade
    refine ⟨hworld, nofun, ?_, fun hfile => ?_⟩
    · rintro _ ⟨⟩
      exact ⟨target, hopen⟩
    · -- If both paths lead to one file, it was made empty a second time.
      have hkept := hothers hfile
      rwa [ite_self] at hkept

/-- The files of a listing and of its report are open, and nothing else has changed. -/
theorem of_openFiles_run {options : VersionOptions} {separator : UInt8} {csv : Option Csv.Report}
    {world opened : World σ}
    (h : (openFiles options separator).run.run world = (.ok csv, opened)) :
    opened = { world with files := opened.files } ∧
      (options.out = none → options.csv = none → opened.files = world.files) ∧
      (∀ file, options.out = some file → ∃ target, opened.files.IsOpen file target .empty) ∧
      ∀ file, options.csv = some file → ∃ target, opened.files.IsOpen file target .empty := by
  obtain ⟨_, made, hout, hcsv⟩ := Run.of_run_bind h
  obtain ⟨hmade, hsame, hopen⟩ := of_openOut_run hout
  obtain ⟨hopened, hsame', hopen', hkept⟩ := of_openReport_run hcsv
  refine ⟨?_, fun hout hcsv => (hsame' hcsv).trans (hsame hout), fun file hfile => ?_, hopen'⟩
  · rw [hopened, hmade]
  · obtain ⟨target, hempty⟩ := hopen file hfile
    exact ⟨target, hkept hempty⟩

/-- A listing and its report are delivered to their files, which are open, or the listing to the
screen. Each file holds its text, unless both paths lead to one file. -/
theorem deliverBoth_run {out csv : Option String} {world : World σ}
    (hout : ∀ file, out = some file → ∃ target, world.files.IsOpen file target .empty)
    (hcsv : ∀ file, csv = some file → ∃ target, world.files.IsOpen file target .empty)
    (text : String) (report : Csv.Report) :
    ∃ files,
      (do deliver out text; deliverReport csv (csv.map fun _ => report) : Run σ Unit).run.run
        world = (.ok (), { world with files, out := world.out ++ out.elim text fun _ => "" }) ∧
      (out = none → csv = none → files = world.files) ∧
      ((∀ file other, out = some file → csv = some other →
          world.files.locate file ≠ world.files.locate other) →
        (∀ file, out = some file → files.readText file = .ok text) ∧
          ∀ file, csv = some file → files.readText file = .ok report.text) := by
  cases out with
  | none =>
    cases csv with
    | none => exact ⟨_, rfl, fun _ _ => rfl, fun _ => ⟨nofun, nofun⟩⟩
    | some path =>
      obtain ⟨target, hopen⟩ := hcsv path rfl
      let shown : World σ := { world with out := world.out ++ text }
      have hshown : shown.files.IsOpen path target .empty := hopen
      obtain ⟨files, hrun, hfile, -⟩ := Run.fillFile_run hshown report.text
      rw [filled_empty] at hfile
      refine ⟨files, hrun, nofun, fun _ => ⟨nofun, ?_⟩⟩
      rintro _ ⟨⟩
      exact hfile.readText_eq
  | some path =>
    obtain ⟨target, hopen⟩ := hout path rfl
    obtain ⟨files, hrun, hfile, hothers⟩ := Run.fillFile_run hopen text
    rw [filled_empty] at hfile hothers
    cases csv with
    | none =>
      refine ⟨files, ?_, nofun, fun _ => ⟨?_, nofun⟩⟩
      · rw [Option.elim_some, String.append_empty]
        exact Run.run_bind_of_ok hrun
      · rintro _ ⟨⟩
        exact hfile.readText_eq
    | some other =>
      obtain ⟨place, hempty⟩ := hcsv other rfl
      let begun : World σ := { world with files }
      have hbegun : begun.files.IsOpen other place _ := hothers hempty
      obtain ⟨final, hreported, hreport, hkept⟩ := Run.fillFile_run hbegun report.text
      refine ⟨final, ?_, nofun, fun hapart => ?_⟩
      · rw [Option.elim_some, String.append_empty]
        exact (Run.run_bind_of_ok hrun).trans hreported
      -- The report is written behind the listing, and leaves it alone in a file of its own.
      have hne : place ≠ target := by
        rintro rfl
        exact hapart path other rfl rfl (hopen.locate_eq hempty)
      rw [if_neg hne, filled_empty] at hreport
      have hstill := hkept (hfile : begun.files.IsOpen path target _)
      rw [if_neg hne.symm] at hstill
      constructor
      · rintro _ ⟨⟩
        exact hstill.readText_eq
      · rintro _ ⟨⟩
        exact hreport.readText_eq

end BucketCare.Command
