import BucketCare.Proofs.Files.Making
import BucketCare.Proofs.Settings.Saved

/-!
# Saving settings guards the files that are there

When settings cannot be saved, because the directory of the file cannot be made, because a number
does not fit into 64 bits with a sign, or because the file cannot be written, every file is as it
was, also the one that was to be replaced; all that may be new are directories. When they are saved,
the file that the path leads to holds them in the mode of a settings file, whatever its mode was
before, and every other file is as it was.

The document is made between the directory and the file. Once it is there, the only step that can
fail is the one that puts it into the file: a file that was just written can have its mode set.

## Main definitions

* `Settings.Ends` — how saving ends, step by step

## Main results

* `Settings.exists_write_iff` — the settings that can be written
* `Settings.writeDocument_ends` — what a document that is written changes
* `Settings.save_guards_files` — what saving leaves as it was
-/

namespace BucketCare

/-- A file that is put into a tree changes what stands at no other place. -/
theorem FileTree.kept_putFile {tree : FileTree} {target place : List String}
    (htakes : tree.root.Takes target) (content : ByteArray) (mode : Nat) (hne : place ≠ target) :
    Node.Kept (tree.root.get? place) ((tree.putFile target content mode).root.get? place) :=
  htakes.kept_put (fun _ _ => rfl) hne

namespace Settings

variable {settings : Settings}

/-! ## Settings that can be written -/

theorem exists_of_bind {α β : Type} {x : Except Error α} {f : α → Except Error β} {b : β}
    (h : x >>= f = .ok b) : ∃ a, x = .ok a ∧ f a = .ok b := by
  cases x with
  | error => cases h
  | ok a => exact ⟨a, rfl, h⟩

/-- What is done to all members of a list is done to each of them. -/
theorem exists_of_mapM {α β : Type} {f : α → Except Error β} {xs : List α} {ys : List β}
    (h : xs.mapM f = .ok ys) : ∀ x ∈ xs, ∃ y, f x = .ok y := by
  induction xs generalizing ys with
  | nil => exact nofun
  | cons x xs ih =>
    rw [List.mapM_cons] at h
    obtain ⟨y, hx, hrest⟩ := exists_of_bind h
    obtain ⟨rest, hxs, -⟩ := exists_of_bind hrest
    exact List.forall_mem_cons.mpr ⟨⟨y, hx⟩, ih hxs⟩

theorem fits_of_writeLine {name line : String} {field : Field}
    (h : writeLine name field = .ok line) : field.Fits := by
  cases field with
  | text | flag => trivial
  | number n =>
    refine Decidable.by_contra fun hlarge => ?_
    have hfails : ¬ (n : Int) ≤ Toml.greatestInteger := hlarge
    rw [writeLine, writeField, if_neg hfails] at h
    cases h

theorem fits_of_writeSection {name text : String} {fields : List (String × Field)}
    (h : writeSection name fields = .ok text) : ∀ field ∈ fields, field.2.Fits := by
  intro field hfield
  obtain ⟨lines, hlines, -⟩ := exists_of_bind h
  obtain ⟨line, hline⟩ := exists_of_mapM hlines field hfield
  exact fits_of_writeLine hline

/-- Settings can be written exactly when their numbers fit into 64 bits with a sign. -/
theorem exists_write_iff : (∃ document, settings.write = .ok document) ↔ settings.FitSigned := by
  constructor
  · rintro ⟨document, h⟩ part hpart
    obtain ⟨texts, htexts, -⟩ := exists_of_bind h
    obtain ⟨text, htext⟩ := exists_of_mapM htexts part hpart
    exact fits_of_writeSection htext
  · intro hfit
    obtain ⟨document, hwrite, -⟩ := read?_write hfit
    exact ⟨document, hwrite⟩

/-! ## The steps of saving -/

/-- The directory of a settings file is made, or is not, without a change to any file. -/
theorem makeParent_grows (tree : FileTree) (file : String) :
    tree.Grows (FileTree.left (makeParent tree file)) := by
  unfold makeParent
  split
  · exact .refl tree
  split
  · exact .refl tree
  next parent _ _ =>
    have hgrows := tree.makeDirs_grows parent
    split
    next hmade =>
      rw [hmade] at hgrows
      exact hgrows
    next hfails =>
      rw [hfails] at hgrows
      exact hgrows

/-- A document cannot be written, because nothing can be written to the path, and the tree stays as
it is; or it stands afterwards where the path leads, and has the mode of a settings file. -/
theorem writeDocument_ends (tree : FileTree) (file document : String) :
    (∃ e, writeDocument tree file document = .error (e, tree) ∧
      ∀ content, ∃ failure, tree.write file content = .error failure) ∨
    ∃ place target saved, tree.locate file = .ok place ∧ place.TakesFile target ∧
      writeDocument tree file document = .ok saved ∧
      saved.locate file = .ok (.found target (.file document.toUTF8 fileMode)) ∧
      ∀ other, other ≠ target → Node.Kept (tree.root.get? other) (saved.root.get? other) := by
  cases hwrite : tree.write file document.toUTF8 with
  | error failure =>
    refine .inl ⟨_, by rw [writeDocument, hwrite], fun content => ?_⟩
    cases hother : tree.write file content with
    | error failure => exact ⟨failure, rfl⟩
    | ok after =>
      -- Whether a path can be written does not depend on what is written.
      obtain ⟨_, _, _, -, -, hall⟩ := FileTree.exists_place_of_write hother
      rw [hall] at hwrite
      cases hwrite
  | ok written =>
    obtain ⟨place, target, mode, hplace, htakes, hall⟩ := FileTree.exists_place_of_write hwrite
    cases (hall _).symm.trans hwrite
    -- The file is there now, so its mode can be set, whatever it was.
    have hlocate := FileTree.locate_putFile hplace htakes document.toUTF8 mode
    obtain ⟨hmode, hsaved⟩ := FileTree.setMode_of_locate hlocate fileMode
    refine .inr ⟨place, target, _, hplace, htakes, by simp only [writeDocument, hwrite, hmode],
      hsaved, fun other hother => ?_⟩
    have hfirst : tree.root.Takes target := FileTree.takes_of_locate hplace htakes
    have hsecond : (tree.putFile target document.toUTF8 mode).root.Takes target :=
      FileTree.takes_of_locate hlocate ⟨rfl, rfl⟩
    exact (FileTree.kept_putFile hfirst _ _ hother).trans
      (FileTree.kept_putFile hsecond _ _ hother)

/-- How saving settings ends: with the outcome and the tree as it is then. -/
inductive Ends (settings : Settings) (tree : FileTree) (file : String) :
    Except Error String × FileTree → Prop
  | unmade {e : Error} {left : FileTree} (hparent : makeParent tree file = .error (e, left)) :
      Ends settings tree file (.error e, left)
  | unfit {e : Error} {made : FileTree} (hparent : makeParent tree file = .ok made)
      (hwrite : settings.write = .error e) : Ends settings tree file (.error e, made)
  | unwritten {e : Error} {made left : FileTree} {document : String}
      (hparent : makeParent tree file = .ok made) (hwrite : settings.write = .ok document)
      (hfile : writeDocument made file document = .error (e, left)) :
      Ends settings tree file (.error e, left)
  | saved {made saved : FileTree} {document : String}
      (hparent : makeParent tree file = .ok made) (hwrite : settings.write = .ok document)
      (hfile : writeDocument made file document = .ok saved) :
      Ends settings tree file (.ok file, saved)

theorem ends_save (settings : Settings) (tree : FileTree) (home : String)
    (named : Option String) :
    Ends settings tree (path home named) (settings.save tree home named) := by
  unfold save
  dsimp only
  split
  next hparent => exact .unmade hparent
  next hparent =>
    split
    next hwrite => exact .unfit hparent hwrite
    next hwrite =>
      split
      next hfile => exact .unwritten hparent hwrite hfile
      next hfile => exact .saved hparent hwrite hfile

/-! ## What saving leaves as it was -/

/-- Saving that fails leaves every file as it was and makes none, and fails because the directory
of the file cannot be made, because a number does not fit into 64 bits with a sign, or because
nothing can be written to the file. Saving that succeeds puts the document of the settings into the
file that the path leads to, which then has the mode `0o600`, and leaves every other file as it was;
a file that the path led to before is the one that is replaced. -/
theorem save_guards_files (settings : Settings) (tree : FileTree) (home : String)
    (named : Option String) :
    (∀ e left, settings.save tree home named = (.error e, left) →
      (∀ place, left.fileAt? place = tree.fileAt? place) ∧ tree.Grows left ∧
      (makeParent tree (path home named) = .error (e, left) ∨
        makeParent tree (path home named) = .ok left ∧ ¬ settings.FitSigned ∨
        makeParent tree (path home named) = .ok left ∧ settings.FitSigned ∧
          ∀ content, ∃ failure, left.write (path home named) content = .error failure)) ∧
    ∀ written saved, settings.save tree home named = (.ok written, saved) →
      ∃ target document, written = path home named ∧ settings.write = .ok document ∧
        saved.locate written = .ok (.found target (.file document.toUTF8 0o600)) ∧
        (∀ place node, tree.locate written = .ok (.found place node) → place = target) ∧
        ∀ place, place ≠ target → saved.fileAt? place = tree.fileAt? place ∧
          Node.Grows (tree.root.get? place) (saved.root.get? place) := by
  have hgrows := makeParent_grows tree (path home named)
  have hends := ends_save settings tree home named
  constructor
  · intro e left hsave
    rw [hsave] at hends
    -- Whichever step fails, nothing but directories was made before it.
    suffices hreason : tree.Grows left ∧ _ from ⟨hreason.1.fileAt?_eq, hreason⟩
    cases hends with
    | unmade hparent =>
      rw [hparent] at hgrows
      exact ⟨hgrows, .inl hparent⟩
    | unfit hparent hwrite =>
      have hunfit : ¬ settings.FitSigned := by
        intro hfit
        obtain ⟨document, hdocument⟩ := exists_write_iff.mpr hfit
        rw [hdocument] at hwrite
        cases hwrite
      rw [hparent] at hgrows
      exact ⟨hgrows, .inr (.inl ⟨hparent, hunfit⟩)⟩
    | @unwritten _ made _ document hparent hwrite hfile =>
      have hfit := exists_write_iff.mp ⟨document, hwrite⟩
      rw [hparent] at hgrows
      rcases writeDocument_ends made (path home named) document with
        ⟨e', hfails, hnone⟩ | ⟨_, _, _, -, -, hsaved, -⟩
      · cases hfails.symm.trans hfile
        exact ⟨hgrows, .inr (.inr ⟨hparent, hfit, hnone⟩)⟩
      · cases hsaved.symm.trans hfile
  · intro written saved hsave
    rw [hsave] at hends
    cases hends with
    | @saved made _ document hparent hwrite hfile =>
      rw [hparent] at hgrows
      rcases writeDocument_ends made (path home named) document with
        ⟨_, hfails, -⟩ | ⟨_, target, _, hplace, htakes, hsaved, hlocate, hkept⟩
      · cases hfails.symm.trans hfile
      cases hsaved.symm.trans hfile
      refine ⟨target, document, rfl, hwrite, hlocate, fun place node hold => ?_,
        fun place hother => ?_⟩
      · -- The directories that were made do not turn the path elsewhere.
        obtain ⟨node', hmade⟩ := hgrows.exists_locate hold
        cases hmade.symm.trans hplace
        exact htakes.1
      · have hnodes := (hgrows.nodes place).trans (.kept (hkept place hother))
        exact ⟨hnodes.file?_eq, hnodes⟩

/-- Settings with a number that does not fit into 64 bits with a sign. -/
def boundless : Settings :=
  { Settings.default with
    transfer := { TransferSettings.default with timeout := 9223372036854775808 } }

/-- A tree with a settings file that others may read, and a directory. -/
def oldTree : FileTree :=
  ⟨.dir [("s.toml", .file "old".toUTF8 0o644), ("kept", .dir [("notes", .file "n".toUTF8 0o644)])],
    []⟩

theorem locate_oldTree :
    oldTree.locate "s.toml" = .ok (.found ["s.toml"] (.file "old".toUTF8 0o644)) := by
  rfl

/-- An old file stays when the settings do not fit, when the directory would lie below a file, and
when the path leads to a directory; otherwise it is replaced, and no longer open to others. -/
theorem save_guards_files_oldTree :
    (∃ e left, boundless.save oldTree "/home/user" (some "s.toml") = (.error e, left) ∧
      left.fileAt? ["s.toml"] = some ("old".toUTF8, 0o644)) ∧
    (∃ e left, thorny.save oldTree "/home/user" (some "s.toml/x/t.toml") = (.error e, left) ∧
      left.fileAt? ["s.toml"] = some ("old".toUTF8, 0o644)) ∧
    (∃ e left, thorny.save oldTree "/home/user" (some "kept") = (.error e, left) ∧
      left.fileAt? ["kept", "notes"] = some ("n".toUTF8, 0o644)) ∧
    ∃ saved document, thorny.save oldTree "/home/user" (some "s.toml") = (.ok "s.toml", saved) ∧
      saved.fileAt? ["s.toml"] = some (document, 0o600) ∧
      saved.fileAt? ["kept", "notes"] = some ("n".toUTF8, 0o644) := by
  have hparent : makeParent oldTree "s.toml" = .ok oldTree := by rfl
  have hfit : thorny.FitSigned := by decide
  obtain ⟨document, hdocument⟩ := exists_write_iff.mpr hfit
  refine ⟨?unfit, ?belowFile, ?directory, ?saved⟩
  case unfit =>
    have hunfit : ¬ boundless.FitSigned := by decide
    cases hwrite : boundless.write with
    | ok text => exact absurd (exists_write_iff.mp ⟨text, hwrite⟩) hunfit
    | error e =>
      have hsave : boundless.save oldTree "/home/user" (some "s.toml") = (.error e, oldTree) := by
        simp only [save, path, Option.getD_some, hparent, hwrite]
      refine ⟨e, oldTree, hsave, ?_⟩
      rw [((save_guards_files _ _ _ _).1 e oldTree hsave).1]
      rfl
  case belowFile =>
    have hdirs : oldTree.makeDirs "s.toml/x" = .error (.notDirectory, oldTree) := by rfl
    have habove : Route.parent? "s.toml/x/t.toml" = some "s.toml/x" := by decide
    have hmissing : ("s.toml/x".isEmpty || oldTree.exists_ "s.toml/x") = false := by rfl
    obtain ⟨e, hunmade⟩ : ∃ e, makeParent oldTree "s.toml/x/t.toml" = .error (e, oldTree) :=
      ⟨_, by simp only [makeParent, habove, hmissing, hdirs]; rfl⟩
    have hsave : thorny.save oldTree "/home/user" (some "s.toml/x/t.toml") =
        (.error e, oldTree) := by
      simp only [save, path, Option.getD_some, hunmade]
    refine ⟨e, oldTree, hsave, ?_⟩
    rw [((save_guards_files _ _ _ _).1 e oldTree hsave).1]
    rfl
  case directory =>
    have hmade : makeParent oldTree "kept" = .ok oldTree := by rfl
    have hrefused : oldTree.write "kept" document.toUTF8 = .error .isDirectory := by rfl
    obtain ⟨e, hunwritten⟩ : ∃ e, writeDocument oldTree "kept" document = .error (e, oldTree) :=
      ⟨_, by rw [writeDocument, hrefused]⟩
    have hsave : thorny.save oldTree "/home/user" (some "kept") = (.error e, oldTree) := by
      simp only [save, path, Option.getD_some, hmade, hdocument, hunwritten]
    refine ⟨e, oldTree, hsave, ?_⟩
    rw [((save_guards_files _ _ _ _).1 e oldTree hsave).1]
    rfl
  case saved =>
    have hwrite : oldTree.write "s.toml" .empty =
        .ok (oldTree.putFile ["s.toml"] .empty 0o644) := by rfl
    obtain ⟨saved, _, hfile, -⟩ := exists_writeDocument hwrite document
    have hsave : thorny.save oldTree "/home/user" (some "s.toml") = (.ok "s.toml", saved) := by
      simp only [save, path, Option.getD_some, hparent, hdocument, hfile]
    obtain ⟨target, text, -, -, hlocate, hsame, hothers⟩ :=
      (save_guards_files _ _ _ _).2 "s.toml" saved hsave
    obtain rfl : ["s.toml"] = target := hsame _ _ locate_oldTree
    refine ⟨saved, text.toUTF8, hsave, ?_, ?_⟩
    · rw [FileTree.fileAt?, FileTree.get?_of_locate hlocate]
      rfl
    · rw [(hothers ["kept", "notes"] (by decide)).1]
      rfl

end Settings

end BucketCare
