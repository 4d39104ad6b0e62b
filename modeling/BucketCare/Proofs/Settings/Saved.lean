import BucketCare.Proofs.Files.Writing
import BucketCare.Proofs.Settings.Document
import BucketCare.Settings.Storage

/-!
# Saved settings are loaded as they were

Settings that are accepted, and whose numbers fit into 64 bits with a sign, can be saved wherever a
file can be written. What is loaded from there are the same settings: every text with all its
characters, and of the options those that were set and no others.

## Main definitions

* `FileTree.CanSave` — a settings file can be written at a path

## Main results

* `Settings.load_of_locate` — the settings of a file that a path leads to
* `Settings.load_save` — saved settings are loaded as they were
-/

namespace BucketCare

/-- A settings file can be written at a path, once the directory is there that it is to lie in. -/
def FileTree.CanSave (tree : FileTree) (path : String) : Prop :=
  ∃ made content after, Settings.makeParent tree path = .ok made ∧
    made.write path content = .ok after

namespace Settings

variable {settings : Settings} {tree : FileTree} {home document : String}
variable {named : Option String} {target : List String} {mode : Nat}

/-- A document that was written to a file which can be written stands there, in the mode of a
settings file. -/
theorem exists_writeDocument {path : String} {content : ByteArray} {after : FileTree}
    (h : tree.write path content = .ok after) (document : String) :
    ∃ saved target, writeDocument tree path document = .ok saved ∧
      saved.locate path = .ok (.found target (.file document.toUTF8 fileMode)) := by
  obtain ⟨target, mode, hwrite⟩ := FileTree.exists_write h
  obtain ⟨hwritten, hlocate⟩ := hwrite document.toUTF8
  obtain ⟨hmode, hsaved⟩ := FileTree.setMode_of_locate hlocate fileMode
  exact ⟨_, target, by simp only [writeDocument, hwritten, hmode], hsaved⟩

/-- The settings of a file that a path leads to are loaded, whether the path was named or is the
usual one. -/
theorem load_of_locate (hlocate : tree.locate (path home named) =
      .ok (.found target (.file document.toUTF8 mode)))
    (hread : read? document = some settings) (haccepted : settings.validate = .ok ()) :
    load tree home named = .ok settings := by
  have hexists : tree.exists_ (path home named) = true := by
    simp [FileTree.exists_, FileTree.find, hlocate]
  have htext := FileTree.readText_of_locate hlocate
  simp only [load, hexists, loadFile, htext, hread, haccepted, if_true]
  rfl

/-- Accepted settings are saved wherever a settings file can be written, and loaded from there as
they were. -/
theorem load_save (settings : Settings) (tree : FileTree) (home : String) (named : Option String)
    (haccepted : settings.validate = .ok ()) (hfit : settings.FitSigned)
    (hwritable : tree.CanSave (path home named)) :
    ∃ saved, settings.save tree home named = (.ok (path home named), saved) ∧
      load saved home named = .ok settings ∧
      load saved home (some (path home named)) = .ok settings := by
  obtain ⟨made, content, after, hmade, hwrite⟩ := hwritable
  obtain ⟨document, hdocument, hread⟩ := read?_write hfit
  obtain ⟨saved, target, hsaved, hlocate⟩ := exists_writeDocument hwrite document
  refine ⟨saved, ?_, load_of_locate hlocate hread haccepted, load_of_locate hlocate hread haccepted⟩
  simp only [save, hmade, hdocument, hsaved]

/-- Settings with quotation marks, backslashes, controls, line ends and letters beyond ASCII. -/
def thorny : Settings :=
  { Settings.default with
    store :=
      { StoreSettings.default with
        profile := some ""
        accessKey := some "it's a \"key\""
        secretKey := some "\n'''\"\"\"\\\t\r\x01\x7fé😀"
        pathStyle := true }
    transfer := { TransferSettings.default with timeout := 9223372036854775807 }
    output := ⟨"'"⟩ }

/-- The name of a settings file is free in a tree that holds only its root. -/
theorem locate_empty : FileTree.empty.locate "s.toml" = .ok (.free ["s.toml"]) := by
  have hnames : Route.names "s.toml" = ["s.toml"] := by decide
  have hleads : Route.Leads .emptyDir Route.maxLinks [] (Route.names "s.toml")
      (.free ["s.toml"]) := hnames ▸ .free rfl ⟨by decide, by decide, by decide⟩ rfl
  exact hleads.walk_eq

/-- Such settings are saved to a new file and loaded from it. -/
theorem load_save_thorny : thorny.validate = .ok () ∧ thorny.FitSigned ∧
    FileTree.empty.CanSave (path "/home/user" (some "s.toml")) ∧
    ∃ saved, load saved "/home/user" (some "s.toml") = .ok thorny := by
  have hwritable : FileTree.empty.CanSave "s.toml" := by
    have hmade : makeParent .empty "s.toml" = .ok .empty := by rfl
    exact ⟨_, .empty, _, hmade, FileTree.write_of_free locate_empty (by decide) .empty⟩
  have haccepted : thorny.validate = .ok () := by rfl
  have hfit : thorny.FitSigned := by decide
  obtain ⟨saved, -, hload, -⟩ :=
    load_save thorny .empty "/home/user" (some "s.toml") haccepted hfit hwritable
  exact ⟨haccepted, hfit, hwritable, saved, hload⟩

end Settings

end BucketCare
