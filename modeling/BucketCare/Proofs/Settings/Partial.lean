import BucketCare.Proofs.Settings.Saved

/-!
# What a settings file leaves out holds by default

A settings file may leave out any setting that has its default value, and a section that has no
settings left. What is missing from a section that is there and what is missing with its section are
read by different rules, and both give the same defaults: a section that is there and empty is read
as the section that is not there. So the settings that are loaded do not show what was left out.

## Main definitions

* `Settings.defaultFields` — the settings of a section without a file
* `Settings.OmitsDefaults` — settings of a section, of which only defaults are left out
* `Settings.Abridges` — sections, of which only defaults are left out
* `Settings.IsDocument` — a document of some sections

## Main results

* `Settings.OmitsDefaults.value?_eq` — a setting is read alike, whether its default is there or not
* `Settings.Abridges.readSection_eq` — a section is read from what is kept of it, or from nothing
* `Settings.ofTable?_of_abridges` — the settings of an abridged document
* `Settings.load_abridged` — abridged documents are loaded as the settings
-/

namespace BucketCare.Settings

open Toml (Spaced)

/-- The settings of a section without a file, by the name of the section. -/
def defaultFields (name : String) : List (String × Field) :=
  (Settings.default.sections.lookup name).getD []

/-- Some settings of a section, of which those that are left out have their default values. -/
structure OmitsDefaults (defaults fields kept : List (String × Field)) : Prop where
  sublist : kept.Sublist fields
  default : ∀ field ∈ fields, field ∉ kept → field ∈ defaults

/-- Some sections with what is kept of them: settings that have their default values are left out,
and sections that have no settings left may be left out as well. -/
inductive Abridges : List (String × List (String × Field)) → List (String × List (String × Field)) →
    Prop
  | nil : Abridges [] []
  /-- A section is kept, with some of its settings. -/
  | kept {name : String} {fields some : List (String × Field)}
      {parts rest : List (String × List (String × Field))}
      (homits : OmitsDefaults (defaultFields name) fields some) (h : Abridges parts rest) :
      Abridges ((name, fields) :: parts) ((name, some) :: rest)
  /-- A section is left out with all its settings. -/
  | left {name : String} {fields : List (String × Field)}
      {parts rest : List (String × List (String × Field))}
      (homits : OmitsDefaults (defaultFields name) fields []) (h : Abridges parts rest) :
      Abridges ((name, fields) :: parts) rest

/-! ## The settings of a section -/

/-- A setting is found in the table of its section. -/
theorem lookup_of_mem {fields : List (String × Field)} (hnodup : (fields.map Prod.fst).Nodup)
    {name : String} {field : Field} (hmem : (name, field) ∈ fields) :
    (fields.map Field.entry).lookup name = some field.value := by
  -- These settings are options that are always there.
  have hpresent : present (fields.map (Prod.map id some)) = fields := by
    simp [present, List.flatMap_map]
  have hnames : ((fields.map (Prod.map id some)).map Prod.fst).Nodup := by
    rw [List.map_map]
    exact hnodup
  have hfound := lookup_present hnames (name, some field) (List.mem_map_of_mem hmem)
  rwa [hpresent] at hfound

namespace OmitsDefaults

variable {defaults fields kept : List (String × Field)} {name : String}

theorem refl (defaults fields : List (String × Field)) : OmitsDefaults defaults fields fields :=
  ⟨.refl fields, fun _ hmem hmissing => absurd hmem hmissing⟩

/-- What is found under a name is what was there, unless a default was left out. -/
theorem lookup_eq (h : OmitsDefaults defaults fields kept) (hnodup : (fields.map Prod.fst).Nodup)
    (name : String) :
    (kept.map Field.entry).lookup name = (fields.map Field.entry).lookup name ∨
      (kept.map Field.entry).lookup name = none ∧ ∃ field, (name, field) ∈ defaults ∧
        (fields.map Field.entry).lookup name = some field.value := by
  have hnone {some : List (String × Field)} (hname : name ∉ some.map Prod.fst) :
      (some.map Field.entry).lookup name = none := by
    apply Toml.Table.lookup_of_notMem
    rwa [map_entry_fst]
  have hkept : (kept.map Prod.fst).Nodup := hnodup.sublist (h.sublist.map Prod.fst)
  -- A name is kept, or it was there and is left out, or it was never there.
  by_cases hthere : name ∈ kept.map Prod.fst
  · obtain ⟨⟨_, field⟩, hmem, rfl⟩ := List.mem_map.mp hthere
    rw [lookup_of_mem hkept hmem, lookup_of_mem hnodup (h.sublist.subset hmem)]
    exact .inl rfl
  by_cases hname : name ∈ fields.map Prod.fst
  · obtain ⟨⟨_, field⟩, hmem, rfl⟩ := List.mem_map.mp hname
    have hmissing : (_, field) ∉ kept := fun hmem => hthere (List.mem_map_of_mem hmem)
    exact .inr ⟨hnone hthere, field, h.default _ hmem hmissing, lookup_of_mem hnodup hmem⟩
  · rw [hnone hthere, hnone hname]
    exact .inl rfl

/-- A setting is read alike whether its default is there or not. -/
theorem value?_eq {α : Type} (h : OmitsDefaults defaults fields kept)
    (hnodup : (fields.map Prod.fst).Nodup) (read : Toml.Value → Option α) (default : α)
    (place : Nat) (name : String)
    (hdefault : ∀ field ∈ defaults, field.1 = name → read field.2.value = some default) :
    (Section.named (kept.map Field.entry)).value? read default place name =
      (Section.named (fields.map Field.entry)).value? read default place name := by
  rcases h.lookup_eq hnodup name with hsame | ⟨hnone, field, hmem, hfound⟩
  · simp only [Section.value?, Section.get?, hsame]
  · simp only [Section.value?, Section.get?, hnone, hfound, hdefault _ hmem rfl]

/-- A setting that is absent by default is not left out. -/
theorem optional?_eq (h : OmitsDefaults defaults fields kept)
    (hnodup : (fields.map Prod.fst).Nodup) (place : Nat) (name : String)
    (hdefault : ∀ field ∈ defaults, field.1 ≠ name) :
    (Section.named (kept.map Field.entry)).optional? readText place name =
      (Section.named (fields.map Field.entry)).optional? readText place name := by
  rcases h.lookup_eq hnodup name with hsame | ⟨-, field, hmem, -⟩
  · simp only [Section.optional?, Section.get?, hsame]
    cases (fields.map Field.entry).lookup name <;> rfl
  · exact absurd rfl (hdefault _ hmem)

end OmitsDefaults

/-! ## The sections -/

section Sections

variable {kept : List (String × Field)}

theorem readStore_of_omits {store : StoreSettings}
    (h : OmitsDefaults (storeFields .default) (storeFields store) kept) :
    readStore (.named (kept.map Field.entry)) = some store := by
  have hnodup : ((storeFields store).map Prod.fst).Nodup := by
    rw [storeFields_eq]
    exact .sublist (present_names_sublist (storeOptions store)) (by simp [storeOptions])
  -- Every setting is read as from the full section, whose reader gives the store back.
  rw [← readStore_storeFields store]
  simp only [readStore, h.optional?_eq hnodup 0 "endpoint" (by decide),
    h.optional?_eq hnodup 1 "region" (by decide), h.optional?_eq hnodup 2 "profile" (by decide),
    h.optional?_eq hnodup 3 "access_key_id" (by decide),
    h.optional?_eq hnodup 4 "secret_access_key" (by decide),
    h.optional?_eq hnodup 5 "session_token" (by decide),
    h.value?_eq hnodup readFlag false 6 "path_style" (by decide),
    h.value?_eq hnodup readByte StoreSettings.default.listVersion 7 "list_version" (by decide)]

theorem readTransfer_of_omits {transfer : TransferSettings}
    (h : OmitsDefaults (transferFields .default) (transferFields transfer) kept) :
    readTransfer (.named (kept.map Field.entry)) = some transfer := by
  have hnodup : ((transferFields transfer).map Prod.fst).Nodup := by simp [transferFields]
  rw [← readTransfer_transferFields transfer]
  simp only [readTransfer,
    h.value?_eq hnodup readWord TransferSettings.default.maxRetries 0 "max_retries" (by decide),
    h.value?_eq hnodup readLong TransferSettings.default.timeout 1 "timeout" (by decide),
    h.value?_eq hnodup readLong TransferSettings.default.listPageSize 2 "list_page_size"
      (by decide),
    h.value?_eq hnodup readLong TransferSettings.default.deletePageSize 3 "delete_page_size"
      (by decide),
    h.value?_eq hnodup readLong TransferSettings.default.uploadThreads 4 "upload_threads"
      (by decide),
    h.value?_eq hnodup readLong TransferSettings.default.uploadLargest 5 "upload_largest"
      (by decide),
    h.value?_eq hnodup readLong TransferSettings.default.multipartThreshold
      6 "multipart_threshold_mb" (by decide),
    h.value?_eq hnodup readLong TransferSettings.default.multipartChunk 7 "multipart_chunk_size_mb"
      (by decide)]

theorem readLogging_of_omits {logging : LogSettings}
    (h : OmitsDefaults (logFields .default) (logFields logging) kept) :
    readLogging (.named (kept.map Field.entry)) = some logging := by
  have hnodup : ((logFields logging).map Prod.fst).Nodup := by simp [logFields]
  rw [← readLogging_logFields logging]
  simp only [readLogging,
    h.value?_eq hnodup readText LogSettings.default.level 0 "level" (by decide),
    h.value?_eq hnodup readText LogSettings.default.format 1 "format" (by decide)]

theorem readOutput_of_omits {output : OutputSettings}
    (h : OmitsDefaults (outputFields .default) (outputFields output) kept) :
    readOutput (.named (kept.map Field.entry)) = some output := by
  have hnodup : ((outputFields output).map Prod.fst).Nodup := by simp [outputFields]
  rw [← readOutput_outputFields output]
  simp only [readOutput,
    h.value?_eq hnodup readText OutputSettings.default.separator 0 "separator" (by decide)]

end Sections

/-! ## Documents of what is kept -/

namespace Abridges

variable {parts kept : List (String × List (String × Field))}

theorem refl (parts : List (String × List (String × Field))) : Abridges parts parts := by
  induction parts with
  | nil => exact .nil
  | cons part parts ih => exact .kept (.refl _ _) ih

theorem names_sublist (h : Abridges parts kept) :
    (kept.map Prod.fst).Sublist (parts.map Prod.fst) := by
  induction h with
  | nil => exact .slnil
  | kept _ _ ih => exact ih.cons_cons _
  | left _ _ ih => exact ih.cons _

/-- What is kept of a section is some of its settings. -/
theorem exists_of_mem (h : Abridges parts kept) :
    ∀ part ∈ kept, ∃ fields, (part.1, fields) ∈ parts ∧ part.2.Sublist fields := by
  induction h with
  | nil => exact nofun
  | kept homits _ ih =>
    rw [List.forall_mem_cons]
    refine ⟨⟨_, List.mem_cons_self, homits.sublist⟩, fun part hmem => ?_⟩
    obtain ⟨fields, hfields, hsublist⟩ := ih part hmem
    exact ⟨fields, List.mem_cons_of_mem _ hfields, hsublist⟩
  | left _ _ ih =>
    intro part hmem
    obtain ⟨fields, hfields, hsublist⟩ := ih part hmem
    exact ⟨fields, List.mem_cons_of_mem _ hfields, hsublist⟩

/-- A section is found with what is kept of it, unless all of it was left out. -/
theorem lookup (h : Abridges parts kept) (hnodup : (parts.map Prod.fst).Nodup) {name : String}
    {fields : List (String × Field)} (hmem : (name, fields) ∈ parts) :
    (∃ rest, OmitsDefaults (defaultFields name) fields rest ∧
      (kept.map tableEntry).lookup name = some (.table .header (rest.map Field.entry))) ∨
    OmitsDefaults (defaultFields name) fields [] ∧ (kept.map tableEntry).lookup name = none := by
  induction h with
  | nil => cases hmem
  -- The names differ, so what is kept of other sections is not found under this one.
  | @kept first _ some _ _ homits _ ih =>
    obtain ⟨hnew, hnodup⟩ := List.nodup_cons.mp hnodup
    rcases List.mem_cons.mp hmem with heq | hmem
    · cases heq
      exact .inl ⟨some, homits, by simp [tableEntry]⟩
    · have hne : (name == first) = false := by
        have hname := List.mem_map_of_mem (f := Prod.fst) hmem
        exact beq_false_of_ne fun heq => hnew (heq ▸ hname)
      simp only [List.map_cons, List.lookup_cons, tableEntry, hne]
      exact ih hnodup hmem
  | left homits hrest ih =>
    obtain ⟨hnew, hnodup⟩ := List.nodup_cons.mp hnodup
    rcases List.mem_cons.mp hmem with heq | hmem
    · cases heq
      refine .inr ⟨homits, Toml.Table.lookup_of_notMem ?_⟩
      rw [map_tableEntry_fst]
      exact fun hmem => hnew (hrest.names_sublist.subset hmem)
    · exact ih hnodup hmem

/-- A section is read from what is kept of it, or from nothing at all. -/
theorem readSection_eq {α : Type} (h : Abridges parts kept) (hnodup : (parts.map Prod.fst).Nodup)
    {name : String} {fields : List (String × Field)} (hmem : (name, fields) ∈ parts)
    {default value : α} {read : Section → Option α} (hempty : read (.named []) = some default)
    (hread : ∀ rest, OmitsDefaults (defaultFields name) fields rest →
      read (.named (rest.map Field.entry)) = some value) :
    readSection (kept.map tableEntry) name default read = some value := by
  rcases h.lookup hnodup hmem with ⟨rest, homits, hfound⟩ | ⟨homits, hnone⟩
  · exact readSection_of_lookup hfound (hread rest homits)
  · -- All of the section are defaults: it is the section that is there and empty.
    have hvalue : default = value := Option.some.inj (hempty.symm.trans (hread [] homits))
    rw [readSection, hnone, hvalue]

end Abridges

variable {settings : Settings} {kept : List (String × List (String × Field))}

/-- The settings of a document are not changed by what it leaves out. -/
theorem ofTable?_of_abridges (h : Abridges settings.sections kept) :
    ofTable? (.header, kept.map tableEntry) = some settings := by
  have hnodup : (settings.sections.map Prod.fst).Nodup := (areNames_sections settings).1.1
  have hstore : readSection (kept.map tableEntry) "store" .default readStore =
      some settings.store :=
    h.readSection_eq hnodup (by simp [sections]) rfl fun _ => readStore_of_omits
  have htransfer : readSection (kept.map tableEntry) "advanced" .default readTransfer =
      some settings.transfer :=
    h.readSection_eq hnodup (by simp [sections]) rfl fun _ => readTransfer_of_omits
  have hlogging : readSection (kept.map tableEntry) "logging" .default readLogging =
      some settings.logging :=
    h.readSection_eq hnodup (by simp [sections]) rfl fun _ => readLogging_of_omits
  have houtput : readSection (kept.map tableEntry) "output" .default readOutput =
      some settings.output :=
    h.readSection_eq hnodup (by simp [sections]) rfl fun _ => readOutput_of_omits
  simp only [ofTable?, hstore, htransfer, hlogging, houtput]
  rfl

/-- A document of some sections, in their order and with any empty lines around them. -/
def IsDocument (parts : List (String × List (String × Field))) (document : String) : Prop :=
  ∃ pieces, (parts.mapM fun (name, fields) => writeSection name fields) = .ok pieces ∧
    Spaced pieces document

/-- What is kept of some settings has a document, and every such document is read as the
settings. -/
theorem read?_of_abridges (hfit : settings.FitSigned) (h : Abridges settings.sections kept) :
    (∃ document, IsDocument kept document) ∧
      ∀ document, IsDocument kept document → read? document = some settings := by
  obtain ⟨hsections, hfields⟩ := areNames_sections settings
  have hnames : ∀ part ∈ kept, AreNames (part.2.map Prod.fst) := by
    intro part hmem
    obtain ⟨fields, hpart, hsublist⟩ := h.exists_of_mem part hmem
    exact (hfields _ hpart).sublist (hsublist.map Prod.fst)
  have hfits : ∀ part ∈ kept, ∀ field ∈ part.2, field.2.Fits := by
    intro part hmem field hfield
    obtain ⟨fields, hpart, hsublist⟩ := h.exists_of_mem part hmem
    exact hfit _ hpart field (hsublist.subset hfield)
  obtain ⟨pieces, hwrite, hread⟩ :=
    exists_document (hsections.sublist h.names_sublist) hnames hfits
  refine ⟨⟨_, pieces, hwrite, Toml.spaced_intercalate pieces⟩, ?_⟩
  rintro document ⟨others, hothers, hspaced⟩
  cases hwrite.symm.trans hothers
  rw [hread document hspaced, ofTable?_of_abridges h]

theorem loadFile_of_read? {tree : FileTree} {path document : String}
    (htext : tree.readText path = .ok document) (hread : read? document = some settings)
    (haccepted : settings.validate = .ok ()) : loadFile tree path = .ok settings := by
  simp only [loadFile, htext, hread, haccepted]
  rfl

/-- Accepted settings are loaded from their document, and as they were from every document that
leaves out settings that have their default values, and sections that have no settings left. -/
theorem load_abridged (settings : Settings) (haccepted : settings.validate = .ok ())
    (hfit : settings.FitSigned) :
    (∃ document, settings.write = .ok document ∧ IsDocument settings.sections document ∧
      ∀ (tree : FileTree) (path : String), tree.readText path = .ok document →
        loadFile tree path = .ok settings) ∧
    ∀ kept, Abridges settings.sections kept →
      (∃ document, IsDocument kept document) ∧
      ∀ document, IsDocument kept document →
        ∀ (tree : FileTree) (path : String), tree.readText path = .ok document →
          loadFile tree path = .ok settings := by
  constructor
  · obtain ⟨⟨_, pieces, hwrite, -⟩, hread⟩ := read?_of_abridges hfit (.refl settings.sections)
    have hfull : IsDocument settings.sections ("\n".intercalate pieces) :=
      ⟨pieces, hwrite, Toml.spaced_intercalate pieces⟩
    refine ⟨_, by rw [write, hwrite]; rfl, hfull, fun tree path htext => ?_⟩
    exact loadFile_of_read? htext (hread _ hfull) haccepted
  · intro kept h
    obtain ⟨hexists, hread⟩ := read?_of_abridges hfit h
    exact ⟨hexists, fun document hdocument tree path htext =>
      loadFile_of_read? htext (hread document hdocument) haccepted⟩

/-- Settings of which all but the region and the style of addresses are defaults. -/
def elsewhere : Settings :=
  { Settings.default with
    store := { StoreSettings.default with region := some "eu-west-2", pathStyle := true } }

/-- They are loaded from a document of these two, which names an empty section as well. -/
theorem load_abridged_elsewhere : elsewhere.validate = .ok () ∧ elsewhere.FitSigned ∧
    ∃ (tree : FileTree), tree.readText "s.toml" =
        .ok "\n[store]\nregion = \"eu-west-2\"\npath_style = true\n\n\n[logging]\n" ∧
      loadFile tree "s.toml" = .ok elsewhere := by
  have haccepted : elsewhere.validate = .ok () := by rfl
  have hfit : elsewhere.FitSigned := by decide
  have habridges : Abridges elsewhere.sections
      [("store", [("region", .text "eu-west-2"), ("path_style", .flag true)]), ("logging", [])] :=
    .kept ⟨by decide, by decide⟩ <| .left ⟨by decide, by decide⟩ <|
      .kept ⟨by decide, by decide⟩ <| .left ⟨by decide, by decide⟩ .nil
  have hdocument : IsDocument
      [("store", [("region", .text "eu-west-2"), ("path_style", .flag true)]), ("logging", [])]
      "\n[store]\nregion = \"eu-west-2\"\npath_style = true\n\n\n[logging]\n" :=
    ⟨["[store]\nregion = \"eu-west-2\"\npath_style = true\n", "[logging]\n"], by rfl,
      .feed (.piece _ (.feed (.feed (.piece _ .none))))⟩
  obtain ⟨tree, hfile⟩ : ∃ tree : FileTree, tree.readText "s.toml" = .ok
      "\n[store]\nregion = \"eu-west-2\"\npath_style = true\n\n\n[logging]\n" := by
    obtain ⟨_, _, hwrite⟩ :=
      FileTree.exists_write (FileTree.write_of_free locate_empty (by decide) .empty)
    exact ⟨_, FileTree.readText_of_locate (hwrite _).2⟩
  obtain ⟨-, habridged⟩ := load_abridged elsewhere haccepted hfit
  exact ⟨haccepted, hfit, tree, hfile,
    (habridged _ habridges).2 _ hdocument tree "s.toml" hfile⟩

end BucketCare.Settings
