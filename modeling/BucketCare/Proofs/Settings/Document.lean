import BucketCare.Proofs.Toml.Document
import BucketCare.Settings.Document

/-!
# The document of settings is read as the settings

Each section is written as a table, in which an absent option has no key. A section that is read
looks every name up in its table; the names of a section differ, so what it finds under a name is
the value that was written for it, and where nothing was written the option is absent again.

## Main definitions

* `Settings.present`, `Settings.storeOptions` — the settings that are there, of those that may be
* `Settings.Field.Fits`, `Settings.FitSigned` — numbers of 64 bits with a sign
* `Settings.AreNames` — names that are different and need no quotation marks

## Main results

* `Settings.lookup_present` — a setting is found exactly when it is there
* `Settings.readStore_storeFields`, `Settings.readTransfer_transferFields` — sections read back
* `Settings.exists_document` — sections have documents, and what these are read as
* `Settings.read?_write` — the document of some settings is read as the settings
-/

namespace BucketCare.Settings

open Toml (IsBareName IsWritten WrittenKey WrittenSection)

namespace Field

/-- The value of a setting in a document. -/
def value : Field → Toml.Value
  | text value => .text value
  | flag value => .boolean value
  | number value => .integer value

/-- The entry of a setting in the table of its section. -/
def entry (field : String × Field) : String × Toml.Value := (field.1, field.2.value)

end Field

/-! ## The settings of a table -/

/-- The settings that are there, of some that may be absent. -/
def present (options : List (String × Option Field)) : List (String × Field) :=
  options.flatMap fun (name, field) => (field.map fun f => (name, f)).toList

section Present

variable {options : List (String × Option Field)}

theorem present_cons (name : String) (field : Option Field) :
    present ((name, field) :: options) =
      (field.map fun f => (name, f)).toList ++ present options := List.flatMap_cons

theorem present_names_sublist (options : List (String × Option Field)) :
    ((present options).map Prod.fst).Sublist (options.map Prod.fst) := by
  induction options with
  | nil => exact .slnil
  | cons option options ih =>
    obtain ⟨name, field⟩ := option
    rw [present_cons]
    cases field with
    | none => exact ih.cons name
    | some field => exact ih.cons_cons name

theorem map_entry_fst (fields : List (String × Field)) :
    (fields.map Field.entry).map Prod.fst = fields.map Prod.fst := by
  rw [List.map_map]
  rfl

/-- A setting is found in the table of its section exactly when it is there. -/
theorem lookup_present (hnodup : (options.map Prod.fst).Nodup) :
    ∀ option ∈ options,
      ((present options).map Field.entry).lookup option.1 = option.2.map Field.value := by
  induction options with
  | nil => simp
  | cons first options ih =>
    obtain ⟨name, field⟩ := first
    rw [List.map_cons, List.nodup_cons] at hnodup
    obtain ⟨hnew, hnodup⟩ := hnodup
    intro option hmem
    rw [present_cons, List.map_append, List.lookup_append]
    -- The first option is at the head of the table, or absent and then nowhere behind it.
    rcases List.mem_cons.mp hmem with rfl | hmem
    · have hnone : ((present options).map Field.entry).lookup name = none := by
        apply Toml.Table.lookup_of_notMem
        rw [map_entry_fst]
        exact fun h => hnew ((present_names_sublist options).subset h)
      cases field <;> simp [hnone, Field.entry]
    · have hname : option.1 ∈ options.map Prod.fst := List.mem_map_of_mem hmem
      have hother : (option.1 == name) = false := by
        have hne : option.1 ≠ name := fun heq => hnew (heq ▸ hname)
        simpa using hne
      rw [ih hnodup option hmem]
      cases field <;> simp [Field.entry, List.lookup_cons, hother]

end Present

/-- The settings of a store, with those that may be absent. -/
def storeOptions (store : StoreSettings) : List (String × Option Field) :=
  [("endpoint", store.endpoint.map .text), ("region", store.region.map .text),
    ("profile", store.profile.map .text), ("access_key_id", store.accessKey.map .text),
    ("secret_access_key", store.secretKey.map .text),
    ("session_token", store.sessionToken.map .text), ("path_style", some (.flag store.pathStyle)),
    ("list_version", some (.number store.listVersion.toNat))]

theorem storeFields_eq (store : StoreSettings) :
    storeFields store = present (storeOptions store) := by
  simp [storeFields, storeOptions, optional, present, Option.map_map, Function.comp_def]

namespace Section

variable {entries : List (String × Toml.Value)} {name : String} {place : Nat}

theorem value?_of_lookup {α : Type} {read : Toml.Value → Option α} {default value : α}
    {found : Toml.Value} (h : entries.lookup name = some found) (hread : read found = some value) :
    (Section.named entries).value? read default place name = some value := by
  simp [value?, get?, h, hread]

theorem optional?_of_lookup {value : Option String}
    (h : entries.lookup name = value.map (Field.value ∘ Field.text)) :
    (Section.named entries).optional? readText place name = some value := by
  cases value <;> simp [optional?, get?, h, readText, Field.value]

end Section

theorem readFlag_value (b : Bool) : readFlag (Field.flag b).value = some b := rfl

/-- A number below a bound is read as it was. -/
theorem readBelow_value {bound n : Nat} (h : n < bound) :
    readBelow bound (Field.number n).value = some n := by
  have hless : (0 : Int) ≤ n ∧ (n : Int) < bound := by omega
  rw [Field.value, readBelow, if_pos hless]
  rfl

theorem readByte_value (n : UInt8) : readByte (Field.number n.toNat).value = some n := by
  have hless : n.toNat < Nat.pow 2 8 := n.toNat_lt
  simp [readByte, readBelow_value hless]

theorem readWord_value (n : UInt32) : readWord (Field.number n.toNat).value = some n := by
  have hless : n.toNat < Nat.pow 2 32 := n.toNat_lt
  simp [readWord, readBelow_value hless]

theorem readLong_value (n : UInt64) : readLong (Field.number n.toNat).value = some n := by
  have hless : n.toNat < Nat.pow 2 64 := n.toNat_lt
  simp [readLong, readBelow_value hless]

/-- The settings of a store are read as they were, and those that are absent stay absent. -/
theorem readStore_storeFields (store : StoreSettings) :
    readStore (.named ((storeFields store).map Field.entry)) = some store := by
  have hnodup : ((storeOptions store).map Prod.fst).Nodup := by
    simp [storeOptions]
  have hfound := lookup_present hnodup
  rw [← storeFields_eq] at hfound
  generalize (storeFields store).map Field.entry = entries at hfound ⊢
  simp only [storeOptions, List.forall_mem_cons, Option.map_map] at hfound
  obtain ⟨hendpoint, hregion, hprofile, haccess, hsecret, htoken, hstyle, hversion, -⟩ := hfound
  simp only [readStore, Section.optional?_of_lookup hendpoint,
    Section.optional?_of_lookup hregion, Section.optional?_of_lookup hprofile,
    Section.optional?_of_lookup haccess, Section.optional?_of_lookup hsecret,
    Section.optional?_of_lookup htoken, Section.value?_of_lookup hstyle (readFlag_value _),
    Section.value?_of_lookup hversion (readByte_value _)]
  rfl

/-- The settings of transfers are read as they were. -/
theorem readTransfer_transferFields (transfer : TransferSettings) :
    readTransfer (.named ((transferFields transfer).map Field.entry)) = some transfer := by
  -- These settings are options that are always there.
  let options := (transferFields transfer).map (Prod.map id some)
  have hnodup : (options.map Prod.fst).Nodup := by
    simp [options, transferFields]
  have hpresent : present options = transferFields transfer := rfl
  have hfound := lookup_present hnodup
  rw [hpresent] at hfound
  generalize (transferFields transfer).map Field.entry = entries at hfound ⊢
  simp only [options, transferFields, List.map, Prod.map_fst, Prod.map_snd, id_eq,
    List.forall_mem_cons] at hfound
  obtain ⟨hretries, htimeout, hlist, hdelete, hthreads, hlargest, hthreshold, hchunk, -⟩ := hfound
  simp only [readTransfer, Section.value?_of_lookup hretries (readWord_value _),
    Section.value?_of_lookup htimeout (readLong_value _),
    Section.value?_of_lookup hlist (readLong_value _),
    Section.value?_of_lookup hdelete (readLong_value _),
    Section.value?_of_lookup hthreads (readLong_value _),
    Section.value?_of_lookup hlargest (readLong_value _),
    Section.value?_of_lookup hthreshold (readLong_value _),
    Section.value?_of_lookup hchunk (readLong_value _)]
  rfl

theorem readLogging_logFields (logging : LogSettings) :
    readLogging (.named ((logFields logging).map Field.entry)) = some logging := by
  rfl

theorem readOutput_outputFields (output : OutputSettings) :
    readOutput (.named ((outputFields output).map Field.entry)) = some output := by
  rfl

/-- The entry of a section in the table of a document. -/
def tableEntry (part : String × List (String × Field)) : String × Toml.Value :=
  (part.1, .table .header (part.2.map Field.entry))

theorem map_tableEntry_fst (parts : List (String × List (String × Field))) :
    (parts.map tableEntry).map Prod.fst = parts.map Prod.fst := by
  rw [List.map_map]
  rfl

theorem readSection_of_lookup {α : Type} {entries fields : List (String × Toml.Value)}
    {name : String} {default value : α} {read : Section → Option α} {shape : Toml.Shape}
    (h : entries.lookup name = some (.table shape fields))
    (hread : read (.named fields) = some value) :
    readSection entries name default read = some value := by
  simp [readSection, h, Section.ofValue?, hread]

/-- The settings of a document with one table for each section. -/
theorem ofTable?_sections (settings : Settings) :
    ofTable? (.header, settings.sections.map tableEntry) = some settings := by
  generalize hentries : settings.sections.map tableEntry = entries
  have hstore : entries.lookup "store" =
      some (.table .header ((storeFields settings.store).map Field.entry)) := by
    rw [← hentries]
    rfl
  have htransfer : entries.lookup "advanced" =
      some (.table .header ((transferFields settings.transfer).map Field.entry)) := by
    rw [← hentries]
    rfl
  have hlogging : entries.lookup "logging" =
      some (.table .header ((logFields settings.logging).map Field.entry)) := by
    rw [← hentries]
    rfl
  have houtput : entries.lookup "output" =
      some (.table .header ((outputFields settings.output).map Field.entry)) := by
    rw [← hentries]
    rfl
  simp only [ofTable?, readSection_of_lookup hstore (readStore_storeFields _),
    readSection_of_lookup htransfer (readTransfer_transferFields _),
    readSection_of_lookup hlogging (readLogging_logFields _),
    readSection_of_lookup houtput (readOutput_outputFields _)]
  rfl

/-! ## The document of some settings -/

namespace Field

/-- A number can be written when it fits into 64 bits with a sign. -/
def Fits : Field → Prop
  | number n => (n : Int) ≤ Toml.greatestInteger
  | text _ | flag _ => True

instance : DecidablePred Fits
  | number n => inferInstanceAs (Decidable ((n : Int) ≤ Toml.greatestInteger))
  | text _ | flag _ => .isTrue trivial

/-- A setting is written so that it is read as it was. -/
theorem Fits.exists_written {field : Field} (h : field.Fits) :
    ∃ written, writeField field = .ok written ∧ IsWritten field.value written.toList := by
  cases field with
  | text s => exact ⟨_, rfl, Toml.isWritten_text s⟩
  | flag b => exact ⟨_, rfl, Toml.isWritten_boolean b⟩
  | number n => exact ⟨_, if_pos h, Toml.isWritten_integer h⟩

end Field

/-- The lines of the settings of a section. -/
theorem exists_writtenKeys {fields : List (String × Field)}
    (hnames : ∀ field ∈ fields, IsBareName field.1) (hfits : ∀ field ∈ fields, field.2.Fits) :
    ∃ keys : List WrittenKey, keys.map WrittenKey.entry = fields.map Field.entry ∧
      (fields.mapM fun (name, field) => writeLine name field) =
        .ok (keys.map fun key => String.ofList key.line) := by
  induction fields with
  | nil => exact ⟨[], rfl, rfl⟩
  | cons first fields ih =>
    obtain ⟨name, field⟩ := first
    obtain ⟨hname, hnames⟩ := List.forall_mem_cons.mp hnames
    obtain ⟨hfit, hfits⟩ := List.forall_mem_cons.mp hfits
    obtain ⟨keys, hentries, hlines⟩ := ih hnames hfits
    obtain ⟨written, hwrite, hwritten⟩ := hfit.exists_written
    let key : WrittenKey := ⟨name, field.value, written.toList, hname, hwritten⟩
    have hline : writeLine name field = .ok (String.ofList key.line) := by
      have htext : name ++ " = " ++ written ++ "\n" = String.ofList key.line := by
        rw [← String.toList_inj]
        simp [key, WrittenKey.line]
      rw [writeLine, hwrite, ← htext]
      rfl
    refine ⟨key :: keys, by simp [hentries, key, WrittenKey.entry, Field.entry], ?_⟩
    simp only [List.mapM_cons, hline, hlines]
    rfl

/-- The lines of a section. -/
theorem exists_writtenSection {name : String} {fields : List (String × Field)}
    (hname : IsBareName name) (hnames : ∀ field ∈ fields, IsBareName field.1)
    (hnodup : (fields.map Prod.fst).Nodup) (hfits : ∀ field ∈ fields, field.2.Fits) :
    ∃ part : WrittenSection, part.entry = tableEntry (name, fields) ∧
      writeSection name fields = .ok part.document := by
  obtain ⟨keys, hentries, hlines⟩ := exists_writtenKeys hnames hfits
  have hkeys : (keys.map WrittenKey.name).Nodup := by
    have hsame : keys.map WrittenKey.name = fields.map Prod.fst := by
      rw [← map_entry_fst, ← hentries, List.map_map]
      rfl
    rwa [hsame]
  let part : WrittenSection := ⟨name, keys, hname, hkeys⟩
  refine ⟨part, by simp [part, WrittenSection.entry, tableEntry, hentries], ?_⟩
  have htext : "[" ++ name ++ "]\n" ++ String.join (keys.map fun key => String.ofList key.line) =
      part.document := by
    rw [← String.toList_inj]
    simp [part, WrittenSection.document, WrittenSection.text, String.toList_join, List.flatMap_map]
  rw [writeSection, hlines, ← htext]
  rfl

/-- Names of settings that are different and can stand without quotation marks. -/
def AreNames (names : List String) : Prop := names.Nodup ∧ ∀ name ∈ names, IsBareName name

instance (names : List String) : Decidable (AreNames names) := inferInstanceAs (Decidable (_ ∧ _))

theorem AreNames.sublist {names more : List String} (h : AreNames more)
    (hsublist : names.Sublist more) : AreNames names :=
  ⟨h.1.sublist hsublist, fun name hmem => h.2 name (hsublist.subset hmem)⟩

/-- The names of the sections, and of the settings in each of them, are such names. -/
theorem areNames_sections (settings : Settings) : AreNames (settings.sections.map Prod.fst) ∧
    ∀ part ∈ settings.sections, AreNames (part.2.map Prod.fst) := by
  have hstore : AreNames ((storeFields settings.store).map Prod.fst) := by
    -- The names of the options that are there are some of all names, in the same order.
    have hall : AreNames ["endpoint", "region", "profile", "access_key_id", "secret_access_key",
      "session_token", "path_style", "list_version"] := by decide
    rw [storeFields_eq]
    exact hall.sublist (present_names_sublist (storeOptions settings.store))
  refine ⟨by simp only [sections, List.map]; decide, ?_⟩
  simp only [sections, List.forall_mem_cons]
  refine ⟨hstore, ?_, ?_, ?_, nofun⟩
  · simp only [transferFields, List.map]
    decide
  · simp only [logFields, List.map]
    decide
  · simp only [outputFields, List.map]
    decide

/-- Settings whose numbers fit into 64 bits with a sign. -/
def FitSigned (settings : Settings) : Prop :=
  ∀ part ∈ settings.sections, ∀ field ∈ part.2, field.2.Fits

instance (settings : Settings) : Decidable settings.FitSigned :=
  inferInstanceAs (Decidable (∀ part ∈ settings.sections, ∀ field ∈ part.2, field.2.Fits))

/-- The sections of a document. -/
theorem exists_writtenSections {parts : List (String × List (String × Field))}
    (hbare : ∀ part ∈ parts, IsBareName part.1)
    (hnames : ∀ part ∈ parts, AreNames (part.2.map Prod.fst))
    (hfits : ∀ part ∈ parts, ∀ field ∈ part.2, field.2.Fits) :
    ∃ written : List WrittenSection,
      written.map WrittenSection.entry = parts.map tableEntry ∧
      (parts.mapM fun (name, fields) => writeSection name fields) =
        .ok (written.map WrittenSection.document) := by
  induction parts with
  | nil => exact ⟨[], rfl, rfl⟩
  | cons first parts ih =>
    obtain ⟨name, fields⟩ := first
    obtain ⟨hname, hbare⟩ := List.forall_mem_cons.mp hbare
    obtain ⟨hfirst, hnames⟩ := List.forall_mem_cons.mp hnames
    obtain ⟨hfit, hfits⟩ := List.forall_mem_cons.mp hfits
    obtain ⟨written, hentries, hsections⟩ := ih hbare hnames hfits
    have hfields : ∀ field ∈ fields, IsBareName field.1 := fun field hmem =>
      hfirst.2 field.1 (List.mem_map_of_mem hmem)
    obtain ⟨part, hentry, hsection⟩ := exists_writtenSection hname hfields hfirst.1 hfit
    refine ⟨part :: written, by simp [hentry, hentries], ?_⟩
    simp only [List.mapM_cons, hsection, hsections]
    rfl

/-- A document of some sections, with any empty lines around them, is read as their tables. -/
theorem exists_document {parts : List (String × List (String × Field))}
    (hsections : AreNames (parts.map Prod.fst))
    (hnames : ∀ part ∈ parts, AreNames (part.2.map Prod.fst))
    (hfits : ∀ part ∈ parts, ∀ field ∈ part.2, field.2.Fits) :
    ∃ pieces, (parts.mapM fun (name, fields) => writeSection name fields) = .ok pieces ∧
      ∀ document, Toml.Spaced pieces document → read? document =
        ofTable? (.header, parts.map tableEntry) := by
  have hbare : ∀ part ∈ parts, IsBareName part.1 := fun part hmem =>
    hsections.2 part.1 (List.mem_map_of_mem hmem)
  obtain ⟨written, hentries, hwrite⟩ := exists_writtenSections hbare hnames hfits
  have hnodup : (written.map WrittenSection.name).Nodup := by
    have hsame : written.map WrittenSection.name = parts.map Prod.fst := by
      have heq := congrArg (List.map Prod.fst) hentries
      simpa [List.map_map, Function.comp_def, WrittenSection.entry, tableEntry] using heq
    rw [hsame]
    exact hsections.1
  refine ⟨_, hwrite, fun document hspaced => ?_⟩
  rw [read?, Toml.readDocument_spaced hnodup hspaced, hentries]
  rfl

/-- The document of some settings is read as the settings. -/
theorem read?_write {settings : Settings} (h : settings.FitSigned) :
    ∃ document, settings.write = .ok document ∧ read? document = some settings := by
  obtain ⟨hsections, hfields⟩ := areNames_sections settings
  obtain ⟨pieces, hwrite, hread⟩ := exists_document hsections hfields h
  refine ⟨"\n".intercalate pieces, by rw [write, hwrite]; rfl, ?_⟩
  rw [hread _ (Toml.spaced_intercalate pieces)]
  exact ofTable?_sections settings

end BucketCare.Settings
