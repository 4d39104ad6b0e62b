import BucketCare.Csv
import BucketCare.Listing.Objects
import BucketCare.Proofs.Deletion.Batches
import BucketCare.Proofs.Upload.Spans
import BucketCare.Proofs.Upload.Steps
import BucketCare.Store.Operations
import Mathlib.Data.Option.Basic

/-!
# Settings that are accepted can be used

The limits of the settings are checked when a file of settings is read, and again wherever a setting
is used: by the pages of a deletion, by the levels of the interface, by the separator of a report,
by the pool of uploads. The first check is at least as strict as each of the others, so a command
whose settings were accepted does not come to a halt half way because of one of them. Nor does it
come to no end: the parts of a file are not empty.

## Main definitions

* `Settings.Accepted` — what the first check says
* `Settings.Usable` — nothing that uses some settings refuses them

## Main results

* `Settings.accepted_of_validate` — the limits that accepted settings keep
* `Settings.usable_of_validate` — accepted settings can be used
-/

namespace BucketCare

namespace ObjectListing

variable {σ : Type}

/-- The pages of a listing by the first version. -/
def sourceV1 (client : Client σ) (listing : ObjectListing) : Source σ ObjectPage String :=
  fun token => do
    let reply ← (client.request (.listObjects listing.bucket listing.folder listing.delimiter
      client.pageSize token)).run
    return reply.map pageV1

/-- The pages of a listing by the second version. -/
def sourceV2 (client : Client σ) (listing : ObjectListing) : Source σ ObjectPage String :=
  fun token => do
    let reply ← (client.request (.listObjectsV2 listing.bucket listing.folder listing.delimiter
      client.pageSize token)).run
    return reply.map pageV2

theorem source_eq_sourceV1 {client : Client σ} (h : client.listVersion = 1)
    (listing : ObjectListing) : listing.source client = listing.sourceV1 client := by
  funext token
  rw [source, h]
  rfl

theorem source_eq_sourceV2 {client : Client σ} (h : client.listVersion = 2)
    (listing : ObjectListing) : listing.source client = listing.sourceV2 client := by
  funext token
  rw [source, h]
  rfl

end ObjectListing

/-- A text of one byte is read as the separator that this byte is. -/
theorem parseSeparator_of_size_eq_one {text : String} (h : text.utf8ByteSize = 1) :
    ∃ byte, text.toUTF8.toList = [byte] ∧ parseSeparator text = .ok byte := by
  have hsize : text.toUTF8.size = 1 := h
  have hlist : text.toUTF8.toList = [text.toUTF8.get! 0] := by
    rw [ByteArray.toList, ByteArray.toList.loop, if_pos (by omega), ByteArray.toList.loop,
      if_neg (by omega)]
    rfl
  -- The two spelled out names of the tabulator are longer than that.
  have hlong : ¬ (text = "\\t" ∨ text = "tab") := by
    rintro (rfl | rfl) <;> cases h
  refine ⟨text.toUTF8.get! 0, hlist, ?_⟩
  rw [parseSeparator, if_neg hlong, hlist]

namespace Settings

/-! ## What is accepted -/

/-- The limits that settings keep. -/
structure Accepted (settings : Settings) : Prop where
  listVersion : settings.store.listVersion = 1 ∨ settings.store.listVersion = 2
  listPage : 1 ≤ settings.transfer.listPageSize.toNat ∧
    settings.transfer.listPageSize.toNat ≤ maxPageSize
  deletePage : 1 ≤ settings.transfer.deletePageSize.toNat ∧
    settings.transfer.deletePageSize.toNat ≤ maxPageSize
  threads : settings.transfer.uploadThreads.toNat ≠ 0
  chunk : minChunk.toNat ≤ settings.transfer.multipartChunk.toNat
  separator : settings.output.separator.utf8ByteSize = 1

theorem listVersion_of_storeFault {store : StoreSettings} (h : storeFault store = none) :
    store.listVersion = 1 ∨ store.listVersion = 2 := by
  unfold storeFault at h
  split at h
  · cases h
  split at h
  · cases h
  split at h
  · cases h
  next hversion => simpa [Decidable.or_iff_not_imp_left] using hversion

theorem bounds_of_pageFault {name : String} {size : UInt64} (h : pageFault name size = none) :
    1 ≤ size.toNat ∧ size.toNat ≤ maxPageSize := by
  unfold pageFault checkPageSize at h
  by_cases hout : size.toNat = 0 ∨ maxPageSize < size.toNat
  · simp [hout] at h
  · omega

theorem bounds_of_transferFault {transfer : TransferSettings} (h : transferFault transfer = none) :
    pageFault "list_page_size" transfer.listPageSize = none ∧
      pageFault "delete_page_size" transfer.deletePageSize = none ∧
      transfer.uploadThreads ≠ 0 ∧ minChunk ≤ transfer.multipartChunk := by
  unfold transferFault at h
  obtain ⟨hlist, h⟩ := (Option.orElse_eq_none _ _).mp h
  obtain ⟨hdelete, h⟩ := (Option.orElse_eq_none _ _).mp h
  refine ⟨hlist, hdelete, ?_⟩
  split at h
  · cases h
  next hthreads =>
    split at h
    · cases h
    next hchunk => exact ⟨hthreads, UInt64.not_lt.mp hchunk⟩

theorem size_of_outputFault {output : OutputSettings} (h : outputFault output = none) :
    output.separator.utf8ByteSize = 1 := by
  unfold outputFault at h
  split at h
  next hsize => exact hsize
  · cases h

/-- The limits that accepted settings keep. -/
theorem accepted_of_validate {settings : Settings} (h : settings.validate = .ok ()) :
    settings.Accepted := by
  have hnone : (storeFault settings.store <|> transferFault settings.transfer <|>
      outputFault settings.output) = none := by
    unfold validate at h
    split at h
    · cases h
    next hnone => exact hnone
  obtain ⟨hstore, hnone⟩ := (Option.orElse_eq_none _ _).mp hnone
  obtain ⟨htransfer, houtput⟩ := (Option.orElse_eq_none _ _).mp hnone
  obtain ⟨hlist, hdelete, hthreads, hchunk⟩ := bounds_of_transferFault htransfer
  constructor
  case listVersion => exact listVersion_of_storeFault hstore
  case listPage => exact bounds_of_pageFault hlist
  case deletePage => exact bounds_of_pageFault hdelete
  case threads =>
    intro hzero
    exact hthreads (UInt64.toNat_inj.mp hzero)
  case chunk => exact UInt64.le_iff_toNat_le.mp hchunk
  case separator => exact size_of_outputFault houtput

/-! ## Where the settings are used -/

/-- Nothing that uses some settings refuses them. -/
structure Usable (settings : Settings) : Prop where
  /-- Deletions take the size of their pages. -/
  deletes : ∃ batcher, Batcher.new settings.transfer.deletePageSize.toNat = .ok batcher
  /-- The list version names a level of the interface, and the probe of a client speaks it. -/
  probes : ∃ level, ApiLevel.ofListVersion settings.store.listVersion.toNat = .ok level ∧
    ∀ {σ : Type} (link : Link σ) (around : Surroundings) (tree : FileTree), ∃ probe,
      (Client.connect link around tree settings).probe settings.store.pathStyle = .ok probe ∧
        probe.level = level
  /-- A listing of objects asks for its pages by one of the two versions. -/
  lists : ∀ {σ : Type} (link : Link σ) (around : Surroundings) (tree : FileTree)
    (listing : ObjectListing), let client := Client.connect link around tree settings
    listing.source client = listing.sourceV1 client ∨
      listing.source client = listing.sourceV2 client
  /-- The pages of a listing have the size that is set, which a store takes. -/
  pages : 1 ≤ settings.transfer.listPageSize.toNat ∧
    settings.transfer.listPageSize.toNat ≤ maxPageSize ∧
    ∀ {σ : Type} (link : Link σ) (around : Surroundings) (tree : FileTree),
      (Client.connect link around tree settings).pageSize = settings.transfer.listPageSize.toNat
  /-- The separator is one byte, and it is read as this byte. -/
  separates : ∃ byte, settings.output.separator.toUTF8.toList = [byte] ∧
    parseSeparator settings.output.separator = .ok byte
  /-- A run with the number of uploads that is set is not refused for a wrong use. -/
  uploads : ∀ {σ : Type} (start : UploadFile → StateM σ Transfer) (options : PoolOptions)
    (interrupt : Option Nat) (plan : List UploadFile) (state : σ) (text : String),
    options.threads = settings.transfer.uploadThreads.toNat →
      ((runUploads start options interrupt plan).run state).1.result ≠ .error (.usage text)
  /-- The parts of a file are not empty, and end where it does. -/
  cuts : ∀ {σ : Type} (link : Link σ) (around : Surroundings) (tree : FileTree),
    let chunk := (Client.connect link around tree settings).multipart.chunk
    0 < chunk ∧ ∀ size, IsCut chunk 0 size (partSpans chunk size)

/-- A page size that a store takes is the same number with a sign. -/
theorem signed32_of_le {size : Nat} (h : size ≤ maxPageSize) : Client.signed32 size = size := by
  have hsmall : size ≤ 1000 := h
  have hpow : Nat.pow 2 32 = 4294967296 := rfl
  apply Int.bmod_eq_of_le
  · rw [hpow]
    omega
  · rw [hpow]
    omega

section Use

variable {settings : Settings}

theorem Accepted.probes (h : settings.Accepted) : ∃ level,
    ApiLevel.ofListVersion settings.store.listVersion.toNat = .ok level ∧
      ∀ {σ : Type} (link : Link σ) (around : Surroundings) (tree : FileTree), ∃ probe,
        (Client.connect link around tree settings).probe settings.store.pathStyle = .ok probe ∧
          probe.level = level := by
  have hlevel : ∃ level, ApiLevel.ofListVersion settings.store.listVersion.toNat = .ok level := by
    rcases h.listVersion with hone | htwo
    · exact ⟨.v1, by rw [hone]; rfl⟩
    · exact ⟨.v2, by rw [htwo]; rfl⟩
  obtain ⟨level, hlevel⟩ := hlevel
  refine ⟨level, hlevel, ?_⟩
  intro σ link around tree
  unfold Client.probe
  rw [show (Client.connect link around tree settings).listVersion =
    settings.store.listVersion.toNat from rfl, hlevel]
  exact ⟨_, rfl, rfl⟩

theorem Accepted.chunk_pos (h : settings.Accepted) :
    0 < (MultipartSettings.ofSettings settings.transfer).chunk := by
  have hmin : 5 ≤ settings.transfer.multipartChunk.toNat := h.chunk
  apply Nat.mul_pos
  · omega
  · decide

end Use

/-- Settings that are accepted can be used: nothing that takes its limits from them refuses them,
and the parts of a file that is cut by them come to an end. -/
theorem usable_of_validate (settings : Settings) (h : settings.validate = .ok ()) :
    settings.Usable := by
  have haccepted := accepted_of_validate h
  constructor
  case deletes => exact ⟨_, Batcher.new_eq_ok haccepted.deletePage.1 haccepted.deletePage.2⟩
  case probes => exact haccepted.probes
  case lists =>
    intro σ link around tree listing client
    rcases haccepted.listVersion with hone | htwo
    · exact .inl (ObjectListing.source_eq_sourceV1 (congrArg UInt8.toNat hone) listing)
    · exact .inr (ObjectListing.source_eq_sourceV2 (congrArg UInt8.toNat htwo) listing)
  case pages =>
    refine ⟨haccepted.listPage.1, haccepted.listPage.2, ?_⟩
    intro σ link around tree
    simp only [Client.connect]
    exact signed32_of_le haccepted.listPage.2
  case separates => exact parseSeparator_of_size_eq_one haccepted.separator
  case uploads =>
    intro σ start options interrupt plan state text hthreads herror
    have hsome : options.threads ≠ 0 := by
      rw [hthreads]
      exact haccepted.threads
    obtain ⟨_, heq⟩ := runUploads_eq_error hsome herror
    cases heq
  case cuts =>
    intro σ link around tree chunk
    exact ⟨haccepted.chunk_pos, partSpans_isCut haccepted.chunk_pos⟩

/-- Settings whose limits lie at the edges. -/
def edgy : Settings where
  store := { StoreSettings.default with listVersion := 1 }
  transfer := ⟨0, 0, 1000, 1, 1, 0, 0, 5⟩
  logging := .default
  output := ⟨"\x00"⟩

/-- A report with these settings is separated by zero bytes. -/
theorem edgy_usable : edgy.validate = .ok () ∧ edgy.Usable ∧
    parseSeparator edgy.output.separator = .ok 0 := by
  have haccepted : edgy.validate = .ok () := by rfl
  have husable := usable_of_validate edgy haccepted
  obtain ⟨byte, hbyte, hparse⟩ := husable.separates
  refine ⟨haccepted, husable, ?_⟩
  have hzero : edgy.output.separator.toUTF8.toList = [0] := by decide +kernel
  obtain rfl : byte = 0 := List.singleton_inj.mp (hbyte.symm.trans hzero)
  exact hparse

end Settings

end BucketCare
