import BucketCare.Proofs.Command.Replies
import BucketCare.Proofs.Store.Talks
import BucketCare.Proofs.Upload.Spans
import Mathlib.Logic.Function.Basic

/-!
# Uploading to a store that keeps what it is sent

What an upload comes to is known if its requests succeed and the store does what they ask for. Of
the store no more is assumed than that: which requests succeed, and what those that fail have done,
is left open. A request that succeeds changes the store at its own place alone, so an upload finds
there what it has left, whatever other uploads have sent in between. The rules here follow an upload
request by request and look at this one place.

## Main definitions

* `Deposit`, `Stock` — what a store holds at a place, and at all places
* `Link.Stores` — a link to a store that does what it is asked for, and `Link.keeping`, one of them
* `AllGranted` — every request succeeded
* `Talk.Serves` — what a talk comes to at its place if its requests succeed
* `UploadFile.target` — the place of a file's object
* `Delivers` — the upload of a file, unless its object exists

## Main results

* `Talk.upload_serves` — an upload stores the whole file, in one request or in parts
* `Talk.transfer_serves` — a transfer delivers its file
-/

namespace BucketCare

variable {σ α β : Type}

/-! ## Requests and what became of them -/

/-- A fault tells that something does not exist. -/
def Fault.isMissing (fault : Fault) : Bool :=
  match fault.toError with
  | .notFound _ => true
  | _ => false

namespace Request

/-- The request asks whether an object exists. -/
def isLookup : Request → Bool
  | headObject .. => true
  | _ => false

/-- The place of the object that a request is about. -/
def place? : Request → Option StorePath
  | headObject bucket key | putObject bucket key _ _ | createUpload bucket key _ |
    uploadPart bucket key _ _ _ | completeUpload bucket key _ _ | abortUpload bucket key _ =>
    some ⟨bucket, key⟩
  | _ => none

/-- The place that a request begins an upload to. -/
def begins? : Request → Option StorePath
  | putObject bucket key _ _ | createUpload bucket key _ => some ⟨bucket, key⟩
  | _ => none

theorem place?_of_begins? {request : Request} {path : StorePath} (h : request.begins? = some path) :
    request.place? = some path := by
  cases request <;> first | exact h | cases h

end Request

/-- A request succeeded. To be told that there is no such object is an answer to the question
whether it exists. -/
def granted : Request × Option Fault → Bool
  | (_, none) => true
  | (request, some fault) => request.isLookup && fault.isMissing

/-- The places that uploads were begun to, in order. -/
def uploadsBegun (log : RequestLog) : List StorePath := log.filterMap (·.1.begins?)

/-- Every request succeeded. -/
def AllGranted (log : RequestLog) : Prop := ∀ entry ∈ log, granted entry

/-- Every request asks whether an object exists. -/
def AllLookups (log : RequestLog) : Prop := ∀ entry ∈ log, entry.1.isLookup

instance (log : RequestLog) : Decidable (AllGranted log) :=
  inferInstanceAs (Decidable (∀ entry ∈ log, granted entry))

instance (log : RequestLog) : Decidable (AllLookups log) :=
  inferInstanceAs (Decidable (∀ entry ∈ log, entry.1.isLookup))

section Log

variable {log more : RequestLog}

@[simp] theorem allGranted_nil : AllGranted [] := List.forall_mem_nil _

@[simp] theorem allLookups_nil : AllLookups [] := List.forall_mem_nil _

theorem allGranted_append : AllGranted (log ++ more) ↔ AllGranted log ∧ AllGranted more :=
  List.forall_mem_append

theorem allLookups_append : AllLookups (log ++ more) ↔ AllLookups log ∧ AllLookups more :=
  List.forall_mem_append

@[simp] theorem uploadsBegun_append :
    uploadsBegun (log ++ more) = uploadsBegun log ++ uploadsBegun more := List.filterMap_append

/-- To ask whether objects exist begins no upload. -/
theorem AllLookups.uploadsBegun_eq_nil (h : AllLookups log) : uploadsBegun log = [] := by
  apply List.filterMap_eq_nil_iff.mpr
  rintro ⟨request, fault⟩ hmem
  have hlookup := h _ hmem
  cases request with
  | headObject => rfl
  | _ => cases hlookup

@[simp] theorem allGranted_singleton {entry : Request × Option Fault} :
    AllGranted [entry] ↔ granted entry := List.forall_mem_singleton

@[simp] theorem allLookups_singleton {entry : Request × Option Fault} :
    AllLookups [entry] ↔ entry.1.isLookup := List.forall_mem_singleton

end Log

/-! ## Stores -/

/-- A part of an upload that a store holds. -/
structure StoredPart where
  number : Int32
  tag : Option String
  body : ByteArray

namespace StoredPart

/-- What the request that completes an upload must name. -/
def tags (parts : List StoredPart) : List (Int32 × Option String) :=
  parts.map fun part => (part.number, part.tag)

/-- The parts put together. -/
def joined (parts : List StoredPart) : ByteArray := (parts.map body).foldr (· ++ ·) .empty

end StoredPart

/-- What a store holds at one place. -/
structure Deposit where
  object : Option ByteArray
  /-- The parts of the pending uploads to the place, by their identifiers. -/
  pending : String → Option (List StoredPart)

/-- What a store holds, by its places. -/
abbrev Stock := StorePath → Deposit

/-- The objects of a store, by their places. -/
abbrev Objects := StorePath → Option ByteArray

/-- The objects of a store. -/
def Stock.objects (stock : Stock) : Objects := fun path => (stock path).object

/-- A link leads to a store that does what a request asks for, if the request succeeds. An object
that the store does not find does not exist, and what the store holds at other places than that of
the request does not change. -/
structure Link.Stores (link : Link σ) (stock : σ → Stock) : Prop where
  found : ∀ bucket key state state',
    (link.send (.headObject bucket key)).run state = (.ok (), state') →
      (stock state ⟨bucket, key⟩).object.isSome ∧
        stock state' ⟨bucket, key⟩ = stock state ⟨bucket, key⟩
  missing : ∀ bucket key fault state state',
    (link.send (.headObject bucket key)).run state = (.error fault, state') → fault.isMissing →
      (stock state ⟨bucket, key⟩).object = none ∧
        stock state' ⟨bucket, key⟩ = stock state ⟨bucket, key⟩
  put : ∀ bucket key contentType body state state',
    (link.send (.putObject bucket key contentType body)).run state = (.ok (), state') →
      (stock state' ⟨bucket, key⟩).object = some body
  create : ∀ bucket key contentType reply state state',
    (link.send (.createUpload bucket key contentType)).run state = (.ok reply, state') →
      (stock state' ⟨bucket, key⟩).object = (stock state ⟨bucket, key⟩).object ∧
        ∃ uploadId, reply = some uploadId ∧
          (stock state' ⟨bucket, key⟩).pending uploadId = some []
  part : ∀ bucket key uploadId number body tag parts state state',
    (link.send (.uploadPart bucket key uploadId number body)).run state = (.ok tag, state') →
    (stock state ⟨bucket, key⟩).pending uploadId = some parts →
      (stock state' ⟨bucket, key⟩).object = (stock state ⟨bucket, key⟩).object ∧
        (stock state' ⟨bucket, key⟩).pending uploadId = some (parts ++ [⟨number, tag, body⟩])
  complete : ∀ bucket key uploadId parts state state',
    (link.send (.completeUpload bucket key uploadId (StoredPart.tags parts))).run state =
      (.ok (), state') →
    (stock state ⟨bucket, key⟩).pending uploadId = some parts →
      (stock state' ⟨bucket, key⟩).object = some (StoredPart.joined parts)
  elsewhere : ∀ (request : Request) path reply state state', request.place? = some path →
    (link.send request).run state = (reply, state') → granted (request, Fault.of? reply) →
      ∀ other, other ≠ path → stock state' other = stock state other

/-- What a store holds when something else lies at a place. -/
def Stock.put (stock : Stock) (path : StorePath) (deposit : Deposit) : Stock :=
  Function.update stock path deposit

@[simp] theorem Stock.put_apply_self (stock : Stock) (path : StorePath) (deposit : Deposit) :
    stock.put path deposit path = deposit := Function.update_self ..

theorem Stock.put_apply_of_ne (stock : Stock) {path other : StorePath} (deposit : Deposit)
    (h : other ≠ path) : stock.put path deposit other = stock other := Function.update_of_ne h _ _

/-- The place with other parts of a pending upload. -/
def Deposit.set (deposit : Deposit) (uploadId : String) (parts : Option (List StoredPart)) :
    Deposit :=
  { deposit with pending := Function.update deposit.pending uploadId parts }

@[simp] theorem Deposit.set_object (deposit : Deposit) (uploadId : String)
    (parts : Option (List StoredPart)) : (deposit.set uploadId parts).object = deposit.object := rfl

@[simp] theorem Deposit.set_pending_self (deposit : Deposit) (uploadId : String)
    (parts : Option (List StoredPart)) : (deposit.set uploadId parts).pending uploadId = parts :=
  Function.update_self ..

/-- A store that does what it is asked for, and gives each upload the same identifier. -/
def Link.keeping : Link Stock where
  send request := fun stock =>
    match request with
    | .headObject bucket key =>
      if (stock ⟨bucket, key⟩).object.isSome then (.ok (), stock)
      else (.error (.answered 404 none none none "no such object"), stock)
    | .putObject bucket key _ body =>
      (.ok (), stock.put ⟨bucket, key⟩ { stock ⟨bucket, key⟩ with object := some body })
    | .createUpload bucket key _ =>
      (.ok (some "u1"), stock.put ⟨bucket, key⟩ ((stock ⟨bucket, key⟩).set "u1" (some [])))
    | .uploadPart bucket key uploadId number body =>
      let parts := ((stock ⟨bucket, key⟩).pending uploadId).map (· ++ [⟨number, some "tag", body⟩])
      (.ok (some "tag"), stock.put ⟨bucket, key⟩ ((stock ⟨bucket, key⟩).set uploadId parts))
    | .completeUpload bucket key uploadId _ =>
      let object := ((stock ⟨bucket, key⟩).pending uploadId).map StoredPart.joined
      (.ok (), stock.put ⟨bucket, key⟩ { stock ⟨bucket, key⟩ with object })
    | _ => (.error .timeout, stock)
  clock _ := ⟨0⟩

theorem Link.keeping_head (bucket key : String) (stock : Stock) :
    (keeping.send (.headObject bucket key)).run stock =
      if (stock ⟨bucket, key⟩).object.isSome then (.ok (), stock)
      else (.error (.answered 404 none none none "no such object"), stock) := rfl

theorem Link.keeping_stores : keeping.Stores fun stock => stock where
  found bucket key stock stock' h := by
    rw [keeping_head] at h
    split at h
    next hexists =>
      cases h
      exact ⟨hexists, rfl⟩
    next => cases h
  missing bucket key fault stock stock' h _ := by
    rw [keeping_head] at h
    split at h
    next => cases h
    next hexists =>
      cases h
      exact ⟨by simpa using hexists, rfl⟩
  put bucket key contentType body stock stock' h := by
    cases h
    simp
  create bucket key contentType reply stock stock' h := by
    cases h
    simp
  part bucket key uploadId number body tag parts stock stock' h hpending := by
    cases h
    simp [hpending]
  complete bucket key uploadId parts stock stock' h hpending := by
    cases h
    simp [hpending]
  elsewhere request path reply stock stock' hplace h _ other hne := by
    cases request with
    | headObject bucket key =>
      rw [keeping_head] at h
      split at h <;> cases h <;> rfl
    | putObject | createUpload | uploadPart | completeUpload =>
      cases hplace
      cases h
      exact stock.put_apply_of_ne _ hne
    | _ =>
      cases h
      rfl

/-! ## Talks at one place -/

/-- What a talk comes to whose requests are about one place and all succeed: it does not fail, and
its requests, its answer and what the store holds at the place then have a property. Between two
requests the store may change, but not at the place. -/
def Talk.Serves (link : Link σ) (stock : σ → Stock) (path : StorePath) :
    Talk α → (RequestLog → α → Deposit → Prop) → Deposit → Prop
  | .done (.ok a), post, deposit => post [] a deposit
  | .done (.error _), _, _ => False
  | .ask request next, post, deposit =>
    request.place? = some path ∧ ∀ state state' reply, stock state path = deposit →
      (link.send request).run state = (reply, state') → granted (request, Fault.of? reply) →
        (next reply).Serves link stock path
          (fun more => post ((request, Fault.of? reply) :: more)) (stock state' path)

namespace Talk

section Rules

variable {link : Link σ} {stock : σ → Stock} {path : StorePath} {deposit : Deposit}
variable {post : RequestLog → α → Deposit → Prop} {goal : RequestLog → β → Deposit → Prop}

theorem serves_pure {a : α} (h : post [] a deposit) :
    (pure a : Talk α).Serves link stock path post deposit := h

theorem Serves.mono {talk : Talk α} {other : RequestLog → α → Deposit → Prop}
    (h : talk.Serves link stock path post deposit)
    (himp : ∀ more a deposit, post more a deposit → other more a deposit) :
    talk.Serves link stock path other deposit := by
  induction talk generalizing post other deposit with
  | done result =>
    cases result with
    | ok a => exact himp _ _ _ h
    | error error => exact h
  | ask request next ih =>
    obtain ⟨hplace, hnext⟩ := h
    refine ⟨hplace, fun state state' reply hstate hsend hgranted => ?_⟩
    exact ih reply (hnext state state' reply hstate hsend hgranted) fun _ _ _ => himp _ _ _

/-- One talk and then another. -/
theorem Serves.bind {talk : Talk α} {next : α → Talk β}
    (h : talk.Serves link stock path (fun sent a deposit =>
      (next a).Serves link stock path (fun more => goal (sent ++ more)) deposit) deposit) :
    (talk >>= next).Serves link stock path goal deposit := by
  induction talk generalizing goal deposit with
  | done result =>
    cases result with
    | ok a => exact h
    | error error => exact h
  | ask request reply ih =>
    obtain ⟨hplace, hnext⟩ := h
    refine ⟨hplace, fun state state' answer hstate hsend hgranted => ?_⟩
    exact ih answer (hnext state state' answer hstate hsend hgranted)

/-- The outcome of a talk whose requests succeed is not a failure. -/
theorem Serves.outcome {talk : Talk α} {post : RequestLog → Except Error α → Deposit → Prop}
    (h : talk.Serves link stock path (fun more a => post more (.ok a)) deposit) :
    talk.outcome.Serves link stock path post deposit := by
  induction talk generalizing post deposit with
  | done result =>
    cases result with
    | ok a => exact h
    | error error => exact h.elim
  | ask request next ih =>
    obtain ⟨hplace, hnext⟩ := h
    refine ⟨hplace, fun state state' reply hstate hsend hgranted => ?_⟩
    exact ih reply (hnext state state' reply hstate hsend hgranted)

/-- A request that does not ask for an object is granted only if it succeeds. -/
theorem request_serves (request : Request) (hplace : request.place? = some path)
    (hplain : request.isLookup = false) {post : RequestLog → request.Reply → Deposit → Prop}
    (h : ∀ state state' reply, stock state path = deposit →
      (link.send request).run state = (.ok reply, state') →
        post [(request, none)] reply (stock state' path)) :
    (Talk.request request).Serves link stock path post deposit := by
  refine ⟨hplace, fun state state' answer hstate hsend hgranted => ?_⟩
  cases answer with
  | ok reply => exact h state state' reply hstate hsend
  | error fault => simp [granted, Fault.of?, hplain] at hgranted

end Rules

end Talk

/-! ## The upload of a file -/

/-- The parts that a file was cut into are the file. -/
theorem StoredPart.joined_eq {chunk : Nat} (hchunk : 0 < chunk) {content : ByteArray}
    {parts : List StoredPart} (hparts : parts.map body =
      (partSpans chunk content.size).map fun span => content.extract span.1 (span.1 + span.2)) :
    joined parts = content := by
  rw [joined, hparts, (partSpans_isCut hchunk content.size).joined, Nat.zero_add,
    ByteArray.extract_zero_size]

/-- A place has an object or not, and an upload to it is pending with some parts. -/
def Deposit.HasPending (deposit : Deposit) (object : Option ByteArray) (uploadId : String)
    (parts : List StoredPart) : Prop :=
  deposit.object = object ∧ deposit.pending uploadId = some parts

/-- An upload to a place was begun once among some requests, and its content is there. -/
def HasStored (path : StorePath) (content : ByteArray) (more : RequestLog) (deposit : Deposit) :
    Prop :=
  uploadsBegun more = [path] ∧ deposit.object = some content

/-- The place of a file's object. -/
def UploadFile.target (bucket : String) (file : UploadFile) : StorePath := ⟨bucket, file.key⟩

/-- What a transfer to a place comes to that must not replace an object: the object is there, and
the store was only asked for it, or it is missing and its upload was begun once. The rest are the
requests that were sent, the number of bytes that were written and the object then. -/
inductive Delivers (path : StorePath) (content : ByteArray) (object : Option ByteArray) :
    RequestLog → Nat → Option ByteArray → Prop
  | skipped {more : RequestLog} (hexists : object.isSome) (hlookups : AllLookups more) :
      Delivers path content object more 0 object
  | sent {more : RequestLog} (hmissing : object = none) (hbegun : uploadsBegun more = [path]) :
      Delivers path content object more content.size (some content)

namespace Talk

variable {link : Link σ} {stock : σ → Stock} (bucket key contentType uploadId : String)
variable (object : Option ByteArray) (content : ByteArray) {deposit : Deposit}

/-- What the file system has answered is there at once. -/
theorem ofIo_bind (a : α) (next : α → Talk β) : Talk.ofIo (.ok a) >>= next = next a := rfl

/-- That an object is missing is no failure of the question. -/
theorem objectExists_eq : Talk.objectExists bucket key = .ask (.headObject bucket key) fun
    | .ok _ => .done (.ok true)
    | .error fault =>
      if fault.isMissing then .done (.ok false) else .done (.error fault.toError) := by
  rw [Talk.objectExists]
  change Talk.ask _ _ = Talk.ask _ _
  congr 1
  funext reply
  cases reply with
  | ok _ => rfl
  | error fault =>
    change Talk.bind (Talk.outcome (.done (.error fault.toError))) _ = _
    dsimp only
    unfold Fault.isMissing
    generalize fault.toError = error
    cases error <;> rfl

/-- To ask whether an object exists is answered as the store holds one or not. -/
theorem objectExists_serves (hstores : link.Stores stock) :
    (Talk.objectExists bucket key).Serves link stock ⟨bucket, key⟩ (fun more found after =>
      found = deposit.object.isSome ∧ after = deposit ∧ AllLookups more) deposit := by
  rw [objectExists_eq]
  refine ⟨rfl, fun state state' reply hstate hsend hgranted => ?_⟩
  cases reply with
  | ok _ =>
    obtain ⟨hfound, hsame⟩ := hstores.found _ _ _ _ hsend
    rw [hstate] at hfound hsame
    exact ⟨hfound.symm, hsame, allLookups_singleton.mpr rfl⟩
  | error fault =>
    -- A fault is an answer only if it says that the object is missing.
    have hmissing : fault.isMissing = true := hgranted
    obtain ⟨hnone, hsame⟩ := hstores.missing _ _ _ _ _ hsend hmissing
    rw [hstate] at hnone hsame
    dsimp only
    rw [if_pos hmissing]
    exact ⟨by rw [hnone, Option.isSome_none], hsame, allLookups_singleton.mpr rfl⟩

/-- A part is stored behind those that were sent before it. -/
theorem uploadPart_serves (hstores : link.Stores stock) (number : Int32) (body : ByteArray)
    {parts : List StoredPart} (hpending : deposit.HasPending object uploadId parts) :
    (Talk.request (.uploadPart bucket key uploadId number body)).Serves link stock ⟨bucket, key⟩
      (fun more tag after => uploadsBegun more = [] ∧
        after.HasPending object uploadId (parts ++ [⟨number, tag, body⟩])) deposit := by
  apply request_serves _ rfl rfl
  intro state state' tag hstate hsend
  obtain ⟨hobject, hparts⟩ := hpending
  rw [← hstate] at hobject hparts
  obtain ⟨hsame, hadded⟩ := hstores.part _ _ _ _ _ _ _ _ _ hsend hparts
  exact ⟨rfl, hsame.trans hobject, hadded⟩

/-- The parts of a file are sent one after the other, and what they hold is what was cut. -/
theorem uploadParts_serves (hstores : link.Stores stock) {chunk start left : Nat}
    {spans : List (Nat × Nat)} (hcut : IsCut chunk start left spans)
    (hfits : start + left = content.size) (number : Int32) {parts : List StoredPart}
    (hpending : deposit.HasPending object uploadId parts) :
    (Talk.uploadParts bucket key uploadId (.ofBytes content) number spans).Serves link stock
      ⟨bucket, key⟩ (fun more tags after => uploadsBegun more = [] ∧ ∃ sent,
        tags = StoredPart.tags sent ∧
        sent.map StoredPart.body =
          spans.map (fun span => content.extract span.1 (span.1 + span.2)) ∧
        after.HasPending object uploadId (parts ++ sent)) deposit := by
  induction hcut generalizing number parts deposit with
  | nil => exact ⟨rfl, [], rfl, rfl, by rwa [List.append_nil]⟩
  | @cons start left length spans hpos hle _ _ _ ih =>
    have hpiece : (LocalFile.ofBytes content).read start length =
        .ok (content.extract start (start + length)) := if_pos (by omega)
    -- The store has the piece behind `parts` when the others are sent.
    rw [uploadParts, hpiece, ofIo_bind]
    refine ((uploadPart_serves bucket key uploadId object hstores number _ hpending).mono ?_).bind
    rintro first tag after ⟨hfirst, hpending'⟩
    refine ((ih (by omega) (number + 1) hpending').mono ?_).bind
    rintro behind tags last ⟨hbehind, sent, rfl, hsent, hlast⟩
    refine ⟨by simp [hfirst, hbehind],
      ⟨number, tag, content.extract start (start + length)⟩ :: sent, rfl, ?_, ?_⟩
    · rw [List.map_cons, List.map_cons, hsent]
    · rwa [List.append_assoc] at hlast

/-- An upload in parts stores the whole file. -/
theorem uploadInParts_serves (hstores : link.Stores stock) {chunk : Nat} (hchunk : 0 < chunk) :
    (Talk.uploadInParts chunk bucket key contentType (.ofBytes content) content.size).Serves link
      stock ⟨bucket, key⟩ (fun more _ => HasStored ⟨bucket, key⟩ content more) deposit := by
  have hbegin : (Talk.request (.createUpload bucket key contentType)).Serves link stock
      ⟨bucket, key⟩ (fun more reply after => uploadsBegun more = [⟨bucket, key⟩] ∧
        ∃ uploadId, reply = some uploadId ∧ after.HasPending deposit.object uploadId [])
      deposit := by
    apply request_serves _ rfl rfl
    intro state state' reply hstate hsend
    obtain ⟨hsame, uploadId, hreply, hpending⟩ := hstores.create _ _ _ _ _ _ hsend
    exact ⟨rfl, uploadId, hreply, hsame.trans (congrArg _ hstate), hpending⟩
  refine (hbegin.mono ?_).bind
  rintro first _ begun ⟨hfirst, uploadId, rfl, hpending⟩
  -- The parts are sent behind the identifier, and what they hold completes the upload.
  have hparts := uploadParts_serves bucket key uploadId deposit.object content hstores
    (partSpans_isCut hchunk content.size) (Nat.zero_add _) 1 hpending
  refine (Serves.outcome (hparts.mono ?_)).bind
  rintro behind tags after ⟨hbehind, parts, rfl, hcontent, -, hparts⟩
  apply request_serves _ rfl rfl
  intro state state' _ hstate hsend
  constructor
  · rw [uploadsBegun_append, uploadsBegun_append, hfirst, hbehind]
    rfl
  · rw [← hstate] at hparts
    rw [hstores.complete _ _ _ _ _ _ hsend hparts, StoredPart.joined_eq hchunk hcontent]

/-- A small file is stored by one request. -/
theorem putObject_serves (hstores : link.Stores stock) :
    (Talk.request (.putObject bucket key contentType content)).Serves link stock ⟨bucket, key⟩
      (fun more _ => HasStored ⟨bucket, key⟩ content more) deposit := by
  apply request_serves _ rfl rfl
  intro state state' _ hstate hsend
  exact ⟨rfl, hstores.put _ _ _ _ _ _ hsend⟩

/-- An upload stores the whole file, in one request or in parts. -/
theorem upload_serves (hstores : link.Stores stock) {multipart : MultipartSettings}
    (hchunk : 0 < multipart.chunk) :
    (Talk.upload multipart bucket key contentType (.ofBytes content)).Serves link stock
      ⟨bucket, key⟩ (fun more size after =>
        size = content.size ∧ HasStored ⟨bucket, key⟩ content more after) deposit := by
  have hreturn (sent : RequestLog) (after : Deposit)
      (hstored : HasStored ⟨bucket, key⟩ content sent after) :
      (pure content.size : Talk Nat).Serves link stock ⟨bucket, key⟩ (fun more size after =>
        size = content.size ∧ HasStored ⟨bucket, key⟩ content (sent ++ more) after) after :=
    ⟨rfl, by rwa [List.append_nil]⟩
  rw [upload, LocalFile.ofBytes, ofIo_bind]
  split
  · apply Serves.bind
    exact (uploadInParts_serves bucket key contentType content hstores hchunk).mono
      fun sent _ after => hreturn sent after
  · change Talk.Serves _ _ _ (Talk.request (.putObject bucket key contentType content) >>= _) _ _
    apply Serves.bind
    exact (putObject_serves bucket key contentType content hstores).mono
      fun sent _ after => hreturn sent after

/-- A transfer without leave to replace objects delivers its file. -/
theorem transfer_serves (hstores : link.Stores stock) {multipart : MultipartSettings}
    (hchunk : 0 < multipart.chunk) {tree : FileTree} {file : UploadFile}
    (hfile : tree.readBytes file.source = .ok content) :
    (Talk.transfer multipart tree bucket false file).Serves link stock (file.target bucket)
      (fun more bytes after =>
        Delivers (file.target bucket) content deposit.object more bytes after.object) deposit := by
  have hlocal : tree.localFile file.source = .ofBytes content := by
    rw [FileTree.localFile, hfile]
  rw [transfer, if_neg Bool.false_ne_true]
  refine ((objectExists_serves bucket file.key hstores).mono ?_).bind
  rintro asked found after ⟨rfl, rfl, hlookups⟩
  cases hobject : after.object with
  | some old =>
    refine serves_pure ?_
    rw [hobject]
    exact .skipped rfl (allLookups_append.mpr ⟨hlookups, allLookups_nil⟩)
  | none =>
    change Talk.Serves _ _ _ (Talk.upload _ _ _ _ (tree.localFile file.source)) _ _
    rw [hlocal]
    refine (upload_serves bucket file.key _ content hstores hchunk).mono ?_
    rintro more _ last ⟨rfl, hbegun, hsent⟩
    rw [hsent]
    exact .sent rfl (by rw [uploadsBegun_append, hlookups.uploadsBegun_eq_nil, hbegun]; rfl)

end Talk

end BucketCare
