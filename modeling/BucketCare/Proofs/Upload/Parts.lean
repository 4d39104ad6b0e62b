import BucketCare.Proofs.Command.Leading
import BucketCare.Proofs.Store.Talks
import BucketCare.Upload.Transfer

/-!
# Uploads in parts that fail

An upload in parts begins with a request that the store answers with an identifier. Whatever fails
behind that request and before the one that completes the upload, be it that the file cannot be
opened or read or that a part is refused, the upload is aborted. A refusal to complete it is the one
failure behind which nothing is aborted.

## Main definitions

* `Client.recorded` — a client with a list of the requests it has sent
* `ArePartsOf` — requests that send the parts of an upload
* `FailedUpload` — the requests of an upload that failed behind its first request

## Main results

* `Client.sendParts_leads` — opening and sending a file sends parts and nothing else
* `Client.uploadInParts_leads` — how an upload in parts fails
* `Client.upload_failed_aborts` — a failed upload was aborted, unless it could not be completed
-/

namespace BucketCare

variable {σ α β : Type}

/-! ## What a talk comes to -/

section Talk

variable {pre : σ → Prop} {post : Except Error α → σ → Prop} {goal : Except Error β → σ → Prop}
variable {link : Link σ}

/-- An exchange goes on when it did not fail. -/
theorem Exchange.leads_bind {exchange : Exchange σ α} {next : α → Exchange σ β}
    (h : LeadsTo pre exchange.run post)
    (hnext : ∀ a, LeadsTo (post (.ok a)) (next a).run goal)
    (herror : ∀ error state, post (.error error) state → goal (.error error) state) :
    LeadsTo pre (exchange >>= next).run goal := by
  rw [ExceptT.run_bind]
  refine h.bind ?_
  intro answer
  cases answer with
  | ok a => exact hnext a
  | error error => exact .pure (herror error)

/-- A talk goes on when it did not fail. -/
theorem Talk.leads_bind {talk : Talk α} {next : α → Talk β}
    (h : LeadsTo pre (talk.run link).run post)
    (hnext : ∀ a, LeadsTo (post (.ok a)) ((next a).run link).run goal)
    (herror : ∀ error state, post (.error error) state → goal (.error error) state) :
    LeadsTo pre ((talk >>= next).run link).run goal := by
  rw [Talk.run_bind]
  exact Exchange.leads_bind h hnext herror

variable (post) in
/-- What the file system has answered sends no request. -/
theorem Talk.ofIo_leads (answer : Except IoError α)
    (h : ∀ state, pre state → post (answer.mapError .io) state) :
    LeadsTo pre ((Talk.ofIo answer).run link).run post := .pure h

/-- A talk whose outcome is looked at does not fail. -/
theorem Talk.outcome_leads {talk : Talk α} (h : LeadsTo pre (talk.run link).run post) :
    LeadsTo pre (talk.outcome.run link).run fun outcome state =>
      ∃ answer, outcome = .ok answer ∧ post answer state := by
  rw [Talk.run_outcome]
  exact h.bind fun answer => .pure fun _ hpost => ⟨answer, rfl, hpost⟩

end Talk

/-- A client with a list of the requests it has sent. -/
def Client.recorded (client : Client σ) : Client (List Request × σ) :=
  { client with link := client.link.recorded }

/-- The requests that were sent are these. -/
def HasSent (requests : List Request) (state : List Request × σ) : Prop := state.1 = requests

/-- A link fails a request in some state, with a fault that the error stands for. -/
def Link.Fails (link : Link σ) (request : Request) (error : Error) : Prop :=
  ∃ state fault, ((link.send request).run state).1 = .error fault ∧ error = fault.toError

/-- All of some requests send parts of an upload. -/
def ArePartsOf (bucket key uploadId : String) (requests : List Request) : Prop :=
  ∀ request ∈ requests, ∃ number body, request = .uploadPart bucket key uploadId number body

section

variable {bucket key uploadId : String} {parts : List Request}

theorem ArePartsOf.abort_notMem (h : ArePartsOf bucket key uploadId parts) :
    Request.abortUpload bucket key uploadId ∉ parts := by
  intro hmem
  obtain ⟨number, body, hpart⟩ := h _ hmem
  cases hpart

theorem ArePartsOf.complete_notMem (h : ArePartsOf bucket key uploadId parts)
    {tags : List (Int32 × Option String)} :
    Request.completeUpload bucket key uploadId tags ∉ parts := by
  intro hmem
  obtain ⟨number, body, hpart⟩ := h _ hmem
  cases hpart

end

/-- The requests of a failed upload behind the one that began it: a failure to send the parts is
followed by a request to abort, and a failure to complete the upload by nothing. -/
inductive FailedUpload (link : Link σ) (bucket key uploadId : String) (error : Error) :
    List Request → Prop
  /-- A part could not be read or sent. -/
  | aborted {parts : List Request} (hparts : ArePartsOf bucket key uploadId parts) :
      FailedUpload link bucket key uploadId error (parts ++ [.abortUpload bucket key uploadId])
  /-- All parts were sent, and the store did not complete the upload. -/
  | incomplete {parts : List Request} {tags : List (Int32 × Option String)}
      (hparts : ArePartsOf bucket key uploadId parts)
      (hfails : link.Fails (.completeUpload bucket key uploadId tags) error) :
      FailedUpload link bucket key uploadId error
        (parts ++ [.completeUpload bucket key uploadId tags])

/-- An exchange that fails leaves the requests of a failed upload behind those sent before. -/
def FailsUpload (link : Link σ) (bucket key uploadId : String) (sent : List Request)
    (answer : Except Error α) (state : List Request × σ) : Prop :=
  ∀ error, answer = .error error → ∃ behind, HasSent (sent ++ behind) state ∧
    FailedUpload link bucket key uploadId error behind

namespace Client

variable (client : Client σ) (bucket key contentType uploadId : String) (file : LocalFile)

/-- A request is sent, and fails as the link does. -/
theorem request_leads (request : Request) (sent : List Request) :
    LeadsTo (HasSent sent) ((Talk.request request).run client.recorded.link).run
      fun answer state =>
        HasSent (sent ++ [request]) state ∧
          ∀ error, answer = .error error → client.link.Fails request error := by
  rintro ⟨_, state⟩ rfl
  rw [Talk.run_request, request_run]
  refine ⟨rfl, ?_⟩
  intro error herror
  change ((client.link.send request).run state).1.mapError Fault.toError = _ at herror
  cases hreply : ((client.link.send request).run state).1 with
  | ok reply =>
    rw [hreply] at herror
    cases herror
  | error fault =>
    rw [hreply] at herror
    exact ⟨state, fault, hreply, (Except.error.inj herror).symm⟩

/-- What was sent behind some requests are parts of an upload. -/
def PartsSent (sent : List Request) (state : List Request × σ) : Prop :=
  ∃ parts, HasSent (sent ++ parts) state ∧ ArePartsOf bucket key uploadId parts

theorem PartsSent.of_hasSent {sent : List Request} {state : List Request × σ}
    (h : HasSent sent state) : PartsSent bucket key uploadId sent state :=
  ⟨[], by rwa [List.append_nil], nofun⟩

/-- A part that is sent before others is one of them. -/
theorem PartsSent.part {sent : List Request} {state : List Request × σ} {number : Int32}
    {body : ByteArray} (h : PartsSent bucket key uploadId
      (sent ++ [.uploadPart bucket key uploadId number body]) state) :
    PartsSent bucket key uploadId sent state := by
  obtain ⟨parts, hsent, hparts⟩ := h
  refine ⟨.uploadPart bucket key uploadId number body :: parts, ?_, ?_⟩
  · rwa [List.append_assoc] at hsent
  · exact List.forall_mem_cons.mpr ⟨⟨number, body, rfl⟩, hparts⟩

theorem uploadParts_leads (number : Int32) (spans : List (Nat × Nat)) (sent : List Request) :
    LeadsTo (HasSent sent)
      ((Talk.uploadParts bucket key uploadId file number spans).run client.recorded.link).run
      fun _ => PartsSent bucket key uploadId sent := by
  induction spans generalizing number sent with
  | nil => exact .pure fun _ => .of_hasSent bucket key uploadId
  | cons span spans ih =>
    obtain ⟨start, length⟩ := span
    -- A piece that cannot be read ends the parts without a request.
    refine Talk.leads_bind (Talk.ofIo_leads (fun _ => HasSent sent) _ fun _ => id) ?_
      fun _ _ => .of_hasSent bucket key uploadId
    intro body
    refine Talk.leads_bind (client.request_leads _ sent) ?_ ?_
    · intro tag
      refine Talk.leads_bind ((ih (number + 1) _).weaken fun _ => And.left) ?_ ?_
      · exact fun _ => .pure fun _ => .part bucket key uploadId
      · exact fun _ _ => .part bucket key uploadId
    · rintro _ _ ⟨hsent, -⟩
      exact .part bucket key uploadId (.of_hasSent bucket key uploadId hsent)

/-- Opening a file and sending it sends parts and nothing else. -/
theorem sendParts_leads (chunk size : Nat) (sent : List Request) :
    LeadsTo (HasSent sent)
      ((Talk.sendParts chunk bucket key uploadId file size).run client.recorded.link).run
      fun _ => PartsSent bucket key uploadId sent := by
  refine Talk.leads_bind (Talk.ofIo_leads (fun _ => HasSent sent) _ fun _ => id) ?_
    fun _ _ => .of_hasSent bucket key uploadId
  exact fun _ => client.uploadParts_leads bucket key uploadId file 1 _ sent

/-- An upload whose parts could not be sent is aborted. -/
theorem closeUpload_leads_of_error (error : Error) (sent : List Request) :
    LeadsTo (HasSent sent)
      ((Talk.closeUpload bucket key uploadId (.error error)).run client.recorded.link).run
      fun _ => HasSent (sent ++ [.abortUpload bucket key uploadId]) := by
  -- The outcome of the request to abort is dropped, so only that it was sent is left of it.
  have habort := Talk.outcome_leads (client.request_leads (.abortUpload bucket key uploadId) sent)
  refine Talk.leads_bind habort ?_ ?_
  · rintro _
    apply LeadsTo.pure
    rintro state ⟨_, -, hsent, -⟩
    exact hsent
  · rintro _ state ⟨_, -, hsent, -⟩
    exact hsent

/-- How an upload is closed, if closing it fails. -/
theorem closeUpload_leads (answer : Except Error (List (Int32 × Option String)))
    (sent : List Request) :
    LeadsTo (PartsSent bucket key uploadId sent)
      ((Talk.closeUpload bucket key uploadId answer).run client.recorded.link).run
      (FailsUpload client.link bucket key uploadId sent) := by
  rintro state ⟨parts, hsent, hparts⟩
  cases answer with
  | error failure =>
    have habort := client.closeUpload_leads_of_error bucket key uploadId failure _ state hsent
    rw [List.append_assoc] at habort
    exact fun error _ => ⟨_, habort, .aborted hparts⟩
  | ok tags =>
    obtain ⟨hcomplete, hfails⟩ := client.request_leads
      (.completeUpload bucket key uploadId tags) _ state hsent
    rw [List.append_assoc] at hcomplete
    exact fun error herror => ⟨_, hcomplete, .incomplete hparts (hfails error herror)⟩

/-- How an upload in parts fails behind the request that began it. -/
theorem uploadInParts_leads (chunk size : Nat) {state state' : σ}
    (hcreated : (client.link.send (.createUpload bucket key contentType)).run state =
      (.ok (some uploadId), state')) :
    LeadsTo (· = ([], state))
      ((Talk.uploadInParts chunk bucket key contentType file size).run client.recorded.link).run
      (FailsUpload client.link bucket key uploadId [.createUpload bucket key contentType]) := by
  have hfirst : LeadsTo (· = ([], state))
      ((Talk.request (.createUpload bucket key contentType)).run client.recorded.link).run
        fun answer state =>
          answer = .ok (some uploadId) ∧ HasSent [.createUpload bucket key contentType] state := by
    rintro _ rfl
    rw [Talk.run_request, request_run]
    refine ⟨?_, rfl⟩
    change ((client.link.send _).run state).1.mapError Fault.toError = _
    rw [hcreated]
    rfl
  refine Talk.leads_bind hfirst ?_ (by simp)
  intro answer
  apply LeadsTo.of_forall
  rintro state ⟨hanswer, hsent⟩
  obtain rfl := Except.ok.inj hanswer
  have hparts := (client.sendParts_leads bucket key uploadId file chunk size _).at_state hsent
  refine Talk.leads_bind (Talk.outcome_leads hparts) ?_ ?_
  · intro outcome
    refine (client.closeUpload_leads bucket key uploadId outcome _).weaken ?_
    rintro state ⟨_, ⟨⟩, hparts⟩
    exact hparts
  · rintro error state ⟨_, ⟨⟩, _⟩

theorem upload_leads {size : Nat} (hsize : file.size = .ok size)
    (hbig : client.multipart.required size = true) {state state' : σ}
    (hcreated : (client.link.send (.createUpload bucket key contentType)).run state =
      (.ok (some uploadId), state')) :
    LeadsTo (· = ([], state)) (client.recorded.upload bucket key contentType file).run
      (FailsUpload client.link bucket key uploadId [.createUpload bucket key contentType]) := by
  have hlarge : client.recorded.multipart.required size = true := hbig
  rw [upload, Talk.upload, hsize]
  refine Talk.leads_bind
    (Talk.ofIo_leads (fun answer found => answer = .ok size ∧ found = ([], state)) _
      fun _ hfound => ⟨rfl, hfound⟩) ?_ (by simp)
  intro found
  apply LeadsTo.of_forall
  rintro _ ⟨hfound, rfl⟩
  obtain rfl : size = found := (Except.ok.inj hfound).symm
  rw [if_pos hlarge]
  refine Talk.leads_bind
    (client.uploadInParts_leads bucket key contentType uploadId file _ size hcreated) ?_ ?_
  · exact fun _ => .pure fun _ _ => nofun
  · rintro failure state hfails error herror
    obtain rfl := Except.error.inj herror
    exact hfails failure rfl

end Client

/-- An upload in parts that was given an identifier and failed was aborted, unless it failed because
the store did not complete it. Exactly then no request to abort was sent. -/
theorem Client.upload_failed_aborts (client : Client σ) (bucket key contentType uploadId : String)
    (file : LocalFile) (size : Nat) (state state' : σ) (hsize : file.size = .ok size)
    (hbig : client.multipart.required size = true)
    (hcreated : (client.link.send (.createUpload bucket key contentType)).run state =
      (.ok (some uploadId), state'))
    (error : Error) (sent : List Request) (final : σ)
    (hfailed : (client.recorded.upload bucket key contentType file).run.run ([], state) =
      (.error error, (sent, final))) :
    (.abortUpload bucket key uploadId ∈ sent ↔
      ∀ tags, .completeUpload bucket key uploadId tags ∉ sent) ∧
    ∀ tags, .completeUpload bucket key uploadId tags ∈ sent →
      sent.getLast? = some (.completeUpload bucket key uploadId tags) ∧
        client.link.Fails (.completeUpload bucket key uploadId tags) error := by
  have hleads := client.upload_leads bucket key contentType uploadId file hsize hbig hcreated _ rfl
  rw [hfailed] at hleads
  obtain ⟨behind, rfl, hbehind⟩ := hleads error rfl
  -- The request to abort and the one to complete are each the last of all, and never both are sent.
  cases hbehind with
  | @aborted parts hparts =>
    have hnone : ∀ tags, Request.completeUpload bucket key uploadId tags ∉ parts :=
      fun tags => hparts.complete_notMem
    simp [hnone]
  | @incomplete parts tags hparts hfails =>
    have hlast (other : List (Int32 × Option String)) :
        Request.completeUpload bucket key uploadId other ∈ [.createUpload bucket key contentType] ++
          (parts ++ [.completeUpload bucket key uploadId tags]) ↔ other = tags := by
      simp [hparts.complete_notMem]
    constructor
    · exact iff_of_false (by simp [hparts.abort_notMem]) fun hnone =>
        hnone tags ((hlast tags).mpr rfl)
    · intro other hmem
      obtain rfl := (hlast other).mp hmem
      exact ⟨by rw [← List.append_assoc, List.getLast?_concat], hfails⟩

/-- A store that gives each upload the same identifier and does not answer some requests. -/
def Link.deafTo (ignored : Request → Bool) : Link Unit where
  send request := return if ignored request then .error .timeout else
    match request with
    | .createUpload .. => .ok (some "u1")
    | .uploadPart .. => .ok (some "tag")
    | .completeUpload .. | .abortUpload .. => .ok ()
    | _ => .error .timeout
  clock _ := ⟨0⟩

/-- Settings with which every file is uploaded in parts. -/
def Settings.alwaysInParts : Settings :=
  { Settings.default with transfer := { TransferSettings.default with multipartThreshold := 0 } }

/-- A client with these settings. -/
def Client.inParts (link : Link Unit) : Client Unit :=
  .connect link ⟨"/home/user", []⟩ .empty .alwaysInParts

/-- Neither the part of a file is answered nor the request to abort. -/
theorem Client.upload_failed_aborts_unanswered :
    let client := Client.inParts <| .deafTo fun
      | .uploadPart .. | .abortUpload .. => true
      | _ => false
    Settings.alwaysInParts.validate = .ok () ∧ client.multipart.required 1 = true ∧
      (client.link.send (.createUpload "b" "k" "text/plain")).run () = (.ok (some "u1"), ()) ∧
      ∃ sent final,
        (client.recorded.upload "b" "k" "text/plain" (.ofBytes ⟨#[0]⟩)).run.run ([], ()) =
          (.error .timeout, (sent, final)) ∧ .abortUpload "b" "k" "u1" ∈ sent := by
  intro client
  have hbig : client.multipart.required 1 = true := rfl
  have hcreated : (client.link.send (.createUpload "b" "k" "text/plain")).run () =
      (.ok (some "u1"), ()) := rfl
  refine ⟨rfl, hbig, hcreated, _, (), rfl, ?_⟩
  have haborts := upload_failed_aborts client "b" "k" "text/plain" "u1" (.ofBytes ⟨#[0]⟩) 1 () ()
    rfl hbig hcreated .timeout _ () rfl
  exact haborts.1.mpr (by simp)

/-- When the request to complete an upload is not answered, the upload stays pending. -/
theorem Client.upload_left_pending :
    let client := Client.inParts <| .deafTo fun
      | .completeUpload .. => true
      | _ => false
    Settings.alwaysInParts.validate = .ok () ∧ client.multipart.required 1 = true ∧
      (client.link.send (.createUpload "b" "k" "text/plain")).run () = (.ok (some "u1"), ()) ∧
      ∃ sent final,
        (client.recorded.upload "b" "k" "text/plain" (.ofBytes ⟨#[0]⟩)).run.run ([], ()) =
          (.error .timeout, (sent, final)) ∧ .abortUpload "b" "k" "u1" ∉ sent := by
  intro client
  refine ⟨rfl, rfl, rfl, _, (), rfl, ?_⟩
  simp

end BucketCare
