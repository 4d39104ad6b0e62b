import BucketCare.Proofs.Upload.Parts
import BucketCare.Proofs.Upload.Spans
import Mathlib.Data.List.Basic

/-!
# Sending the parts of a file

The parts of a file are sent one after the other. Before each of them its bytes are read, and a part
that cannot be read or is refused is followed by no other. So what was sent are always the first of
the parts, numbered from one on, and none of them but the last was refused. If none at all was
refused and the file did not change, all parts were sent: they are as many as it takes, all but the
last are full, put together they are the file, and the answer holds each number with the tag of its
part.

## Main definitions

* `Link.transcribed` — a link with the requests that it carried and their answers
* `SentPart` — a part that was sent, with its answer
* `SendsParts` — how the parts of a file are sent
* `SentWhole`, `SentUpTo` — all parts of a file were sent, and those up to the first failure

## Main results

* `Client.uploadParts_run` — parts are sent in this way
* `SendsParts.refused_last`, `SendsParts.length_le_of_unread` — what a failure ends
* `Client.sendParts_sends` — a file is opened and its parts are sent
-/

namespace BucketCare

variable {σ α β : Type}

/-! ## Requests with their answers -/

section Talk

variable {link : Link σ} {talk : Talk α} {next : α → Talk β} {state state' : σ}

theorem Talk.run_bind_of_ok {a : α} (h : (talk.run link).run.run state = (.ok a, state')) :
    ((talk >>= next).run link).run.run state = ((next a).run link).run.run state' := by
  rw [Talk.run_bind, ExceptT.run_bind, StateT.run_bind, h]
  rfl

theorem Talk.run_bind_of_error {error : Error}
    (h : (talk.run link).run.run state = (.error error, state')) :
    ((talk >>= next).run link).run.run state = (.error error, state') := by
  rw [Talk.run_bind, ExceptT.run_bind, StateT.run_bind, h]
  rfl

end Talk

/-- The requests that were sent, each with its answer. -/
abbrev Transcript := List ((request : Request) × Except Fault request.Reply)

/-- A link with a transcript of what it carried. -/
def Link.transcribed (link : Link σ) : Link (Transcript × σ) where
  send request := fun (transcript, state) =>
    let (answer, state) := (link.send request).run state
    (answer, (transcript ++ [⟨request, answer⟩], state))
  clock state := link.clock state.2

/-- A client with a transcript of what it has sent. -/
def Client.transcribed (client : Client σ) : Client (Transcript × σ) :=
  { client with link := client.link.transcribed }

theorem Client.request_transcribed {client : Client σ} {request : Request}
    {answer : Except Fault request.Reply} {state state' : σ}
    (h : (client.link.send request).run state = (answer, state')) (transcript : Transcript) :
    ((Talk.request request).run client.transcribed.link).run.run (transcript, state) =
      (answer.mapError Fault.toError, (transcript ++ [⟨request, answer⟩], state')) := by
  obtain ⟨rfl, rfl⟩ := Prod.ext_iff.mp h
  rw [Talk.run_request, request_run]
  rfl

/-- A part that was sent: its number, its bytes, and the tag or the fault that it was answered
with. -/
structure SentPart where
  number : Int32
  body : ByteArray
  answer : Except Fault (Option String)

/-- A part of an upload that was sent, as it stands in a transcript. -/
def SentPart.entry (bucket key uploadId : String) (part : SentPart) :
    (request : Request) × Except Fault request.Reply :=
  ⟨.uploadPart bucket key uploadId part.number part.body, part.answer⟩

/-! ## One part after the other -/

/-- How the parts of a file are sent, the first with some number: what is sent, and what comes of
it. -/
inductive SendsParts (file : LocalFile) : (number : Int32) → (spans : List (Nat × Nat)) →
    List SentPart → Except Error (List (Int32 × Option String)) → Prop
  /-- No part is left. -/
  | done {number : Int32} : SendsParts file number [] [] (.ok [])
  /-- The next part cannot be read. -/
  | unread {number : Int32} {start length : Nat} {spans : List (Nat × Nat)} {error : IoError}
      (hread : file.read start length = .error error) :
      SendsParts file number ((start, length) :: spans) [] (.error (.io error))
  /-- The next part is refused. -/
  | refused {number : Int32} {start length : Nat} {spans : List (Nat × Nat)}
      {body : ByteArray} {fault : Fault} (hread : file.read start length = .ok body) :
      SendsParts file number ((start, length) :: spans) [⟨number, body, .error fault⟩]
        (.error fault.toError)
  /-- The next part is sent, and then the others. -/
  | sent {number : Int32} {start length : Nat} {spans : List (Nat × Nat)} {body : ByteArray}
      {tag : Option String} {more : List SentPart}
      {answer : Except Error (List (Int32 × Option String))}
      (hread : file.read start length = .ok body)
      (hrest : SendsParts file (number + 1) spans more answer) :
      SendsParts file number ((start, length) :: spans) (⟨number, body, .ok tag⟩ :: more)
        (answer.map ((number, tag) :: ·))

/-- Parts are sent in this way. -/
theorem Client.uploadParts_run (client : Client σ) (bucket key uploadId : String)
    (file : LocalFile) (number : Int32) (spans : List (Nat × Nat)) (transcript : Transcript)
    (state : σ) :
    ∃ sent answer after,
      ((Talk.uploadParts bucket key uploadId file number spans).run
        client.transcribed.link).run.run (transcript, state) =
          (answer, (transcript ++ sent.map (SentPart.entry bucket key uploadId), after)) ∧
      SendsParts file number spans sent answer := by
  induction spans generalizing number transcript state with
  | nil => exact ⟨[], .ok [], state, by rw [List.map_nil, List.append_nil]; rfl, .done⟩
  | cons span spans ih =>
    obtain ⟨start, length⟩ := span
    unfold Talk.uploadParts
    cases hread : file.read start length with
    | error error =>
      exact ⟨[], _, state, by rw [List.map_nil, List.append_nil]; rfl, .unread hread⟩
    | ok body =>
      let request := Request.uploadPart bucket key uploadId number body
      have hbody : ((Talk.ofIo (.ok body)).run client.transcribed.link).run.run
          (transcript, state) = (.ok body, (transcript, state)) := rfl
      rw [Talk.run_bind_of_ok hbody]
      cases hsend : (client.link.send request).run state with
      | mk answer state₁ =>
        have hrequest := request_transcribed hsend transcript
        cases answer with
        | error fault =>
          rw [Talk.run_bind_of_error hrequest]
          exact ⟨[⟨number, body, .error fault⟩], _, state₁, rfl, .refused hread⟩
        | ok tag =>
          obtain ⟨more, answer, after, hmore, hsends⟩ :=
            ih (number + 1) (transcript ++ [⟨request, .ok tag⟩]) state₁
          refine ⟨⟨number, body, .ok tag⟩ :: more, _, after, ?_, .sent hread hsends⟩
          rw [List.append_assoc] at hmore
          rw [Talk.run_bind_of_ok hrequest]
          cases answer with
          | error error => rw [Talk.run_bind_of_error hmore]; rfl
          | ok parts => rw [Talk.run_bind_of_ok hmore]; rfl

namespace SendsParts

variable {file : LocalFile} {number : Int32} {spans : List (Nat × Nat)} {sent : List SentPart}
variable {answer : Except Error (List (Int32 × Option String))}

/-- Parts are numbered one by one. -/
theorem numbers (h : SendsParts file number spans sent answer) {first : Nat}
    (hfirst : number = .ofNat first) :
    sent.map SentPart.number = (List.range' first sent.length).map .ofNat := by
  induction h generalizing first with
  | done => rfl
  | unread => rfl
  | refused => simp [hfirst]
  | @sent number _ _ _ _ _ _ _ _ _ ih =>
    have hnext : number + 1 = .ofNat (first + 1) := by rw [hfirst, Int32.ofNat_add]; rfl
    rw [List.map_cons, ih hnext, List.length_cons, List.range'_succ, List.map_cons, hfirst]

/-- The parts that are sent are the first of the file, as they were read. -/
theorem bodies_isPrefix (h : SendsParts file number spans sent answer) :
    (sent.map fun part => .ok part.body) <+: spans.map fun span => file.read span.1 span.2 := by
  induction h with
  | done => exact List.nil_prefix
  | unread => exact List.nil_prefix
  | refused hread =>
    rw [List.map_cons, List.map_cons, hread]
    exact List.cons_prefix_cons.mpr ⟨rfl, List.nil_prefix⟩
  | sent hread _ ih =>
    rw [List.map_cons, List.map_cons, hread]
    exact List.cons_prefix_cons.mpr ⟨rfl, ih⟩

/-- Nothing is sent behind a part that is refused. -/
theorem refused_last {before behind : List SentPart} {part : SentPart} {fault : Fault}
    (h : SendsParts file number spans (before ++ part :: behind) answer)
    (hpart : part.answer = .error fault) : behind = [] ∧ answer = .error fault.toError := by
  induction before generalizing number spans answer with
  | nil =>
    cases h with
    | refused =>
      cases hpart
      exact ⟨rfl, rfl⟩
    | sent => cases hpart
  | cons first before ih =>
    rw [List.cons_append] at h
    generalize hrest : before ++ part :: behind = rest at h
    cases h with
    | refused => simp at hrest
    | sent _ hsends =>
      subst hrest
      obtain ⟨hlast, rfl⟩ := ih hsends
      exact ⟨hlast, rfl⟩

/-- No part is left out, unless the answer is a failure. -/
theorem length_eq_of_ok {parts : List (Int32 × Option String)}
    (h : SendsParts file number spans sent (.ok parts)) : sent.length = spans.length := by
  generalize hanswer : Except.ok parts = answer at h
  induction h generalizing parts with
  | done => rfl
  | unread => cases hanswer
  | refused => cases hanswer
  | @sent _ _ _ _ _ _ _ answer _ _ ih =>
    cases answer with
    | error => cases hanswer
    | ok more => rw [List.length_cons, List.length_cons, ih rfl]

/-- Nothing is sent from a part on that cannot be read. -/
theorem length_le_of_unread (h : SendsParts file number spans sent answer) {i : Nat}
    {span : Nat × Nat} {error : IoError} (hspan : spans[i]? = some span)
    (hread : file.read span.1 span.2 = .error error) : sent.length ≤ i := by
  refine Nat.le_of_not_lt fun hlt => ?_
  obtain ⟨more, hmore⟩ := h.bodies_isPrefix
  have hfails : (spans.map fun span => file.read span.1 span.2)[i]? = some (.error error) := by
    rw [List.getElem?_map, hspan, Option.map_some, hread]
  rw [← hmore, List.getElem?_append_left (by simpa using hlt), List.getElem?_map] at hfails
  obtain ⟨part, -, hpart⟩ := Option.map_eq_some_iff.mp hfails
  cases hpart

/-- If all parts can be read and none is refused, the answer holds each number with its tag. -/
theorem answer_eq (h : SendsParts file number spans sent answer)
    (hread : ∀ span ∈ spans, ∃ body, file.read span.1 span.2 = .ok body)
    (hanswered : ∀ part ∈ sent, ∃ tag, part.answer = .ok tag) :
    ∃ tags, sent.map SentPart.answer = tags.map .ok ∧
      answer = .ok ((sent.map SentPart.number).zip tags) := by
  induction h with
  | done => exact ⟨[], rfl, rfl⟩
  | unread hfails =>
    obtain ⟨body, hbody⟩ := hread _ List.mem_cons_self
    rw [hfails] at hbody
    cases hbody
  | refused =>
    obtain ⟨tag, htag⟩ := hanswered _ List.mem_cons_self
    cases htag
  | @sent number _ _ _ _ tag _ _ _ _ ih =>
    obtain ⟨tags, htags, rfl⟩ := ih (List.forall_mem_cons.mp hread).2
      (List.forall_mem_cons.mp hanswered).2
    exact ⟨tag :: tags, congrArg (_ :: ·) htags, rfl⟩

variable {parts : List (Int32 × Option String)} {piece : Nat × Nat → ByteArray}

/-- If the answer is not a failure, all parts of the file are sent as they were read. -/
theorem bodies_eq (h : SendsParts file number spans sent (.ok parts))
    (hread : ∀ span ∈ spans, file.read span.1 span.2 = .ok (piece span)) :
    sent.map SentPart.body = spans.map piece := by
  have hall := h.bodies_isPrefix.eq_of_length (by simp [h.length_eq_of_ok])
  rw [List.map_congr_left hread] at hall
  have hinjective : Function.Injective (Except.ok : ByteArray → Except IoError ByteArray) :=
    fun _ _ => Except.ok.inj
  apply List.map_injective_iff.mpr hinjective
  rw [List.map_map, List.map_map]
  exact hall

theorem sizes_eq (h : SendsParts file number spans sent (.ok parts))
    (hread : ∀ span ∈ spans, file.read span.1 span.2 = .ok (piece span)) :
    sent.map (·.body.size) = spans.map Prod.snd :=
  calc sent.map (·.body.size)
      = (sent.map SentPart.body).map ByteArray.size := by rw [List.map_map]; rfl
    _ = spans.map fun span => (piece span).size := by rw [h.bodies_eq hread, List.map_map]; rfl
    _ = spans.map Prod.snd := List.map_congr_left fun span hmem =>
        file.size_read _ _ _ (hread span hmem)

end SendsParts

/-! ## Opening a file and sending its parts -/

/-- Parts have the numbers from one on, as numbers of 32 bits with a sign. -/
structure NumberedFromOne (sent : List SentPart) : Prop where
  words : sent.map SentPart.number = (List.range' 1 sent.length).map .ofNat
  /-- Each number tells the place of its part, up to the greatest number there is. -/
  places : sent.length ≤ Int32.maxValue.toInt →
    sent.map (·.number.toInt) = (List.range' 1 sent.length).map Int.ofNat

theorem NumberedFromOne.of_words {sent : List SentPart}
    (h : sent.map SentPart.number = (List.range' 1 sent.length).map .ofNat) :
    NumberedFromOne sent := by
  refine ⟨h, fun hfew => ?_⟩
  have htoInt : ∀ place ∈ List.range' 1 sent.length, (Int32.ofNat place).toInt = place := by
    intro place hplace
    have hle : place ≤ sent.length := by have := List.mem_range'_1.mp hplace; omega
    have hmost : (Int32.maxValue.toInt) = 2147483647 := rfl
    exact Int32.toInt_ofNat_of_lt (by omega)
  calc sent.map (·.number.toInt)
      = (sent.map SentPart.number).map Int32.toInt := by rw [List.map_map]; rfl
    _ = (List.range' 1 sent.length).map fun place => (Int32.ofNat place).toInt := by
        rw [h, List.map_map]; rfl
    _ = (List.range' 1 sent.length).map Int.ofNat := List.map_congr_left htoInt

/-- What was sent are the first parts of a file, numbered from one on, up to the first that could
not be read or was refused. -/
structure SentUpTo (file : LocalFile) (spans : List (Nat × Nat)) (sent : List SentPart)
    (answer : Except Error (List (Int32 × Option String))) : Prop where
  numbers : NumberedFromOne sent
  bodies : (sent.map fun part => .ok part.body) <+: spans.map fun span => file.read span.1 span.2
  unopened : ∀ error, file.opened = .error error → sent = [] ∧ answer = .error (.io error)
  unread : ∀ i span error, spans[i]? = some span → file.read span.1 span.2 = .error error →
    sent.length ≤ i ∧ ∃ error, answer = .error error
  refused : ∀ before part behind fault, sent = before ++ part :: behind →
    part.answer = .error fault → behind = [] ∧ answer = .error fault.toError

/-- What was sent are all parts of some bytes, and the answer holds each number with the tag that
this part was answered with. -/
structure SentWhole (chunk : Nat) (content : ByteArray) (sent : List SentPart)
    (answer : Except Error (List (Int32 × Option String))) : Prop where
  count : sent.length = (content.size + chunk - 1) / chunk
  numbers : NumberedFromOne sent
  full : ∀ part ∈ sent.dropLast, part.body.size = chunk
  bounded : ∀ part ∈ sent, 1 ≤ part.body.size ∧ part.body.size ≤ chunk
  joined : (sent.map SentPart.body).foldr (· ++ ·) .empty = content
  tagged : ∃ tags, sent.map SentPart.answer = tags.map .ok ∧
    answer = .ok ((sent.map SentPart.number).zip tags)

section SendsParts

variable {file : LocalFile} {spans : List (Nat × Nat)} {sent : List SentPart}
variable {answer : Except Error (List (Int32 × Option String))}

theorem SentUpTo.of_unopened {error : IoError} (h : file.opened = .error error) :
    SentUpTo file spans [] (.error (.io error)) where
  numbers := .of_words rfl
  bodies := List.nil_prefix
  unopened failure hfails := by
    rw [h] at hfails
    obtain rfl := Except.error.inj hfails
    exact ⟨rfl, rfl⟩
  unread _ _ _ _ _ := ⟨Nat.zero_le _, _, rfl⟩
  refused before part behind fault hsent := by simp at hsent

theorem SendsParts.sentUpTo (h : SendsParts file 1 spans sent answer)
    (hopened : file.opened = .ok ()) : SentUpTo file spans sent answer where
  numbers := .of_words (h.numbers rfl)
  bodies := h.bodies_isPrefix
  unopened error hfails := by
    rw [hopened] at hfails
    cases hfails
  unread i span error hspan hread := by
    have hlength := h.length_le_of_unread hspan hread
    refine ⟨hlength, ?_⟩
    cases answer with
    | error error => exact ⟨error, rfl⟩
    | ok parts =>
      have hbound := (List.getElem?_eq_some_iff.mp hspan).1
      rw [h.length_eq_of_ok] at hlength
      omega
  refused before part behind fault hsent hpart := by
    subst hsent
    exact h.refused_last hpart

theorem SendsParts.sentWhole {chunk : Nat} {content : ByteArray} (hchunk : 1 ≤ chunk)
    (h : SendsParts (.ofBytes content) 1 (partSpans chunk content.size) sent answer)
    (hanswered : ∀ part ∈ sent, ∃ tag, part.answer = .ok tag) :
    SentWhole chunk content sent answer := by
  have hcut := partSpans_isCut hchunk content.size
  generalize partSpans chunk content.size = spans at h hcut
  have hread := hcut.read_eq
  obtain ⟨tags, htags, rfl⟩ := h.answer_eq (fun span hmem => ⟨_, hread span hmem⟩) hanswered
  have hbodies := h.bodies_eq hread
  have hsizes := h.sizes_eq hread
  constructor
  case count => rw [h.length_eq_of_ok, hcut.length_eq hchunk]
  case numbers => exact .of_words (h.numbers rfl)
  case full =>
    intro part hmem
    have hlength : part.body.size ∈ (sent.dropLast).map (·.body.size) := List.mem_map_of_mem hmem
    rw [List.map_dropLast, hsizes, ← List.map_dropLast] at hlength
    obtain ⟨span, hspan, hlength⟩ := List.mem_map.mp hlength
    rw [← hlength, hcut.full span hspan]
  case bounded =>
    intro part hmem
    have hlength : part.body.size ∈ sent.map (·.body.size) := List.mem_map_of_mem hmem
    rw [hsizes] at hlength
    obtain ⟨span, hspan, hlength⟩ := List.mem_map.mp hlength
    obtain ⟨-, hpos, hfit, -⟩ := hcut.bounded span hspan
    rw [← hlength]
    exact ⟨hpos, hfit⟩
  case joined =>
    rw [hbodies, hcut.joined content, Nat.zero_add]
    exact ByteArray.extract_zero_size
  case tagged => exact ⟨tags, htags, rfl⟩

end SendsParts

/-- The parts of a file are sent in order, up to the first that cannot be read or is refused. If
none is refused and the file holds some bytes that do not change, all of them are sent: the parts
are as many as it takes, all but the last are full, and put together they are these bytes. They are
numbered from one on, in 32 bits with a sign. -/
theorem Client.sendParts_sends (client : Client σ) (bucket key uploadId : String)
    (file : LocalFile) (size : Nat) (state : σ) (hchunk : 1 ≤ client.multipart.chunk) :
    ∃ sent answer after,
      (client.transcribed.sendParts bucket key uploadId file size).run.run ([], state) =
        (answer, (sent.map (SentPart.entry bucket key uploadId), after)) ∧
      SentUpTo file (partSpans client.multipart.chunk size) sent answer ∧
      ∀ content, file = .ofBytes content → size = content.size →
        (∀ part ∈ sent, ∃ tag, part.answer = .ok tag) →
          SentWhole client.multipart.chunk content sent answer := by
  unfold sendParts Talk.sendParts
  cases hopened : file.opened with
  | error error =>
    refine ⟨[], .error (.io error), state, rfl, .of_unopened hopened, ?_⟩
    rintro content rfl
    cases hopened
  | ok _ =>
    obtain ⟨sent, answer, after, hrun, hsends⟩ := client.uploadParts_run bucket key uploadId file 1
      (partSpans client.multipart.chunk size) [] state
    refine ⟨sent, answer, after, hrun, hsends.sentUpTo hopened, ?_⟩
    rintro content rfl rfl hanswered
    exact hsends.sentWhole hchunk hanswered

/-- Five bytes are sent in parts of two: three parts, of which the last has one byte. -/
theorem Client.sendParts_sends_five :
    let client := { Client.inParts (.deafTo fun _ => false) with multipart := ⟨0, 2⟩ }
    let content : ByteArray := ⟨#[1, 2, 3, 4, 5]⟩
    1 ≤ client.multipart.chunk ∧ ∃ sent answer after,
      (client.transcribed.sendParts "b" "k" "u1" (.ofBytes content) 5).run.run ([], ()) =
        (answer, (sent.map (SentPart.entry "b" "k" "u1"), after)) ∧
      sent.length = 3 ∧ SentWhole 2 content sent answer := by
  intro client content
  have hchunk : 1 ≤ client.multipart.chunk := by decide
  obtain ⟨sent, answer, after, hrun, -, hwhole⟩ :=
    client.sendParts_sends "b" "k" "u1" (.ofBytes content) 5 () hchunk
  have hreplies : ((client.transcribed.sendParts "b" "k" "u1" (.ofBytes content) 5).run.run
      ([], ())).2.1.all (·.2.isOk) = true := by decide +kernel
  rw [hrun] at hreplies
  have hanswered : ∀ part ∈ sent, ∃ tag, part.answer = .ok tag := by
    intro part hmem
    have hreply : part.answer.isOk = true :=
      List.all_eq_true.mp hreplies _ (List.mem_map_of_mem hmem)
    cases hanswer : part.answer with
    | ok tag => exact ⟨tag, rfl⟩
    | error fault =>
      rw [hanswer] at hreply
      cases hreply
  have hsent := hwhole content rfl rfl hanswered
  have hcount : sent.length = (5 + 2 - 1) / 2 := hsent.count
  exact ⟨hchunk, sent, answer, after, hrun, hcount, hsent⟩

end BucketCare
