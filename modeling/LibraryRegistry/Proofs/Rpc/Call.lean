import LibraryRegistry.Proofs.Record.Binary
import LibraryRegistry.Proofs.Rpc.Metadata
import LibraryRegistry.Proofs.Rpc.Reply

/-!
# Laws of calls

A call writes a look-up, frames it and sends it with its headers; the service reads it back, answers,
and its answer goes the same way. Where the headers name no compression, and both messages are short
enough to be read, none of it shows: the caller gets what the service answered.

* `call_of_fault`, `call_of_not_sendable`, `call_of_not_ready`, `call_of_ready` — the stages of a call
* `of_call_eq_invalidPath` — a path is complained about only at the first stage
* `returns_requestOf` — the service reads the look-up that was written
* `answerOf_of_returns` — the caller reads the answer that the service returned
-/

namespace LibraryRegistry

theorem parse_lookupPath : Net.Target.parse lookupPath = .ok ⟨lookupPath, none⟩ := rfl

/-- The response that carries an answer after a while. -/
def Response.ofAnswer (answer : Except Rpc.Status Record) (delay : Duration) : Response where
  reply :=
    match answer with
    | .error status => .ofStatus status
    | .ok record => .ofMessage record.encode
  delay := delay

namespace Service

/-- A written look-up is read, if nothing is wrong with how it is compressed. -/
theorem readLookup_of_no_complaint {r : Request} {l : Lookup}
    (hencoding : Rpc.encodingComplaint? (r.metadata.find? Rpc.encodingKey) = none)
    (hbody : r.body = Rpc.encodeFrame l.encode) (hlen : l.encode.length ≤ Rpc.maxMessageBytes) :
    readLookup r = .ok l := by
  have hlt : l.encode.length < 2 ^ 64 := Nat.lt_of_le_of_lt hlen (by decide)
  rw [readLookup, hencoding, hbody]
  exact Rpc.readMessage_encodeFrame hlen (Lookup.decode_encode hlt)

/-- A written look-up is read. -/
theorem readLookup_encodeFrame {r : Request} {l : Lookup}
    (hencoding : r.metadata.find? Rpc.encodingKey = none) (hbody : r.body = Rpc.encodeFrame l.encode)
    (hlen : l.encode.length ≤ Rpc.maxMessageBytes) : readLookup r = .ok l := by
  refine readLookup_of_no_complaint ?_ hbody hlen
  rw [hencoding]
  rfl

/-- A look-up that is too long for a message is refused. -/
theorem readLookup_of_lt {r : Request} {l : Lookup}
    (hencoding : r.metadata.find? Rpc.encodingKey = none) (hbody : r.body = Rpc.encodeFrame l.encode)
    (h : Rpc.maxMessageBytes < l.encode.length) (hlt : l.encode.length < Rpc.frameBound) :
    readLookup r = .error ((Rpc.FrameFault.tooLong l.encode.length).status .other) := by
  have hread : Rpc.readMessages .other Lookup.decode r.body
      = .error ((Rpc.FrameFault.tooLong l.encode.length).status .other) := by
    rw [hbody]
    exact Rpc.readMessages_of_fault (Rpc.nextFrame_encodeFrame_of_lt h hlt)
  rw [readLookup, hencoding]
  show Rpc.readMessage .other Lookup.decode _ r.body = _
  rw [Rpc.readMessage, hread]

/-- The method of a service is called for a request, and returns an answer. -/
def Returns (s : Service) (r : Request) (answer : Except Rpc.Status Record) : Prop :=
  r.target.path = lookupPath ∧ ∃ l, readLookup r = .ok l ∧ s.answer r.metadata l = answer

/-- What the method returns is the response. -/
theorem respond_of_returns {s : Service} {r : Request} {answer : Except Rpc.Status Record}
    (h : s.Returns r answer) : s.respond r = .ofAnswer answer s.delay := by
  obtain ⟨hpath, l, hread, rfl⟩ := h
  rw [respond, if_neg (not_not_intro hpath), hread]
  cases hanswer : s.answer r.metadata l <;> simp only [hanswer, Response.ofAnswer]

end Service

namespace Rpc

/-- An answer that can be told: an error is no success, and a record is short enough. -/
def Tellable (answer : Except Status Record) : Prop :=
  match answer with
  | .error status => status.code ≠ .ok
  | .ok record => record.encode.length ≤ maxMessageBytes

/-- What goes out as an answer comes back as it. -/
theorem result_ofAnswer {answer : Except Status Record} (h : Tellable answer) (d : Duration) :
    (Response.ofAnswer answer d).reply.result Record.decode = answer := by
  cases answer with
  | error status => exact Reply.result_ofStatus h
  | ok record =>
    have hlt : record.encode.length < 2 ^ 64 := Nat.lt_of_le_of_lt h (by decide)
    exact Reply.result_ofMessage h (record.written_encode.decode hlt)

/-- The headers as a service sees them. -/
def sentMetadata (headers : List Header) : Metadata :=
  Metadata.sent (.ofList (headers.filterMap sentPair?))

theorem find?_sentMetadata_encodingKey {headers : List Header}
    (h : ∀ x ∈ headers, headerKey? x.1 ≠ some encodingKey) :
    (sentMetadata headers).find? encodingKey = none :=
  (find?_sent_encodingKey _).trans (find?_ofList_sentPair? h)

/-- The request of a look-up. -/
def requestOf (headers : List Header) (l : Lookup) : Request :=
  ⟨⟨lookupPath, none⟩, sentMetadata headers, encodeFrame l.encode⟩

/-- **A service answers the look-up that was written.** -/
theorem returns_requestOf (s : Service) {headers : List Header} {l : Lookup}
    (hencoding : ∀ h ∈ headers, headerKey? h.1 ≠ some encodingKey)
    (hlen : l.encode.length ≤ maxMessageBytes) :
    s.Returns (requestOf headers l) (s.answer (sentMetadata headers) l) :=
  ⟨rfl, l, Service.readLookup_encodeFrame (find?_sentMetadata_encodingKey hencoding) rfl hlen, rfl⟩

/-! ## Calls -/

/-- What a caller reads from what comes back: a request that got lost ends with the code UNKNOWN. -/
def answerOf : Except String Response → Answer
  | .error reason => ⟨.error ⟨.unknown, reason⟩, ⟨0⟩⟩
  | .ok response => ⟨response.reply.result Record.decode, response.delay⟩

/-- The request of a look-up at a target. -/
def requestTo (target : Net.Target) (headers : List Header) (l : Lookup) : Request :=
  ⟨target, sentMetadata headers, encodeFrame l.encode⟩

theorem call_of_fault {path : String} {fault : Net.TargetFault}
    (h : Net.Target.parse path = .error fault) (server : Server) (headers : List Header)
    (l : Lookup) : call server path headers l = .error (.invalidPath path fault) := by
  rw [call, h]

section Path

variable {path : String} {target : Net.Target} (hpath : Net.Target.parse path = .ok target)

include hpath

theorem call_of_not_sendable {front back : List Header} {h : Header}
    (hfront : ∀ x ∈ front, Sendable x) (hs : ¬ Sendable h) (server : Server) (l : Lookup) :
    call server path (front ++ h :: back) l = .error (headerFault h) := by
  rw [call, hpath, metadataOf_of_not_sendable hfront hs]

variable {server : Server} {headers : List Header} (hsendable : ∀ h ∈ headers, Sendable h)

include hsendable

theorem call_of_not_ready {reason : String} (h : server.unreadiness? = some reason) (l : Lookup) :
    call server path headers l = .error (.notReady reason) := by
  rw [call, hpath, metadataOf_of_sendable hsendable]
  simp only [h]

/-- **A call to a ready server gives what is read from its one response.** -/
theorem call_of_ready (h : server.unreadiness? = none) (l : Lookup) :
    call server path headers l
      = .ok (answerOf (server.respond (requestTo target headers l))) := by
  simp only [call, hpath, metadataOf_of_sendable hsendable, h, requestTo, sentMetadata]
  cases server.respond _ <;> rfl

end Path

/-- No fault of a header is one of a path. -/
theorem headerFault_ne_invalidPath (h : Header) (path : String) (fault : Net.TargetFault) :
    headerFault h ≠ .invalidPath path fault := by
  intro hfault
  unfold headerFault at hfault
  split at hfault
  · cases hfault
  · cases hfault

/-- A path is complained about only if it is no target, and it is the path that was given. -/
theorem of_call_eq_invalidPath {server : Server} {path other : String} {headers : List Header}
    {l : Lookup} {fault : Net.TargetFault}
    (h : call server path headers l = .error (.invalidPath other fault)) :
    other = path ∧ Net.Target.parse path = .error fault := by
  cases hpath : Net.Target.parse path with
  | error fault' =>
    cases (call_of_fault hpath server headers l).symm.trans h
    exact ⟨rfl, rfl⟩
  | ok target =>
    exfalso
    rcases sendable_or_first_not headers with hsendable | ⟨front, x, back, rfl, hfront, hs⟩
    · cases hready : server.unreadiness? with
      | some reason => cases (call_of_not_ready hpath hsendable hready l).symm.trans h
      | none => cases (call_of_ready hpath hsendable hready l).symm.trans h
    · have hfault := (call_of_not_sendable hpath hfront hs server l).symm.trans h
      exact headerFault_ne_invalidPath x other fault (Except.error.inj hfault)

/-- **The caller reads the answer that the service returned.** -/
theorem answerOf_of_returns {s : Service} {r : Request} {answer : Except Status Record}
    (h : s.Returns r answer) (htellable : Tellable answer) :
    answerOf (.ok (s.respond r)) = ⟨answer, s.delay⟩ := by
  rw [Service.respond_of_returns h, answerOf, result_ofAnswer htellable]
  rfl

end Rpc

end LibraryRegistry
