import LibraryRegistry.Proofs.LookUp

/-!
# What failures tell

A failure of a look-up tells the status that the registry sent, by its code: a registry that says it
is unavailable counts as not reached, one that passed a deadline as late, and all other statuses are
passed on. It makes no difference whether a service returned the status or a reply just carries it
in its headers. A status that is passed on need not come from the registry, though: a request that
got lost ends with one, too.

* `lookUp_told_status` — a status comes to the same failure whichever way it is told
* `lookUp_remote_iff` — where the statuses that are passed on come from
* `lookUp_failing` — what becomes of requests that get lost
-/

namespace LibraryRegistry

/-- How a failure tells a status. -/
structure Failure.Tells (failure : Failure) (c : Config) (status : Rpc.Status) : Prop where
  unavailable : status.code = .unavailable →
    failure = .connection c.endpoint.render status.text
  deadlineExceeded : status.code = .deadlineExceeded →
    failure = .timeout c.endpoint.render c.timeout
  other : status.code ≠ .unavailable → status.code ≠ .deadlineExceeded → failure = .remote status

namespace Failure

theorem ofStatus_of_ne {address : String} {deadline : Duration} {status : Rpc.Status}
    (hunavailable : status.code ≠ .unavailable) (hdeadline : status.code ≠ .deadlineExceeded) :
    ofStatus address deadline status = .remote status := by
  rw [ofStatus]
  split
  · next h => exact absurd h hunavailable
  · next h => exact absurd h hdeadline
  · rfl

theorem ofStatus_eq_remote_iff {address : String} {deadline : Duration} {s status : Rpc.Status} :
    ofStatus address deadline s = .remote status ↔
      s = status ∧ status.code ≠ .unavailable ∧ status.code ≠ .deadlineExceeded := by
  constructor
  · intro h
    rw [ofStatus] at h
    split at h
    · cases h
    · cases h
    · next hunavailable hdeadline =>
      cases h
      exact ⟨rfl, hunavailable, hdeadline⟩
  · rintro ⟨rfl, hunavailable, hdeadline⟩
    exact ofStatus_of_ne hunavailable hdeadline

theorem tells_ofStatus (c : Config) (status : Rpc.Status) :
    Tells (ofStatus c.endpoint.render c.timeout status) c status where
  unavailable h := by rw [ofStatus, h]
  deadlineExceeded h := by rw [ofStatus, h]
  other hunavailable hdeadline := ofStatus_of_ne hunavailable hdeadline

end Failure

/-- A server that sends something back was ready. -/
theorem Server.unreadiness?_of_respond {s : Server} {request : Request} {r : Response}
    (h : s.respond request = .ok r) : s.unreadiness? = none := by
  cases s with
  | notReady reason => cases h
  | service _ | failing _ | fixed _ => rfl

namespace Client

variable {c : Config} {s : Server} {library : String}

/-! ## Statuses that are told -/

section Told

variable (hname : library ≠ "") (hsendable : ∀ h ∈ c.headers, Rpc.Sendable h)

include hname hsendable

/-- A response in time that tells a status fails a look-up. -/
theorem result_lookUp_of_status {r : Response} {status : Rpc.Status}
    (hresponse : s.respond (requestOf c library) = .ok r) (htime : r.delay.nanos ≤ c.timeout.nanos)
    (h : r.reply.result Record.decode = .error status) :
    (lookUp ⟨c, s⟩ library).result = .error (.ofStatus c.endpoint.render c.timeout status) := by
  rw [lookUp_of_ready hname hsendable (Server.unreadiness?_of_respond hresponse), hresponse]
  exact resultOf_of_error (Nat.not_lt.2 htime) h

/-- So does a response that comes too late. -/
theorem result_lookUp_of_late {r : Response}
    (hresponse : s.respond (requestOf c library) = .ok r) (hlate : c.timeout.nanos < r.delay.nanos) :
    (lookUp ⟨c, s⟩ library).result = .error (.timeout c.endpoint.render c.timeout) := by
  rw [lookUp_of_ready hname hsendable (Server.unreadiness?_of_respond hresponse), hresponse]
  exact resultOf_of_late hlate

/-- A reply that comes at once fails a look-up if reading it does. -/
theorem result_lookUp_fixed {reply : Rpc.Reply} {status : Rpc.Status}
    (h : reply.result Record.decode = .error status) :
    (lookUp ⟨c, .fixed reply⟩ library).result
      = .error (.ofStatus c.endpoint.render c.timeout status) :=
  result_lookUp_of_status hname hsendable rfl (Nat.zero_le _) h

theorem result_lookUp_service {service : Service} {status : Rpc.Status} (hcode : status.code ≠ .ok)
    (hreturns : service.Returns (requestOf c library) (.error status))
    (htime : service.delay.nanos ≤ c.timeout.nanos) :
    (lookUp ⟨c, .service service⟩ library).result
      = .error (.ofStatus c.endpoint.render c.timeout status) := by
  rw [lookUp_service hname hsendable hreturns hcode]
  exact resultOf_of_error (Nat.not_lt.2 htime) rfl

end Told

/-- The headers of a reply tell a status whatever else there is in the reply. -/
theorem result_of_told {code message value : String} (hcode : Rpc.Code.ofText code ≠ .ok)
    (hcoded : Text.Codes (Text.utf8 message) value.toList) (body : List UInt8) :
    Rpc.Reply.result Record.decode ⟨[("grpc-status", code), ("grpc-message", value)], body, []⟩
      = .error ⟨.ofText code, message⟩ :=
  Rpc.Reply.result_of_status? (Rpc.Reply.value?_encodingKey_statusHeaders code value)
    (Rpc.Reply.status?_pair (Rpc.Reply.decodeMessage_of_codes hcoded) code) hcode

/-- **A status comes to the same failure whichever way it is told**: returned by the method of a
service in time, or carried by the headers of a reply, its message coded in any way, in front of any
body. A code that is not the number of one counts as UNKNOWN. -/
theorem lookUp_told_status {message value : String} {code : Rpc.Code} (hname : library ≠ "")
    (hsendable : ∀ h ∈ c.headers, Rpc.Sendable h) (hcode : code ≠ .ok)
    (hcoded : Text.Codes (Text.utf8 message) value.toList) (body : List UInt8) :
    ∃ failure : Failure, failure.Tells c ⟨code, message⟩ ∧
      (∀ service : Service, service.Returns (requestOf c library) (.error ⟨code, message⟩) →
        service.delay.nanos ≤ c.timeout.nanos →
          (lookUp ⟨c, .service service⟩ library).result = .error failure) ∧
      ((∀ h ∈ c.headers, Rpc.headerKey? h.1 ≠ some Rpc.encodingKey) →
        (Lookup.encode ⟨library⟩).length ≤ Rpc.maxMessageBytes →
          (Service.refusing ⟨code, message⟩).Returns (requestOf c library)
            (.error ⟨code, message⟩)) ∧
      (lookUp ⟨c, .fixed ⟨[("grpc-status", toString code.number), ("grpc-message", value)],
        body, []⟩⟩ library).result = .error failure ∧
      ∀ text : String, (∀ n ≤ 16, text ≠ toString n) →
        (lookUp ⟨c, .fixed ⟨[("grpc-status", text), ("grpc-message", value)], body, []⟩⟩
          library).result = .error (.remote ⟨.unknown, message⟩) := by
  refine ⟨.ofStatus c.endpoint.render c.timeout ⟨code, message⟩, Failure.tells_ofStatus c _, ?_, ?_,
    ?_, ?_⟩
  · intro service hreturns htime
    exact result_lookUp_service hname hsendable hcode hreturns htime
  · intro hencoding hlen
    exact Rpc.returns_requestOf _ hencoding hlen
  · have hnumber : Rpc.Code.ofText (toString code.number) = code := Rpc.Code.ofText_number code
    have hread := result_of_told (hnumber.symm ▸ hcode) hcoded body
    rw [hnumber] at hread
    exact result_lookUp_fixed hname hsendable hread
  · intro text htext
    have hunknown : Rpc.Code.ofText text = .unknown := Rpc.Code.ofText_of_ne htext
    have hread := result_of_told (by rw [hunknown]; decide) hcoded body
    rw [hunknown] at hread
    exact result_lookUp_fixed hname hsendable hread

theorem lookUp_told_status_unavailable :
    "x" ≠ "" ∧ (∀ h ∈ tracedConfig.headers, Rpc.Sendable h) ∧ Rpc.Code.unavailable ≠ .ok ∧
    Text.Codes (Text.utf8 "é%!") "%C3%a9%25!".toList ∧
    ∃ failure, failure = .connection "h:80" (Rpc.Status.text ⟨.unavailable, "é%!"⟩) ∧
      (lookUp ⟨tracedConfig, .service (.refusing ⟨.unavailable, "é%!"⟩)⟩ "x").result
        = .error failure ∧
      (lookUp ⟨tracedConfig, .fixed ⟨[("grpc-status", toString Rpc.Code.unavailable.number),
        ("grpc-message", "%C3%a9%25!")], [1, 2], []⟩⟩ "x").result = .error failure := by
  have hcoded : Text.Codes (Text.utf8 "é%!") "%C3%a9%25!".toList := by
    have hbytes : Text.utf8 "é%!" = [0xC3, 0xA9, 0x25, 0x21] := by decide
    rw [hbytes]
    -- An escape with digits of either case, an escaped percent sign, and a character as it is.
    exact Text.Codes.cons (.escape (by decide) (by decide)) <|
      Text.Codes.cons (.escape (by decide) (by decide)) <|
      Text.Codes.cons (.escape (by decide) (by decide)) <|
      Text.Codes.cons (.plain (by decide) (by decide) (by decide)) Text.Codes.nil
  obtain ⟨failure, htells, hservice, hreturns, hfixed, -⟩ :=
    lookUp_told_status (show "x" ≠ "" by decide) sendable_tracedConfig
      (nofun : Rpc.Code.unavailable ≠ .ok) hcoded [1, 2]
  have hlen : (Lookup.encode ⟨"x"⟩).length ≤ Rpc.maxMessageBytes := by decide +kernel
  exact ⟨by decide, sendable_tracedConfig, nofun, hcoded, failure, htells.unavailable rfl,
    hservice _ (hreturns encoding_tracedConfig hlen) (Nat.zero_le _), hfixed⟩

/-! ## Statuses that are passed on -/

theorem resultOf_eq_remote_iff {answer : Rpc.Answer} {status : Rpc.Status} :
    resultOf c answer = .error (.remote status) ↔
      ¬ c.timeout.nanos < answer.delay.nanos ∧ answer.result = .error status ∧
      status.code ≠ .unavailable ∧ status.code ≠ .deadlineExceeded := by
  by_cases hlate : c.timeout.nanos < answer.delay.nanos
  · rw [resultOf_of_late hlate]
    simp [hlate]
  cases hanswer : answer.result with
  | ok record =>
    rw [resultOf_of_ok hlate hanswer]
    simp
  | error s =>
    rw [resultOf_of_error hlate hanswer, Except.error.injEq, Failure.ofStatus_eq_remote_iff]
    simp [hlate]

/-- A status that is passed on was told in time, or stands for a request that got lost. -/
theorem resultOf_answerOf_eq_remote_iff {response : Except String Response} {status : Rpc.Status} :
    resultOf c (Rpc.answerOf response) = .error (.remote status) ↔
      status.code ≠ .unavailable ∧ status.code ≠ .deadlineExceeded ∧
      (response = .error status.message ∧ status.code = .unknown ∨
        ∃ r, response = .ok r ∧ r.delay.nanos ≤ c.timeout.nanos ∧
          r.reply.result Record.decode = .error status) := by
  rw [resultOf_eq_remote_iff, Nat.not_lt]
  constructor
  · rintro ⟨htime, hresult, hunavailable, hdeadline⟩
    refine ⟨hunavailable, hdeadline, ?_⟩
    cases response with
    | error reason =>
      obtain rfl := Except.error.inj hresult
      exact Or.inl ⟨rfl, rfl⟩
    | ok r => exact Or.inr ⟨r, rfl, htime, hresult⟩
  · rintro ⟨hunavailable, hdeadline, ⟨rfl, hunknown⟩ | ⟨r, rfl, htime, hresult⟩⟩
    · refine ⟨Nat.zero_le _, ?_, hunavailable, hdeadline⟩
      rw [Rpc.answerOf, ← hunknown]
    · exact ⟨htime, hresult, hunavailable, hdeadline⟩

/-- **Where a status that is passed on comes from**: the request was sent, and either it got lost,
which counts as UNKNOWN, or the response came in time and told the status. -/
theorem lookUp_remote_iff {status : Rpc.Status} :
    (lookUp ⟨c, s⟩ library).result = .error (.remote status) ↔
      library ≠ "" ∧ (∀ h ∈ c.headers, Rpc.Sendable h) ∧ s.unreadiness? = none ∧
      status.code ≠ .unavailable ∧ status.code ≠ .deadlineExceeded ∧
      (s.respond (requestOf c library) = .error status.message ∧ status.code = .unknown ∨
        ∃ r, s.respond (requestOf c library) = .ok r ∧ r.delay.nanos ≤ c.timeout.nanos ∧
          r.reply.result Record.decode = .error status) := by
  constructor
  · intro h
    by_cases hname : library = ""
    · rw [hname, lookUp_empty] at h
      exact nomatch h
    rcases Rpc.sendable_or_first_not c.headers with
      hsendable | ⟨front, g, back, hheaders, hfront, hs⟩
    · cases hready : s.unreadiness? with
      | some reason =>
        rw [lookUp_of_not_ready hname hsendable hready] at h
        exact nomatch h
      | none =>
        rw [lookUp_of_ready hname hsendable hready] at h
        exact ⟨hname, hsendable, rfl, resultOf_answerOf_eq_remote_iff.1 h⟩
    · rw [lookUp_of_not_sendable hname hheaders hfront hs] at h
      exact nomatch h
  · rintro ⟨hname, hsendable, hready, h⟩
    rw [lookUp_of_ready hname hsendable hready]
    exact resultOf_answerOf_eq_remote_iff.2 h

/-- **A request that gets lost ends with a status that no server sent**: the failure passes on
UNKNOWN with the reason, and does not tell that the server was not reached. -/
theorem lookUp_failing (reason : String) (hname : library ≠ "")
    (hsendable : ∀ h ∈ c.headers, Rpc.Sendable h) :
    ∃ failure : Failure, (lookUp ⟨c, .failing reason⟩ library).result = .error failure ∧
      failure = .remote ⟨.unknown, reason⟩ ∧ failure.status? = some ⟨.unknown, reason⟩ := by
  have hremote : (lookUp ⟨c, .failing reason⟩ library).result
      = .error (.remote ⟨.unknown, reason⟩) :=
    lookUp_remote_iff.2 ⟨hname, hsendable, rfl, nofun, nofun, Or.inl ⟨rfl, rfl⟩⟩
  exact ⟨_, hremote, rfl, rfl⟩

theorem lookUp_failing_reset :
    "x" ≠ "" ∧ (∀ h ∈ tracedConfig.headers, Rpc.Sendable h) ∧
    ∃ failure : Failure,
      (lookUp ⟨tracedConfig, .failing "connection reset"⟩ "x").result = .error failure ∧
      failure = .remote ⟨.unknown, "connection reset"⟩ ∧
      failure.status? = some ⟨.unknown, "connection reset"⟩ :=
  ⟨by decide, sendable_tracedConfig,
    lookUp_failing "connection reset" (by decide) sendable_tracedConfig⟩

/-- Such a failure is none of the connection. -/
theorem lookUp_failing_ne_connection :
    ¬ ∃ cause, (lookUp ⟨tracedConfig, .failing "connection reset"⟩ "x").result
      = .error (.connection "h:80" cause) := by
  rintro ⟨cause, h⟩
  have hremote : (lookUp ⟨tracedConfig, .failing "connection reset"⟩ "x").result
      = .error (.remote ⟨.unknown, "connection reset"⟩) := rfl
  rw [hremote] at h
  exact nomatch h

end Client

end LibraryRegistry
