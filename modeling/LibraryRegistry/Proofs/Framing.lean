import LibraryRegistry.Proofs.Failure
import LibraryRegistry.Proofs.Record.Binary

/-!
# Records in frames

A record comes back in one frame of a reply, and only a whole frame gives it: wherever the frame is
cut off, and whatever flag it has, the look-up fails, even if the bytes that are left are a message by
themselves. The frame is not enough, though. A reply that does not say how the call ended, neither in
its headers nor behind its body, counts as cut off behind its last frame, so its record is not passed
on. The replies here have no trailers: they end with their bodies.

* `AnswersWhole`, `AnswersNone` — what becomes of a frame in a reply that tells success, or nothing
* `answersWhole_of_tellsSuccess`, `answersNone_of_tellsNothing` — the two kinds of replies
* `lookUp_framed` — both for a look-up
-/

namespace LibraryRegistry.Client

variable {c : Config} {library : String} {reply : Rpc.Reply} {message : List UInt8}

/-- What comes of a look-up that is answered with the given body in a reply. -/
def answerTo (c : Config) (library : String) (reply : Rpc.Reply) (body : List UInt8) :
    Except Failure Record :=
  (lookUp ⟨c, .fixed { reply with body }⟩ library).result

/-- The failure passes on the code INTERNAL. -/
def FailsInternally (result : Except Failure Record) : Prop :=
  ∃ complaint, result = .error (.remote ⟨.internal, complaint⟩)

/-- Only the whole frame of a message gives a record, and it gives the record of the message. -/
structure AnswersWhole (answer : List UInt8 → Except Failure Record) (message : List UInt8) :
    Prop where
  whole : ∀ record,
    answer (Rpc.encodeFrame message) = .ok record ↔ Record.decode message = .ok record
  undecodable : ∀ e, Record.decode message = .error e →
    FailsInternally (answer (Rpc.encodeFrame message))
  cut : ∀ cut, cut <+: Rpc.encodeFrame message → cut ≠ Rpc.encodeFrame message →
    FailsInternally (answer cut)
  flagged : ∀ flag, flag ≠ 0 → FailsInternally (answer (Rpc.flaggedFrame flag message))

/-- Not even the whole frame of a message gives a record: a body that ends behind a frame, behind the
five bytes of its head or in front of it counts as cut off. -/
structure AnswersNone (answer : List UInt8 → Except Failure Record) (message : List UInt8) :
    Prop where
  whole : ∀ record, Record.decode message = .ok record →
    answer (Rpc.encodeFrame message) = .error (.remote Rpc.Reply.cutOff)
  undecodable : ∀ e, Record.decode message = .error e →
    FailsInternally (answer (Rpc.encodeFrame message))
  cut : ∀ cut, cut <+: Rpc.encodeFrame message → cut ≠ Rpc.encodeFrame message →
    if cut = [] ∨ cut.length = 5 then answer cut = .error (.remote Rpc.Reply.cutOff)
    else FailsInternally (answer cut)
  flagged : ∀ flag, flag ≠ 0 → FailsInternally (answer (Rpc.flaggedFrame flag message))

/-! ## Replies and their bodies -/

section Sendable

variable (hname : library ≠ "") (hsendable : ∀ h ∈ c.headers, Rpc.Sendable h)

include hname hsendable

theorem answerTo_of_ok {body : List UInt8} {record : Record}
    (h : ({ reply with body } : Rpc.Reply).result Record.decode = .ok record) :
    answerTo c library reply body = .ok record := by
  have hanswer : (Rpc.answerOf ((Server.fixed { reply with body }).respond
      (requestOf c library))).result = .ok record := h
  unfold answerTo
  rw [lookUp_of_ready hname hsendable rfl]
  exact resultOf_of_ok (Nat.not_lt_zero _) hanswer

theorem answerTo_of_error {body : List UInt8} {status : Rpc.Status}
    (h : ({ reply with body } : Rpc.Reply).result Record.decode = .error status)
    (hunavailable : status.code ≠ .unavailable) (hdeadline : status.code ≠ .deadlineExceeded) :
    answerTo c library reply body = .error (.remote status) := by
  unfold answerTo
  rw [result_lookUp_fixed hname hsendable h, Failure.ofStatus_of_ne hunavailable hdeadline]

variable (hencoding : Rpc.Reply.value? reply.headers Rpc.encodingKey = none)

include hencoding

/-- A body that cannot be read fails the look-up. -/
theorem failsInternally_of_broken {body : List UInt8}
    (htells : reply.TellsSuccess ∨ reply.TellsNothing) (h : Rpc.Broken Record.decode body) :
    FailsInternally (answerTo c library reply body) := by
  obtain ⟨complaint, hresult⟩ :=
    Rpc.Reply.result_of_broken (r := { reply with body }) hencoding htells h
  exact ⟨complaint, answerTo_of_error hname hsendable hresult nofun nofun⟩

variable (hlen : message.length ≤ Rpc.maxMessageBytes)

include hlen

theorem answersWhole_of_tellsSuccess (h : reply.TellsSuccess) :
    AnswersWhole (answerTo c library reply) message := by
  have hbroken : ∀ body, Rpc.Broken Record.decode body →
      FailsInternally (answerTo c library reply body) :=
    fun _ => failsInternally_of_broken hname hsendable hencoding (.inl h)
  have hundecodable : ∀ e, Record.decode message = .error e →
      FailsInternally (answerTo c library reply (Rpc.encodeFrame message)) :=
    fun _ he => hbroken _ (Rpc.broken_encodeFrame hlen he)
  refine ⟨?_, hundecodable, ?_, fun _ hflag => hbroken _ (Rpc.broken_flaggedFrame hflag message)⟩
  · intro record
    have hread : ∀ record, Record.decode message = .ok record →
        answerTo c library reply (Rpc.encodeFrame message) = .ok record := by
      intro record hrecord
      refine answerTo_of_ok hname hsendable ?_
      rw [Rpc.Reply.result_of_tellsSuccess (r := { reply with body := Rpc.encodeFrame message })
        hencoding h (Rpc.readMessages_encodeFrame_nil hlen hrecord)]
      rfl
    refine ⟨fun hanswer => ?_, hread record⟩
    -- What cannot be decoded gives no record, and what can gives only its own.
    cases hdecode : Record.decode message with
    | error e =>
      obtain ⟨complaint, hfails⟩ := hundecodable e hdecode
      rw [hfails] at hanswer
      cases hanswer
    | ok decoded =>
      cases (hread decoded hdecode).symm.trans hanswer
      rfl
  · intro cut hcut hne
    by_cases hleft : cut = [] ∨ cut.length = 5
    · have hresult : ({ reply with body := cut } : Rpc.Reply).result Record.decode
          = .error ⟨.internal, Rpc.Reply.noMessage⟩ :=
        Rpc.Reply.result_of_tellsSuccess (r := { reply with body := cut }) hencoding h
          (Rpc.readMessages_of_isPrefix hlen hcut hne hleft)
      exact ⟨_, answerTo_of_error hname hsendable hresult nofun nofun⟩
    · exact hbroken _ (Rpc.broken_of_isPrefix hlen hcut hne hleft)

theorem answersNone_of_tellsNothing (h : reply.TellsNothing) (htrailers : reply.trailers = []) :
    AnswersNone (answerTo c library reply) message := by
  have hbroken : ∀ body, Rpc.Broken Record.decode body →
      FailsInternally (answerTo c library reply body) :=
    fun _ => failsInternally_of_broken hname hsendable hencoding (.inr h)
  refine ⟨?_, fun _ he => hbroken _ (Rpc.broken_encodeFrame hlen he), ?_,
    fun _ hflag => hbroken _ (Rpc.broken_flaggedFrame hflag message)⟩
  · intro record hrecord
    have hresult := Rpc.Reply.result_of_tellsNothing
      (r := { reply with body := Rpc.encodeFrame message }) hencoding h htrailers
      (Rpc.readMessages_encodeFrame_nil hlen hrecord)
    exact answerTo_of_error hname hsendable hresult nofun nofun
  · intro cut hcut hne
    split
    · next hleft =>
      have hresult : ({ reply with body := cut } : Rpc.Reply).result Record.decode
          = .error Rpc.Reply.cutOff :=
        Rpc.Reply.result_of_tellsNothing (r := { reply with body := cut }) hencoding h htrailers
          (Rpc.readMessages_of_isPrefix hlen hcut hne hleft)
      exact answerTo_of_error hname hsendable hresult nofun nofun
    · next hleft => exact hbroken _ (Rpc.broken_of_isPrefix hlen hcut hne hleft)

end Sendable

/-- **What becomes of a record in a frame**, in a reply that ends with its body. If the reply tells
success the whole frame gives the record, and every other frame fails with the code INTERNAL. If it
tells nothing no frame gives a record, and the whole one fails with the code UNKNOWN. -/
theorem lookUp_framed (hname : library ≠ "") (hsendable : ∀ h ∈ c.headers, Rpc.Sendable h)
    (hencoding : Rpc.Reply.value? reply.headers Rpc.encodingKey = none)
    (htrailers : reply.trailers = []) (hlen : message.length ≤ Rpc.maxMessageBytes) :
    (reply.TellsSuccess → AnswersWhole (answerTo c library reply) message) ∧
      (reply.TellsNothing → AnswersNone (answerTo c library reply) message) := by
  constructor
  · intro h
    exact answersWhole_of_tellsSuccess hname hsendable hencoding hlen h
  · intro h
    exact answersNone_of_tellsNothing hname hsendable hencoding hlen h htrailers

/-- The reply says in its headers that the call went well. -/
def goodReply : Rpc.Reply where
  headers := [("content-type", "application/grpc"), ("Grpc-Status", "0")]

theorem lookUp_framed_sparse :
    "x" ≠ "" ∧ (∀ h ∈ tracedConfig.headers, Rpc.Sendable h) ∧
    Rpc.Reply.value? goodReply.headers Rpc.encodingKey = none ∧ goodReply.trailers = [] ∧
    sparseRecord.encode.length ≤ Rpc.maxMessageBytes ∧
    goodReply.TellsSuccess ∧ Rpc.Reply.TellsNothing {} ∧
    answerTo tracedConfig "x" goodReply (Rpc.encodeFrame sparseRecord.encode)
      = .ok sparseRecord ∧
    FailsInternally (answerTo tracedConfig "x" goodReply
      ((Rpc.encodeFrame sparseRecord.encode).take 5)) ∧
    answerTo tracedConfig "x" {} (Rpc.encodeFrame sparseRecord.encode)
      = .error (.remote Rpc.Reply.cutOff) := by
  have hencoding : Rpc.Reply.value? goodReply.headers Rpc.encodingKey = none := by decide
  have hlen : sparseRecord.encode.length ≤ Rpc.maxMessageBytes := by decide +kernel
  have hsuccess : goodReply.TellsSuccess := ⟨"", by decide⟩
  have hnothing : Rpc.Reply.TellsNothing {} := rfl
  have hdecode : Record.decode sparseRecord.encode = .ok sparseRecord :=
    sparseRecord.written_encode.decode (Nat.lt_of_le_of_lt hlen (by decide))
  have hwhole :=
    (lookUp_framed (show "x" ≠ "" by decide) sendable_tracedConfig hencoding rfl hlen).1 hsuccess
  have hnone : AnswersNone (answerTo tracedConfig "x" {}) sparseRecord.encode :=
    (lookUp_framed (show "x" ≠ "" by decide) sendable_tracedConfig rfl rfl hlen).2 hnothing
  have hcut : (Rpc.encodeFrame sparseRecord.encode).take 5 ≠ Rpc.encodeFrame sparseRecord.encode := by
    decide +kernel
  exact ⟨by decide, sendable_tracedConfig, hencoding, rfl, hlen, hsuccess, hnothing,
    (hwhole.whole sparseRecord).2 hdecode, hwhole.cut _ (List.take_prefix _ _) hcut,
    hnone.whole sparseRecord hdecode⟩

/-- A frame is not enough: the empty message is a record, but this reply does not give it. -/
theorem lookUp_frame_untold :
    Record.decode [] = .ok {} ∧
      (lookUp ⟨tracedConfig, .fixed ⟨[], Rpc.encodeFrame [], []⟩⟩ "x").result ≠ .ok {} := by
  have hdecode : Record.decode [] = .ok {} := Wire.FieldReader.Takes.nil.merge
  have hlen : ([] : List UInt8).length ≤ Rpc.maxMessageBytes := by decide
  have hnone : AnswersNone (answerTo tracedConfig "x" {}) [] :=
    answersNone_of_tellsNothing (show "x" ≠ "" by decide) sendable_tracedConfig rfl hlen rfl rfl
  have hanswer : (lookUp ⟨tracedConfig, .fixed ⟨[], Rpc.encodeFrame [], []⟩⟩ "x").result
      = .error (.remote Rpc.Reply.cutOff) := hnone.whole {} hdecode
  rw [hanswer]
  exact ⟨hdecode, nofun⟩

end LibraryRegistry.Client
