import LibraryRegistry.Proofs.Rpc.Frame
import LibraryRegistry.Proofs.Text.Percent
import LibraryRegistry.Rpc.Reply

/-!
# Laws of replies

What a server tells is what its client reads: a status comes back with its code and its message,
whatever characters the message holds and however it is coded, and so does a message. A reply whose
headers tell a failure is not read any further.

* `Code.ofText_number`, `Code.ofText_of_ne` — codes as texts
* `status?_pair` — what a code and a coded message in the headers tell
* `status?_ofStatus` — the headers of a status tell the status
* `result_of_status?` — the result of a reply whose headers tell a failure
* `result_ofStatus`, `result_ofMessage` — the results of the two kinds of replies that are written
* `result_of_tellsSuccess`, `result_of_tellsNothing`, `result_of_broken` — the results of replies by
  what they tell and how their bodies are read
-/

namespace LibraryRegistry.Rpc

namespace Code

theorem number_le (c : Code) : c.number ≤ 16 := by
  cases c <;> decide

/-- The number of a code, as text, tells the code. -/
theorem ofText_number (c : Code) : ofText (toString c.number) = c := by
  cases c <;> decide

/-- Any other text counts as an unknown code. -/
theorem ofText_of_ne {s : String} (h : ∀ n ≤ 16, s ≠ toString n) : ofText s = unknown := by
  have hnone : (all.find? fun c => toString c.number == s) = none := by
    refine List.find?_eq_none.2 fun c _ heq => ?_
    exact h c.number c.number_le (beq_iff_eq.1 heq).symm
  rw [ofText, hnone]
  rfl

end Code

namespace Reply

/-- A header is found under its own key, if that is in lower case. -/
theorem value?_cons_self (key : String) (h : key.toList.map Char.toLower = key.toList)
    (value : String) (headers : List (String × String)) :
    value? ((key, value) :: headers) key = some value := by
  rw [value?, List.find?_cons_of_pos (by simpa using h)]
  rfl

theorem value?_cons_of_ne {other key : String} (h : other.toList.map Char.toLower ≠ key.toList)
    (value : String) (headers : List (String × String)) :
    value? ((other, value) :: headers) key = value? headers key := by
  rw [value?, List.find?_cons_of_neg (by simpa using h)]
  rfl

/-- A coded message is read back. -/
theorem decodeMessage_of_codes {message value : String}
    (h : Text.Codes (Text.utf8 message) value.toList) : decodeMessage value = .ok message := by
  have hbytes : Text.percentDecode (Text.utf8 value) = Text.utf8 message := by
    rw [← h.percentDecode, String.ofList_toList]
  simp only [decodeMessage, hbytes, Text.ofUtf8?_utf8]

theorem decodeMessage_percentEncode (message : String) :
    decodeMessage (Text.percentEncode (Text.utf8 message)) = .ok message := by
  refine decodeMessage_of_codes ?_
  rw [Text.percentEncode, String.toList_ofList]
  exact Text.codes_flatMap_percentByte _

/-! ## Statuses in headers -/

/-- The headers that tell a code and a message. -/
def statusHeaders (code message : String) : List (String × String) :=
  [(statusKey, code), (messageKey, message)]

theorem status?_pair {value message : String} (h : decodeMessage value = .ok message)
    (code : String) : status? (statusHeaders code value) = some ⟨.ofText code, message⟩ := by
  have hmessage : value? (statusHeaders code value) messageKey = some value :=
    (value?_cons_of_ne (by decide) _ _).trans (value?_cons_self messageKey (by decide) _ _)
  have hcode : value? (statusHeaders code value) statusKey = some code :=
    value?_cons_self statusKey (by decide) _ _
  simp only [status?, hcode, hmessage, Option.map_some, Option.getD_some, h]

theorem value?_encodingKey_statusHeaders (code message : String) :
    value? (statusHeaders code message) encodingKey = none :=
  (value?_cons_of_ne (by decide) _ _).trans (value?_cons_of_ne (by decide) _ _)

/-- **The headers of a status tell the status.** -/
theorem status?_ofStatus (s : Status) : status? (ofStatus s).headers = some s := by
  -- An empty message is not sent, and a missing one is read as empty.
  by_cases h : s.message = ""
  · have hmessage : value? [(statusKey, toString s.code.number)] messageKey = none :=
      value?_cons_of_ne (by decide) _ _
    have hempty : decodeMessage "" = .ok "" := decodeMessage_percentEncode ""
    rw [ofStatus, status?]
    simp only [if_pos h, value?_cons_self statusKey (by decide), hmessage, Option.map_some,
      Option.getD_none, hempty, Code.ofText_number]
    rw [← h]
  · have hpair : (ofStatus s).headers = statusHeaders (toString s.code.number)
        (Text.percentEncode (Text.utf8 s.message)) := if_neg h
    rw [hpair, status?_pair (decodeMessage_percentEncode s.message), Code.ofText_number]

theorem value?_encodingKey_ofStatus (s : Status) :
    value? (ofStatus s).headers encodingKey = none := by
  by_cases h : s.message = ""
  · have hsingle : (ofStatus s).headers = [(statusKey, toString s.code.number)] := if_pos h
    rw [hsingle]
    exact value?_cons_of_ne (by decide) _ _
  · have hpair : (ofStatus s).headers = statusHeaders (toString s.code.number)
        (Text.percentEncode (Text.utf8 s.message)) := if_neg h
    rw [hpair, value?_encodingKey_statusHeaders]

section Results

variable {α : Type} {decode : List UInt8 → Except Wire.DecodeError α}

/-- **A reply whose headers tell a failure is that failure**, whatever its body holds. -/
theorem result_of_status? {r : Reply} {s : Status} (hencoding : value? r.headers encodingKey = none)
    (hstatus : status? r.headers = some s) (h : s.code ≠ .ok) : r.result decode = .error s := by
  rw [result, hencoding, encodingComplaint?]
  simp only [hstatus, if_neg h]

/-- **A status that is no success comes back as it is.** -/
theorem result_ofStatus {s : Status} (h : s.code ≠ .ok) :
    (ofStatus s).result decode = .error s :=
  result_of_status? (value?_encodingKey_ofStatus s) (status?_ofStatus s) h

/-- The trailers of a message tell that the call went well, as the headers of a status would. -/
theorem trailers_ofMessage (bytes : List UInt8) :
    (ofMessage bytes).trailers = (ofStatus ⟨.ok, ""⟩).headers := rfl

theorem checkTrailers_ofMessage (bytes : List UInt8) :
    (ofMessage bytes).checkTrailers = .ok () := by
  rw [checkTrailers, trailers_ofMessage, status?_ofStatus]
  rfl

/-- **A message comes back as it is.** -/
theorem result_ofMessage {bytes : List UInt8} {a : α} (h : bytes.length ≤ maxMessageBytes)
    (ha : decode bytes = .ok a) : (ofMessage bytes).result decode = .ok a := by
  have hbody : readMessages .openReply decode (ofMessage bytes).body = .ok [a] :=
    readMessages_encodeFrame_nil h ha
  show openResult decode (ofMessage bytes) = .ok a
  rw [openResult, hbody]
  show ((ofMessage bytes).checkTrailers >>= fun _ => firstMessage noMessage [a]) = .ok a
  rw [checkTrailers_ofMessage]
  rfl

/-! ## What a reply tells besides its body -/

/-- The headers say that the call went well: their code is zero, and their message, if there is one,
can be decoded. -/
def TellsSuccess (r : Reply) : Prop := ∃ message, status? r.headers = some ⟨.ok, message⟩

/-- The headers do not say how the call ended. -/
def TellsNothing (r : Reply) : Prop := value? r.headers statusKey = none

theorem status?_eq_none {headers : List (String × String)} (h : value? headers statusKey = none) :
    status? headers = none := by
  rw [status?, h]
  rfl

variable {r : Reply} (hencoding : value? r.headers encodingKey = none)

include hencoding

theorem result_of_headers {message : String} (h : status? r.headers = some ⟨.ok, message⟩) :
    r.result decode = readMessage .other decode noMessage r.body := by
  rw [result, hencoding, encodingComplaint?]
  simp only [h, if_true]

theorem result_of_no_status (h : value? r.headers statusKey = none) :
    r.result decode = r.openResult decode := by
  rw [result, hencoding, encodingComplaint?]
  simp only [status?_eq_none h]

/-- **A reply that tells success gives its first message.** -/
theorem result_of_tellsSuccess {messages : List α} (h : r.TellsSuccess)
    (hbody : readMessages .other decode r.body = .ok messages) :
    r.result decode = firstMessage noMessage messages := by
  obtain ⟨message, hheaders⟩ := h
  rw [result_of_headers hencoding hheaders, readMessage, hbody]

/-- **A reply that tells nothing, and ends with its body, counts as cut off**, even if all its
messages are there. -/
theorem result_of_tellsNothing {messages : List α} (h : r.TellsNothing) (htrailers : r.trailers = [])
    (hbody : readMessages .openReply decode r.body = .ok messages) :
    r.result decode = .error cutOff := by
  have hcheck : r.checkTrailers = .error cutOff := by
    rw [checkTrailers, htrailers]
    rfl
  rw [result_of_no_status hencoding h, openResult, hbody, hcheck]
  rfl

/-- **A body that cannot be read is complained about** unless the reply tells a failure. -/
theorem result_of_broken (h : r.TellsSuccess ∨ r.TellsNothing) (hbroken : Broken decode r.body) :
    ∃ complaint, r.result decode = .error ⟨.internal, complaint⟩ := by
  rcases h with ⟨message, hheaders⟩ | hnone
  · obtain ⟨complaint, hread⟩ := hbroken .other
    refine ⟨complaint, ?_⟩
    rw [result_of_headers hencoding hheaders, readMessage, hread]
  · obtain ⟨complaint, hread⟩ := hbroken .openReply
    refine ⟨complaint, ?_⟩
    rw [result_of_no_status hencoding hnone, openResult, hread]
    rfl

end Results

end Reply

end LibraryRegistry.Rpc
