import LibraryRegistry.Proofs.Config
import LibraryRegistry.Proofs.Duration
import LibraryRegistry.Proofs.Failure
import LibraryRegistry.Proofs.Text.Quoted
import LibraryRegistry.Report

/-!
# The texts of failures

What a registry says in a status gets into the text of a failure as a quoted text only, and an address
or a span has no control characters. So a registry cannot break the report of a failure over lines or
send commands to the terminal, and still the text tells the status. A text about a deadline tells the
deadline to the nanosecond.

* `Failure.controls_ofStatus`, `Report.controls_ofFailure` — where control characters are
* `Failure.message_remote_inj` — the text of a status that is passed on tells the status
* `Client.lookUp_refused_text` — what a registry can bring about
* `Client.lookUp_timeout_text` — the text about a deadline
-/

namespace LibraryRegistry

open Text

/-! ## Parts without control characters -/

section Controls

open Net Net.Authority

theorem isControlCode_of_isPlain {c : Char} (h : isPlain c = true) : isControlCode c = false :=
  isControlCode_of_kind (by decide +kernel) h

theorem isControlCode_of_isDigit {c : Char} (h : c.isDigit = true) : isControlCode c = false :=
  isControlCode_of_isPlain (isPlain_of_isDigit h)

theorem isControlCode_of_isFlat {c : Char} (h : IsFlat c) : isControlCode c = false := by
  rcases h with h | rfl | rfl
  · exact isControlCode_of_isPlain h
  · rfl
  · rfl

theorem Endpoint.controls_render (e : Endpoint) : controls e.render = [] := by
  rw [controls_eq_nil_iff, e.toList_render, authorityOf]
  intro c hc
  rcases List.mem_append.1 hc with hc | hc
  · rcases e.isUriHost.mem c hc with h | rfl | rfl
    · exact isControlCode_of_isFlat h
    · rfl
    · rfl
  · rcases List.mem_cons.1 hc with rfl | hc
    · rfl
    · exact isControlCode_of_isPlain (isPlain_of_mem_portDigits c hc)

/-- An amount of a unit has no control characters, since digits and units have none. -/
theorem TimeUnit.controls_amount (u : TimeUnit) (whole : Nat) {fraction : List Char}
    (h : ∀ c ∈ fraction, c.isDigit = true) : controls (u.amount whole fraction) = [] := by
  have hwhole : controls (toString whole) = [] :=
    controls_eq_nil_iff.2 fun c hc => isControlCode_of_isDigit (isDigit_of_mem_toString hc)
  have hpointed : controls (String.ofList (pointed fraction)) = [] := by
    rw [controls_eq_nil_iff, String.toList_ofList]
    intro c hc
    rcases Bool.or_eq_true_iff.1 (mem_pointed h c hc) with hdigit | hpoint
    · exact isControlCode_of_isDigit hdigit
    · rw [beq_iff_eq.1 hpoint]
      rfl
  have hsymbol : controls u.symbol = [] := by cases u <;> exact controls_ofList rfl
  rw [amount, controls_append, controls_append, hwhole, hpointed, hsymbol]
  rfl

theorem Duration.controls_text (d : Duration) : controls d.text = [] := by
  obtain ⟨u, whole, fraction, hamount, htext, -⟩ := d.exists_isAmount
  rw [htext]
  exact u.controls_amount whole hamount.digits

end Controls

namespace Rpc

theorem Code.controls_name (code : Code) : controls code.name = [] := by
  cases code <;> exact controls_ofList rfl

theorem Code.controls_description (code : Code) : controls code.description = [] := by
  cases code <;> exact controls_ofList rfl

/-- Codes are told apart by their names. -/
theorem Code.name_inj {code code' : Code} (h : code.name = code'.name) : code = code' := by
  cases code <;> cases code' <;> simp_all [Code.name]

/-- Names have no spaces. -/
theorem Code.ne_space_of_mem_name (code : Code) : ∀ c ∈ code.name.toList, (c != ' ') = true := by
  have hall : code.name.toList.all (· != ' ') = true := by cases code <;> simp [Code.name]
  exact List.all_eq_true.1 hall

/-- However hostile the message of a status is, it is told without control characters. -/
theorem Status.controls_text (status : Status) : controls status.text = [] := by
  have hcode : controls "code: '" = [] := controls_ofList rfl
  have hend : controls "'" = [] := controls_ofList rfl
  have hmessage : controls ", message: " = [] := controls_ofList rfl
  rw [Status.text]
  split <;> simp [hcode, hend, hmessage, status.code.controls_description, controls_quote]

end Rpc

/-! ## Texts of failures -/

namespace Failure

theorem controls_message_remote (status : Rpc.Status) : controls (remote status).message = [] := by
  have hcode : controls "Registry returned an error: code=" = [] := controls_ofList rfl
  have hmessage : controls " message=" = [] := controls_ofList rfl
  show controls ("Registry returned an error: code=" ++ status.code.name ++ " message="
    ++ quote status.message) = []
  simp [hcode, hmessage, status.code.controls_name, controls_quote]

/-- What cannot be reached is told without control characters if the cause has none. -/
theorem controls_message_connection {address cause : String} (haddress : controls address = [])
    (hcause : controls cause = []) : controls (connection address cause).message = [] := by
  have hfront : controls "Failed to connect to '" = [] := controls_ofList rfl
  have hmiddle : controls "': '" = [] := controls_ofList rfl
  have hend : controls "'" = [] := controls_ofList rfl
  show controls ("Failed to connect to '" ++ address ++ "': '" ++ cause ++ "'") = []
  simp [hfront, haddress, hmiddle, hcause, hend]

theorem controls_message_timeout {address : String} (haddress : controls address = [])
    (deadline : Duration) : controls (timeout address deadline).message = [] := by
  have hfront : controls "No response from '" = [] := controls_ofList rfl
  have hmiddle : controls "' within " = [] := controls_ofList rfl
  show controls ("No response from '" ++ address ++ "' within " ++ deadline.text) = []
  simp [hfront, haddress, hmiddle, deadline.controls_text]

/-- **Nothing that a registry says in a status brings control characters into a failure.** -/
theorem controls_ofStatus (e : Endpoint) (deadline : Duration) (status : Rpc.Status) :
    controls (ofStatus e.render deadline status).message = [] := by
  rw [ofStatus]
  split
  · exact controls_message_connection e.controls_render status.controls_text
  · exact controls_message_timeout e.controls_render deadline
  · exact controls_message_remote status

/-- **The text of a status that is passed on tells its code and its message.** -/
theorem message_remote_inj {status status' : Rpc.Status} :
    (remote status).message = (remote status').message ↔ status = status' := by
  constructor
  · intro h
    have htext : ("Registry returned an error: code=" ++ status.code.name ++ " message="
          ++ quote status.message).toList
        = ("Registry returned an error: code=" ++ status'.code.name ++ " message="
          ++ quote status'.message).toList := congrArg String.toList h
    simp only [String.toList_append, List.append_assoc] at htext
    -- The name of the code ends at the space behind it.
    have hspace : ∀ cs : List Char, Stops (· != ' ') (" message=".toList ++ cs) := fun _ =>
      stops_cons.2 rfl
    obtain ⟨hname, hrest⟩ := append_inj_of_stops status.code.ne_space_of_mem_name
      status'.code.ne_space_of_mem_name (hspace _) (hspace _) (List.append_cancel_left htext)
    have hcode : status.code = status'.code := Rpc.Code.name_inj (String.toList_inj.1 hname)
    have hmessage : status.message = status'.message :=
      quote_inj.1 (String.toList_inj.1 (List.append_cancel_left hrest))
    calc status = ⟨status.code, status.message⟩ := rfl
      _ = ⟨status'.code, status'.message⟩ := by rw [hcode, hmessage]
  · rintro rfl
    rfl

end Failure

namespace Report

/-- The control characters of the report of a failure that has none: lines end in front of the label,
twice behind it and at the end, and the colour of the label is set and reset. -/
def ownControls (color : Bool) : List Char :=
  ['\n'] ++ (if color then ['\x1b', '\x1b'] else []) ++ ['\n', '\n'] ++ ['\n']

theorem controls_failureLabel (failure : Failure) : controls (failureLabel failure) = [] := by
  cases failure <;> exact controls_ofList rfl

/-- **The control characters of a report are its own** if the failure has none. -/
theorem controls_ofFailure (color : Bool) {failure : Failure} (h : controls failure.message = []) :
    controls (ofFailure color failure).text = ownControls color := by
  have hbreak : controls "\n" = ['\n'] := rfl
  have hbreaks : controls "\n\n'" = ['\n', '\n'] := rfl
  have hend : controls "'" = [] := rfl
  have hset : controls "\x1b[1;31m" = ['\x1b'] := rfl
  have hreset : controls "\x1b[0m" = ['\x1b'] := rfl
  have hlabel := controls_failureLabel failure
  cases color with
  | false => simp [text, ofFailure, labelled, ownControls, hbreak, hbreaks, hend, hlabel, h]
  | true =>
    simp [text, ofFailure, labelled, emphasised, ownControls, hbreak, hbreaks, hend, hset, hreset,
      hlabel, h]

end Report

/-! ## What a registry can bring about -/

namespace Client

variable {c : Config} {library : String}

/-- **Whatever a registry says in a status, the failure and its report stay as they are meant**: no
control character gets into the text of the failure, none but its own into the report, and the text of
a status that is passed on is that of no other status. Every status can be sent. -/
theorem lookUp_refused_text (c : Config) {library : String} (hname : library ≠ "")
    (hsendable : ∀ h ∈ c.headers, Rpc.Sendable h) {code : Rpc.Code} (hcode : code ≠ .ok)
    (message : String) :
    ∃ failure : Failure, failure.Tells c ⟨code, message⟩ ∧
      (∀ (s : Server) (r : Response), s.respond (requestOf c library) = .ok r →
        r.delay.nanos ≤ c.timeout.nanos →
          r.reply.result Record.decode = .error ⟨code, message⟩ →
            (lookUp ⟨c, s⟩ library).result = .error failure) ∧
      (Rpc.Reply.ofStatus ⟨code, message⟩).result Record.decode = .error ⟨code, message⟩ ∧
      controls failure.message = [] ∧
      (∀ color, controls (Report.ofFailure color failure).text = Report.ownControls color) ∧
      ∀ status : Rpc.Status,
        (Failure.remote status).message = (Failure.remote ⟨code, message⟩).message →
          status = ⟨code, message⟩ := by
  have hcontrols := Failure.controls_ofStatus c.endpoint c.timeout ⟨code, message⟩
  refine ⟨.ofStatus c.endpoint.render c.timeout ⟨code, message⟩, Failure.tells_ofStatus c _, ?_, ?_,
    hcontrols, ?_, ?_⟩
  · intro s r hresponse htime hresult
    exact result_lookUp_of_status hname hsendable hresponse htime hresult
  · exact Rpc.Reply.result_ofStatus hcode
  · intro color
    exact Report.controls_ofFailure color hcontrols
  · intro status h
    exact Failure.message_remote_inj.1 h

/-- A message that would clear the terminal and begin a line of its own. -/
def hostileMessage : String := "\x1b[2J\nDone\u0085\""

theorem lookUp_refused_text_hostile :
    "x" ≠ "" ∧ (∀ h ∈ tracedConfig.headers, Rpc.Sendable h) ∧ Rpc.Code.notFound ≠ .ok ∧
    (lookUp ⟨tracedConfig, .fixed (.ofStatus ⟨.notFound, hostileMessage⟩)⟩ "x").result
      = .error (.remote ⟨.notFound, hostileMessage⟩) ∧
    controls hostileMessage ≠ [] ∧
    controls (Failure.remote ⟨.notFound, hostileMessage⟩).message = [] ∧
    controls (Report.ofFailure true (.remote ⟨.notFound, hostileMessage⟩)).text
      = ['\n', '\x1b', '\x1b', '\n', '\n', '\n'] := by
  obtain ⟨failure, htells, hresult, hsent, hcontrols, hreport, -⟩ :=
    lookUp_refused_text tracedConfig (show "x" ≠ "" by decide) sendable_tracedConfig
      (nofun : Rpc.Code.notFound ≠ .ok) hostileMessage
  obtain rfl := htells.other nofun nofun
  have hlookUp := hresult (.fixed (.ofStatus ⟨.notFound, hostileMessage⟩)) ⟨_, ⟨0⟩⟩ rfl
    (Nat.zero_le _) hsent
  exact ⟨by decide, sendable_tracedConfig, nofun, hlookUp, by decide, hcontrols, hreport true⟩

/-! ## What is told about deadlines -/

section Timeout

variable {s : Server} {address : String} {deadline : Duration}

/-- A failure about a deadline comes of a late answer or of a status, with the same wording. -/
theorem of_resultOf_eq_timeout {answer : Rpc.Answer}
    (h : resultOf c answer = .error (.timeout address deadline)) :
    address = c.endpoint.render ∧ deadline = c.timeout := by
  by_cases hlate : c.timeout.nanos < answer.delay.nanos
  · rw [resultOf_of_late hlate] at h
    cases h
    exact ⟨rfl, rfl⟩
  cases hanswer : answer.result with
  | ok record =>
    rw [resultOf_of_ok hlate hanswer] at h
    cases h
  | error status =>
    rw [resultOf_of_error hlate hanswer, Except.error.injEq, Failure.ofStatus] at h
    split at h
    · cases h
    · cases h
      exact ⟨rfl, rfl⟩
    · cases h

/-- A failure about a deadline tells where the registry is and which deadline was set. -/
theorem of_lookUp_timeout
    (h : (lookUp ⟨c, s⟩ library).result = .error (.timeout address deadline)) :
    address = c.endpoint.render ∧ deadline = c.timeout := by
  by_cases hname : library = ""
  · rw [hname, lookUp_empty] at h
    cases h
  rcases Rpc.sendable_or_first_not c.headers with hsendable | ⟨front, g, back, hheaders, hfront, hs⟩
  · cases hready : s.unreadiness? with
    | some reason =>
      rw [lookUp_of_not_ready hname hsendable hready] at h
      cases h
    | none =>
      rw [lookUp_of_ready hname hsendable hready] at h
      exact of_resultOf_eq_timeout h
  · rw [lookUp_of_not_sendable hname hheaders hfront hs] at h
    cases h

end Timeout

/-- **The text about a deadline is exact.** Every deadline but zero can be set, is the one that every
failure about a deadline tells, and is told when a response is late. Its text is a decimal number of a
unit, at least one, that is the deadline to the nanosecond, and no other deadline has the same text. -/
theorem lookUp_timeout_text (c : Config) {d : Duration} (hd : d.nanos ≠ 0) :
    ∃ c' : Config, c.withTimeout d = .ok c' ∧
      (∀ (s : Server) (library address : String) (deadline : Duration),
        (lookUp ⟨c', s⟩ library).result = .error (.timeout address deadline) →
          address = c.endpoint.render ∧ deadline = d) ∧
      (∀ (s : Server) (library : String) (r : Response), library ≠ "" →
        (∀ h ∈ c.headers, Rpc.Sendable h) → s.respond (requestOf c' library) = .ok r →
          d.nanos < r.delay.nanos →
            (lookUp ⟨c', s⟩ library).result = .error (.timeout c.endpoint.render d)) ∧
      (∃ (u : TimeUnit) (whole : Nat) (fraction : List Char), u.IsAmount d whole fraction ∧
        1 ≤ whole ∧ ∀ address : String, (Failure.timeout address d).message
          = "No response from '" ++ address ++ "' within " ++ u.amount whole fraction) ∧
      ∀ (address : String) (d' : Duration),
        (Failure.timeout address d').message = (Failure.timeout address d).message → d' = d := by
  refine ⟨_, Config.withDeadline_eq_ok_iff.2 ⟨hd, rfl⟩, ?_, ?_, ?_, ?_⟩
  · intro s library address deadline h
    exact of_lookUp_timeout h
  · intro s library r hname hsendable hresponse hlate
    exact result_lookUp_of_late hname hsendable hresponse hlate
  · obtain ⟨u, whole, fraction, hamount, htext, hwhole⟩ := d.exists_isAmount
    refine ⟨u, whole, fraction, hamount, hwhole hd, ?_⟩
    intro address
    rw [← htext]
    rfl
  · intro address d' h
    have htext : ("No response from '" ++ address ++ "' within " ++ d'.text).toList
        = ("No response from '" ++ address ++ "' within " ++ d.text).toList :=
      congrArg String.toList h
    simp only [String.toList_append] at htext
    exact Duration.text_inj.1 (String.toList_inj.1 (List.append_cancel_left htext))

theorem lookUp_timeout_text_micros :
    (⟨1500⟩ : Duration).nanos ≠ 0 ∧
    ∃ c' : Config, tracedConfig.withTimeout ⟨1500⟩ = .ok c' ∧
      (lookUp ⟨c', .service (.registry .empty ⟨5000000⟩)⟩ "x").result
        = .error (.timeout tracedConfig.endpoint.render ⟨1500⟩) ∧
      Duration.text ⟨1500⟩ = "1.5µs" ∧
      (Failure.timeout "h:80" ⟨5000000⟩).message ≠ (Failure.timeout "h:80" ⟨1500⟩).message := by
  have hd : (⟨1500⟩ : Duration).nanos ≠ 0 := by decide
  obtain ⟨c', hset, -, hlate, -, hother⟩ := lookUp_timeout_text tracedConfig hd
  have hlen : (Lookup.encode ⟨"x"⟩).length ≤ Rpc.maxMessageBytes := by decide +kernel
  have hencoding : ∀ h ∈ c'.headers, Rpc.headerKey? h.1 ≠ some Rpc.encodingKey := by
    obtain ⟨_, rfl⟩ := Config.withDeadline_eq_ok_iff.1 hset
    exact encoding_tracedConfig
  have hreturns := Rpc.returns_requestOf (.registry .empty ⟨5000000⟩) hencoding hlen
  have hresult := hlate (.service (.registry .empty ⟨5000000⟩)) "x" _ (by decide) sendable_tracedConfig
    (congrArg Except.ok (Service.respond_of_returns hreturns)) (show 1500 < 5000000 by decide)
  refine ⟨hd, c', hset, hresult, by decide, ?_⟩
  intro h
  exact absurd (hother "h:80" ⟨5000000⟩ h) (by decide)

end Client

end LibraryRegistry
