import LibraryRegistry.Proofs.LookUp
import LibraryRegistry.Proofs.Net.Target

/-!
# Calls by their paths

A path that is no target is refused before anything else is looked at. With every other path the
request goes out, and the method of a service is called exactly under the one path it has, whatever
query or fragment stands behind it. A look-up that is too long for a message does not get to the
method.

* `exists_call_eq_invalidPath_iff` — the paths that are refused
* `Runs` — the method is called and returns an answer
* `routed` — what becomes of the other paths
* `call_by_path` — all paths
* `not_runs_longLookup` — a look-up that is too long
-/

namespace LibraryRegistry.Rpc

variable {path : String}

/-! ## Paths that are refused -/

/-- A path is complained about exactly if it is no target, whatever else there is to complain
about. -/
theorem exists_call_eq_invalidPath_iff (server : Server) (headers : List Header) (l : Lookup) :
    (∃ other fault, call server path headers l = .error (.invalidPath other fault)) ↔
      Net.Target.Malformed path := by
  rw [← Net.Target.exists_fault_iff_malformed]
  constructor
  · rintro ⟨other, fault, h⟩
    exact ⟨fault, (of_call_eq_invalidPath h).2⟩
  · rintro ⟨fault, h⟩
    exact ⟨path, fault, call_of_fault h server headers l⟩

/-! ## Paths that are targets -/

/-- The method of a service is called in the course of a call, and returns an answer. -/
def Runs (s : Service) (path : String) (headers : List Header) (l : Lookup)
    (answer : Except Status Record) : Prop :=
  ∃ target, Net.Target.parse path = .ok target ∧ s.Returns (requestTo target headers l) answer

/-- What becomes of a call by its path. -/
structure Routed (s : Service) (path : String) (headers : List Header) (l : Lookup) : Prop where
  /-- With a look-up that is short enough for a message, the method is called exactly under its own
  path. -/
  runs : l.encode.length ≤ maxMessageBytes →
    ((∃ answer, Runs s path headers l answer) ↔ Net.Target.barePath path = lookupPath)
  /-- It answers the look-up that was given. -/
  answered : l.encode.length ≤ maxMessageBytes → ∀ answer, Runs s path headers l answer →
    answer = s.answer (sentMetadata headers) l
  /-- What it returns is what the caller reads. -/
  result : ∀ answer, Runs s path headers l answer →
    call (.service s) path headers l = .ok (answerOf (.ok (.ofAnswer answer s.delay)))
  /-- A look-up that is too long for a message is refused before the method is called. -/
  refused : Net.Target.barePath path = lookupPath →
    maxMessageBytes < l.encode.length → l.encode.length < frameBound →
      (∀ answer, ¬ Runs s path headers l answer) ∧
      call (.service s) path headers l
        = .ok ⟨.error ((FrameFault.tooLong l.encode.length).status .other), ⟨0⟩⟩
  /-- Nothing is called under another path. -/
  other : Net.Target.barePath path ≠ lookupPath →
    (∀ answer, ¬ Runs s path headers l answer) ∧
    call (.service s) path headers l = .ok ⟨.error ⟨.unimplemented, ""⟩, ⟨0⟩⟩

/-- A path of its own is what stands in front of the query and the fragment. -/
theorem path_eq_lookupPath_iff {target : Net.Target} (h : Net.Target.parse path = .ok target) :
    target.path = lookupPath ↔ Net.Target.barePath path = lookupPath := by
  rw [Net.Target.path, Net.Target.rawPath_of_parse h]
  by_cases hempty : Net.Target.barePath path = ""
  · rw [if_pos hempty, hempty]
    decide
  · rw [if_neg hempty]

/-- A method is called under its own path only. -/
theorem Runs.barePath_eq {s : Service} {headers : List Header} {l : Lookup}
    {answer : Except Status Record} (h : Runs s path headers l answer) :
    Net.Target.barePath path = lookupPath := by
  obtain ⟨target, hpath, hown, -⟩ := h
  exact (path_eq_lookupPath_iff hpath).1 hown

/-- A refusal is read as it was sent. -/
theorem answerOf_ofStatus {status : Status} (h : status.code ≠ .ok) :
    answerOf (.ok ⟨.ofStatus status, ⟨0⟩⟩) = ⟨.error status, ⟨0⟩⟩ := by
  have hresult : (Reply.ofStatus status).result Record.decode = .error status :=
    Reply.result_ofStatus h
  rw [answerOf, hresult]

/-- Under a path that is no method's, the call is refused. -/
theorem answerOf_respond_of_ne {s : Service} {r : Request} (h : r.target.path ≠ lookupPath) :
    answerOf (.ok (s.respond r)) = ⟨.error ⟨.unimplemented, ""⟩, ⟨0⟩⟩ := by
  rw [Service.respond, if_pos h]
  exact answerOf_ofStatus (by decide)

/-- A request whose look-up cannot be read is refused, whatever the service would have answered. -/
theorem respond_of_unread {s : Service} {r : Request} {status : Status}
    (hpath : r.target.path = lookupPath) (hread : Service.readLookup r = .error status) :
    (∀ answer, ¬ s.Returns r answer) ∧ s.respond r = ⟨.ofStatus status, ⟨0⟩⟩ := by
  constructor
  · rintro answer ⟨-, l, hl, -⟩
    cases hl.symm.trans hread
  · rw [Service.respond, if_neg (not_not_intro hpath), hread]

theorem routed {headers : List Header} {target : Net.Target}
    (hpath : Net.Target.parse path = .ok target) (hsendable : ∀ h ∈ headers, Sendable h)
    (hencoding : ∀ h ∈ headers, headerKey? h.1 ≠ some encodingKey) (s : Service) (l : Lookup) :
    Routed s path headers l := by
  have hcall : call (.service s) path headers l
      = .ok (answerOf (.ok (s.respond (requestTo target headers l)))) :=
    call_of_ready hpath hsendable rfl l
  have hown := path_eq_lookupPath_iff hpath
  have hnone : (requestTo target headers l).metadata.find? encodingKey = none :=
    find?_sentMetadata_encodingKey hencoding
  have hread : l.encode.length ≤ maxMessageBytes →
      Service.readLookup (requestTo target headers l) = .ok l :=
    Service.readLookup_encodeFrame hnone rfl
  refine ⟨?runs, ?answered, ?result, ?refused, ?other⟩
  case runs =>
    intro hlen
    constructor
    · rintro ⟨answer, hruns⟩
      exact hruns.barePath_eq
    · intro hbare
      exact ⟨_, target, hpath, hown.2 hbare, l, hread hlen, rfl⟩
  case answered =>
    rintro hlen answer ⟨target', hpath', -, l', hread', rfl⟩
    cases hpath.symm.trans hpath'
    cases (hread hlen).symm.trans hread'
    rfl
  case result =>
    rintro answer ⟨target', hpath', hreturns⟩
    cases hpath.symm.trans hpath'
    rw [hcall, Service.respond_of_returns hreturns]
  case refused =>
    intro hbare hlong hlt
    obtain ⟨hnot, hrespond⟩ := respond_of_unread (s := s) (hown.2 hbare)
      (Service.readLookup_of_lt hnone rfl hlong hlt)
    constructor
    · rintro answer ⟨target', hpath', hreturns⟩
      cases hpath.symm.trans hpath'
      exact hnot answer hreturns
    · have hcode : ((FrameFault.tooLong l.encode.length).status .other).code ≠ .ok := by
        intro h
        cases h
      rw [hcall, hrespond, answerOf_ofStatus hcode]
  case other =>
    intro hother
    have hne : target.path ≠ lookupPath := fun htarget => hother (hown.1 htarget)
    exact ⟨fun answer hruns => hother hruns.barePath_eq, by rw [hcall, answerOf_respond_of_ne hne]⟩

/-- **What becomes of a call by its path.** A path that is no target is refused with the same
complaint whatever the server, the headers and the library are; with every other path, and headers
that can be sent and name no compression, the method is called exactly under its own path, if the
look-up is short enough for a message. -/
theorem call_by_path (path : String) :
    (∀ server headers l,
      (∃ other fault, call server path headers l = .error (.invalidPath other fault)) ↔
        Net.Target.Malformed path) ∧
    (Net.Target.Malformed path → ∃ fault, ∀ server headers l,
      call server path headers l = .error (.invalidPath path fault)) ∧
    (¬ Net.Target.Malformed path → ∀ s headers l, (∀ h ∈ headers, Sendable h) →
      (∀ h ∈ headers, headerKey? h.1 ≠ some encodingKey) → Routed s path headers l) := by
  refine ⟨exists_call_eq_invalidPath_iff, ?_, ?_⟩
  · intro h
    obtain ⟨fault, hfault⟩ := Net.Target.exists_fault_iff_malformed.2 h
    exact ⟨fault, call_of_fault hfault⟩
  · intro h s headers l hsendable hencoding
    cases hpath : Net.Target.parse path with
    | error fault => exact absurd (Net.Target.exists_fault_iff_malformed.1 ⟨fault, hpath⟩) h
    | ok target => exact routed hpath hsendable hencoding s l

/-- The path of look-ups with a query and a fragment. -/
def queriedPath : String := lookupPath ++ "?a=é#b c"

theorem call_by_path_queried :
    ¬ Net.Target.Malformed queriedPath ∧ Net.Target.barePath queriedPath = lookupPath ∧
    (∀ h ∈ Client.tracedConfig.headers, Sendable h) ∧
    (∀ h ∈ Client.tracedConfig.headers, headerKey? h.1 ≠ some encodingKey) ∧
    (Lookup.encode ⟨"x"⟩).length ≤ maxMessageBytes ∧
    (∃ answer, Runs .echo queriedPath Client.tracedConfig.headers ⟨"x"⟩ answer) ∧
    Net.Target.Malformed "/é b" ∧
    ∃ fault, call (.notReady "closed") "/é b" [("bad key", "")] ⟨"x"⟩
      = .error (.invalidPath "/é b" fault) := by
  have hparse : Net.Target.parse queriedPath = .ok ⟨lookupPath, some "a=é"⟩ := rfl
  have hgood : ¬ Net.Target.Malformed queriedPath := by
    intro h
    obtain ⟨fault, hfault⟩ := Net.Target.exists_fault_iff_malformed.2 h
    cases hparse.symm.trans hfault
  have hbare : Net.Target.barePath queriedPath = lookupPath := by decide +kernel
  have hrouted := (call_by_path queriedPath).2.2 hgood .echo Client.tracedConfig.headers ⟨"x"⟩
    Client.sendable_tracedConfig Client.encoding_tracedConfig
  have hsplit : Text.utf8 "/é b" = [0x2F, 0xC3, 0xA9] ++ 0x20 :: [0x62] := by decide +kernel
  have hbad : Net.Target.Malformed "/é b" := .path hsplit (by decide) (by decide) (by
    unfold Net.Target.IsPathByte
    decide)
  obtain ⟨fault, hfault⟩ := (call_by_path "/é b").2.1 hbad
  have hlen : (Lookup.encode ⟨"x"⟩).length ≤ maxMessageBytes := by decide +kernel
  exact ⟨hgood, hbare, Client.sendable_tracedConfig, Client.encoding_tracedConfig, hlen,
    (hrouted.runs hlen).2 hbare, hbad, fault, hfault _ _ _⟩

/-! ## Look-ups that are too long -/

theorem length_encode_replicate {n : Nat} (hpos : 0 < n) (hlt : n < 2 ^ 64) :
    (Lookup.encode ⟨String.ofList (List.replicate n 'a')⟩).length
      = Wire.Key.size ⟨1, .lengthDelimited⟩ + Wire.sizeDelimited n := by
  have hascii : ∀ c ∈ List.replicate n 'a', c.toNat < 128 := by
    intro c hc
    rw [List.eq_of_mem_replicate hc]
    decide
  have hsize : (Text.utf8 (String.ofList (List.replicate n 'a'))).length = n := by
    rw [Text.utf8_ofList_ascii _ hascii, List.length_map, List.length_replicate]
  have hne : String.ofList (List.replicate n 'a') ≠ "" := by
    intro h
    rw [h] at hsize
    exact absurd hsize (Nat.ne_of_lt hpos)
  rw [Lookup.encode, Wire.length_encodeText (by decide) (by rw [hsize]; exact hlt), Wire.sizeText,
    if_neg hne, ← Text.length_utf8, hsize]

/-- A look-up of one byte more than fits into a message. -/
def longLookup : Lookup := ⟨String.ofList (List.replicate 4194300 'a')⟩

theorem length_encode_longLookup : longLookup.encode.length = 4194305 := by
  have hsize : Wire.Key.size ⟨1, .lengthDelimited⟩ + Wire.sizeDelimited 4194300 = 4194305 := by
    decide +kernel
  exact (length_encode_replicate (by decide) (by decide)).trans hsize

/-- **The path is not all that it takes**: under the method's own path, and with no header that could
be wrong, a look-up that is too long for a message is refused before the method is called. -/
theorem not_runs_longLookup :
    ¬ Net.Target.Malformed lookupPath ∧ Net.Target.barePath lookupPath = lookupPath ∧
    (∀ h ∈ ([] : List Header), Sendable h ∧ headerKey? h.1 ≠ some encodingKey) ∧
    ¬ ((∃ answer, Runs (.refusing ⟨.notFound, "x"⟩) lookupPath [] longLookup answer) ↔
      Net.Target.barePath lookupPath = lookupPath) ∧
    call (.service (.refusing ⟨.notFound, "x"⟩)) lookupPath [] longLookup
      = .ok ⟨.error ((FrameFault.tooLong 4194305).status .other), ⟨0⟩⟩ := by
  have hgood : ¬ Net.Target.Malformed lookupPath := by
    intro h
    obtain ⟨fault, hfault⟩ := Net.Target.exists_fault_iff_malformed.2 h
    cases parse_lookupPath.symm.trans hfault
  have hbare : Net.Target.barePath lookupPath = lookupPath := by decide +kernel
  have hlength := length_encode_longLookup
  obtain ⟨hnot, hcall⟩ :=
    (routed parse_lookupPath (List.forall_mem_nil _) (List.forall_mem_nil _)
      (.refusing ⟨.notFound, "x"⟩) longLookup).refused hbare
      (by rw [hlength]; decide) (by rw [hlength]; decide)
  rw [hlength] at hcall
  refine ⟨hgood, hbare, List.forall_mem_nil _, ?_, hcall⟩
  intro hiff
  obtain ⟨answer, hruns⟩ := hiff.2 hbare
  exact hnot answer hruns

end LibraryRegistry.Rpc
