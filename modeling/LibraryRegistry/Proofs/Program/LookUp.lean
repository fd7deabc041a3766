import LibraryRegistry.Program.LookUp
import LibraryRegistry.Proofs.Client
import LibraryRegistry.Proofs.Config
import LibraryRegistry.Proofs.Report

/-!
# Runs of the look-up program

A run goes through its stages and the first that fails is what it reports; only a run that goes
through all of them prints a record.

* `reports_of_configFault`, `reports_of_unreachable`, `reports_of_failure`, `prints_of_record` — the
  stages
* `run_registry` — runs against a registry, or against nobody
* `run_invalidRequest` — runs with a request that cannot be sent
-/

namespace LibraryRegistry.Program

/-- The run prints this record and nothing else. The text is one of those in which the record may be
printed, and the printer chooses which. -/
structure Run.Prints (r : Run) (p : Printer) (record : Record) : Prop where
  exitCode : r.exitCode = 0
  prints : Report.Prints record (Report.ofRecord record p).text
  output : r.output = (Report.ofRecord record p).text ++ "\n"
  diagnostics : r.diagnostics = ""

/-- The run fails with this report and prints nothing else. -/
structure Run.Reports (r : Run) (report : Report) : Prop where
  exitCode : r.exitCode = 1
  output : r.output = ""
  diagnostics : r.diagnostics = report.text ++ "\n"

namespace LookUp

variable {e : Environment} {a : Arguments} {arguments : List String} {c : Config} {s : Server}
  {p : Printer}

/-! ## Stages -/

theorem run_of_read (h : Arguments.read arguments = .ok a) (e : Environment) :
    run e arguments p = .ok (runWith e a p) := by
  rw [run, h]
  rfl

theorem Arguments.headers_clientConfig {files : Files} (h : a.clientConfig files = .ok c) :
    c.headers = a.headers := by
  unfold clientConfig at h
  obtain ⟨file, -, h⟩ := exists_of_bind_eq_ok h
  obtain ⟨c₀, hoptions, h⟩ := exists_of_bind_eq_ok h
  cases h
  rw [Config.headers_foldl_withHeader, Config.headers_ofOptions hoptions, List.nil_append]

theorem reports_of_configFault {fault : ConfigFault} (h : a.clientConfig e.files = .error fault) :
    (runWith e a p).Reports (.ofConfigFault e.color fault) := by
  unfold runWith stages
  rw [h]
  exact ⟨rfl, rfl, rfl⟩

theorem reports_of_unreachable (h : a.clientConfig e.files = .ok c)
    (hnobody : e.network c.endpoint = none) :
    (runWith e a p).Reports
      (.ofFailure e.color (.connection c.endpoint.render Client.transportError)) := by
  unfold runWith stages Client.connect
  simp only [h, hnobody]
  exact ⟨rfl, rfl, rfl⟩

theorem reports_of_failure {f : Failure} (h : a.clientConfig e.files = .ok c)
    (hserver : e.network c.endpoint = some s)
    (hlookUp : (Client.lookUp ⟨c, s⟩ a.library).result = .error f) :
    (runWith e a p).Reports (.ofFailure e.color f) := by
  unfold runWith stages Client.connect callStage
  simp only [h, hserver, hlookUp]
  exact ⟨rfl, rfl, rfl⟩

theorem prints_of_record {record : Record} (h : a.clientConfig e.files = .ok c)
    (hserver : e.network c.endpoint = some s)
    (hlookUp : (Client.lookUp ⟨c, s⟩ a.library).result = .ok record) :
    (runWith e a p).Prints p record := by
  unfold runWith stages Client.connect callStage
  simp only [h, hserver, hlookUp]
  exact ⟨rfl, Report.prints_ofRecord record p, rfl, rfl⟩

/-- Without a configuration it does not matter who can be reached. -/
theorem runWith_of_configFault {fault : ConfigFault} (h : a.clientConfig e.files = .error fault)
    (network : Network) : runWith { e with network } a p = runWith e a p := by
  unfold runWith stages
  simp only [h]

/-! ## Runs against a registry -/

/-- All goes well: there is a configuration, a registry listens where it says, answers before the
deadline, and has this record. -/
def Found (listener : Option (Registry × Duration)) (library : String)
    (config : Except ConfigFault Config) (record : Record) : Prop :=
  ∃ c registry delay, config = .ok c ∧ listener = some (registry, delay) ∧
    delay.nanos < c.timeout.nanos ∧ registry.find? library = some record

/-- The report of the first stage that fails: configuration, connection, deadline, answer. -/
inductive FirstFailure (color : Bool) (listener : Option (Registry × Duration)) (library : String) :
    Except ConfigFault Config → Report → Prop
  | configuration (fault : ConfigFault) :
      FirstFailure color listener library (.error fault)
        (.labelled color "Invalid Configuration:" fault.message)
  | connection (c : Config) (nobody : listener = none) :
      FirstFailure color listener library (.ok c)
        (.labelled color "Connection Failed:"
          ("Failed to connect to '" ++ c.endpoint.render ++ "': '" ++ "transport error" ++ "'"))
  | deadline (c : Config) {registry : Registry} {delay : Duration}
      (listens : listener = some (registry, delay)) (late : c.timeout.nanos < delay.nanos) :
      FirstFailure color listener library (.ok c)
        (.labelled color "Timed Out:"
          ("No response from '" ++ c.endpoint.render ++ "' within " ++ c.timeout.text))
  | answer (c : Config) {registry : Registry} {delay : Duration}
      (listens : listener = some (registry, delay)) (inTime : delay.nanos < c.timeout.nanos)
      (unknown : registry.find? library = none) :
      FirstFailure color listener library (.ok c)
        (.labelled color "Registry Error:"
          ("Registry returned an error: code=" ++ "NotFound" ++ " message="
            ++ Text.quote ("Library: " ++ library
              ++ " doesn't exist, bug the author - or grab the package name.")))

/-- A run without headers against a registry that takes its time, or against nobody. What is sent is
short enough to be read, and the answer does not come just when time is up. -/
structure Against (e : Environment) (a : Arguments) (listener : Option (Registry × Duration)) :
    Prop where
  headers : a.headers = []
  library_ne : a.library ≠ ""
  network : ∀ c, a.clientConfig e.files = .ok c →
    e.network c.endpoint = listener.map fun l => .service (.registry l.1 l.2)
  delay_ne : ∀ c registry delay, a.clientConfig e.files = .ok c →
    listener = some (registry, delay) → delay.nanos ≠ c.timeout.nanos
  request_le : (Lookup.encode ⟨a.library⟩).length ≤ Rpc.maxMessageBytes
  record_le : ∀ registry delay record, listener = some (registry, delay) →
    registry.find? a.library = some record → record.encode.length ≤ Rpc.maxMessageBytes

namespace Against

variable {registry : Registry} {delay : Duration}

theorem listens (h : Against e a (some (registry, delay))) (hc : a.clientConfig e.files = .ok c) :
    e.network c.endpoint = some (.service (.registry registry delay)) :=
  h.network c hc

/-- The look-up of the run. -/
theorem result_lookUp (h : Against e a (some (registry, delay)))
    (hc : a.clientConfig e.files = .ok c) :
    (Client.lookUp ⟨c, .service (.registry registry delay)⟩ a.library).result =
      if c.timeout.nanos < delay.nanos then .error (.timeout c.endpoint.render c.timeout)
      else
        match registry.find? a.library with
        | some record => .ok record
        | none => .error (.remote ⟨.notFound, "Library: " ++ a.library
            ++ " doesn't exist, bug the author - or grab the package name."⟩) := by
  have hnone : c.headers = [] := by rw [Arguments.headers_clientConfig hc, h.headers]
  rw [Client.lookUp_registry (by simp [hnone]) (by simp [hnone]) h.request_le fun record hfind =>
    h.record_le registry delay record rfl hfind]
  exact if_neg h.library_ne

theorem prints_of_found {listener : Option (Registry × Duration)} (h : Against e a listener)
    {record : Record} (hfound : Found listener a.library (a.clientConfig e.files) record) :
    (runWith e a p).Prints p record := by
  obtain ⟨c, registry, delay, hc, rfl, hinTime, hfind⟩ := hfound
  refine prints_of_record hc (h.listens hc) ?_
  rw [h.result_lookUp hc, if_neg (Nat.lt_asymm hinTime), hfind]

/-- A registry that was reached, but from which there is no record. -/
theorem exists_firstFailure_of_listens (h : Against e a (some (registry, delay)))
    (hc : a.clientConfig e.files = .ok c)
    (hnot : ∀ record, ¬ Found (some (registry, delay)) a.library (.ok c) record) :
    ∃ report, FirstFailure e.color (some (registry, delay)) a.library (.ok c) report ∧
      (runWith e a p).Reports report := by
  have hresult := h.result_lookUp hc
  by_cases hlate : c.timeout.nanos < delay.nanos
  · rw [if_pos hlate] at hresult
    have hreports := reports_of_failure (p := p) hc (h.listens hc) hresult
    exact ⟨_, .deadline c rfl hlate, hreports⟩
  · have hinTime : delay.nanos < c.timeout.nanos :=
      Nat.lt_of_le_of_ne (Nat.not_lt.1 hlate) (h.delay_ne c registry delay hc rfl)
    rw [if_neg hlate] at hresult
    cases hfind : registry.find? a.library with
    | some record => exact absurd ⟨c, registry, delay, rfl, rfl, hinTime, hfind⟩ (hnot record)
    | none =>
      rw [hfind] at hresult
      have hreports := reports_of_failure (p := p) hc (h.listens hc) hresult
      exact ⟨_, .answer c rfl hinTime hfind, hreports⟩

theorem exists_firstFailure {listener : Option (Registry × Duration)} (h : Against e a listener)
    (hnot : ∀ record, ¬ Found listener a.library (a.clientConfig e.files) record) :
    ∃ report, FirstFailure e.color listener a.library (a.clientConfig e.files) report ∧
      (runWith e a p).Reports report := by
  cases hc : a.clientConfig e.files with
  | error fault => exact ⟨_, .configuration fault, reports_of_configFault hc⟩
  | ok c =>
    rw [hc] at hnot
    cases listener with
    | none => exact ⟨_, .connection c rfl, reports_of_unreachable hc (h.network c hc)⟩
    | some l => exact h.exists_firstFailure_of_listens hc hnot

end Against

/-- **A run prints the record if all goes well, and else reports the first stage that fails**, whatever
the order in which the printer lays out maps. -/
theorem run_registry {listener : Option (Registry × Duration)}
    (hread : Arguments.read arguments = .ok a) (h : Against e a listener) :
    ∃ r, run e arguments p = .ok r ∧
      (r.exitCode = 0 ↔ ∃ record, Found listener a.library (a.clientConfig e.files) record) ∧
      (∀ record, Found listener a.library (a.clientConfig e.files) record → r.Prints p record) ∧
      ((∀ record, ¬ Found listener a.library (a.clientConfig e.files) record) →
        ∃ report, FirstFailure e.color listener a.library (a.clientConfig e.files) report ∧
          r.Reports report) ∧
      (∀ fault, a.clientConfig e.files = .error fault →
        ∀ network, run { e with network } arguments p = .ok r) := by
  refine ⟨runWith e a p, run_of_read hread e, ⟨?_, ?_⟩, fun _ => h.prints_of_found,
    h.exists_firstFailure, ?_⟩
  · intro hzero
    by_cases hfound : ∃ record, Found listener a.library (a.clientConfig e.files) record
    · exact hfound
    · obtain ⟨report, -, hreports⟩ := h.exists_firstFailure (not_exists.1 hfound)
      exact absurd (hzero.symm.trans hreports.exitCode) Nat.zero_ne_one
  · rintro ⟨record, hfound⟩
    exact (h.prints_of_found hfound).exitCode
  · intro fault hfault network
    rw [run_of_read hread, runWith_of_configFault hfault]

/-- A registry with one record. -/
def smallRegistry : Registry := .ofList [("é", sparseRecord)]

/-- Everywhere there is the same registry, and there are no files. -/
def smallEnvironment : Environment where
  files := fun _ => .error .missing
  network := fun _ => some (.service (.registry smallRegistry ⟨5⟩))

theorem against_smallEnvironment :
    Against smallEnvironment { library := "é", host := some "h", port := some 80 }
      (some (smallRegistry, ⟨5⟩)) := by
  have hc : Arguments.clientConfig { library := "é", host := some "h", port := some 80 }
      smallEnvironment.files = .ok (.ofEndpoint ⟨"h", 80, by decide, by decide, by decide⟩) := rfl
  refine ⟨rfl, by decide, fun _ _ => rfl, ?_, by decide +kernel, ?_⟩
  · rintro c registry delay hc' hl
    cases hc'.symm.trans hc
    cases hl
    decide
  · rintro registry delay record hl hfind
    cases hl
    obtain ⟨-, rfl⟩ : "é" = "é" ∧ record = sparseRecord := by
      have hmem : ("é", record) ∈ [("é", sparseRecord)] := Dict.find?_eq_some_iff.1 hfind
      exact Prod.mk.inj (List.mem_singleton.1 hmem)
    decide +kernel

theorem run_registry_small :
    Arguments.read ["é", "--host=h", "--port=80"] =
        .ok { library := "é", host := some "h", port := some 80 } ∧
      Against smallEnvironment { library := "é", host := some "h", port := some 80 }
        (some (smallRegistry, ⟨5⟩)) ∧
      ∃ r, run smallEnvironment ["é", "--host=h", "--port=80"] = .ok r ∧
        r.Prints .ascending sparseRecord := by
  have hread : Arguments.read ["é", "--host=h", "--port=80"] =
      .ok { library := "é", host := some "h", port := some 80 } := rfl
  obtain ⟨r, hrun, -, hprints, -, -⟩ := run_registry hread against_smallEnvironment
  refine ⟨hread, against_smallEnvironment, r, hrun, hprints sparseRecord ?_⟩
  exact ⟨.ofEndpoint ⟨"h", 80, by decide, by decide, by decide⟩, smallRegistry, ⟨5⟩, rfl, rfl,
    by decide, rfl⟩

/-! ## Requests that cannot be sent -/

/-- What is wrong with a request by itself: the library has no name, or else the first header that
cannot be sent. -/
inductive InvalidRequest (library : String) (headers : List Header) : Failure → Prop
  | unnamed (h : library = "") :
      InvalidRequest library headers (.invalidRequest "library name must not be empty")
  | unsendable {front back : List Header} {header : Header} (named : library ≠ "")
      (split : headers = front ++ header :: back) (before : ∀ x ∈ front, Rpc.Sendable x)
      (bad : ¬ Rpc.Sendable header) :
      InvalidRequest library headers (.request (Rpc.headerFault header))

theorem exists_invalidRequest {library : String} {headers : List Header}
    (h : library = "" ∨ ∃ header ∈ headers, ¬ Rpc.Sendable header) :
    ∃ f, InvalidRequest library headers f := by
  by_cases hname : library = ""
  · exact ⟨_, .unnamed hname⟩
  rcases Rpc.sendable_or_first_not headers with hall | ⟨front, header, back, hsplit, hfront, hbad⟩
  · rcases h with h | ⟨header, hmem, hbad⟩
    · exact absurd h hname
    · exact absurd (hall header hmem) hbad
  · exact ⟨_, .unsendable hname hsplit hfront hbad⟩

namespace InvalidRequest

variable {f : Failure}

/-- The server has no part in it. -/
theorem result_lookUp {library : String} (h : InvalidRequest library c.headers f) (s : Server) :
    (Client.lookUp ⟨c, s⟩ library).result = .error f := by
  cases h with
  | unnamed h => rw [h, Client.lookUp_empty]
  | unsendable named split before bad => rw [Client.lookUp_of_not_sendable named split before bad]

theorem ofFailure_eq {library : String} {headers : List Header}
    (h : InvalidRequest library headers f) (color : Bool) :
    Report.ofFailure color f = .labelled color "Invalid Request:" f.message := by
  cases h <;> rfl

end InvalidRequest

/-- **What a run makes of a request that cannot be sent.** It is complained about in front of every
server alike, but connecting comes first: where nobody listens, that is what the run complains
about. -/
theorem run_invalidRequest (hread : Arguments.read arguments = .ok a)
    (hconfig : a.clientConfig e.files = .ok c)
    (hinvalid : a.library = "" ∨ ∃ header ∈ a.headers, ¬ Rpc.Sendable header) :
    ∃ f, InvalidRequest a.library a.headers f ∧ ∀ network : Network,
      ∃ r, run { e with network } arguments p = .ok r ∧
        (∀ server, network c.endpoint = some server →
          r.Reports (.labelled e.color "Invalid Request:" f.message)) ∧
        (network c.endpoint = none →
          r.Reports (.labelled e.color "Connection Failed:"
            ("Failed to connect to '" ++ c.endpoint.render ++ "': '" ++ "transport error"
              ++ "'"))) := by
  obtain ⟨f, hf⟩ := exists_invalidRequest hinvalid
  refine ⟨f, hf, fun network => ⟨_, run_of_read hread _, ?_, ?_⟩⟩
  · intro server hserver
    have hlookUp : (Client.lookUp ⟨c, server⟩ a.library).result = .error f := by
      refine InvalidRequest.result_lookUp ?_ server
      rw [Arguments.headers_clientConfig hconfig]
      exact hf
    rw [← hf.ofFailure_eq]
    exact reports_of_failure (e := { e with network }) hconfig hserver hlookUp
  · intro hnobody
    exact reports_of_unreachable (e := { e with network }) hconfig hnobody

/-- What the program is told when the library has no name. -/
def unnamed : List String := ["", "--host=h", "--port=80"]

theorem run_invalidRequest_unnamed :
    Arguments.read unnamed = .ok { host := some "h", port := some 80 } ∧
      ∀ server : Server,
        ∃ r, run { smallEnvironment with network := fun _ => some server } unnamed = .ok r ∧
          r.Reports (.labelled false "Invalid Request:"
            "Invalid request: library name must not be empty") := by
  have hread : Arguments.read unnamed = .ok { host := some "h", port := some 80 } := rfl
  have hconfig : Arguments.clientConfig { host := some "h", port := some 80 }
      smallEnvironment.files = .ok (.ofEndpoint ⟨"h", 80, by decide, by decide, by decide⟩) := rfl
  obtain ⟨f, hf, hrun⟩ := run_invalidRequest hread hconfig (.inl rfl)
  refine ⟨hread, fun server => ?_⟩
  obtain ⟨r, hr, hreports, -⟩ := hrun fun _ => some server
  refine ⟨r, hr, ?_⟩
  cases hf with
  | unnamed => exact hreports server rfl
  | unsendable named => exact absurd rfl named

/-- Where nobody listens, nothing is said about the name. -/
theorem run_unnamed_unreachable :
    ∃ a c r, Arguments.read unnamed = .ok a ∧ a.library = "" ∧
      a.clientConfig smallEnvironment.files = .ok c ∧
      run { smallEnvironment with network := .unreachable } unnamed = .ok r ∧
      r.diagnostics ≠ (Report.labelled false "Invalid Request:"
        "Invalid request: library name must not be empty").text ++ "\n" := by
  refine ⟨_, _, _, rfl, rfl, rfl, rfl, ?_⟩
  decide

end LookUp

end LibraryRegistry.Program
