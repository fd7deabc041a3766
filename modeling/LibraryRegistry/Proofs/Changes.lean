import LibraryRegistry.Proofs.Config
import LibraryRegistry.Proofs.LookUp
import LibraryRegistry.Program.LookUp

/-!
# Configurations and their changes

A configuration starts from a host and a port, from options, or from a command line, and is changed
step by step; a change that fails leaves it as it was. Whatever the changes, it stays a configuration:
its endpoint is that of the start, no deadline is zero, and each deadline is the last one that was set.

* `Start.names_endpoint` — the endpoint of a start
* `Changed.of_apply`, `apply_eq_error_iff` — one change
* `changed_after` — all changes, one after the other
* `after_changes` — every configuration that can be reached
-/

namespace LibraryRegistry.Config

/-! ## Starts -/

/-- What a configuration is made from. -/
inductive Start
  | hostPort (host : String) (port : UInt16)
  | options (o : Options)
  | json (text : String)
  | file (files : Files) (path : String)
  | commandLine (files : Files) (a : Program.LookUp.Arguments)

namespace Start

/-- The configuration that is made from a start. -/
def config : Start → Except ConfigFault Config
  | hostPort host port => Config.ofHostPort host port
  | options o => ofOptions o
  | json text => ofJson text
  | file files path => load files path
  | commandLine files a => a.clientConfig files

/-- The host and the port that a start names. -/
inductive Names : Start → String → UInt16 → Prop
  | hostPort {host : String} {port : UInt16} : Names (.hostPort host port) host port
  | options {o : Options} {host : String} {p : Int64} {port : UInt16} (hhost : o.host = some host)
      (hp : o.port = some p) (hport : p.toInt = port.toNat) : Names (.options o) host port
  | json {text : String} {o : Options} {host : String} {port : UInt16}
      (ho : Options.ofJson text = .ok o) (h : Names (.options o) host port) :
      Names (.json text) host port
  | file {files : Files} {path : String} {o : Options} {host : String} {port : UInt16}
      (ho : Options.load files path = .ok o) (h : Names (.options o) host port) :
      Names (.file files path) host port
  | commandLine {files : Files} {a : Program.LookUp.Arguments} {o : Options} {host : String}
      {port : UInt16} (ho : a.fileOptions files = .ok o)
      (h : Names (.options (o.merge a.options)) host port) : Names (.commandLine files a) host port

theorem names_of_ofOptions {o : Options} {c : Config} (h : ofOptions o = .ok c) :
    Names (.options o) c.endpoint.host c.endpoint.port := by
  obtain ⟨hhost, ⟨p, hp, hport⟩, -⟩ := endpoint_ofOptions h
  exact .options hhost hp hport

/-- **The endpoint of a configuration is the one that its start names.** -/
theorem names_endpoint {start : Start} {c : Config} (h : start.config = .ok c) :
    start.Names c.endpoint.host c.endpoint.port := by
  cases start with
  | hostPort host port =>
    obtain ⟨e, rfl, rfl, rfl⟩ := ofHostPort_eq_ok_iff.1 h
    exact .hostPort
  | options o => exact names_of_ofOptions h
  | json text =>
    obtain ⟨o, ho, h⟩ := exists_of_bind_eq_ok h
    exact .json ho (names_of_ofOptions h)
  | file files path =>
    obtain ⟨o, ho, h⟩ := exists_of_bind_eq_ok h
    exact .file ho (names_of_ofOptions h)
  | commandLine files a =>
    obtain ⟨o, ho, h⟩ := exists_of_bind_eq_ok h
    obtain ⟨c₀, hoptions, h⟩ := exists_of_bind_eq_ok h
    cases h
    rw [endpoint_foldl_withHeader]
    exact .commandLine ho (names_of_ofOptions hoptions)

end Start

/-! ## One change -/

/-- What a change sets this deadline to, if it sets it. -/
def Step.duration? : Deadline → Step → Option Duration
  | .call, .timeout d => some d
  | .connection, .connectTimeout d => some d
  | _, _ => none

/-- The header that a change adds, if it adds one. -/
def Step.header? : Step → Option Header
  | .header h => some h
  | _ => none

/-- What changes that succeed make of a configuration: each deadline is the last that was set, and
headers are added behind those that are there. -/
structure Changed (c : Config) (steps : List Step) (c' : Config) : Prop where
  endpoint : c'.endpoint = c.endpoint
  deadline : ∀ k, c'.deadline k = (steps.filterMap (Step.duration? k)).getLastD (c.deadline k)
  headers : c'.headers = c.headers ++ steps.filterMap Step.header?

variable {c c' c'' : Config} {s : Step} {steps steps' : List Step} {fault : ConfigFault}

theorem deadline_pos (c : Config) (k : Deadline) : 0 < (c.deadline k).nanos := by
  cases k with
  | call => exact Nat.pos_of_ne_zero c.timeout_ne_zero
  | connection => exact Nat.pos_of_ne_zero c.connectTimeout_ne_zero

/-- The change sets this deadline, and does nothing else. -/
structure Step.Sets (s : Step) (k : Deadline) (d : Duration) : Prop where
  apply : ∀ c : Config, c.apply s = c.withDeadline k d
  duration? : ∀ k', s.duration? k' = if k' = k then some d else none
  header? : s.header? = none

theorem Step.sets_or_adds (s : Step) : (∃ k d, s.Sets k d) ∨ ∃ h, s = .header h := by
  cases s with
  | timeout d => exact .inl ⟨.call, d, fun _ => rfl, fun k' => by cases k' <;> rfl, rfl⟩
  | connectTimeout d =>
    exact .inl ⟨.connection, d, fun _ => rfl, fun k' => by cases k' <;> rfl, rfl⟩
  | header h => exact .inr ⟨h, rfl⟩

/-- **A change fails if and only if it sets a deadline to zero**, and the fault names the deadline. -/
theorem apply_eq_error_iff : c.apply s = .error fault ↔
    ∃ k d, s.duration? k = some d ∧ d.nanos = 0 ∧ fault = .zeroDeadline k := by
  rcases s.sets_or_adds with ⟨k, d, hsets⟩ | ⟨h, rfl⟩
  · rw [hsets.apply, withDeadline_eq_error_iff]
    constructor
    · rintro ⟨hd, hf⟩
      exact ⟨k, d, by rw [hsets.duration?, if_pos rfl], hd, hf⟩
    · rintro ⟨k', d', hk, hd, hf⟩
      rw [hsets.duration?] at hk
      split at hk
      · next heq =>
        cases hk
        exact ⟨hd, heq ▸ hf⟩
      · cases hk
  · simp [apply, Step.duration?]

theorem Changed.nil : Changed c [] c where
  endpoint := rfl
  deadline _ := rfl
  headers := (List.append_nil _).symm

theorem Changed.append (h : Changed c steps c') (h' : Changed c' steps' c'') :
    Changed c (steps ++ steps') c'' where
  endpoint := h'.endpoint.trans h.endpoint
  deadline k := by
    rw [h'.deadline, h.deadline, List.filterMap_append]
    simp [List.getLastD_eq_getLast?, List.getLast?_append]
  headers := by rw [h'.headers, h.headers, List.filterMap_append, List.append_assoc]

/-- **A change that succeeds** sets its deadline or adds its header, and changes nothing else. -/
theorem Changed.of_apply (h : c.apply s = .ok c') : Changed c [s] c' := by
  rcases s.sets_or_adds with ⟨k, d, hsets⟩ | ⟨h', rfl⟩
  · rw [hsets.apply] at h
    obtain ⟨hd, rfl⟩ := withDeadline_eq_ok_iff.1 h
    refine ⟨endpoint_setDeadline hd, fun k' => ?_, ?_⟩
    · rw [deadline_setDeadline, List.filterMap_cons, hsets.duration?]
      split <;> rfl
    · rw [headers_setDeadline, List.filterMap_cons_none hsets.header?, List.filterMap_nil,
        List.append_nil]
  · cases h
    exact ⟨rfl, fun k => by cases k <;> rfl, rfl⟩

/-! ## Changes one after the other -/

/-- The configuration behind a change; a change that fails leaves it as it was. -/
def settle (c : Config) (s : Step) : Config :=
  match c.apply s with
  | .error _ => c
  | .ok c' => c'

/-- The configuration behind changes that are made one after the other. -/
def after (c : Config) (steps : List Step) : Config := steps.foldl settle c

theorem after_cons (c : Config) (s : Step) (steps : List Step) :
    c.after (s :: steps) = (c.settle s).after steps := rfl

/-- The changes that succeed where they are made. -/
def succeeded (c : Config) : List Step → List Step
  | [] => []
  | s :: steps =>
    match c.apply s with
    | .error _ => succeeded c steps
    | .ok c' => s :: succeeded c' steps

/-- **A run of changes** does what those of its changes do that succeed. -/
theorem changed_after (steps : List Step) (c : Config) :
    Changed c (c.succeeded steps) (c.after steps) := by
  induction steps generalizing c with
  | nil => exact Changed.nil
  | cons s steps ih =>
    rw [after_cons]
    cases happly : c.apply s with
    | error fault =>
      simp only [settle, succeeded, happly]
      exact ih c
    | ok c' =>
      simp only [settle, succeeded, happly]
      exact (Changed.of_apply happly).append (ih c')

/-- Changes that add headers succeed. -/
theorem headers_succeeded (steps : List Step) (c : Config) :
    (c.succeeded steps).filterMap Step.header? = steps.filterMap Step.header? := by
  induction steps generalizing c with
  | nil => rfl
  | cons s steps ih =>
    cases happly : c.apply s with
    | error fault =>
      have hnone : s.header? = none := by
        cases s with
        | header h => cases happly
        | _ => rfl
      simp only [succeeded, happly]
      rw [ih, List.filterMap_cons_none hnone]
    | ok c' =>
      simp only [succeeded, happly]
      rw [List.filterMap_cons, List.filterMap_cons, ih]

theorem history_singleton (c : Config) (s : Step) : c.history [s] = [c.apply s] := by
  cases happly : c.apply s <;> simp only [history, happly]

/-- What happens behind changes is what happens to the configuration that they lead to. -/
theorem history_append (steps steps' : List Step) (c : Config) :
    c.history (steps ++ steps') = c.history steps ++ (c.after steps).history steps' := by
  induction steps generalizing c with
  | nil => rfl
  | cons s steps ih =>
    rw [after_cons]
    cases happly : c.apply s with
    | error fault =>
      simp only [settle, history, List.cons_append, happly]
      rw [ih]
    | ok c' =>
      simp only [settle, history, List.cons_append, happly]
      rw [ih]

/-! ## All configurations -/

/-- **Every configuration that can be reached from a start**, whatever changes are made and whichever
of them fail. -/
theorem after_changes {start : Start} (h : start.config = .ok c) (steps : List Step) :
    (start.Names c.endpoint.host c.endpoint.port ∧
      Endpoint.ofHostPort c.endpoint.host c.endpoint.port = .ok c.endpoint ∧
      1 ≤ c.endpoint.port.toNat ∧ c.endpoint.port.toNat ≤ 65535) ∧
    (c.after steps).endpoint = c.endpoint ∧
    (∀ k, 0 < ((c.after steps).deadline k).nanos ∧ (c.after steps).deadline k
      = ((c.succeeded steps).filterMap (Step.duration? k)).getLastD (c.deadline k)) ∧
    (c.after steps).headers = c.headers ++ steps.filterMap Step.header? ∧
    ∀ s, c.history (steps ++ [s]) = c.history steps ++ [(c.after steps).apply s] ∧
      ∀ fault, (c.after steps).apply s = .error fault ↔
        ∃ k d, s.duration? k = some d ∧ d.nanos = 0 ∧ fault = .zeroDeadline k := by
  have hafter : Changed c (c.succeeded steps) (c.after steps) := changed_after steps c
  refine ⟨⟨Start.names_endpoint h, Endpoint.ofHostPort_eq_ok_iff.2 ⟨rfl, rfl⟩,
    c.endpoint.port_range⟩, hafter.endpoint,
    fun k => ⟨deadline_pos _ k, hafter.deadline k⟩, ?_,
    fun s => ⟨?_, fun fault => apply_eq_error_iff⟩⟩
  · rw [hafter.headers, headers_succeeded]
  · rw [history_append, history_singleton]

/-- A header and a deadline, between two changes that fail. -/
def mixedSteps : List Step :=
  [.timeout ⟨0⟩, .header ("X-Id", "42"), .timeout ⟨1⟩, .connectTimeout ⟨0⟩]

theorem after_changes_mixed :
    (Start.commandLine (fun _ => .error .missing)
      { host := some "h", port := some 80, headers := [("X-Id", "42")] }).config
        = .ok Client.tracedConfig ∧
    (Client.tracedConfig.after mixedSteps).endpoint = Client.tracedConfig.endpoint ∧
    (Client.tracedConfig.after mixedSteps).deadline .call = ⟨1⟩ ∧
    (Client.tracedConfig.after mixedSteps).deadline .connection = .ofSeconds 5 ∧
    (Client.tracedConfig.after mixedSteps).headers = [("X-Id", "42"), ("X-Id", "42")] ∧
    (Client.tracedConfig.after mixedSteps).apply (.connectTimeout ⟨0⟩)
      = .error (.zeroDeadline .connection) := by
  have hstart : (Start.commandLine (fun _ => .error .missing)
      { host := some "h", port := some 80, headers := [("X-Id", "42")] }).config
        = .ok Client.tracedConfig := rfl
  obtain ⟨-, hendpoint, hdeadline, hheaders, hnext⟩ := after_changes hstart mixedSteps
  refine ⟨hstart, hendpoint, ?_, ?_, ?_, ?_⟩
  · rw [(hdeadline .call).2]
    rfl
  · rw [(hdeadline .connection).2]
    rfl
  · rw [hheaders]
    rfl
  · exact ((hnext (.connectTimeout ⟨0⟩)).2 _).2 ⟨.connection, ⟨0⟩, rfl, rfl, rfl⟩

end LibraryRegistry.Config
