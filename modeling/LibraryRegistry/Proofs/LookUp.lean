import LibraryRegistry.Client
import LibraryRegistry.Proofs.Rpc.Call

/-!
# The stages of a look-up

Before anything is sent, the name of the library, then the headers in their order, then the readiness
of the server are looked at. The first fault is what comes of the look-up, and the server has no part
in it. Without a fault there is one request, and what comes of the look-up is read from its response.

* `lookUp_empty`, `lookUp_of_not_sendable`, `lookUp_of_not_ready`, `lookUp_of_ready` — the stages
* `lookUp_service` — a look-up in a service
* `stages_lookUp` — one look-up, and what it adds to the requests that the server has got
* `lookUpAll_stages` — look-ups one after the other
-/

namespace LibraryRegistry.Client

variable {c : Config} {s : Server} {library : String}

/-! ## One look-up -/

/-- The request of a look-up. -/
def requestOf (c : Config) (library : String) : Request := Rpc.requestOf c.headers ⟨library⟩

/-- What a client makes of an answer: one that takes too long is as good as none. -/
def resultOf (c : Config) (answer : Rpc.Answer) : Except Failure Record :=
  if c.timeout.nanos < answer.delay.nanos then .error (.timeout c.endpoint.render c.timeout)
  else
    match answer.result with
    | .ok record => .ok record
    | .error status => .error (.ofStatus c.endpoint.render c.timeout status)

/-- An answer that comes too late does not count, whatever it is. -/
theorem resultOf_of_late {answer : Rpc.Answer} (h : c.timeout.nanos < answer.delay.nanos) :
    resultOf c answer = .error (.timeout c.endpoint.render c.timeout) :=
  if_pos h

theorem resultOf_of_error {answer : Rpc.Answer} {status : Rpc.Status}
    (h : ¬ c.timeout.nanos < answer.delay.nanos) (herror : answer.result = .error status) :
    resultOf c answer = .error (.ofStatus c.endpoint.render c.timeout status) := by
  rw [resultOf, if_neg h, herror]

theorem resultOf_of_ok {answer : Rpc.Answer} {record : Record}
    (h : ¬ c.timeout.nanos < answer.delay.nanos) (hok : answer.result = .ok record) :
    resultOf c answer = .ok record := by
  rw [resultOf, if_neg h, hok]

/-- A library without a name is refused before anything is sent. -/
theorem lookUp_empty (c : Config) (s : Server) :
    lookUp ⟨c, s⟩ "" = ⟨.error (.invalidRequest "library name must not be empty"), false⟩ := by
  rw [lookUp, if_pos rfl]
  rfl

theorem lookUp_of_not_sendable {front back : List Header} {h : Header} (hname : library ≠ "")
    (hheaders : c.headers = front ++ h :: back) (hfront : ∀ x ∈ front, Rpc.Sendable x)
    (hs : ¬ Rpc.Sendable h) :
    lookUp ⟨c, s⟩ library = ⟨.error (.request (Rpc.headerFault h)), false⟩ := by
  have hcall : Rpc.call s lookupPath c.headers ⟨library⟩ = .error (Rpc.headerFault h) := by
    rw [hheaders]
    exact Rpc.call_of_not_sendable parse_lookupPath hfront hs s ⟨library⟩
  rw [lookUp, if_neg hname]
  simp only [hcall]
  -- A fault of a header is none of the server.
  by_cases hkey : Rpc.headerKey? h.1 = none
  · rw [Rpc.headerFault, if_pos hkey]
  · rw [Rpc.headerFault, if_neg hkey]

section Sendable

variable (hname : library ≠ "") (hsendable : ∀ h ∈ c.headers, Rpc.Sendable h)

include hname hsendable

theorem lookUp_of_not_ready {reason : String} (h : s.unreadiness? = some reason) :
    lookUp ⟨c, s⟩ library = ⟨.error (.connection c.endpoint.render reason), false⟩ := by
  rw [lookUp, if_neg hname]
  simp only [Rpc.call_of_not_ready parse_lookupPath hsendable h]

/-- **A look-up without a fault is read from the response to its one request.** -/
theorem lookUp_of_ready (h : s.unreadiness? = none) :
    lookUp ⟨c, s⟩ library
      = ⟨resultOf c (Rpc.answerOf (s.respond (requestOf c library))), true⟩ := by
  rw [lookUp, if_neg hname]
  have hrequest : Rpc.requestTo ⟨lookupPath, none⟩ c.headers ⟨library⟩ = requestOf c library := rfl
  simp only [Rpc.call_of_ready parse_lookupPath hsendable h, hrequest]
  generalize Rpc.answerOf (s.respond (requestOf c library)) = answer
  by_cases hlate : c.timeout.nanos < answer.delay.nanos
  · rw [if_pos hlate, resultOf_of_late hlate]
  rw [if_neg hlate]
  cases hanswer : answer.result with
  | ok record => rw [resultOf_of_ok hlate hanswer]
  | error status => rw [resultOf_of_error hlate hanswer]

/-- A look-up in a service is read from what its method returns. -/
theorem lookUp_service {service : Service} {answer : Except Rpc.Status Record}
    (hreturns : service.Returns (requestOf c library) answer) (htellable : Rpc.Tellable answer) :
    lookUp ⟨c, .service service⟩ library = ⟨resultOf c ⟨answer, service.delay⟩, true⟩ := by
  rw [lookUp_of_ready hname hsendable rfl, Server.respond,
    Rpc.answerOf_of_returns hreturns htellable]

end Sendable

/-! ## Look-ups one after the other -/

/-- A failure that a client finds by itself. -/
def IsLocal : Failure → Prop
  | .invalidRequest _ | .request _ => True
  | _ => False

/-- No answer is taken for a failure that the client found by itself. -/
theorem not_isLocal_of_resultOf {answer : Rpc.Answer} {f : Failure}
    (h : resultOf c answer = .error f) : ¬ IsLocal f := by
  rw [resultOf] at h
  split at h
  · obtain rfl := Except.error.inj h
    exact id
  split at h
  · exact nomatch h
  · obtain rfl := Except.error.inj h
    rw [Failure.ofStatus]
    split <;> exact id

/-- What a look-up comes to, and how many requests the server has got before and after it. -/
structure Stages (c : Config) (s : Server) (library : String) (outcome : Outcome)
    (before after : Nat) : Prop where
  unnamed : library = "" →
    outcome.result = .error (.invalidRequest "library name must not be empty") ∧ after = before
  /-- The first header that cannot be sent is complained about: its key, or else its value. -/
  unsendable : library ≠ "" → ∀ front h back, c.headers = front ++ h :: back →
    (∀ x ∈ front, Rpc.Sendable x) → ¬ Rpc.Sendable h →
      outcome.result = .error (.request
        (if Rpc.headerKey? h.1 = none then .invalidKey h.1 else .invalidValue h.1)) ∧
      after = before
  unready : library ≠ "" → (∀ h ∈ c.headers, Rpc.Sendable h) →
    ∀ reason, s.unreadiness? = some reason →
      outcome.result = .error (.connection c.endpoint.render reason) ∧ after = before
  /-- A request is sent, once, whatever comes back for it. -/
  sent : library ≠ "" → (∀ h ∈ c.headers, Rpc.Sendable h) → s.unreadiness? = none →
    outcome.result = resultOf c (Rpc.answerOf (s.respond (requestOf c library))) ∧
    (∀ f, outcome.result = .error f → ¬ IsLocal f) ∧ after = before + 1

/-- Every look-up goes through the stages in their order. -/
theorem stages_lookUp (c : Config) (s : Server) (library : String) (before : Nat) :
    Stages c s library (lookUp ⟨c, s⟩ library) before
      (before + (lookUp ⟨c, s⟩ library).reached.toNat) where
  unnamed := by
    rintro rfl
    rw [lookUp_empty]
    exact ⟨rfl, rfl⟩
  unsendable := by
    intro hname front h back hheaders hfront hs
    rw [lookUp_of_not_sendable hname hheaders hfront hs]
    exact ⟨rfl, rfl⟩
  unready := by
    intro hname hsendable reason h
    rw [lookUp_of_not_ready hname hsendable h]
    exact ⟨rfl, rfl⟩
  sent := by
    intro hname hsendable h
    rw [lookUp_of_ready hname hsendable h]
    exact ⟨rfl, fun _ => not_isLocal_of_resultOf, rfl⟩

/-- A server that is not ready gets nothing. -/
theorem not_reached_of_not_ready {reason : String} (h : s.unreadiness? = some reason)
    (library : String) : (lookUp ⟨c, s⟩ library).reached = false := by
  by_cases hname : library = ""
  · rw [hname, lookUp_empty]
  rcases Rpc.sendable_or_first_not c.headers with hsendable | ⟨front, g, back, hheaders, hfront, hs⟩
  · rw [lookUp_of_not_ready hname hsendable h]
  · rw [lookUp_of_not_sendable hname hheaders hfront hs]

/-- How many requests the server has got before the first of some look-ups and after each. -/
def tally (n : Nat) (outcomes : List Outcome) : List Nat :=
  n :: reachedCounts n (outcomes.map (·.reached))

theorem tally_cons (n : Nat) (o : Outcome) (outcomes : List Outcome) :
    tally n (o :: outcomes) = n :: tally (n + o.reached.toNat) outcomes := by
  rw [tally, tally, List.map_cons]
  cases o.reached <;> rfl

theorem getElem?_tally : ∀ (outcomes : List Outcome) (n k : Nat), k ≤ outcomes.length →
    (tally n outcomes)[k]? = some (n + (outcomes.take k).countP (·.reached))
  | _, _, 0, _ => rfl
  | [], _, _ + 1, hk => absurd hk (Nat.not_succ_le_zero _)
  | o :: outcomes, n, k + 1, hk => by
    rw [tally_cons, List.getElem?_cons_succ,
      getElem?_tally outcomes (n + o.reached.toNat) k (Nat.le_of_succ_le_succ hk),
      List.take_succ_cons, List.countP_cons, Nat.add_assoc, Nat.add_comm o.reached.toNat]
    cases o.reached <;> rfl

/-- **Look-ups one after the other.** Each goes through the same stages; the server gets one request
for each that passes them, and none as long as it is not ready. -/
theorem lookUpAll_stages (c : Config) (s : Server) (libraries : List String) (n : Nat) {k : Nat}
    {library : String} (hk : libraries[k]? = some library) :
    ∃ outcome before after, (lookUpAll ⟨c, s⟩ libraries)[k]? = some outcome ∧
      (tally n (lookUpAll ⟨c, s⟩ libraries))[k]? = some before ∧
      (tally n (lookUpAll ⟨c, s⟩ libraries))[k + 1]? = some after ∧
      Stages c s library outcome before after ∧
      (s.unreadiness? ≠ none → before = n ∧ after = n) := by
  have houtcome : (lookUpAll ⟨c, s⟩ libraries)[k]? = some (lookUp ⟨c, s⟩ library) := by
    rw [lookUpAll, List.getElem?_map, hk]
    rfl
  have hlt : k < (lookUpAll ⟨c, s⟩ libraries).length := (List.getElem?_eq_some_iff.1 houtcome).1
  have hbefore := getElem?_tally (lookUpAll ⟨c, s⟩ libraries) n k (Nat.le_of_lt hlt)
  have hafter := getElem?_tally (lookUpAll ⟨c, s⟩ libraries) n (k + 1) hlt
  -- The outcomes up to this one are those before it, and this one.
  have hstep : ((lookUpAll ⟨c, s⟩ libraries).take (k + 1)).countP (·.reached)
      = ((lookUpAll ⟨c, s⟩ libraries).take k).countP (·.reached)
        + (lookUp ⟨c, s⟩ library).reached.toNat := by
    rw [List.take_add_one, houtcome, List.countP_append]
    cases h : (lookUp ⟨c, s⟩ library).reached <;> simp [h]
  rw [hstep, ← Nat.add_assoc] at hafter
  refine ⟨_, _, _, houtcome, hbefore, hafter, stages_lookUp c s library _, ?_⟩
  intro hne
  obtain ⟨reason, hreason⟩ := Option.ne_none_iff_exists'.1 hne
  have hnone : ((lookUpAll ⟨c, s⟩ libraries).take k).countP (·.reached) = 0 := by
    refine List.countP_eq_zero.2 fun o ho => ?_
    obtain ⟨l, -, rfl⟩ := List.mem_map.1 (List.mem_of_mem_take ho)
    rw [not_reached_of_not_ready hreason]
    exact Bool.false_ne_true
  rw [hnone, not_reached_of_not_ready hreason]
  exact ⟨rfl, rfl⟩

/-- The settings of a client that sends a header with each call. -/
def tracedConfig : Config :=
  (Config.ofEndpoint ⟨"h", 80, by decide, by decide, by decide⟩).withHeader ("X-Id", "42")

theorem sendable_tracedConfig : ∀ h ∈ tracedConfig.headers, Rpc.Sendable h := by
  intro h hmem
  obtain rfl := List.mem_singleton.1 hmem
  exact ⟨by decide, by decide⟩

theorem encoding_tracedConfig :
    ∀ h ∈ tracedConfig.headers, Rpc.headerKey? h.1 ≠ some Rpc.encodingKey := by
  intro h hmem
  obtain rfl := List.mem_singleton.1 hmem
  decide

/-- The same with a second header, whose key is none. -/
def spacedConfig : Config := tracedConfig.withHeader ("bad key", "\n")

theorem lookUpAll_stages_bad_key :
    ["", "x"][1]? = some "x" ∧
    ∃ outcome before after,
      (lookUpAll ⟨spacedConfig, .fixed {}⟩ ["", "x"])[1]? = some outcome ∧
      (tally 7 (lookUpAll ⟨spacedConfig, .fixed {}⟩ ["", "x"]))[1]? = some before ∧
      (tally 7 (lookUpAll ⟨spacedConfig, .fixed {}⟩ ["", "x"]))[1 + 1]? = some after ∧
      outcome.result = .error (.request (.invalidKey "bad key")) ∧ after = before := by
  obtain ⟨outcome, before, after, houtcome, hbefore, hafter, hstages, -⟩ :=
    lookUpAll_stages spacedConfig (.fixed {}) ["", "x"] 7 (rfl : ["", "x"][1]? = some "x")
  have hbad : ¬ Rpc.Sendable ("bad key", "\n") := fun hs => absurd hs.1 (by decide)
  exact ⟨rfl, outcome, before, after, houtcome, hbefore, hafter,
    hstages.unsendable (by decide) tracedConfig.headers ("bad key", "\n") [] rfl
      sendable_tracedConfig hbad⟩

end LibraryRegistry.Client
