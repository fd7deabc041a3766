import LibraryRegistry.Proofs.Config

/-!
# What is checked of options

A configuration is made of options by eight checks in a fixed order. Each of them is a question about
the options alone; whatever else is wrong with them, the first check that finds something decides on
the fault.

* `Check`, `Check.Finds` — the checks, and what each of them finds
* `ofOptions_of_first` — the first check that finds something names the fault
* `exists_config_of_clear` — if none does, the configuration has the values of the options
* `ofOptions_eq_error_iff` — so there is a fault exactly if a check finds it
-/

namespace LibraryRegistry

open Text Net

/-- What is looked at when a configuration is made of options. -/
inductive Check
  | host
  | port
  | portRange
  | blankHost
  | zeroPort
  | address
  | timeout
  | connectTimeout
  deriving DecidableEq, Repr

namespace Check

/-- The checks in the order in which they are made. -/
def inOrder : List Check :=
  [host, port, portRange, blankHost, zeroPort, address, timeout, connectTimeout]

/-- The check is made before the other one. -/
def Before (check other : Check) : Prop := inOrder.idxOf check < inOrder.idxOf other

instance (check other : Check) : Decidable (check.Before other) := Nat.decLt _ _

/-- Host and port make no address: the URI would be too long, or the host has not the shape of a name
or of an IP address. -/
def IsNoAddress (host : String) (port : UInt16) : Prop :=
  ¬ ((renderUri host port).utf8ByteSize ≤ Uri.maxBytes ∧ IsUriHost (uriHost host.toList))

/-- What a check finds wrong with options. -/
inductive Finds (o : Options) : Check → ConfigFault → Prop
  | host : o.host = none → Finds o host .missingHost
  | port : o.port = none → Finds o port .missingPort
  | portRange {n : Int64} : o.port = some n → ¬ (0 ≤ n.toInt ∧ n.toInt ≤ 65535) →
      Finds o portRange (.invalidPort n.toInt)
  | blankHost {host : String} : o.host = some host → (∀ c ∈ host.toList, isBlank c = true) →
      Finds o blankHost .emptyHost
  | zeroPort : o.port = some 0 → Finds o zeroPort (.invalidPort 0)
  | address {host : String} {n : Int64} {port : UInt16} : o.host = some host → o.port = some n →
      n.toInt = port.toNat → IsNoAddress host port → Finds o address (.invalidHost host)
  | timeout : o.timeout = some 0 → Finds o timeout (.zeroDeadline .call)
  | connectTimeout : o.connectTimeout = some 0 → Finds o connectTimeout (.zeroDeadline .connection)

/-- The check finds nothing. -/
def Clear (o : Options) (check : Check) : Prop := ∀ fault, ¬ Finds o check fault

/-- The first check that finds something finds this fault. -/
def FindsFirst (o : Options) (fault : ConfigFault) : Prop :=
  ∃ check, Finds o check fault ∧ ∀ earlier : Check, earlier.Before check → Clear o earlier

variable {o : Options}

/-- Some check is the first that finds something, unless none does. -/
theorem exists_first (h : ¬ ∀ check, Clear o check) : ∃ fault, FindsFirst o fault := by
  obtain ⟨check, hcheck⟩ := Classical.not_forall.1 h
  clear h
  -- Among the checks that find something there is one in front of all others.
  induction hn : inOrder.idxOf check using Nat.strongRecOn generalizing check with
  | ind n ih =>
    by_cases hclear : ∀ earlier : Check, earlier.Before check → Clear o earlier
    · obtain ⟨fault, hfault⟩ := Classical.not_forall.1 hcheck
      exact ⟨fault, check, Classical.not_not.1 hfault, hclear⟩
    · obtain ⟨earlier, hearlier⟩ := Classical.not_forall.1 hclear
      obtain ⟨hbefore, hfinds⟩ := Classical.not_imp.1 hearlier
      exact ih (inOrder.idxOf earlier) (hn ▸ hbefore) earlier hfinds rfl

/-! ## What is known behind a check -/

theorem exists_host (h : Clear o host) : ∃ name, o.host = some name :=
  Option.ne_none_iff_exists'.1 fun hnone => h _ (.host hnone)

theorem exists_port (h : Clear o port) : ∃ n, o.port = some n :=
  Option.ne_none_iff_exists'.1 fun hnone => h _ (.port hnone)

theorem exists_portOfInt (h : Clear o portRange) {n : Int64} (hn : o.port = some n) :
    ∃ p : UInt16, n.toInt = p.toNat := by
  have hrange : 0 ≤ n.toInt ∧ n.toInt ≤ 65535 := Classical.byContradiction fun hrange =>
    h _ (.portRange hn hrange)
  refine ⟨UInt16.ofNat n.toInt.toNat, ?_⟩
  rw [UInt16.toNat_ofNat', Nat.mod_eq_of_lt (by omega)]
  omega

theorem isAllBlank_eq_false (h : Clear o blankHost) {name : String} (hname : o.host = some name) :
    isAllBlank name = false :=
  Bool.eq_false_iff.2 fun hblank => h _ (.blankHost hname (List.all_eq_true.1 hblank))

theorem port_ne_zero (h : Clear o zeroPort) {n : Int64} {p : UInt16} (hn : o.port = some n)
    (hp : n.toInt = p.toNat) : p ≠ 0 := by
  rintro rfl
  have hzero : n = 0 := Int64.toInt_inj.1 hp
  exact h _ (.zeroPort (hzero ▸ hn))

theorem isAddress_of_clear (h : Clear o address) {name : String} {n : Int64} {p : UInt16}
    (hname : o.host = some name) (hn : o.port = some n) (hp : n.toInt = p.toNat) :
    isAddress name p = true :=
  isAddress_iff.2 (Classical.not_not.1 fun hno => h _ (.address hname hn hp hno))

end Check

namespace Config

open Check

variable {o : Options} {fault : ConfigFault} {c : Config}

/-- The configuration has the values of the options, and the usual deadlines where they have none. -/
structure HasValues (c : Config) (o : Options) : Prop where
  host : o.host = some c.endpoint.host
  port : ∃ n, o.port = some n ∧ n.toInt = c.endpoint.port.toNat
  timeout : c.timeout = o.timeout.elim (.ofSeconds 30) fun ms => .ofMillis ms.toNat
  connectTimeout :
    c.connectTimeout = o.connectTimeout.elim (.ofSeconds 5) fun ms => .ofMillis ms.toNat

/-! ## Deadlines -/

theorem nanos_ofMillis_eq_zero_iff {ms : UInt64} :
    (Duration.ofMillis ms.toNat).nanos = 0 ↔ ms = 0 := by
  rw [← UInt64.toNat_inj]
  show ms.toNat * 1000000 = 0 ↔ ms.toNat = 0
  omega

theorem setMillis_zero (k : Deadline) : setMillis k (some 0) c = .error (.zeroDeadline k) :=
  withDeadline_eq_error_iff.2 ⟨rfl, rfl⟩

/-- A deadline that is not zero is set, and nothing else. -/
theorem exists_setMillis (k : Deadline) {ms : Option UInt64} (h : ms ≠ some 0) (c : Config) :
    ∃ c', setMillis k ms c = .ok c' ∧ c'.endpoint = c.endpoint ∧ c'.headers = c.headers ∧
      c'.deadline k = ms.elim (c.deadline k) (fun ms => .ofMillis ms.toNat) ∧
      ∀ k', k' ≠ k → c'.deadline k' = c.deadline k' := by
  cases ms with
  | none => exact ⟨c, rfl, rfl, rfl, rfl, fun _ _ => rfl⟩
  | some ms =>
    have hne : (Duration.ofMillis ms.toNat).nanos ≠ 0 := fun hzero =>
      h (congrArg some (nanos_ofMillis_eq_zero_iff.1 hzero))
    refine ⟨_, withDeadline_eq_ok_iff.2 ⟨hne, rfl⟩, endpoint_setDeadline hne,
      headers_setDeadline hne, ?_, ?_⟩
    · rw [deadline_setDeadline, if_pos rfl]
      rfl
    · intro k' hk'
      rw [deadline_setDeadline, if_neg hk']

/-! ## All checks -/

/-- Both deadlines, once the endpoint is there. -/
def setDeadlines (o : Options) (c : Config) : Except ConfigFault Config :=
  setMillis .call o.timeout c >>= setMillis .connection o.connectTimeout

theorem ofOptions_of_host_port {host : String} {n : Int64} (hhost : o.host = some host)
    (hn : o.port = some n) :
    ofOptions o = portOfInt n.toInt >>= fun port => ofHostPort host port >>= setDeadlines o := by
  rw [ofOptions, hhost, hn]
  rfl

theorem ofOptions_of_host_port_fault {host : String} {n : Int64} {port : UInt16}
    (hhost : o.host = some host) (hn : o.port = some n) (hport : n.toInt = port.toNat)
    (h : Endpoint.ofHostPort host port = .error fault) : ofOptions o = .error fault := by
  rw [ofOptions_of_host_port hhost hn, portOfInt_eq_ok_iff.2 hport]
  show ofHostPort host port >>= setDeadlines o = .error fault
  rw [ofHostPort, h]
  rfl

/-- Behind the checks of host and port there is an endpoint, and only the deadlines are left. -/
theorem exists_endpoint (h : ∀ check : Check, check.Before .timeout → Clear o check) :
    ∃ (n : Int64) (e : Endpoint), o.host = some e.host ∧ o.port = some n ∧ n.toInt = e.port.toNat ∧
      ofOptions o = setDeadlines o (ofEndpoint e) := by
  obtain ⟨name, hname⟩ := exists_host (h .host (by decide))
  obtain ⟨n, hn⟩ := exists_port (h .port (by decide))
  obtain ⟨p, hp⟩ := exists_portOfInt (h .portRange (by decide)) hn
  have hblank := isAllBlank_eq_false (h .blankHost (by decide)) hname
  have hne := port_ne_zero (h .zeroPort (by decide)) hn hp
  have haddress := isAddress_of_clear (h .address (by decide)) hname hn hp
  refine ⟨n, ⟨name, p, hblank, hne, haddress⟩, hname, hn, hp, ?_⟩
  rw [ofOptions_of_host_port hname hn, portOfInt_eq_ok_iff.2 hp]
  show ofHostPort name p >>= setDeadlines o = _
  rw [ofHostPort, Endpoint.ofHostPort_of_isAddress hblank hne haddress]
  rfl

/-- **The first check that finds something names the fault.** -/
theorem ofOptions_of_first (h : FindsFirst o fault) : ofOptions o = .error fault := by
  obtain ⟨check, hfinds, hclear⟩ := h
  cases hfinds with
  | host hnone =>
    rw [ofOptions, hnone]
    rfl
  | port hnone =>
    obtain ⟨name, hname⟩ := exists_host (hclear .host (by decide))
    rw [ofOptions, hname, hnone]
    rfl
  | portRange hn hrange =>
    obtain ⟨name, hname⟩ := exists_host (hclear .host (by decide))
    rw [ofOptions_of_host_port hname hn, portOfInt, if_neg hrange]
    rfl
  | blankHost hname hblank =>
    obtain ⟨n, hn⟩ := exists_port (hclear .port (by decide))
    obtain ⟨p, hp⟩ := exists_portOfInt (hclear .portRange (by decide)) hn
    exact ofOptions_of_host_port_fault hname hn hp
      (Endpoint.ofHostPort_of_blank (List.all_eq_true.2 hblank))
  | zeroPort hn =>
    obtain ⟨name, hname⟩ := exists_host (hclear .host (by decide))
    have hblank := isAllBlank_eq_false (hclear .blankHost (by decide)) hname
    exact ofOptions_of_host_port_fault hname hn rfl (Endpoint.ofHostPort_zero hblank)
  | address hname hn hp hno =>
    have hblank := isAllBlank_eq_false (hclear .blankHost (by decide)) hname
    have hne := port_ne_zero (hclear .zeroPort (by decide)) hn hp
    exact ofOptions_of_host_port_fault hname hn hp
      (Endpoint.ofHostPort_of_not_isAddress hblank hne fun haddress => hno (isAddress_iff.1 haddress))
  | timeout hzero =>
    obtain ⟨_, e, -, -, -, hset⟩ := exists_endpoint hclear
    rw [hset, setDeadlines, hzero, setMillis_zero]
    rfl
  | connectTimeout hzero =>
    have hbefore : ∀ check : Check, check.Before .timeout → Clear o check := fun check hlt =>
      hclear check (Nat.lt_trans hlt (by decide))
    have htimeout : o.timeout ≠ some 0 := fun hz => hclear .timeout (by decide) _ (.timeout hz)
    obtain ⟨_, e, -, -, -, hset⟩ := exists_endpoint hbefore
    obtain ⟨c, hc, -⟩ := exists_setMillis .call htimeout (ofEndpoint e)
    rw [hset, setDeadlines, hc, hzero]
    exact setMillis_zero (c := c) .connection

/-- **If no check finds anything, the configuration has the values of the options**, and no
headers. -/
theorem exists_config_of_clear (h : ∀ check, Clear o check) :
    ∃ c, ofOptions o = .ok c ∧ c.HasValues o ∧ c.headers = [] := by
  have htimeout : o.timeout ≠ some 0 := fun hz => h .timeout _ (.timeout hz)
  have hconnect : o.connectTimeout ≠ some 0 := fun hz => h .connectTimeout _ (.connectTimeout hz)
  obtain ⟨n, e, hhost, hn, hp, hset⟩ := exists_endpoint fun check _ => h check
  obtain ⟨c₁, hc₁, he₁, hh₁, hcall, hkept₁⟩ := exists_setMillis .call htimeout (ofEndpoint e)
  obtain ⟨c₂, hc₂, he₂, hh₂, hconnection, hkept₂⟩ := exists_setMillis .connection hconnect c₁
  have hends : c₂.endpoint = e := he₂.trans he₁
  have htimeout₂ : c₂.timeout = c₁.timeout := hkept₂ .call (by decide)
  have hconnect₁ : c₁.connectTimeout = .ofSeconds 5 := hkept₁ .connection (by decide)
  refine ⟨c₂, ?_, ⟨?_, ⟨n, hn, ?_⟩, htimeout₂.trans hcall, ?_⟩, hh₂.trans hh₁⟩
  · rw [hset, setDeadlines, hc₁]
    exact hc₂
  · rw [hends]
    exact hhost
  · rw [hends]
    exact hp
  · rw [← hconnect₁]
    exact hconnection

/-- **There is a fault exactly if a check finds it before any other finds something.** -/
theorem ofOptions_eq_error_iff : ofOptions o = .error fault ↔ FindsFirst o fault := by
  refine ⟨fun h => ?_, ofOptions_of_first⟩
  by_cases hclear : ∀ check, Clear o check
  · obtain ⟨c, hc, -⟩ := exists_config_of_clear hclear
    rw [h] at hc
    cases hc
  · obtain ⟨fault', hfirst⟩ := exists_first hclear
    have herror := ofOptions_of_first hfirst
    rw [h] at herror
    cases herror
    exact hfirst

end Config

end LibraryRegistry
