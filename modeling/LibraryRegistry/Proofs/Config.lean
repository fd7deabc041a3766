import LibraryRegistry.Config
import LibraryRegistry.Proofs.Endpoint
import LibraryRegistry.Proofs.Outcome

/-!
# What configurations are made of

Options say nothing about headers, so a configuration that is made of them has none; deadlines are
set without a change to anything else.

* `withDeadline_eq_ok_iff`, `deadline_setDeadline` — what setting a deadline changes
* `withDeadline_eq_error_iff` — when it fails
* `endpoint_ofOptions`, `endpoint_foldl_withHeader` — where the endpoint comes from
* `headers_ofOptions`, `headers_foldl_withHeader` — where headers come from
-/

namespace LibraryRegistry

/-- An option that must be there. -/
theorem elim_eq_ok_iff {ε α : Type} {o : Option α} {fault : ε} {a : α} :
    o.elim (.error fault) .ok = (.ok a : Except ε α) ↔ o = some a := by
  cases o <;> simp

namespace Config

variable {c c' : Config} {d : Duration}

/-! ## Deadlines -/

section SetDeadline

variable {k : Deadline} (hd : d.nanos ≠ 0)

@[simp] theorem endpoint_setDeadline : (c.setDeadline k d hd).endpoint = c.endpoint := by
  cases k <;> rfl

@[simp] theorem headers_setDeadline : (c.setDeadline k d hd).headers = c.headers := by
  cases k <;> rfl

/-- The other deadline stays as it is. -/
theorem deadline_setDeadline (k' : Deadline) :
    (c.setDeadline k d hd).deadline k' = if k' = k then d else c.deadline k' := by
  cases k <;> cases k' <;> rfl

end SetDeadline

/-- A deadline is set if it is not zero, and nothing else is changed. -/
theorem withDeadline_eq_ok_iff {k : Deadline} :
    c.withDeadline k d = .ok c' ↔ ∃ h : d.nanos ≠ 0, c' = c.setDeadline k d h := by
  unfold withDeadline
  split
  · next hzero => simp [hzero]
  · next hne => simp [hne, eq_comm]

/-- A deadline of zero is refused by its name. -/
theorem withDeadline_eq_error_iff {k : Deadline} {fault : ConfigFault} :
    c.withDeadline k d = .error fault ↔ d.nanos = 0 ∧ fault = .zeroDeadline k := by
  unfold withDeadline
  split
  · next hzero => simp [hzero, eq_comm]
  · next hne => simp [hne]

/-- Deadlines are set without a change to anything else. -/
theorem keeps_of_setMillis {k : Deadline} {ms : Option UInt64} (h : setMillis k ms c = .ok c') :
    c'.endpoint = c.endpoint ∧ c'.headers = c.headers := by
  unfold setMillis at h
  split at h
  · cases h
    exact ⟨rfl, rfl⟩
  · obtain ⟨hd, rfl⟩ := withDeadline_eq_ok_iff.1 h
    exact ⟨endpoint_setDeadline hd, headers_setDeadline hd⟩

/-! ## Endpoints -/

theorem ofHostPort_eq_ok_iff {host : String} {port : UInt16} :
    ofHostPort host port = .ok c ↔
      ∃ e : Endpoint, e.host = host ∧ e.port = port ∧ c = ofEndpoint e := by
  simp only [← and_assoc, ← Endpoint.ofHostPort_eq_ok_iff]
  unfold ofHostPort
  cases Endpoint.ofHostPort host port with
  | error fault => simp [Except.map]
  | ok e => simp [Except.map, eq_comm]

/-- A number is a port if it has sixteen bits. -/
theorem portOfInt_eq_ok_iff {n : Int} {port : UInt16} :
    portOfInt n = .ok port ↔ n = port.toNat := by
  have hlt : port.toNat < 65536 := port.toNat_lt
  unfold portOfInt
  split
  · next hrange =>
    have hmod : (UInt16.ofNat n.toNat).toNat = n.toNat := by
      rw [UInt16.toNat_ofNat']
      exact Nat.mod_eq_of_lt (by omega)
    rw [Except.ok.injEq, ← UInt16.toNat_inj, hmod]
    omega
  · next hrange =>
    simp only [reduceCtorEq, false_iff]
    omega

/-- The endpoint of a configuration is that of the options, and there are no headers. -/
theorem endpoint_ofOptions {o : Options} (h : ofOptions o = .ok c) :
    o.host = some c.endpoint.host ∧
      (∃ p, o.port = some p ∧ p.toInt = c.endpoint.port.toNat) ∧ c.headers = [] := by
  unfold ofOptions at h
  obtain ⟨host, hhost, h⟩ := exists_of_bind_eq_ok h
  obtain ⟨p, hp, h⟩ := exists_of_bind_eq_ok h
  obtain ⟨port, hport, h⟩ := exists_of_bind_eq_ok h
  obtain ⟨c₀, hstart, h⟩ := exists_of_bind_eq_ok h
  obtain ⟨c₁, hcall, hconnect⟩ := exists_of_bind_eq_ok h
  obtain ⟨e, rfl, rfl, rfl⟩ := ofHostPort_eq_ok_iff.1 hstart
  obtain ⟨hends₁, hheaders₁⟩ := keeps_of_setMillis hcall
  obtain ⟨hends₂, hheaders₂⟩ := keeps_of_setMillis hconnect
  rw [hends₂.trans hends₁]
  exact ⟨elim_eq_ok_iff.1 hhost, ⟨p, elim_eq_ok_iff.1 hp, portOfInt_eq_ok_iff.1 hport⟩,
    hheaders₂.trans hheaders₁⟩

/-- Options say nothing about headers. -/
theorem headers_ofOptions {o : Options} (h : ofOptions o = .ok c) : c.headers = [] :=
  (endpoint_ofOptions h).2.2

/-- Headers are added behind those that are there, and change nothing else. -/
theorem foldl_withHeader : ∀ (hs : List Header) (c : Config),
    hs.foldl withHeader c = { c with headers := c.headers ++ hs }
  | [], c => by
    rw [List.foldl_nil, List.append_nil]
  | h :: hs, c => by
    rw [List.foldl_cons, foldl_withHeader hs]
    simp [withHeader]

theorem endpoint_foldl_withHeader (hs : List Header) (c : Config) :
    (hs.foldl withHeader c).endpoint = c.endpoint := by
  rw [foldl_withHeader]

theorem headers_foldl_withHeader (hs : List Header) (c : Config) :
    (hs.foldl withHeader c).headers = c.headers ++ hs := by
  rw [foldl_withHeader]

end Config

end LibraryRegistry
