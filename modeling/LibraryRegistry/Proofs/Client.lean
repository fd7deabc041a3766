import LibraryRegistry.Proofs.LookUp

/-!
# What a client answers

A client over a registry answers each look-up from the name, the deadline and the records alone.

* `lookUpAll_registry` — the answers to look-ups one after the other
-/

namespace LibraryRegistry

namespace Registry

/-- A registry of records that are short enough has only answers that can be told. -/
theorem tellable_answer {registry : Registry} {l : Lookup}
    (h : ∀ record, registry.find? l.library = some record →
      record.encode.length ≤ Rpc.maxMessageBytes) : Rpc.Tellable (registry.answer l) := by
  rw [answer]
  by_cases hname : l.library = ""
  · rw [if_pos hname]
    exact Rpc.Code.noConfusion
  · rw [if_neg hname]
    cases hfind : registry.find? l.library with
    | none => exact Rpc.Code.noConfusion
    | some record => exact h record hfind

end Registry

namespace Client

/-- How a client with a configuration is to answer a look-up in a registry that takes its time. -/
def registryAnswer (registry : Registry) (delay : Duration) (c : Config) (library : String) :
    Except Failure Record :=
  if library = "" then .error (.invalidRequest "library name must not be empty")
  else if c.timeout.nanos < delay.nanos then .error (.timeout c.endpoint.render c.timeout)
  else
    match registry.find? library with
    | some record => .ok record
    | none => .error (.remote ⟨.notFound, "Library: " ++ library
        ++ " doesn't exist, bug the author - or grab the package name."⟩)

/-- What a client makes of an answer of a registry is what it is to answer. -/
theorem resultOf_answer {registry : Registry} {delay : Duration} {c : Config} {library : String}
    (hname : library ≠ "") :
    resultOf c ⟨registry.answer ⟨library⟩, delay⟩ = registryAnswer registry delay c library := by
  rw [resultOf, registryAnswer, if_neg hname, Registry.answer, if_neg hname]
  by_cases htime : c.timeout.nanos < delay.nanos
  · rw [if_pos htime, if_pos htime]
  · rw [if_neg htime, if_neg htime]
    cases registry.find? library with
    | none => rfl
    | some record => rfl

/-- One look-up in a registry. -/
theorem lookUp_registry {registry : Registry} {delay : Duration} {c : Config} {library : String}
    (hsendable : ∀ h ∈ c.headers, Rpc.Sendable h)
    (hencoding : ∀ h ∈ c.headers, Rpc.headerKey? h.1 ≠ some Rpc.encodingKey)
    (hrequest : (Lookup.encode ⟨library⟩).length ≤ Rpc.maxMessageBytes)
    (hrecord : ∀ record, registry.find? library = some record →
      record.encode.length ≤ Rpc.maxMessageBytes) :
    (lookUp ⟨c, .service (.registry registry delay)⟩ library).result
      = registryAnswer registry delay c library := by
  by_cases hname : library = ""
  · rw [hname, lookUp_empty]
    rfl
  · have hreturns : (Service.registry registry delay).Returns (requestOf c library)
        (registry.answer ⟨library⟩) := Rpc.returns_requestOf _ hencoding hrequest
    rw [lookUp_service hname hsendable hreturns (Registry.tellable_answer hrecord)]
    exact resultOf_answer hname

/-- **A client over a registry answers look-ups one by one from the name, the deadline and the
records.** -/
theorem lookUpAll_registry {registry : Registry} {delay : Duration} {c : Config}
    {libraries : List String} (hsendable : ∀ h ∈ c.headers, Rpc.Sendable h)
    (hencoding : ∀ h ∈ c.headers, Rpc.headerKey? h.1 ≠ some Rpc.encodingKey)
    (hrequest : ∀ library ∈ libraries,
      (Lookup.encode ⟨library⟩).length ≤ Rpc.maxMessageBytes)
    (hrecord : ∀ library ∈ libraries, ∀ record, registry.find? library = some record →
      record.encode.length ≤ Rpc.maxMessageBytes) :
    (lookUpAll ⟨c, .service (.registry registry delay)⟩ libraries).map (·.result)
      = libraries.map (registryAnswer registry delay c) := by
  -- A client keeps nothing from one look-up to the next.
  rw [lookUpAll, List.map_map]
  exact List.map_congr_left fun library h =>
    lookUp_registry hsendable hencoding (hrequest library h) (hrecord library h)

theorem lookUpAll_registry_three :
    (∀ h ∈ tracedConfig.headers,
      Rpc.Sendable h ∧ Rpc.headerKey? h.1 ≠ some Rpc.encodingKey) ∧
    (∀ library ∈ ["", "é", "x"], (Lookup.encode ⟨library⟩).length ≤ Rpc.maxMessageBytes) ∧
    sparseRecord.encode.length ≤ Rpc.maxMessageBytes ∧
    (lookUpAll ⟨tracedConfig, .service (.registry (.ofList [("é", sparseRecord)]) ⟨5⟩)⟩
      ["", "é", "x"]).map (·.result)
      = [.error (.invalidRequest "library name must not be empty"), .ok sparseRecord,
        .error (.remote ⟨.notFound,
          "Library: x doesn't exist, bug the author - or grab the package name."⟩)] := by
  have hheaders : ∀ h ∈ tracedConfig.headers,
      Rpc.Sendable h ∧ Rpc.headerKey? h.1 ≠ some Rpc.encodingKey := fun h hmem =>
    ⟨sendable_tracedConfig h hmem, encoding_tracedConfig h hmem⟩
  have hrequests : ∀ library ∈ ["", "é", "x"],
      (Lookup.encode ⟨library⟩).length ≤ Rpc.maxMessageBytes := by decide +kernel
  have hrecord : sparseRecord.encode.length ≤ Rpc.maxMessageBytes := by decide +kernel
  refine ⟨hheaders, hrequests, hrecord, ?_⟩
  refine (lookUpAll_registry sendable_tracedConfig encoding_tracedConfig hrequests
    fun library _ record hfind => ?_).trans rfl
  obtain ⟨-, rfl⟩ : library = "é" ∧ record = sparseRecord := by
    have hmem : (library, record) ∈ [("é", sparseRecord)] := Dict.find?_eq_some_iff.1 hfind
    exact Prod.mk.inj (List.mem_singleton.1 hmem)
  exact hrecord

end Client

end LibraryRegistry
