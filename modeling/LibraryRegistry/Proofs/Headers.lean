import LibraryRegistry.Proofs.LookUp

/-!
# Headers on their way to the server

What a server gets with the request of a look-up: the two headers of the protocol, and each configured
key once, in lower case, with the value that was configured last. A server that sends the headers back
shows just these.

* `mem_sentMetadata_iff` — what a server gets with a request
* `requestOf_eq_of_lastValue` — headers that agree on their last values make the same request
* `lookUp_echo` — what is shown by a server that sends the headers back
* `lookUp_metadata` — what the server gets with the request of a look-up, and what is shown of it
-/

namespace LibraryRegistry

namespace Rpc

section Sendable

variable {headers : List Header} (hsendable : ∀ h ∈ headers, Sendable h)

include hsendable

/-- **What a server gets with a request.** -/
theorem mem_sentMetadata_iff {key value : String} :
    (key, value) ∈ (sentMetadata headers).toList ↔ Sent headers key value := by
  rw [← Dict.find?_eq_some_iff]
  exact find?_sent_eq_some_iff hsendable

/-- Messages that are left as they are may be announced. -/
theorem encodingComplaint?_sentMetadata
    (hidentity : ∀ h ∈ headers, lowerCase h.1 = encodingKey → h.2 = "identity") :
    encodingComplaint? ((sentMetadata headers).find? encodingKey) = none := by
  rw [sentMetadata, find?_sent_encodingKey]
  cases hfind : (Dict.ofList (headers.filterMap sentPair?)).find? encodingKey with
  | none => rfl
  | some value =>
    obtain ⟨front, k, back, hsplit, hk, -⟩ :=
      (find?_ofList_eq_some_iff_lastValue hsendable).1 hfind
    have hmem : (k, value) ∈ headers := by
      rw [hsplit]
      exact List.mem_append_right _ List.mem_cons_self
    have hvalue : value = "identity" := hidentity (k, value) hmem hk
    rw [hvalue]
    rfl

/-- Headers that agree on the last value of each key make the same request, whatever their order. -/
theorem requestOf_eq_of_lastValue {other : List Header} (hother : ∀ h ∈ other, Sendable h)
    (h : ∀ key value, LastValue headers key value ↔ LastValue other key value) (l : Lookup) :
    requestOf headers l = requestOf other l := by
  have hsame : Dict.ofList (headers.filterMap sentPair?)
      = Dict.ofList (other.filterMap sentPair?) := by
    refine Dict.ext_find? fun key => Option.ext fun value => ?_
    rw [find?_ofList_eq_some_iff_lastValue hsendable, find?_ofList_eq_some_iff_lastValue hother]
    exact h key value
  rw [requestOf, requestOf, sentMetadata, sentMetadata, hsame]

end Sendable

end Rpc

/-! ## What is shown of the headers -/

theorem metadataLines_perm (m : Rpc.Metadata) :
    (metadataLines m).Perm (m.toList.map fun h => h.1 ++ "=" ++ h.2) :=
  List.mergeSort_perm _ _

theorem pairwise_metadataLines (m : Rpc.Metadata) :
    (metadataLines m).Pairwise fun a b => a ≤ b := by
  have htrans : ∀ a b c : String, decide (a ≤ b) = true → decide (b ≤ c) = true →
      decide (a ≤ c) = true := by
    intro a b c hab hbc
    exact decide_eq_true (String.le_trans (of_decide_eq_true hab) (of_decide_eq_true hbc))
  have htotal : ∀ a b : String, (decide (a ≤ b) || decide (b ≤ a)) = true := by
    intro a b
    simpa using String.le_total a b
  refine (List.pairwise_mergeSort htrans htotal _).imp ?_
  intro a b hab
  exact of_decide_eq_true hab

namespace Client

variable {c : Config} {library : String}

/-- The record that shows the headers of a request: one line `key=value` an entry, in ascending
order. -/
def Shows (m : Rpc.Metadata) (library : String) (record : Record) : Prop :=
  ∃ lines : List String, lines.Perm (m.toList.map fun h => h.1 ++ "=" ++ h.2) ∧
    (lines.Pairwise fun a b => a ≤ b) ∧
    record = { name := library, description := "\n".intercalate lines }

/-- What an echo server answers with. -/
def echoed (m : Rpc.Metadata) (library : String) : Record where
  name := library
  description := "\n".intercalate (metadataLines m)

theorem shows_echoed (m : Rpc.Metadata) (library : String) : Shows m library (echoed m library) :=
  ⟨metadataLines m, metadataLines_perm m, pairwise_metadataLines m, rfl⟩

/-- What is shown is determined by the entries. -/
theorem Shows.eq_of_perm {m : Rpc.Metadata} {record : Record} (h : Shows m library record)
    {lines : List String} (hperm : lines.Perm (m.toList.map fun h => h.1 ++ "=" ++ h.2))
    (hsorted : lines.Pairwise fun a b => a ≤ b) :
    record = { name := library, description := "\n".intercalate lines } := by
  obtain ⟨shown, hshown, hshownSorted, rfl⟩ := h
  have hlines : shown = lines :=
    List.Perm.eq_of_pairwise (fun _ _ _ _ => String.le_antisymm) hshownSorted hsorted
      (hshown.trans hperm.symm)
  rw [hlines]

/-- Headers that agree on their last values are the same to every server, ready or not. -/
theorem lookUp_of_lastValue {headers : List Header} (hname : library ≠ "")
    (hsendable : ∀ h ∈ c.headers, Rpc.Sendable h) (hother : ∀ h ∈ headers, Rpc.Sendable h)
    (hsame : ∀ key value,
      Rpc.LastValue headers key value ↔ Rpc.LastValue c.headers key value) (s : Server) :
    lookUp ⟨{ c with headers }, s⟩ library = lookUp ⟨c, s⟩ library := by
  cases hready : s.unreadiness? with
  | some reason =>
    rw [lookUp_of_not_ready hname hsendable hready,
      lookUp_of_not_ready (c := { c with headers }) hname hother hready]
  | none =>
    have hrequest : requestOf { c with headers } library = requestOf c library :=
      Rpc.requestOf_eq_of_lastValue hother hsendable hsame _
    rw [lookUp_of_ready hname hsendable hready,
      lookUp_of_ready (c := { c with headers }) hname hother hready, hrequest]
    rfl

/-- A server that sends the headers back shows what it got. -/
theorem lookUp_echo (hname : library ≠ "") (hsendable : ∀ h ∈ c.headers, Rpc.Sendable h)
    (hidentity : ∀ h ∈ c.headers, Rpc.lowerCase h.1 = Rpc.encodingKey → h.2 = "identity")
    (hrequest : (Lookup.encode ⟨library⟩).length ≤ Rpc.maxMessageBytes)
    (hrecord : (echoed (Rpc.sentMetadata c.headers) library).encode.length ≤ Rpc.maxMessageBytes) :
    lookUp ⟨c, .service .echo⟩ library
      = ⟨.ok (echoed (Rpc.sentMetadata c.headers) library), true⟩ := by
  have hread : Service.readLookup (requestOf c library) = .ok ⟨library⟩ :=
    Service.readLookup_of_no_complaint
      (Rpc.encodingComplaint?_sentMetadata hsendable hidentity) rfl hrequest
  have hreturns : Service.echo.Returns (requestOf c library)
      (.ok (echoed (Rpc.sentMetadata c.headers) library)) := ⟨rfl, _, hread, rfl⟩
  rw [lookUp_service hname hsendable hreturns hrecord]
  exact congrArg (Outcome.mk · true) (resultOf_of_ok (Nat.not_lt_zero _) rfl)

/-- **What a server gets with the request of a look-up.** Every server that is ready gets the same
entries, each key once, whatever the order of the headers is otherwise, and a server that sends them
back shows all of them. -/
theorem lookUp_metadata (hname : library ≠ "") (hsendable : ∀ h ∈ c.headers, Rpc.Sendable h)
    (hidentity : ∀ h ∈ c.headers, Rpc.lowerCase h.1 = "grpc-encoding" → h.2 = "identity") :
    ∃ m : Rpc.Metadata,
      (∀ key value, (key, value) ∈ m.toList ↔ Rpc.Sent c.headers key value) ∧
      (m.toList.map (·.1)).Nodup ∧
      (∀ s : Server, s.unreadiness? = none →
        lookUp ⟨c, s⟩ library = ⟨resultOf c (Rpc.answerOf (s.respond
          ⟨⟨lookupPath, none⟩, m, Rpc.encodeFrame (Lookup.encode ⟨library⟩)⟩)), true⟩) ∧
      (∀ headers : List Header, (∀ h ∈ headers, Rpc.Sendable h) →
        (∀ key value, Rpc.LastValue headers key value ↔ Rpc.LastValue c.headers key value) →
        ∀ s, lookUp ⟨{ c with headers }, s⟩ library = lookUp ⟨c, s⟩ library) ∧
      ∃ record, Shows m library record ∧
        ((Lookup.encode ⟨library⟩).length ≤ Rpc.maxMessageBytes →
          record.encode.length ≤ Rpc.maxMessageBytes →
          lookUp ⟨c, .service .echo⟩ library = ⟨.ok record, true⟩) := by
  refine ⟨Rpc.sentMetadata c.headers, ?_, Dict.nodup_keys _, ?_, ?_,
    echoed (Rpc.sentMetadata c.headers) library, shows_echoed _ _, ?_⟩
  · intro key value
    exact Rpc.mem_sentMetadata_iff hsendable
  · intro s hready
    exact lookUp_of_ready hname hsendable hready
  · intro headers hother hsame
    exact lookUp_of_lastValue hname hsendable hother hsame
  · exact lookUp_echo hname hsendable hidentity

/-- A configuration with a key in two cases, a key of the protocol, and the compression that is
none. -/
def repeatedConfig : Config :=
  ((tracedConfig.withHeader ("te", "x")).withHeader ("x-id", "é")).withHeader
    ("Grpc-Encoding", "identity")

/-- What is shown of the headers of `repeatedConfig`. -/
def shownRecord : Record where
  name := "x"
  description := "content-type=application/grpc\ngrpc-encoding=identity\nte=trailers\nx-id=é"

theorem headers_repeatedConfig : repeatedConfig.headers
    = [("X-Id", "42"), ("te", "x"), ("x-id", "é"), ("Grpc-Encoding", "identity")] := rfl

theorem lookUp_metadata_repeated :
    "x" ≠ "" ∧ (∀ h ∈ repeatedConfig.headers, Rpc.Sendable h) ∧
    (∀ h ∈ repeatedConfig.headers, Rpc.lowerCase h.1 = "grpc-encoding" → h.2 = "identity") ∧
    (Lookup.encode ⟨"x"⟩).length ≤ Rpc.maxMessageBytes ∧
    shownRecord.encode.length ≤ Rpc.maxMessageBytes ∧
    lookUp ⟨repeatedConfig, .service .echo⟩ "x" = ⟨.ok shownRecord, true⟩ := by
  have hsendable : ∀ h ∈ repeatedConfig.headers, Rpc.Sendable h := by
    rw [headers_repeatedConfig]
    simp only [List.forall_mem_cons]
    exact ⟨⟨by decide, by decide⟩, ⟨by decide, by decide⟩, ⟨by decide, by decide⟩,
      ⟨by decide, by decide⟩, nofun⟩
  have hidentity : ∀ h ∈ repeatedConfig.headers,
      Rpc.lowerCase h.1 = "grpc-encoding" → h.2 = "identity" := by
    rw [headers_repeatedConfig]
    simp only [List.forall_mem_cons]
    exact ⟨by decide, by decide, by decide, fun _ => trivial, nofun⟩
  have hrequest : (Lookup.encode ⟨"x"⟩).length ≤ Rpc.maxMessageBytes := by decide +kernel
  have hshown : shownRecord.encode.length ≤ Rpc.maxMessageBytes := by decide +kernel
  obtain ⟨m, hentries, -, -, -, record, hshows, hecho⟩ :=
    lookUp_metadata (show "x" ≠ "" by decide) hsendable hidentity
  have hm : m = Rpc.sentMetadata repeatedConfig.headers := by
    refine Dict.ext_find? fun key => Option.ext fun value => ?_
    rw [Dict.find?_eq_some_iff, Dict.find?_eq_some_iff, hentries,
      Rpc.mem_sentMetadata_iff hsendable]
  have hlines : (m.toList.map fun h => h.1 ++ "=" ++ h.2)
      = ["content-type=application/grpc", "grpc-encoding=identity", "te=trailers", "x-id=é"] := by
    rw [hm]
    decide +kernel
  have hrecord : record = shownRecord := hshows.eq_of_perm (.of_eq hlines.symm) (by decide)
  rw [hrecord] at hecho
  exact ⟨by decide, hsendable, hidentity, hrequest, hshown, hecho hrequest hshown⟩

end Client

end LibraryRegistry
