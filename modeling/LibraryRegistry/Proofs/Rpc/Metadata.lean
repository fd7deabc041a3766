import LibraryRegistry.Proofs.Dict
import LibraryRegistry.Rpc.Call

/-!
# What the headers of a call come to

The headers of a call are stored one after the other under their keys in lower case, so the last
value of a key counts. What is sent are these without the reserved keys, and the protocol's own.

* `metadataOf_of_sendable` — headers that can be sent make a dictionary of their entries
* `metadataOf_of_not_sendable` — of several headers that cannot be sent, the first is complained about
* `find?_sent` — where a key leads in what is sent
* `find?_sent_eq_some_iff` — what goes with a request, by the places of the headers
-/

namespace LibraryRegistry.Rpc

/-- A header that can be sent: a key for text values, and a text that can be a value. -/
def Sendable (h : Header) : Prop := (headerKey? h.1).isSome ∧ isHeaderValue h.2

/-- The entry of a header, its key in lower case. -/
def sentPair? (h : Header) : Option (String × String) := (headerKey? h.1).map (·, h.2)

theorem sentPair?_of_sendable {h : Header} (hs : Sendable h) :
    ∃ key, headerKey? h.1 = some key ∧ sentPair? h = some (key, h.2) := by
  obtain ⟨key, hk⟩ := Option.isSome_iff_exists.1 hs.1
  refine ⟨key, hk, ?_⟩
  rw [sentPair?, hk]
  rfl

theorem foldlM_addHeader : ∀ {headers : List Header} (m : Metadata), (∀ h ∈ headers, Sendable h) →
    headers.foldlM addHeader m = .ok (m.insertAll (headers.filterMap sentPair?))
  | [], _, _ => rfl
  | h :: headers, m, hall => by
    have hs := hall h List.mem_cons_self
    obtain ⟨key, hk, hentry⟩ := sentPair?_of_sendable hs
    have hadd : addHeader m h = .ok (m.insert key h.2) := by
      rw [addHeader, hk]
      exact if_pos hs.2
    rw [List.foldlM_cons, hadd, List.filterMap_cons_some hentry]
    exact foldlM_addHeader (m.insert key h.2) fun g hg => hall g (List.mem_cons_of_mem _ hg)

/-- **Headers that can be sent make a dictionary of their entries.** -/
theorem metadataOf_of_sendable {headers : List Header} (h : ∀ x ∈ headers, Sendable x) :
    metadataOf headers = .ok (Dict.ofList (headers.filterMap sentPair?)) :=
  foldlM_addHeader .empty h

/-! ## Headers that cannot be sent -/

/-- What is wrong with a header that cannot be sent: its key, or else its value. -/
def headerFault (h : Header) : CallFault :=
  if headerKey? h.1 = none then .invalidKey h.1 else .invalidValue h.1

theorem addHeader_of_not_sendable {h : Header} (hs : ¬ Sendable h) (m : Metadata) :
    addHeader m h = .error (headerFault h) := by
  rw [addHeader, headerFault]
  cases hkey : headerKey? h.1 with
  | none => rfl
  | some key =>
    have hvalue : ¬ isHeaderValue h.2 = true := fun hvalue => hs ⟨by rw [hkey]; rfl, hvalue⟩
    simp only [if_neg hvalue, reduceCtorEq, if_false]

/-- **The first header that cannot be sent is complained about**, whatever comes behind it. -/
theorem metadataOf_of_not_sendable {front back : List Header} {h : Header}
    (hfront : ∀ x ∈ front, Sendable x) (hs : ¬ Sendable h) :
    metadataOf (front ++ h :: back) = .error (headerFault h) := by
  rw [metadataOf, List.foldlM_append, foldlM_addHeader _ hfront]
  show (h :: back).foldlM addHeader _ = _
  rw [List.foldlM_cons, addHeader_of_not_sendable hs]
  rfl

/-- Either all headers can be sent, or there is a first one that cannot. -/
theorem sendable_or_first_not (headers : List Header) :
    (∀ h ∈ headers, Sendable h) ∨
      ∃ front h back, headers = front ++ h :: back ∧ (∀ x ∈ front, Sendable x) ∧ ¬ Sendable h := by
  induction headers with
  | nil => exact Or.inl fun _ hmem => nomatch hmem
  | cons g headers ih =>
    by_cases hg : Sendable g
    · rcases ih with hall | ⟨front, h, back, rfl, hfront, hs⟩
      · exact Or.inl (List.forall_mem_cons.2 ⟨hg, hall⟩)
      · exact Or.inr ⟨g :: front, h, back, rfl, List.forall_mem_cons.2 ⟨hg, hfront⟩, hs⟩
    · exact Or.inr ⟨[], g, headers, rfl, (fun _ hmem => nomatch hmem), hg⟩

/-! ## What is sent -/

/-- A key that no header has leads nowhere. -/
theorem find?_ofList_sentPair? {headers : List Header} {key : String}
    (h : ∀ x ∈ headers, headerKey? x.1 ≠ some key) :
    (Dict.ofList (headers.filterMap sentPair?)).find? key = none := by
  rw [Dict.ofList_eq_insertAll, Dict.find?_insertAll, Dict.find?_empty, Option.or_none]
  refine Dict.lookIn?_eq_none_of_ne fun e he heq => ?_
  obtain ⟨x, hx, hentry⟩ := List.mem_filterMap.1 (List.mem_reverse.1 he)
  obtain ⟨k, hk, rfl⟩ := Option.map_eq_some_iff.1 hentry
  exact h x hx (hk.trans (congrArg some heq))

/-- **Where a key leads in what is sent.** -/
theorem find?_sent (m : Metadata) (key : String) :
    m.sent.find? key = if "content-type" = key then some "application/grpc"
      else if "te" = key then some "trailers"
      else if reservedKeys.contains key then none else m.find? key := by
  have hkept := Dict.find?_ofList_filter (fun k => !reservedKeys.contains k) m key
  rw [Metadata.sent, Dict.find?_insert, Dict.find?_insert, hkept]
  cases reservedKeys.contains key <;> rfl

theorem find?_sent_encodingKey (m : Metadata) : m.sent.find? encodingKey = m.find? encodingKey := by
  rw [find?_sent, if_neg (by decide), if_neg (by decide), if_neg (by decide)]

/-! ## Repeated keys -/

/-- A key without regard to case. -/
def lowerCase (key : String) : String := String.ofList (key.toList.map Char.toLower)

theorem headerKey?_eq_lowerCase {key : String} (h : (headerKey? key).isSome) :
    headerKey? key = some (lowerCase key) := by
  rw [headerKey?] at h ⊢
  split
  · rfl
  · next hbad => rw [if_neg hbad] at h; cases h

/-- The value is that of the last header with the key, compared without regard to case. -/
def LastValue (headers : List Header) (key value : String) : Prop :=
  ∃ front k back, headers = front ++ (k, value) :: back ∧ lowerCase k = key ∧
    ∀ h ∈ back, lowerCase h.1 ≠ key

/-- What goes with a request that has the given headers: the two headers of the protocol, and of each
key that the protocol does not keep for itself the last value. -/
inductive Sent (headers : List Header) : String → String → Prop
  | te : Sent headers "te" "trailers"
  | contentType : Sent headers "content-type" "application/grpc"
  | last {key value : String} (h : LastValue headers key value)
      (hkey : key ∉ ["te", "content-type", "grpc-message", "grpc-message-type", "grpc-status"]) :
      Sent headers key value

section Sendable

variable {headers : List Header} (hsendable : ∀ h ∈ headers, Sendable h)

include hsendable

theorem filterMap_sentPair? :
    headers.filterMap sentPair? = headers.map fun h => (lowerCase h.1, h.2) := by
  induction headers with
  | nil => rfl
  | cons h headers ih =>
    obtain ⟨hh, hrest⟩ := List.forall_mem_cons.1 hsendable
    have hpair : sentPair? h = some (lowerCase h.1, h.2) := by
      rw [sentPair?, headerKey?_eq_lowerCase hh.1]
      rfl
    rw [List.filterMap_cons_some hpair, ih hrest]
    rfl

/-- **Of a repeated key the last value counts**, whatever the case of its letters. -/
theorem find?_ofList_eq_some_iff_lastValue {key value : String} :
    (Dict.ofList (headers.filterMap sentPair?)).find? key = some value ↔
      LastValue headers key value := by
  rw [filterMap_sentPair? hsendable, Dict.find?_ofList_eq_some_iff]
  constructor
  · rintro ⟨front, back, heq, hback⟩
    obtain ⟨front, rest, rfl, -, hrest⟩ := List.map_eq_append_iff.1 heq
    obtain ⟨h, back, rfl, hh, rfl⟩ := List.map_eq_cons_iff.1 hrest
    obtain ⟨k, v⟩ := h
    obtain ⟨hk, rfl⟩ := Prod.mk.inj hh
    exact ⟨front, k, back, rfl, hk, fun h hmem => hback _ (List.mem_map_of_mem hmem)⟩
  · rintro ⟨front, k, back, rfl, rfl, hback⟩
    refine ⟨_, _, List.map_append, ?_⟩
    intro e he
    obtain ⟨h, hmem, rfl⟩ := List.mem_map.1 he
    exact hback h hmem

/-- **What goes with a request.** -/
theorem find?_sent_eq_some_iff {key value : String} :
    (Metadata.sent (.ofList (headers.filterMap sentPair?))).find? key = some value ↔
      Sent headers key value := by
  rw [find?_sent]
  constructor
  · intro h
    by_cases hcontent : "content-type" = key
    · subst hcontent
      rw [if_pos rfl] at h
      cases h
      exact .contentType
    by_cases hte : "te" = key
    · subst hte
      rw [if_neg hcontent, if_pos rfl] at h
      cases h
      exact .te
    rw [if_neg hcontent, if_neg hte] at h
    by_cases hkey : reservedKeys.contains key = true
    · rw [if_pos hkey] at h
      cases h
    · rw [if_neg hkey] at h
      refine .last ((find?_ofList_eq_some_iff_lastValue hsendable).1 h) fun hmem => ?_
      exact hkey (List.contains_iff_mem.2 hmem)
  · intro h
    cases h with
    | te => rfl
    | contentType => rfl
    | last h hkey =>
      have hcontent : "content-type" ≠ key := by
        rintro rfl
        exact hkey (by decide)
      have hte : "te" ≠ key := by
        rintro rfl
        exact hkey (by decide)
      have hkept : ¬ reservedKeys.contains key = true := fun hmem =>
        hkey (List.contains_iff_mem.1 hmem)
      rw [if_neg hcontent, if_neg hte, if_neg hkept]
      exact (find?_ofList_eq_some_iff_lastValue hsendable).2 h

end Sendable

end LibraryRegistry.Rpc
