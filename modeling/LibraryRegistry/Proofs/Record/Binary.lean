import LibraryRegistry.Proofs.Record.Table
import LibraryRegistry.Record.Binary

/-!
# Records as binary messages, there and back

The entries of a map may be written in any order, and the order of one map has nothing to do with
that of another. `Release.Written` and `Record.Written` say which bytes are a written message.

* `takes_dependency`, `takes_release` — how the entries of the two maps are read
* `takes_encodeWith`, `Written.takes_overlay` — what the written fields do to a message
* `decode_written_messages` — every message is read back, and its size is that of what was written
-/

namespace LibraryRegistry

open Wire

namespace Lookup

theorem takes_encode {depth : Nat} {l : Lookup} (hlen : l.encode.length < 2 ^ 64) :
    (fields depth).Takes {} l.encode l := by
  have hs := length_utf8_le_length_encodeText 1 l.library
  refine FieldReader.takes_encodeText (by decide) (by decide) (fun h => Lookup.ext h) fun _ rest => ?_
  exact FieldReader.read_textField (Nat.lt_of_le_of_lt hs hlen) rest

theorem decode_encode {l : Lookup} (hlen : l.encode.length < 2 ^ 64) : decode l.encode = .ok l :=
  (takes_encode hlen).merge

theorem encodedSize_eq_length {l : Lookup} (hlen : l.encode.length < 2 ^ 64) :
    l.encodedSize = l.encode.length := by
  have hs := length_utf8_le_length_encodeText 1 l.library
  exact (length_encodeText (by decide) (Nat.lt_of_le_of_lt hs hlen)).symm

end Lookup

namespace Release

/-- The bytes are a written release: its dependencies come in any order. -/
def Written (r : Release) (bytes : List UInt8) : Prop :=
  ∃ order : List (String × String), order.Perm r.dependencies.toList ∧ bytes = r.encodeWith order

theorem written_encode (r : Release) : r.Written r.encode := ⟨_, .refl _, rfl⟩

/-- A dependency is read from its entry. -/
theorem takes_dependency (depth : Nat) {e : String × String}
    (hlen : (entryBody e.1 (Text.utf8 e.2)).length < 2 ^ 64) :
    (FieldReader.entryFields depth <| .text fun (e : String × String) s => (e.1, s)).Takes ("", "")
      (entryBody e.1 (Text.utf8 e.2)) e := by
  have hk := length_key_le_length_entryBody e.1 (Text.utf8 e.2)
  have hv := length_value_le_length_entryBody e.1 (Text.utf8 e.2)
  refine FieldReader.takes_entryFields (by omega) (fun h => ?_) fun rest => ?_
  -- A version number that is left out is the empty one.
  · exact Text.utf8_injective (h.trans rfl)
  · exact FieldReader.read_text rfl (by omega) rest

theorem encodeWith_eq (order : List (String × String)) (r : Release) :
    r.encodeWith order = encodeTable r.name r.version order fun e => Text.utf8 e.2 := rfl

/-- A release laid over another: its texts where they are not empty, its dependencies one by one. -/
def overlay (old r : Release) : Release where
  name := laterText old.name r.name
  version := laterText old.version r.version
  dependencies := old.dependencies.insertAll r.dependencies.toList

theorem overlay_empty_left (r : Release) : overlay {} r = r := by
  have hd : Dict.ofList r.dependencies.toList = r.dependencies := Dict.ofList_of_perm (.refl _)
  exact Release.ext (laterText_empty_left _) (laterText_empty_left _) hd

/-- **The written fields lay a release over another**, with the dependencies that are written. -/
theorem takes_encodeWith {depth : Nat} (hd : depth ≠ 0) {order : List (String × String)}
    {r : Release} (hlen : (r.encodeWith order).length < 2 ^ 64) (old : Release) :
    (fields depth).Takes old (r.encodeWith order)
      { old.overlay r with dependencies := old.dependencies.insertAll order } := by
  have hmake : MadeOf Release.mk (fun r s => { r with name := s }) (fun r s => { r with version := s })
      fun r library version => { r with dependencies := r.dependencies.insert library version } :=
    ⟨fun _ _ _ _ => rfl, fun _ _ _ _ => rfl, fun _ _ _ _ _ => rfl⟩
  rw [encodeWith_eq] at hlen ⊢
  exact takes_encodeTable hmake hd (fun e _ => takes_dependency (depth - 1)) hlen old.name
    old.version old.dependencies

/-- A written release is laid over another wherever a release may stand. -/
theorem Written.takes_overlay {depth : Nat} (hd : depth ≠ 0) {r : Release} {bytes : List UInt8}
    (h : r.Written bytes) (hlen : bytes.length < 2 ^ 64) (old : Release) :
    (fields depth).Takes old bytes (old.overlay r) := by
  obtain ⟨order, hperm, rfl⟩ := h
  have ht := takes_encodeWith hd hlen old
  rwa [Dict.insertAll_of_perm hperm] at ht

theorem Written.takes {depth : Nat} (hd : depth ≠ 0) {r : Release} {bytes : List UInt8}
    (h : r.Written bytes) (hlen : bytes.length < 2 ^ 64) : (fields depth).Takes {} bytes r := by
  have ht := h.takes_overlay hd hlen {}
  rwa [overlay_empty_left] at ht

theorem Written.decode {r : Release} {bytes : List UInt8} (h : r.Written bytes)
    (hlen : bytes.length < 2 ^ 64) : decode bytes = .ok r :=
  (h.takes (by decide) hlen).merge

/-- The size does not depend on the order. -/
theorem Written.encodedSize_eq {r : Release} {bytes : List UInt8} (h : r.Written bytes)
    (hlen : bytes.length < 2 ^ 64) : r.encodedSize = bytes.length := by
  obtain ⟨order, hperm, rfl⟩ := h
  rw [encodeWith_eq] at hlen ⊢
  exact length_encodeTable hperm hlen fun e _ _ =>
    (Text.length_utf8 e.2).symm

theorem eq_empty_of_written_nil {r : Release} (h : r.Written []) : r = {} := by
  have hd : decode [] = .ok r := h.decode (by decide)
  have h0 : decode [] = .ok {} := FieldReader.Takes.nil.merge
  exact Except.ok.inj (hd.symm.trans h0)

end Release

namespace Record

/-- The bytes are a written record: its releases come in any order, each written with its
dependencies in any order. -/
def Written (r : Record) (bytes : List UInt8) : Prop :=
  ∃ (order : List (String × Release)) (write : String × Release → List UInt8),
    order.Perm r.releases.toList ∧ (∀ e ∈ order, e.2.Written (write e)) ∧
      bytes = r.encodeWith (order.map fun e => (e.1, write e))

theorem written_encode (r : Record) : r.Written r.encode :=
  ⟨_, fun e => e.2.encode, .refl _, fun e _ => e.2.written_encode, rfl⟩

/-- A release is read from its entry, two levels further in. -/
theorem takes_release {depth : Nat} (hd : 1 < depth) {e : String × Release} {bytes : List UInt8}
    (hw : e.2.Written bytes) (hlen : (entryBody e.1 bytes).length < 2 ^ 64) :
    (FieldReader.entryFields depth <| .nested depth (Release.fields (depth - 1)) (·.2)
      fun (e : String × Release) release => (e.1, release)).Takes ("", {}) (entryBody e.1 bytes) e := by
  have hk := length_key_le_length_entryBody e.1 bytes
  have hv := length_value_le_length_entryBody e.1 bytes
  refine FieldReader.takes_entryFields (by omega) (fun h => ?_) fun rest => ?_
  -- Only the empty release is written as nothing, and it is what an entry starts with.
  · subst h
    exact Release.eq_empty_of_written_nil hw
  · have ht : (Release.fields (depth - 1)).Takes (e.1, ({} : Release)).2 bytes e.2 :=
      hw.takes (by omega) (by omega)
    have hd0 : depth ≠ 0 := by omega
    exact FieldReader.read_nested hd0 rfl ht (by omega) rest

theorem encodeWith_map (r : Record) (order : List (String × Release))
    (write : String × Release → List UInt8) :
    r.encodeWith (order.map fun e => (e.1, write e))
      = encodeTable r.name r.description order write := by
  rw [encodeWith, List.flatMap_map]
  rfl

/-- A record laid over another: its texts where they are not empty, its releases one by one. -/
def overlay (old r : Record) : Record where
  name := laterText old.name r.name
  description := laterText old.description r.description
  releases := old.releases.insertAll r.releases.toList

theorem overlay_empty_left (r : Record) : overlay {} r = r := by
  have hd : Dict.ofList r.releases.toList = r.releases := Dict.ofList_of_perm (.refl _)
  exact Record.ext (laterText_empty_left _) (laterText_empty_left _) hd

/-- **The written fields lay a record over another**, with the releases that are written. -/
theorem takes_encodeWith {depth : Nat} (hd : 2 < depth) {order : List (String × Release)}
    {write : String × Release → List UInt8} (hw : ∀ e ∈ order, e.2.Written (write e)) {r : Record}
    (hlen : (r.encodeWith (order.map fun e => (e.1, write e))).length < 2 ^ 64) (old : Record) :
    (fields depth).Takes old (r.encodeWith (order.map fun e => (e.1, write e)))
      { old.overlay r with releases := old.releases.insertAll order } := by
  rw [encodeWith_map] at hlen ⊢
  have hmake : MadeOf Record.mk (fun r s => { r with name := s })
      (fun r s => { r with description := s })
      fun r version release => { r with releases := r.releases.insert version release } :=
    ⟨fun _ _ _ _ => rfl, fun _ _ _ _ => rfl, fun _ _ _ _ _ => rfl⟩
  exact takes_encodeTable hmake (by omega) (fun e he => takes_release (by omega) (hw e he)) hlen
    old.name old.description old.releases

/-- A written record is laid over another. -/
theorem Written.takes_overlay {depth : Nat} (hd : 2 < depth) {r : Record} {bytes : List UInt8}
    (h : r.Written bytes) (hlen : bytes.length < 2 ^ 64) (old : Record) :
    (fields depth).Takes old bytes (old.overlay r) := by
  obtain ⟨order, write, hperm, hw, rfl⟩ := h
  have ht := takes_encodeWith hd hw hlen old
  rwa [Dict.insertAll_of_perm hperm] at ht

theorem Written.decode {r : Record} {bytes : List UInt8} (h : r.Written bytes)
    (hlen : bytes.length < 2 ^ 64) : decode bytes = .ok r := by
  have hd : 2 < nestingLimit := by decide
  have ht := (h.takes_overlay hd hlen {}).merge
  rwa [overlay_empty_left] at ht

/-- The size does not depend on the orders. -/
theorem Written.encodedSize_eq {r : Record} {bytes : List UInt8} (h : r.Written bytes)
    (hlen : bytes.length < 2 ^ 64) : r.encodedSize = bytes.length := by
  obtain ⟨order, write, hperm, hw, rfl⟩ := h
  rw [encodeWith_map] at hlen ⊢
  exact length_encodeTable hperm hlen fun e he hwrite =>
    (hw e he).encodedSize_eq hwrite

end Record

/-- **Every message is read back from what was written of it**, whatever the orders of its maps, and
its size is the number of bytes written. -/
theorem decode_written_messages :
    (∀ l : Lookup, l.encode.length < 2 ^ 64 →
      Lookup.decode l.encode = .ok l ∧ l.encodedSize = l.encode.length) ∧
    (∀ (r : Release) (bytes : List UInt8), r.Written bytes → bytes.length < 2 ^ 64 →
      Release.decode bytes = .ok r ∧ r.encodedSize = bytes.length) ∧
    (∀ (r : Record) (bytes : List UInt8), r.Written bytes → bytes.length < 2 ^ 64 →
      Record.decode bytes = .ok r ∧ r.encodedSize = bytes.length) :=
  ⟨fun _ hlen => ⟨Lookup.decode_encode hlen, Lookup.encodedSize_eq_length hlen⟩,
    fun _ _ h hlen => ⟨h.decode hlen, h.encodedSize_eq hlen⟩,
    fun _ _ h hlen => ⟨h.decode hlen, h.encodedSize_eq hlen⟩⟩

/-- A release with a dependency on the library without a name and one without a version. -/
def sparseRelease : Release :=
  { name := "é", dependencies := .ofList [("", "2"), ("b", "")] }

/-- A record with an empty release under the empty version number. -/
def sparseRecord : Record :=
  { description := "d", releases := .ofList [("", {}), ("1", sparseRelease)] }

/-- The entries of all maps in descending order. -/
theorem decode_written_messages_descending :
    let release := sparseRelease.encodeWith [("b", ""), ("", "2")]
    let record := sparseRecord.encodeWith [("1", release), ("", [])]
    (Lookup.encode ⟨"é"⟩).length < 2 ^ 64 ∧ Lookup.decode (Lookup.encode ⟨"é"⟩) = .ok ⟨"é"⟩ ∧
      (sparseRelease.Written release ∧ release.length < 2 ^ 64 ∧
        Release.decode release = .ok sparseRelease) ∧
      (sparseRecord.Written record ∧ record.length < 2 ^ 64 ∧
        Record.decode record = .ok sparseRecord) := by
  intro release record
  have hlookup : (Lookup.encode ⟨"é"⟩).length < 2 ^ 64 := by decide +kernel
  have hrelease : sparseRelease.Written release := ⟨_, by decide, rfl⟩
  have hreleaseLength : release.length < 2 ^ 64 := by decide +kernel
  have hrecord : sparseRecord.Written record := by
    refine ⟨[("1", sparseRelease), ("", {})], fun e => if e.1 = "1" then release else [],
      by decide, ?_, rfl⟩
    rintro e he
    simp only [List.mem_cons, List.not_mem_nil, or_false] at he
    rcases he with rfl | rfl
    · exact hrelease
    · exact Release.written_encode {}
  have hrecordLength : record.length < 2 ^ 64 := by decide +kernel
  exact ⟨hlookup, (decode_written_messages.1 _ hlookup).1,
    ⟨hrelease, hreleaseLength, (decode_written_messages.2.1 _ _ hrelease hreleaseLength).1⟩,
    ⟨hrecord, hrecordLength, (decode_written_messages.2.2 _ _ hrecord hrecordLength).1⟩⟩

end LibraryRegistry
