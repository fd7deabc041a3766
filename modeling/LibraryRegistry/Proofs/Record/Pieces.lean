import LibraryRegistry.Proofs.Record.Binary
import LibraryRegistry.Proofs.Record.Schema

/-!
# Records in pieces

Look-ups, releases and records may come in pieces: merging well-formed inputs one after the other is
merging them at once. A record that is merged into another is laid over it: texts that are not empty
replace texts, and releases replace whole releases.

* `mergesInPieces_of_local` — one input after the other
* `Release.Written.merge_overlay`, `Record.Written.merge_overlay` — a message laid over another
* `merge_in_pieces` — pieces of messages, and messages merged into others
-/

namespace LibraryRegistry

open Wire FieldReader

/-! ## Pieces -/

/-- Behind a well-formed piece merging goes on with the message so far, and pieces that are merged
one after the other without a failure are merged at once. -/
structure MergesInPieces {σ : Type} (merge : σ → List UInt8 → Except DecodeError σ) : Prop where
  append : ∀ {m m' : σ} {bytes : List UInt8}, merge m bytes = .ok m' →
    ∀ bytes', merge m (bytes ++ bytes') = merge m' bytes'
  flatten : ∀ {m : σ} {inputs : List (List UInt8)} {ms : List σ},
    mergeEach merge m inputs = ms.map .ok → merge m inputs.flatten = .ok (ms.getLastD m)

theorem mergesInPieces_of_local {σ : Type} {f : FieldReader σ} (hf : f.Local) :
    MergesInPieces f.merge where
  append := hf.merge_append
  flatten := hf.merge_flatten

theorem Release.Written.merge_overlay {r : Release} {bytes : List UInt8} (h : r.Written bytes)
    (hlen : bytes.length < 2 ^ 64) (old : Release) : merge old bytes = .ok (old.overlay r) :=
  (h.takes_overlay (by decide) hlen old).merge

theorem Record.Written.merge_overlay {r : Record} {bytes : List UInt8} (h : r.Written bytes)
    (hlen : bytes.length < 2 ^ 64) (old : Record) : merge old bytes = .ok (old.overlay r) :=
  (h.takes_overlay (by decide) hlen old).merge

/-- **Messages may come in pieces**, and a written message is laid over the one that it is merged
into, whole entries over entries with their keys. -/
theorem merge_in_pieces :
    (MergesInPieces Lookup.merge ∧ MergesInPieces Release.merge ∧ MergesInPieces Record.merge) ∧
    (∀ (old r : Release) (bytes : List UInt8), r.Written bytes → bytes.length < 2 ^ 64 →
      ∃ merged, Release.merge old bytes = .ok merged ∧
        merged.name = (if r.name = "" then old.name else r.name) ∧
        merged.version = (if r.version = "" then old.version else r.version) ∧
        ∀ library, merged.dependencies.find? library
          = (r.dependencies.find? library).or (old.dependencies.find? library)) ∧
    (∀ (old r : Record) (bytes : List UInt8), r.Written bytes → bytes.length < 2 ^ 64 →
      ∃ merged, Record.merge old bytes = .ok merged ∧
        merged.name = (if r.name = "" then old.name else r.name) ∧
        merged.description = (if r.description = "" then old.description else r.description) ∧
        ∀ version, merged.releases.find? version
          = (r.releases.find? version).or (old.releases.find? version)) := by
  refine ⟨⟨mergesInPieces_of_local (Lookup.local_fields _),
    mergesInPieces_of_local (Release.local_fields _),
    mergesInPieces_of_local (Record.local_fields _)⟩, ?_, ?_⟩
  · intro old r bytes h hlen
    exact ⟨old.overlay r, h.merge_overlay hlen old, rfl, rfl, Dict.find?_insertAll_of_perm (.refl _)⟩
  · intro old r bytes h hlen
    exact ⟨old.overlay r, h.merge_overlay hlen old, rfl, rfl, Dict.find?_insertAll_of_perm (.refl _)⟩

/-- A record with a name and a release `1` that depends on the library `c`. -/
def datedRecord : Record :=
  { name := "n", description := "old",
    releases := .ofList [("1", { name := "x", dependencies := .ofList [("c", "3")] }), ("2", {})] }

/-- The release `1` is replaced with its dependencies; behind the record comes a text that is cut
off. -/
theorem merge_in_pieces_sparse :
    sparseRecord.Written sparseRecord.encode ∧ sparseRecord.encode.length < 2 ^ 64 ∧
      ∃ merged, Record.merge datedRecord sparseRecord.encode = .ok merged ∧
        merged.name = "n" ∧ merged.description = "d" ∧
        merged.releases.find? "1" = some sparseRelease ∧ merged.releases.find? "2" = some {} ∧
        Record.merge datedRecord (sparseRecord.encode ++ [10, 5]) = Record.merge merged [10, 5] := by
  have hlen : sparseRecord.encode.length < 2 ^ 64 := by decide +kernel
  obtain ⟨merged, hmerge, hname, hdescription, hreleases⟩ :=
    merge_in_pieces.2.2 datedRecord sparseRecord _ sparseRecord.written_encode hlen
  refine ⟨sparseRecord.written_encode, hlen, merged, hmerge, hname, hdescription, ?_, ?_,
    merge_in_pieces.1.2.2.append hmerge _⟩
  · rw [hreleases]
    decide
  · rw [hreleases]
    decide

end LibraryRegistry
