import LibraryRegistry.Proofs.Record.Undeclared

/-!
# Records behind their lengths

A message that comes with its length is read with one level less, from an input that may go on behind
it. It is read if and only if it would be by itself, and what stands behind it does not matter: a field
that is cut off by the end of its message is refused, even if the bytes behind would complete it.

* `mergeDelimited_eq_ok_iff_merge` — a message behind its length and the message by itself
* `merge_behind_length` — look-ups, releases and records
-/

namespace LibraryRegistry

open Wire FieldReader

namespace Wire.FieldReader

variable {σ : Type} {limit : Nat} {declared : Nat → Declared} {f f' : FieldReader σ} {m m' : σ}
  {bytes rest : List UInt8}

/-- A message behind its length may be read with other levels left than the message by itself. -/
theorem mergeDelimited_eq_ok_iff_merge (hf : f.Local) (hlen : bytes.length < 2 ^ 64)
    (h : ∀ key, AgreeAt limit declared key f f') (h' : ∀ key, AgreeAt limit declared key f' f)
    (hn : groupNesting declared 0 bytes ≤ limit) :
    (f.mergeDelimited m (encodeDelimited bytes ++ rest)).map (·.1) = .ok m'
      ↔ f'.merge m bytes = .ok m' :=
  (hf.map_mergeDelimited_eq_ok_iff hlen).trans ⟨merge_of_agree h hn, merge_of_agree h' hn⟩

/-- A message that is cut off is refused behind its length. -/
theorem exists_error_of_cutOff (hf : f.Local) (hk : ∀ key, KeepsAt declared key f)
    (hlen : bytes.length < 2 ^ 64) (hcut : CutOff declared bytes) :
    ∃ e, (f.mergeDelimited m (encodeDelimited bytes ++ rest)).map (·.1) = .error e := by
  cases hd : f.mergeDelimited m (encodeDelimited bytes ++ rest) with
  | error e => exact ⟨e, rfl⟩
  | ok r => exact absurd hcut (keeps_of_mergeDelimited hf hk (Varint.spells_encode hlen) hd).2

end Wire.FieldReader

/-- A message behind its length, whatever stands behind it: it is merged if and only if it would be by
itself, and refused if a field in it is cut off. -/
structure MergesBehindLength {σ : Type} (declared : Nat → Declared)
    (merge mergeDelimited : σ → List UInt8 → Except DecodeError σ) : Prop where
  ok_iff : ∀ {m m' : σ} {bytes : List UInt8}, bytes.length < 2 ^ 64 →
    groupNesting declared 0 bytes ≤ 90 → ∀ rest,
      mergeDelimited m (encodeDelimited bytes ++ rest) = .ok m' ↔ merge m bytes = .ok m'
  refused : ∀ {m : σ} {bytes : List UInt8}, bytes.length < 2 ^ 64 → CutOff declared bytes →
    ∀ rest, ∃ e, mergeDelimited m (encodeDelimited bytes ++ rest) = .error e

theorem mergesBehindLength_of_fields {σ : Type} {declared : Nat → Declared} {f f' : FieldReader σ}
    (hf : f.Local) (hk : ∀ key, KeepsAt declared key f) (h : ∀ key, AgreeAt 90 declared key f f')
    (h' : ∀ key, AgreeAt 90 declared key f' f) :
    MergesBehindLength declared f'.merge fun m bytes => (f.mergeDelimited m bytes).map (·.1) where
  ok_iff hlen hn _ := mergeDelimited_eq_ok_iff_merge hf hlen h h' hn
  refused hlen hcut _ := exists_error_of_cutOff hf hk hlen hcut

/-- **A message behind its length is the message by itself**, and a field that is cut off is always
refused. -/
theorem merge_behind_length :
    MergesBehindLength Lookup.declared Lookup.merge Lookup.mergeDelimited ∧
    MergesBehindLength Release.declared Release.merge Release.mergeDelimited ∧
    MergesBehindLength Record.declared Record.merge Record.mergeDelimited := by
  refine ⟨?_, ?_, ?_⟩
  · exact mergesBehindLength_of_fields (Lookup.local_fields _) Lookup.keeps_fields
      (Lookup.agree_fields (by decide)) (Lookup.agree_fields (by decide))
  · exact mergesBehindLength_of_fields (Release.local_fields _) Release.keeps_fields
      (Release.agree_fields (by decide)) (Release.agree_fields (by decide))
  · exact mergesBehindLength_of_fields (Record.local_fields _) Record.keeps_fields
      (Record.agree_fields (by decide)) (Record.agree_fields (by decide))

/-- A release whose version number is longer than its entry. -/
def shortEntry : List UInt8 := [26, 2, 10, 5]

theorem cutOff_shortEntry : CutOff Record.declared shortEntry := by
  have hrelease : Key.Spells ⟨3, .lengthDelimited⟩ [26] :=
    ⟨Varint.spells_singleton (b := 26) (by decide), by decide, by decide⟩
  have hversion : Key.Spells ⟨1, .lengthDelimited⟩ [10] :=
    ⟨Varint.spells_singleton (b := 10) (by decide), by decide, by decide⟩
  have hfive : Payload .lengthDelimited ([5] ++ [49, 46, 48, 46, 48]) :=
    .lengthDelimited (Varint.spells_singleton (b := 5) (by decide))
  have hcut : CutOff (entryDeclared (.message Release.declared)) [10, 5] :=
    .here hversion (.payload (by simp [entryDeclared]) hfive) rfl (by decide) (by decide)
  have hlength : Varint.Spells ([10, 5] : List UInt8).length [2] :=
    Varint.spells_singleton (b := 2) (by decide)
  have hinside : CutOff Record.declared ([26] ++ ([2] ++ [10, 5] ++ [])) :=
    .inside hrelease rfl hlength hcut
  exact hinside

/-- A record with groups that are not declared, in front of other bytes, and an entry that the bytes
behind the record would complete. -/
theorem merge_behind_length_sparse :
    let bytes := sparseRecord.encode ++ extraGroup
    bytes.length < 2 ^ 64 ∧ groupNesting Record.declared 0 bytes ≤ 90 ∧
      Record.merge {} bytes = .ok sparseRecord ∧
      Record.mergeDelimited {} (encodeDelimited bytes ++ [10, 5]) = .ok sparseRecord ∧
      shortEntry.length < 2 ^ 64 ∧ CutOff Record.declared shortEntry ∧
      ∃ e, Record.mergeDelimited {} (encodeDelimited shortEntry ++ [49, 46, 48, 46, 48])
        = .error e := by
  intro bytes
  have hlen : bytes.length < 2 ^ 64 := by decide +kernel
  have hn : groupNesting Record.declared 0 bytes ≤ 90 := by decide +kernel
  have hdecode : Record.merge {} sparseRecord.encode = .ok sparseRecord :=
    sparseRecord.written_encode.decode (by decide +kernel)
  have hextra : (Record.fields nestingLimit).Takes sparseRecord extraGroup sparseRecord := by
    refine takes_undeclared (Record.drops_fields _) (by decide) fields_extraGroup ?_ _
    simp [Record.declared, tableDeclared]
  have hmerge : Record.merge {} bytes = .ok sparseRecord :=
    ((Record.local_fields _).merge_append hdecode _).trans hextra.merge
  refine ⟨hlen, hn, hmerge, (merge_behind_length.2.2.ok_iff hlen hn _).2 hmerge, by decide,
    cutOff_shortEntry, ?_⟩
  exact merge_behind_length.2.2.refused (by decide) cutOff_shortEntry _

end LibraryRegistry
