import LibraryRegistry.Proofs.Wire.Message

/-!
# Messages in pieces

Reading a field does not look behind what it takes (`FieldReader.Local`), so bytes that make up a
message by themselves do so in front of any other bytes. Merging inputs one after the other is
merging them at once, and a message behind its length is the message by itself.

* `Local.takes_iff_merge` — what is merged is taken in, whatever follows
* `Local.merge_append`, `Local.merge_flatten` — inputs one after the other
* `Local.mergeDelimited_eq_ok_iff`, `Local.map_mergeDelimited_eq_ok_iff` — a message behind its length
* `local_onField`, `local_named`, `local_text`, `local_nested`, `local_entry`, `local_skipping` — the
  readers of fields
-/

namespace LibraryRegistry.Wire.FieldReader

variable {σ τ β : Type} {f : FieldReader σ} {m m' m'' : σ} {bytes bytes' rest : List UInt8}

/-- Bytes that are taken are taken with the same outcome in front of any other bytes. -/
structure Local (f : FieldReader σ) : Prop where
  exists_front : ∀ {m m' : σ} {key : Key} {bytes rest : List UInt8},
    f.read m key bytes = .ok (m', rest) → ∃ front, bytes = front ++ rest ∧
      ∀ behind, f.read m key (front ++ behind) = .ok (m', behind)

/-! ## Runs of fields -/

theorem length_le_of_mergeDown {left : Nat} (h : f.mergeDown left m bytes = .ok (m', rest)) :
    rest.length ≤ left := by
  fun_induction mergeDown f left m bytes with
  | case1 _ _ hle =>
    cases h
    exact hle
  | case2 => cases h
  | case3 => cases h
  | case4 _ _ _ _ _ _ _ _ _ ih => exact ih h

namespace Local

/-- The fields before the bytes that are left over are taken in. -/
theorem exists_takes_of_mergeDown (hf : f.Local) {left : Nat}
    (h : f.mergeDown left m bytes = .ok (m', rest)) :
    ∃ front, bytes = front ++ rest ∧ f.Takes m front m' := by
  fun_induction mergeDown f left m bytes with
  | case1 =>
    cases h
    exact ⟨[], rfl, Takes.nil⟩
  | case2 => cases h
  | case3 => cases h
  | case4 m bytes _ key _ hk _ _ hread ih =>
    obtain ⟨start, hs, rfl⟩ := Key.decode_eq_ok_iff.1 hk
    obtain ⟨payload, rfl, hpayload⟩ := hf.exists_front hread
    obtain ⟨fields, rfl, hfields⟩ := ih h
    refine ⟨start ++ payload ++ fields, by simp only [List.append_assoc], ?_⟩
    exact (takes_of_read hs hpayload).append hfields

/-- **What is merged is taken in**, whatever follows it. -/
theorem takes_iff_merge (hf : f.Local) : f.Takes m bytes m' ↔ f.merge m bytes = .ok m' := by
  refine ⟨Takes.merge, fun h => ?_⟩
  unfold merge at h
  cases hd : f.mergeDown 0 m bytes with
  | error e =>
    rw [hd] at h
    cases h
  | ok r =>
    obtain ⟨m₁, rest⟩ := r
    rw [hd] at h
    cases h
    obtain rfl := List.length_eq_zero_iff.1 (Nat.le_zero.1 (length_le_of_mergeDown hd))
    obtain ⟨front, rfl, htakes⟩ := hf.exists_takes_of_mergeDown hd
    rwa [List.append_nil]

/-- **Merging two inputs at once is merging one after the other**, if the first is well formed. -/
theorem merge_append (hf : f.Local) (h : f.merge m bytes = .ok m') (bytes' : List UInt8) :
    f.merge m (bytes ++ bytes') = f.merge m' bytes' := by
  have htakes : f.Takes m bytes m' := hf.takes_iff_merge.2 h
  rw [merge, merge, htakes 0 bytes' (Nat.zero_le _)]

/-- Inputs that are merged one after the other without a failure are merged at once. -/
theorem merge_flatten (hf : f.Local) : ∀ {inputs : List (List UInt8)} {m : σ} {ms : List σ},
    mergeEach f.merge m inputs = ms.map .ok → f.merge m inputs.flatten = .ok (ms.getLastD m)
  | [], m, ms, h => by
    obtain rfl : ms = [] := List.map_eq_nil_iff.1 h.symm
    exact Takes.nil.merge
  | bytes :: inputs, m, ms, h => by
    unfold mergeEach at h
    split at h
    · next e _ =>
      -- The list of messages has no failure in it.
      have hmem : Except.error e ∈ ms.map Except.ok := h ▸ List.mem_singleton_self _
      obtain ⟨_, -, hne⟩ := List.mem_map.1 hmem
      cases hne
    · next m₁ hmerge =>
      obtain ⟨_, ms', rfl, hhead, htail⟩ := List.map_eq_cons_iff.1 h.symm
      cases hhead
      rw [List.flatten_cons, hf.merge_append hmerge, hf.merge_flatten htail.symm,
        List.getLastD_cons]

/-- **A message behind its length is the message by itself**; what follows is left. -/
theorem mergeDelimited_eq_ok_iff (hf : f.Local) :
    f.mergeDelimited m bytes = .ok (m', rest) ↔ ∃ length content,
      Varint.Spells content.length length ∧ bytes = length ++ content ++ rest ∧
        f.Takes m content m' := by
  constructor
  · intro h
    unfold FieldReader.mergeDelimited at h
    split at h
    · cases h
    · next n behind hd =>
      split at h
      · cases h
      · next m₁ rest₁ hdown =>
        split at h
        · next hlen =>
          cases h
          obtain ⟨length, content, behind, hs, rfl, rfl, rfl⟩ := exists_content_of_decodeLength hd
          obtain ⟨front, happend, htakes⟩ := hf.exists_takes_of_mergeDown hdown
          -- As many bytes are left over as stand behind the message.
          have hrest : behind.length = rest.length := by
            rw [List.length_append] at hlen
            omega
          obtain ⟨rfl, rfl⟩ := List.append_inj' happend hrest
          exact ⟨length, content, hs, rfl, htakes⟩
        · cases h
  · rintro ⟨length, content, hs, rfl, htakes⟩
    exact htakes.mergeDelimited_spells hs rest

/-- The same for a length as it is written; what follows does not matter. -/
theorem map_mergeDelimited_eq_ok_iff (hf : f.Local) (hlen : bytes.length < 2 ^ 64) :
    (f.mergeDelimited m (encodeDelimited bytes ++ rest)).map (·.1) = .ok m'
      ↔ f.merge m bytes = .ok m' := by
  rw [← hf.takes_iff_merge]
  constructor
  · intro h
    cases hd : f.mergeDelimited m (encodeDelimited bytes ++ rest) with
    | error e =>
      rw [hd] at h
      cases h
    | ok r =>
      rw [hd] at h
      cases h
      obtain ⟨length, content, hl, happend, htakes⟩ := hf.mergeDelimited_eq_ok_iff.1 hd
      obtain ⟨rfl, -⟩ := delimited_inj (Varint.spells_encode hlen) hl happend
      exact htakes
  · intro htakes
    rw [htakes.mergeDelimited hlen rest]
    rfl

end Local

/-! ## Readers of fields -/

theorem local_skipping (depth : Nat) : (skipping depth : FieldReader σ).Local where
  exists_front h := by
    obtain ⟨hskip, rfl⟩ := read_skipping_eq_ok_iff.1 h
    obtain ⟨front, rfl, hfront⟩ := exists_front_of_skipField hskip
    exact ⟨front, rfl, fun behind => read_skipping_eq_ok_iff.2 ⟨hfront behind, rfl⟩⟩

theorem local_onField {number : Nat} {others : FieldReader σ} (hf : f.Local)
    (ho : others.Local) : (onField number f others).Local where
  exists_front {m m'} {key} {bytes rest} h := by
    by_cases hn : key.number = number
    · subst hn
      obtain ⟨front, rfl, hfront⟩ := hf.exists_front (read_onField_self.symm.trans h)
      exact ⟨front, rfl, fun behind => read_onField_self.trans (hfront behind)⟩
    · obtain ⟨front, rfl, hfront⟩ := ho.exists_front ((read_onField_of_ne hn).symm.trans h)
      exact ⟨front, rfl, fun behind => (read_onField_of_ne hn).trans (hfront behind)⟩

theorem local_named {name : FieldName} (hf : f.Local) : (named name f).Local where
  exists_front h := by
    obtain ⟨front, rfl, hfront⟩ := hf.exists_front (read_named_eq_ok_iff.1 h)
    exact ⟨front, rfl, fun behind => read_named_eq_ok_iff.2 (hfront behind)⟩

theorem local_text (store : σ → String → σ) : (text store).Local where
  exists_front h := by
    obtain ⟨s, hs, rfl⟩ := read_text_eq_ok_iff.1 h
    obtain ⟨hw, length, content, hspells, htext, rfl⟩ := decodeText_eq_ok_iff.1 hs
    refine ⟨length ++ content, rfl, fun behind => read_text_eq_ok_iff.2 ⟨s, ?_, rfl⟩⟩
    exact decodeText_eq_ok_iff.2 ⟨hw, length, content, hspells, htext, rfl⟩

theorem Local.exists_front_of_mergeDelimited (hf : f.Local)
    (h : f.mergeDelimited m bytes = .ok (m', rest)) :
    ∃ front, bytes = front ++ rest ∧
      ∀ behind, f.mergeDelimited m (front ++ behind) = .ok (m', behind) := by
  obtain ⟨length, content, hs, rfl, htakes⟩ := hf.mergeDelimited_eq_ok_iff.1 h
  exact ⟨length ++ content, rfl, htakes.mergeDelimited_spells hs⟩

theorem local_nested {depth : Nat} {f : FieldReader τ} (hf : f.Local) (part : σ → τ)
    (store : σ → τ → σ) : (nested depth f part store).Local where
  exists_front h := by
    obtain ⟨hw, hd, t, hmerge, rfl⟩ := read_nested_eq_ok_iff.1 h
    obtain ⟨front, rfl, hfront⟩ := hf.exists_front_of_mergeDelimited hmerge
    exact ⟨front, rfl, fun behind => read_nested_eq_ok_iff.2 ⟨hw, hd, t, hfront behind, rfl⟩⟩

theorem local_entry {depth : Nat} {f : FieldReader (String × β)} (hf : f.Local)
    (start : String × β) (add : σ → String → β → σ) : (entry depth start f add).Local where
  exists_front h := by
    obtain ⟨hd, e, hmerge, rfl⟩ := read_entry_eq_ok_iff.1 h
    obtain ⟨front, rfl, hfront⟩ := hf.exists_front_of_mergeDelimited hmerge
    exact ⟨front, rfl, fun behind => read_entry_eq_ok_iff.2 ⟨hd, e, hfront behind, rfl⟩⟩

theorem local_entryFields {depth : Nat} {value : FieldReader (String × β)} (hv : value.Local) :
    (entryFields depth value).Local :=
  local_onField (local_text _) <| local_onField hv <| local_skipping depth

end LibraryRegistry.Wire.FieldReader
