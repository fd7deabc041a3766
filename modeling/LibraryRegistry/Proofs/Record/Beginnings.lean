import LibraryRegistry.Proofs.Record.Binary
import LibraryRegistry.Proofs.Record.Schema

/-!
# Records that are cut short

The beginnings of a written message that end where one of its fields ends are messages themselves:
they hold the texts and the entries that are whole, and nothing else. A cut anywhere else, be it in a
key, a length, a text or something nested, leaves no message.

* `Lookup.Beginning`, `Release.Beginning`, `Record.Beginning` — where a message may be cut, and what
  is left of it
* `encodeTable_cut`, `exists_beginning_or_cutOff` — every other cut goes through a field
* `decode_beginnings` — what is read from the beginnings of written messages
-/

namespace LibraryRegistry

open Wire FieldReader

/-- What is read from the beginnings of some bytes: from each of those listed what is left of the
message, and from no other anything. -/
structure ReadsBeginnings {σ : Type} (decode : List UInt8 → Except DecodeError σ)
    (bytes : List UInt8) (beginning : List UInt8 → σ → Prop) : Prop where
  ok_iff : ∀ {front : List UInt8} {part : σ}, front <+: bytes →
    (decode front = .ok part ↔ beginning front part)
  refused : ∀ {front : List UInt8}, front <+: bytes → (∀ part, ¬ beginning front part) →
    ∃ e, decode front = .error e

/-- Beginnings are read like that if the listed ones are, and a field is cut off in all others. -/
theorem readsBeginnings_of_cutOff {σ : Type} {declared : Nat → Declared} {f : FieldReader σ} {m : σ}
    {bytes : List UInt8} {beginning : List UInt8 → σ → Prop} (hf : f.Local)
    (hk : ∀ key, KeepsAt declared key f)
    (hread : ∀ {front part}, front <+: bytes → beginning front part → f.merge m front = .ok part)
    (hcut : ∀ {front}, front <+: bytes → (∃ part, beginning front part) ∨ CutOff declared front) :
    ReadsBeginnings (f.merge m) bytes beginning where
  ok_iff {front part} hfront := by
    refine ⟨fun hpart => ?_, hread hfront⟩
    rcases hcut hfront with ⟨part', hpart'⟩ | hcutOff
    · rw [hread hfront hpart'] at hpart
      exact Except.ok.inj hpart ▸ hpart'
    · exact absurd hcutOff (not_cutOff_of_merge hf hk hpart)
  refused {front} hfront hnone := by
    cases hmerge : f.merge m front with
    | error e => exact ⟨e, rfl⟩
    | ok part =>
      rcases hcut hfront with ⟨part', hpart'⟩ | hcutOff
      · exact absurd hpart' (hnone part')
      · exact absurd hcutOff (not_cutOff_of_merge hf hk hmerge)

theorem nodup_keys_take {α : Type} {order : List (String × α)} (h : (order.map (·.1)).Nodup)
    (k : Nat) : ((order.take k).map (·.1)).Nodup :=
  List.Pairwise.sublist ((List.take_sublist k order).map _) h

/-- **Where two texts and entries behind them may be cut**: in front of the first text, behind it, or
where entries end. Everywhere else a field is cut off. -/
theorem encodeTable_cut {β : Type} {value : Declared} {s₁ s₂ : String} {order : List (String × β)}
    {write : String × β → List UInt8} {front : List UInt8} {P : List UInt8 → Prop} (hnothing : P [])
    (hfirst : P (encodeText 1 s₁)) (hentries : ∀ k, P (encodeTable s₁ s₂ (order.take k) write))
    (hlen : (encodeTable s₁ s₂ order write).length < 2 ^ 64)
    (h : front <+: encodeTable s₁ s₂ order write) :
    P front ∨ CutOff (tableDeclared (entryDeclared value)) front := by
  have hlen₁ := length_utf8_le_length_encodeText 1 s₁
  have hlen₂ := length_utf8_le_length_encodeText 2 s₂
  have hflatten : ∀ order : List (String × β), encodeTable s₁ s₂ order write
      = (encodeText 1 s₁ :: encodeText 2 s₂
        :: order.map fun e => encodeEntry 3 e.1 (write e)).flatten := by
    intro order
    rw [encodeTable, List.flatten_cons, List.flatten_cons, List.append_assoc, List.flatMap_def]
  have hfields : ∀ field ∈ encodeText 1 s₁ :: encodeText 2 s₂
      :: order.map (fun e => encodeEntry 3 e.1 (write e)),
      field = [] ∨ IsField (tableDeclared (entryDeclared value)) field := by
    rw [encodeTable, List.length_append, List.length_append] at hlen
    refine List.forall_mem_cons.2 ⟨?_, List.forall_mem_cons.2 ⟨?_, ?_⟩⟩
    · exact isField_encodeText (by simp [tableDeclared]) (by decide) (by decide) (by omega)
    · exact isField_encodeText (by simp [tableDeclared]) (by decide) (by decide) (by omega)
    · refine List.forall_mem_map.2 fun e he => Or.inr ?_
      have hle := length_le_length_flatMap (fun e : String × β => encodeEntry 3 e.1 (write e)) he
      exact isField_encodeEntry rfl (by decide) (by decide) (by omega)
  rw [hflatten] at h
  rcases exists_take_or_cutOff hfields h with ⟨k, rfl⟩ | hcutOff
  · rcases k with _ | _ | k
    · exact Or.inl hnothing
    · rw [List.take_succ_cons, List.take_zero, List.flatten_singleton]
      exact Or.inl hfirst
    · rw [List.take_succ_cons, List.take_succ_cons, ← List.map_take, ← hflatten]
      exact Or.inl (hentries k)
  · exact Or.inr hcutOff

/-! ## Look-ups -/

namespace Lookup

variable {l part : Lookup} {front : List UInt8}

/-- The beginnings of a written look-up that are look-ups. -/
inductive Beginning (l : Lookup) : List UInt8 → Lookup → Prop
  | nothing : Beginning l [] {}
  | whole : Beginning l l.encode l

theorem Beginning.decode (hlen : l.encode.length < 2 ^ 64) (h : l.Beginning front part) :
    Lookup.decode front = .ok part := by
  cases h with
  | nothing => exact Takes.nil.merge
  | whole => exact decode_encode hlen

theorem exists_beginning_or_cutOff (hlen : l.encode.length < 2 ^ 64) (h : front <+: l.encode) :
    (∃ part, l.Beginning front part) ∨ CutOff declared front := by
  have hs := length_utf8_le_length_encodeText 1 l.library
  have hfields : ∀ field ∈ [l.encode], field = [] ∨ IsField declared field := by
    refine List.forall_mem_singleton.2 ?_
    exact isField_encodeText (by simp [declared]) (by decide) (by decide)
      (Nat.lt_of_le_of_lt hs hlen)
  rw [← List.flatten_singleton (l := l.encode)] at h
  rcases exists_take_or_cutOff hfields h with ⟨k, rfl⟩ | hcutOff
  · cases k with
    | zero => exact Or.inl ⟨_, .nothing⟩
    | succ k =>
      rw [List.take_succ_cons, List.take_nil, List.flatten_singleton]
      exact Or.inl ⟨_, .whole⟩
  · exact Or.inr hcutOff

end Lookup

/-! ## Releases -/

namespace Release

variable {r part : Release} {order : List (String × String)} {front : List UInt8}

/-- The beginnings of a written release that are releases: nothing, the name, and the texts with the
first of the dependencies. -/
inductive Beginning (r : Release) (order : List (String × String)) : List UInt8 → Release → Prop
  | nothing : Beginning r order [] {}
  | name : Beginning r order (encodeText 1 r.name) { name := r.name }
  | entries (k : Nat) {dependencies : Dict String} (h : dependencies.HasExactly (order.take k)) :
    Beginning r order (r.encodeWith (order.take k)) { r with dependencies }

theorem decode_encodeWith (hlen : (r.encodeWith order).length < 2 ^ 64) :
    decode (r.encodeWith order) = .ok { r with dependencies := .ofList order } := by
  have hread := (takes_encodeWith (show nestingLimit ≠ 0 by decide) hlen {}).merge
  rwa [overlay_empty_left] at hread

theorem Beginning.decode (hkeys : (order.map (·.1)).Nodup) (hlen : front.length < 2 ^ 64)
    (h : r.Beginning order front part) : Release.decode front = .ok part := by
  cases h with
  | nothing => exact Takes.nil.merge
  | name =>
    have hname : encodeText 1 r.name = encodeWith [] { name := r.name } :=
      (encodeTable_nil r.name _).symm
    rw [hname] at hlen ⊢
    exact decode_encodeWith hlen
  | entries k hentries =>
    rw [hentries.eq_ofList (nodup_keys_take hkeys k)]
    exact decode_encodeWith hlen

theorem exists_beginning_or_cutOff (hkeys : (order.map (·.1)).Nodup)
    (hlen : (r.encodeWith order).length < 2 ^ 64) (h : front <+: r.encodeWith order) :
    (∃ part, r.Beginning order front part) ∨ CutOff declared front := by
  rw [encodeWith_eq] at hlen h
  refine encodeTable_cut (P := fun front => ∃ part, r.Beginning order front part)
    ⟨_, .nothing⟩ ⟨_, .name⟩ (fun k => ?_) hlen h
  exact ⟨_, .entries k (Dict.hasExactly_ofList (nodup_keys_take hkeys k))⟩

end Release

/-! ## Records -/

namespace Record

variable {r part : Record} {order : List (String × Release)}
  {write : String × Release → List UInt8} {front : List UInt8}

/-- The beginnings of a written record that are records: nothing, the name, and the texts with the
first of the releases. -/
inductive Beginning (r : Record) (order : List (String × Release))
    (write : String × Release → List UInt8) : List UInt8 → Record → Prop
  | nothing : Beginning r order write [] {}
  | name : Beginning r order write (encodeText 1 r.name) { name := r.name }
  | entries (k : Nat) {releases : Dict Release} (h : releases.HasExactly (order.take k)) :
    Beginning r order write (r.encodeWith ((order.take k).map fun e => (e.1, write e)))
      { r with releases }

theorem decode_encodeWith (hw : ∀ e ∈ order, e.2.Written (write e))
    (hlen : (r.encodeWith (order.map fun e => (e.1, write e))).length < 2 ^ 64) :
    decode (r.encodeWith (order.map fun e => (e.1, write e)))
      = .ok { r with releases := .ofList order } := by
  have hread := (takes_encodeWith (show 2 < nestingLimit by decide) hw hlen {}).merge
  rwa [overlay_empty_left] at hread

theorem Beginning.decode (hkeys : (order.map (·.1)).Nodup)
    (hw : ∀ e ∈ order, e.2.Written (write e)) (hlen : front.length < 2 ^ 64)
    (h : r.Beginning order write front part) : Record.decode front = .ok part := by
  cases h with
  | nothing => exact Takes.nil.merge
  | name =>
    have hname : encodeText 1 r.name
        = encodeWith (([] : List (String × Release)).map fun e => (e.1, write e))
          { name := r.name } := by
      rw [encodeWith_map, encodeTable_nil]
    rw [hname] at hlen ⊢
    exact decode_encodeWith (fun _ he => absurd he List.not_mem_nil) hlen
  | entries k hentries =>
    rw [hentries.eq_ofList (nodup_keys_take hkeys k)]
    exact decode_encodeWith (fun e he => hw e (List.mem_of_mem_take he)) hlen

theorem exists_beginning_or_cutOff (hkeys : (order.map (·.1)).Nodup)
    (hlen : (r.encodeWith (order.map fun e => (e.1, write e))).length < 2 ^ 64)
    (h : front <+: r.encodeWith (order.map fun e => (e.1, write e))) :
    (∃ part, r.Beginning order write front part) ∨ CutOff declared front := by
  rw [encodeWith_map] at hlen h
  refine encodeTable_cut (P := fun front => ∃ part, r.Beginning order write front part)
    ⟨_, .nothing⟩ ⟨_, .name⟩ (fun k => ?_) hlen h
  rw [← encodeWith_map]
  exact ⟨_, .entries k (Dict.hasExactly_ofList (nodup_keys_take hkeys k))⟩

end Record

/-- **The beginnings of a written message that end where a field does are messages, and hold just the
fields in them; all others are refused.** -/
theorem decode_beginnings :
    (∀ l : Lookup, l.encode.length < 2 ^ 64 →
      ReadsBeginnings Lookup.decode l.encode l.Beginning) ∧
    (∀ (r : Release) (order : List (String × String)), order.Perm r.dependencies.toList →
      (r.encodeWith order).length < 2 ^ 64 →
        ReadsBeginnings Release.decode (r.encodeWith order) (r.Beginning order)) ∧
    ∀ (r : Record) (order : List (String × Release)) (write : String × Release → List UInt8),
      order.Perm r.releases.toList → (∀ e ∈ order, e.2.Written (write e)) →
      (r.encodeWith (order.map fun e => (e.1, write e))).length < 2 ^ 64 →
        ReadsBeginnings Record.decode (r.encodeWith (order.map fun e => (e.1, write e)))
          (r.Beginning order write) := by
  refine ⟨fun l hlen => ?_, fun r order hperm hlen => ?_, fun r order write hperm hw hlen => ?_⟩
  · exact readsBeginnings_of_cutOff (Lookup.local_fields _) Lookup.keeps_fields
      (fun _ hpart => hpart.decode hlen) (Lookup.exists_beginning_or_cutOff hlen)
  · have hkeys := Dict.nodup_keys_of_perm hperm
    exact readsBeginnings_of_cutOff (Release.local_fields _) Release.keeps_fields
      (fun hfront hpart => hpart.decode hkeys (Nat.lt_of_le_of_lt hfront.length_le hlen))
      (Release.exists_beginning_or_cutOff hkeys hlen)
  · have hkeys := Dict.nodup_keys_of_perm hperm
    exact readsBeginnings_of_cutOff (Record.local_fields _) Record.keeps_fields
      (fun hfront hpart => hpart.decode hkeys hw (Nat.lt_of_le_of_lt hfront.length_le hlen))
      (Record.exists_beginning_or_cutOff hkeys hlen)

/-- A record without the last of its releases, and one that is cut inside the name of a release. -/
theorem decode_beginnings_nested :
    let order := [("1", sparseRelease), ("", {})]
    let bytes := sparseRecord.encodeWith (order.map fun e => (e.1, e.2.encode))
    order.Perm sparseRecord.releases.toList ∧ (∀ e ∈ order, e.2.Written e.2.encode) ∧
      bytes.length < 2 ^ 64 ∧
      Record.decode (bytes.take 24)
        = .ok { description := "d", releases := .ofList [("1", sparseRelease)] } ∧
      ∃ e, Record.decode (bytes.take 13) = .error e := by
  intro order bytes
  have hperm : order.Perm sparseRecord.releases.toList := by decide
  have hw : ∀ e ∈ order, e.2.Written e.2.encode := fun e _ => e.2.written_encode
  have hlen : bytes.length < 2 ^ 64 := by decide +kernel
  have hread := decode_beginnings.2.2 sparseRecord order (fun e => e.2.encode) hperm hw hlen
  refine ⟨hperm, hw, hlen, (hread.ok_iff (List.take_prefix 24 bytes)).2 ?_,
    hread.refused (List.take_prefix 13 bytes) fun part hpart => ?_⟩
  · have hfront : bytes.take 24
        = sparseRecord.encodeWith ((order.take 1).map fun e => (e.1, e.2.encode)) := by
      decide +kernel
    rw [hfront]
    exact .entries 1 (Dict.hasExactly_ofList (by decide))
  · have hcut : bytes.take 13 = [18, 1, 100, 26, 19, 10, 1, 49, 18, 14, 10, 2, 195] := by
      decide +kernel
    have hentries : ∀ k, bytes.take 13
        ≠ sparseRecord.encodeWith ((order.take k).map fun e => (e.1, e.2.encode))
      | 0 | 1 => by decide +kernel
      | k + 2 => by
        have htake : order.take (k + 2) = order := List.take_of_length_le (Nat.le_add_left 2 k)
        rw [htake]
        decide +kernel
    have hname : bytes.take 13 ≠ encodeText 1 sparseRecord.name := by decide +kernel
    generalize bytes.take 13 = front at hpart hcut hentries hname
    cases hpart with
    | nothing => cases hcut
    | name => exact hname rfl
    | entries k => exact hentries k rfl

end LibraryRegistry
