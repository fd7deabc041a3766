import LibraryRegistry.Proofs.Record.Pieces

/-!
# Records of newer registries

A newer registry may send fields that the schema does not know, groups among them. Wherever they
stand, they do not change what is read.

* `merge_past_undeclared` — undeclared fields change nothing
-/

namespace LibraryRegistry

open Wire FieldReader

/-- Behind well-formed input, undeclared fields change nothing about the outcome, whatever follows
them. -/
def PassesUndeclared {σ : Type} (declared : Nat → Declared)
    (merge : σ → List UInt8 → Except DecodeError σ) : Prop :=
  ∀ {m m' : σ} {front extra : List UInt8} {nesting : Nat} {numbers : List Nat},
    merge m front = .ok m' → Fields nesting numbers extra → nesting < nestingLimit →
    (∀ number ∈ numbers, declared number = .nothing) →
    ∀ behind, merge m (front ++ extra ++ behind) = merge m (front ++ behind)

theorem passesUndeclared_of_drops {σ : Type} {declared : Nat → Declared} {f : FieldReader σ}
    (hf : f.Local) (hd : f.Drops declared nestingLimit) : PassesUndeclared declared f.merge := by
  intro m m' front extra nesting numbers hfront hextra hlt hn behind
  have htakes : f.Takes m' extra m' := takes_undeclared hd hlt hextra hn m'
  rw [List.append_assoc, hf.merge_append hfront, hf.merge_append hfront,
    hf.merge_append htakes.merge]

/-- **Fields that a message does not declare change nothing** about what is read: groups, with
whatever fields in them, may be nested almost as deep as levels may be. -/
theorem merge_past_undeclared :
    PassesUndeclared Lookup.declared Lookup.merge ∧
    PassesUndeclared Release.declared Release.merge ∧
    PassesUndeclared Record.declared Record.merge :=
  ⟨passesUndeclared_of_drops (Lookup.local_fields _) (Lookup.drops_fields _),
    passesUndeclared_of_drops (Release.local_fields _) (Release.drops_fields _),
    passesUndeclared_of_drops (Record.local_fields _) (Record.drops_fields _)⟩

/-- A group `7`: a number, a group `3` with four bytes in it, and bytes that are no text. -/
def extraGroup : List UInt8 :=
  Key.encode ⟨7, .startGroup⟩
    ++ (Key.encode ⟨1, .varint⟩ ++ Varint.encode 300
      ++ (Key.encode ⟨3, .startGroup⟩
        ++ (Key.encode ⟨5, .thirtyTwoBit⟩ ++ [1, 2, 3, 4] ++ [])
        ++ Key.encode ⟨3, .endGroup⟩
        ++ (Key.encode ⟨2, .lengthDelimited⟩ ++ (Varint.encode 2 ++ [255, 254]) ++ [])))
    ++ Key.encode ⟨7, .endGroup⟩ ++ []

theorem fields_extraGroup : Fields 90 [7] extraGroup := by
  have hkey (number : Nat) (wire : WireType) (h : number ≠ 0 ∧ number < 2 ^ 29) :
      Key.Spells ⟨number, wire⟩ (Key.encode ⟨number, wire⟩) := Key.spells_encode h.1 h.2
  have hlength : Varint.Spells ([255, 254] : List UInt8).length (Varint.encode 2) :=
    Varint.spells_encode (by decide)
  have hfour : Fields 88 [5] (Key.encode ⟨5, .thirtyTwoBit⟩ ++ [1, 2, 3, 4] ++ []) :=
    .plain (hkey 5 .thirtyTwoBit (by decide)) (.thirtyTwoBit rfl) .nil
  have hbytes : Fields 89 [2]
      (Key.encode ⟨2, .lengthDelimited⟩ ++ (Varint.encode 2 ++ [255, 254]) ++ []) :=
    .plain (hkey 2 .lengthDelimited (by decide)) (.lengthDelimited hlength) .nil
  have hgroup : Fields 89 [3, 2] _ :=
    .group (hkey 3 .startGroup (by decide)) hfour (hkey 3 .endGroup (by decide)) hbytes
  have hnumber : Fields 89 [1, 3, 2] _ :=
    .plain (hkey 1 .varint (by decide)) (.varint (Varint.spells_encode (n := 300) (by decide))) hgroup
  exact .group (hkey 7 .startGroup (by decide)) hnumber (hkey 7 .endGroup (by decide)) .nil

/-- The group stands behind a record, in front of a text and of one that is cut off. -/
theorem merge_past_undeclared_group :
    Record.merge {} sparseRecord.encode = .ok sparseRecord ∧
      Fields 90 [7] extraGroup ∧ 90 < nestingLimit ∧
      (∀ number ∈ [7], Record.declared number = .nothing) ∧
      Record.merge {} (sparseRecord.encode ++ extraGroup ++ [10, 1, 98])
        = Record.merge {} (sparseRecord.encode ++ [10, 1, 98]) ∧
      Record.merge {} (sparseRecord.encode ++ extraGroup ++ [10, 5])
        = Record.merge {} (sparseRecord.encode ++ [10, 5]) := by
  have hfront : Record.merge {} sparseRecord.encode = .ok sparseRecord :=
    sparseRecord.written_encode.decode (by decide +kernel)
  have hn : ∀ number ∈ [7], Record.declared number = .nothing := by
    intro number hmem
    rw [List.mem_singleton.1 hmem]
    rfl
  exact ⟨hfront, fields_extraGroup, by decide, hn,
    merge_past_undeclared.2.2 hfront fields_extraGroup (by decide) hn _,
    merge_past_undeclared.2.2 hfront fields_extraGroup (by decide) hn _⟩

end LibraryRegistry
