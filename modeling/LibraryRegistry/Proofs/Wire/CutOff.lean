import LibraryRegistry.Proofs.Wire.Nesting

/-!
# Fields that are cut off

A length inside a nested message is checked against all bytes that are left, so a field may be read
beyond the end of its message before the message is refused. `CutOff` says that bytes are not enough
for the fields in them: a field of the message runs past their end, or a field of a message in it past
that message's end. However deep the field stands, such bytes are not a message.

* `Body` — what belongs to a key
* `exists_take_or_cutOff` — a run of fields is cut between two of them, or one of them is cut off
* `KeepsAt` — readers that take a field to its end, and refuse messages that are cut off
* `not_cutOff_of_merge` — what is merged is not cut off
-/

namespace LibraryRegistry.Wire

/-- The bytes are what belongs to a key: a payload, a group or, for a declared message, the message
behind its length. -/
inductive Body (declared : Nat → Declared) : Key → List UInt8 → Prop
  | payload {key : Key} {payload : List UInt8} (hd : ∀ inner, declared key.number ≠ .message inner)
      (hp : Payload key.wire payload) : Body declared key payload
  | group {nesting number : Nat} {numbers : List Nat} {content stop : List UInt8}
      (hd : ∀ inner, declared number ≠ .message inner) (hc : Fields nesting numbers content)
      (he : Key.Spells ⟨number, .endGroup⟩ stop) :
      Body declared ⟨number, .startGroup⟩ (content ++ stop)
  | message {inner : Nat → Declared} {key : Key} {length content : List UInt8}
      (hd : declared key.number = .message inner) (hl : Varint.Spells content.length length) :
      Body declared key (length ++ content)

/-- A field is cut off: one by the end of the bytes, or one inside a declared message by the end of
that message. -/
inductive CutOff : (declared : Nat → Declared) → List UInt8 → Prop
  | here {declared : Nat → Declared} {key : Key} {start body cut more : List UInt8}
      (hs : key.Spells start) (hb : Body declared key body) (h : start ++ body = cut ++ more)
      (hcut : cut ≠ []) (hmore : more ≠ []) : CutOff declared cut
  | behind {declared : Nat → Declared} {key : Key} {start body rest : List UInt8}
      (hs : key.Spells start) (hb : Body declared key body) (h : CutOff declared rest) :
      CutOff declared (start ++ body ++ rest)
  | inside {declared inner : Nat → Declared} {key : Key} {start length content rest : List UInt8}
      (hs : key.Spells start) (hd : declared key.number = .message inner)
      (hl : Varint.Spells content.length length) (h : CutOff inner content) :
      CutOff declared (start ++ (length ++ content ++ rest))

/-! ## Runs of fields that are cut -/

section Cuts

variable {declared : Nat → Declared}

/-- The bytes are one field. -/
def IsField (declared : Nat → Declared) (bytes : List UInt8) : Prop :=
  ∃ (key : Key) (start body : List UInt8),
    key.Spells start ∧ Body declared key body ∧ bytes = start ++ body

/-- The beginnings of a run of fields end between two fields, or a field in them is cut off. -/
theorem exists_take_or_cutOff : ∀ {fields : List (List UInt8)} {bytes : List UInt8},
    (∀ field ∈ fields, field = [] ∨ IsField declared field) → bytes <+: fields.flatten →
      (∃ k, bytes = (fields.take k).flatten) ∨ CutOff declared bytes
  | [], bytes, _, h => Or.inl ⟨0, List.prefix_nil.1 h⟩
  | field :: fields, bytes, hfields, h => by
    obtain ⟨hfield, hfields⟩ := List.forall_mem_cons.1 hfields
    obtain ⟨more, hmore⟩ := h
    rw [List.flatten_cons] at hmore
    rcases List.append_eq_append_iff.1 hmore with ⟨cut, hcut, -⟩ | ⟨rest, rfl, hrest⟩
    -- The bytes end inside the first field, or where it begins or ends.
    · by_cases hcut0 : cut = []
      · rw [hcut0, List.append_nil] at hcut
        refine Or.inl ⟨1, ?_⟩
        rw [List.take_succ_cons, List.take_zero, List.flatten_singleton, hcut]
      · by_cases hbytes : bytes = []
        · exact Or.inl ⟨0, hbytes⟩
        · rcases hfield with rfl | ⟨key, start, body, hs, hb, rfl⟩
          · exact absurd (List.append_eq_nil_iff.1 hcut.symm).1 hbytes
          · exact Or.inr (.here hs hb hcut hbytes hcut0)
    -- They go on behind it.
    · rcases exists_take_or_cutOff hfields ⟨more, hrest.symm⟩ with ⟨k, rfl⟩ | hcutOff
      · exact Or.inl ⟨k + 1, rfl⟩
      · rcases hfield with rfl | ⟨key, start, body, hs, hb, rfl⟩
        · exact Or.inr hcutOff
        · exact Or.inr (.behind hs hb hcutOff)

variable {number : Nat} {s : String}

/-- A text is written as a field, or left out. -/
theorem isField_encodeText (hd : ∀ inner, declared number ≠ .message inner) (hpos : number ≠ 0)
    (hlt : number < 2 ^ 29) (hs : (Text.utf8 s).length < 2 ^ 64) :
    encodeText number s = [] ∨ IsField declared (encodeText number s) := by
  rw [encodeText]
  split
  · exact Or.inl rfl
  · refine Or.inr ⟨⟨number, .lengthDelimited⟩, _, _, Key.spells_encode hpos hlt, ?_, rfl⟩
    exact .payload hd (.lengthDelimited (Varint.spells_encode hs))

theorem isField_encodeEntry {inner : Nat → Declared} {value : List UInt8}
    (hd : declared number = .message inner) (hpos : number ≠ 0) (hlt : number < 2 ^ 29)
    (hs : (encodeEntry number s value).length < 2 ^ 64) :
    IsField declared (encodeEntry number s value) := by
  have hlen := Nat.lt_of_le_of_lt (length_entryBody_le number s value) hs
  rw [encodeEntry_eq]
  refine ⟨⟨number, .lengthDelimited⟩, _, _, Key.spells_encode hpos hlt, ?_, rfl⟩
  exact .message hd (Varint.spells_encode hlen)

end Cuts

namespace FieldReader

variable {σ τ β : Type} {declared : Nat → Declared} {f : FieldReader σ} {m m' : σ} {key : Key}
  {bytes rest : List UInt8}

/-- Fields with this key are read to their ends, and messages in them are not cut off. -/
structure KeepsAt (declared : Nat → Declared) (key : Key) (f : FieldReader σ) : Prop where
  exact : ∀ {m m' : σ} {body rest rest' : List UInt8}, Body declared key body →
    f.read m key (body ++ rest) = .ok (m', rest') → rest' = rest
  inside : ∀ {inner : Nat → Declared} {m : σ} {length content rest : List UInt8}
    {r : σ × List UInt8}, declared key.number = .message inner →
    Varint.Spells content.length length → f.read m key (length ++ content ++ rest) = .ok r →
    ¬ CutOff inner content

theorem exists_step_of_merge (h : f.merge m bytes = .ok m') (hne : bytes ≠ []) :
    ∃ key rest m₁ behind, Key.decode bytes = .ok (key, rest) ∧
      f.read m key rest = .ok (m₁, behind) ∧ f.merge m₁ behind = .ok m' := by
  unfold merge at h
  unfold mergeDown at h
  split at h
  · next hle => exact absurd (List.length_eq_zero_iff.1 (Nat.le_zero.1 hle)) hne
  · split at h
    · cases h
    · next hk =>
      split at h
      · cases h
      · next hread => exact ⟨_, _, _, _, hk, hread, h⟩

/-- A field that begins the bytes is the first that is merged. -/
theorem merge_of_field (hk : ∀ key, KeepsAt declared key f) {start body : List UInt8}
    (hs : key.Spells start) (hb : Body declared key body)
    (h : f.merge m (start ++ body ++ rest) = .ok m') : ∃ m₁, f.merge m₁ rest = .ok m' := by
  have hpos := hs.length_pos
  obtain ⟨key', rest', m₁, behind, hdecode, hread, hmerge⟩ :=
    exists_step_of_merge h (by
      intro hnil
      simp only [List.append_eq_nil_iff] at hnil
      simp [hnil.1.1] at hpos)
  rw [List.append_assoc, hs.decode] at hdecode
  cases hdecode
  rw [(hk key).exact hb hread] at hmerge
  exact ⟨m₁, hmerge⟩

/-- **What is merged is not cut off**, neither at its end nor inside. -/
theorem not_cutOff_of_merge (hf : f.Local) (hk : ∀ key, KeepsAt declared key f)
    (h : f.merge m bytes = .ok m') : ¬ CutOff declared bytes := by
  intro hcut
  induction hcut generalizing m with
  | @here _ key start body cut more hs hb happend hne hmore =>
    obtain ⟨key', rest, m₁, behind, hdecode, hread, -⟩ := exists_step_of_merge h hne
    obtain ⟨front, hfront, rfl⟩ := Key.decode_eq_ok_iff.1 hdecode
    -- With the missing bytes the same key is read, and all that belongs to it.
    have hwhole : Key.decode (start ++ body) = .ok (key', rest ++ more) := by
      rw [happend, List.append_assoc, hfront.decode]
    rw [hs.decode] at hwhole
    simp only [Except.ok.injEq, Prod.mk.injEq] at hwhole
    obtain ⟨rfl, rfl⟩ := hwhole
    obtain ⟨taken, rfl, htaken⟩ := hf.exists_front hread
    have hread' : f.read m key (taken ++ behind ++ more ++ []) = .ok (m₁, behind ++ more) := by
      rw [List.append_nil, List.append_assoc]
      exact htaken _
    have hnil := (hk key).exact hb hread'
    exact hmore (List.append_eq_nil_iff.1 hnil).2
  | behind hs hb _ ih =>
    obtain ⟨m₁, hmerge⟩ := merge_of_field hk hs hb h
    exact ih hk hmerge
  | @inside _ _ key start length content rest hs hd hl hinner _ =>
    have hpos := hs.length_pos
    obtain ⟨key', rest', m₁, behind, hdecode, hread, -⟩ :=
      exists_step_of_merge h (by
        intro hnil
        simp [(List.append_eq_nil_iff.1 hnil).1] at hpos)
    rw [hs.decode] at hdecode
    cases hdecode
    exact (hk key).inside hd hl hread hinner

/-! ## Kinds of fields -/

theorem keepsAt_onField {number : Nat} {others : FieldReader σ}
    (hf : key.number = number → KeepsAt declared key f)
    (ho : key.number ≠ number → KeepsAt declared key others) :
    KeepsAt declared key (onField number f others) := by
  by_cases hn : key.number = number
  · subst hn
    exact ⟨fun hb hr => (hf rfl).exact hb (read_onField_self.symm.trans hr),
      fun hd hl hr => (hf rfl).inside hd hl (read_onField_self.symm.trans hr)⟩
  · exact ⟨fun hb hr => (ho hn).exact hb ((read_onField_of_ne hn).symm.trans hr),
      fun hd hl hr => (ho hn).inside hd hl ((read_onField_of_ne hn).symm.trans hr)⟩

theorem keepsAt_named {name : FieldName} (h : KeepsAt declared key f) :
    KeepsAt declared key (named name f) where
  exact hb hr := h.exact hb (read_named_eq_ok_iff.1 hr)
  inside hd hl hr := h.inside hd hl (read_named_eq_ok_iff.1 hr)

theorem keepsAt_skipping {depth : Nat} (hkey : declared key.number = .nothing) :
    KeepsAt declared key (skipping depth : FieldReader σ) where
  exact hb hr := by
    obtain ⟨hskip, -⟩ := read_skipping_eq_ok_iff.1 hr
    cases hb with
    | payload _ hp => exact eq_of_skipField_payload hp hskip
    | group _ hc he => exact eq_of_skipField_group hc he hskip
    | message hd => rw [hkey] at hd; cases hd
  inside hd := by
    rw [hkey] at hd
    cases hd

theorem keepsAt_text {store : σ → String → σ} (hkey : declared key.number = .text) :
    KeepsAt declared key (text store) where
  exact hb hr := by
    obtain ⟨s, hs, -⟩ := read_text_eq_ok_iff.1 hr
    obtain ⟨hw, length, content, hspells, -, hbytes⟩ := decodeText_eq_ok_iff.1 hs
    cases hb with
    | payload _ hp =>
      rw [hw] at hp
      cases hp with
      | lengthDelimited hl => exact (delimited_inj hl hspells hbytes).2.symm
    | group => cases hw
    | message hd => rw [hkey] at hd; cases hd
  inside hd := by
    rw [hkey] at hd
    cases hd

/-- A declared text, in front of other fields. -/
theorem keepsAt_textField {number : Nat} {name : FieldName} {store : σ → String → σ}
    {others : FieldReader σ} (hn : declared number = .text)
    (ho : key.number ≠ number → KeepsAt declared key others) :
    KeepsAt declared key (onField number (named name (text store)) others) := by
  refine keepsAt_onField (fun h => keepsAt_named (keepsAt_text ?_)) ho
  rw [h, hn]

section Messages

variable {inner : Nat → Declared} {g : FieldReader τ} {t t' : τ}

/-- What is read behind a length is read to the end of its message, and is not cut off. -/
theorem keeps_of_mergeDelimited (hg : g.Local) (hk : ∀ key, KeepsAt inner key g)
    {length content rest' : List UInt8} (hl : Varint.Spells content.length length)
    (h : g.mergeDelimited t (length ++ content ++ rest) = .ok (t', rest')) :
    rest' = rest ∧ ¬ CutOff inner content := by
  obtain ⟨length', content', hl', happend, htakes⟩ := hg.mergeDelimited_eq_ok_iff.1 h
  obtain ⟨rfl, rfl⟩ := delimited_inj hl hl' happend
  exact ⟨rfl, not_cutOff_of_merge hg hk htakes.merge⟩

theorem keepsAt_of_mergeDelimited (hg : g.Local) (hk : ∀ key, KeepsAt inner key g)
    (hkey : declared key.number = .message inner)
    (hf : ∀ {m m' : σ} {bytes rest : List UInt8}, f.read m key bytes = .ok (m', rest) →
      ∃ t t', g.mergeDelimited t bytes = .ok (t', rest)) :
    KeepsAt declared key f where
  exact hb hr := by
    obtain ⟨t, t', hmerge⟩ := hf hr
    cases hb with
    | payload hd => exact absurd hkey (hd _)
    | group hd => exact absurd hkey (hd _)
    | message _ hl => exact (keeps_of_mergeDelimited hg hk hl hmerge).1
  inside hd hl hr := by
    obtain ⟨t, t', hmerge⟩ := hf hr
    rw [hkey] at hd
    cases hd
    exact (keeps_of_mergeDelimited hg hk hl hmerge).2

theorem keepsAt_nested {depth : Nat} {part : σ → τ} {store : σ → τ → σ} (hg : g.Local)
    (hk : ∀ key, KeepsAt inner key g) (hkey : declared key.number = .message inner) :
    KeepsAt declared key (nested depth g part store) :=
  keepsAt_of_mergeDelimited hg hk hkey fun hr => by
    obtain ⟨-, -, t, hmerge, -⟩ := read_nested_eq_ok_iff.1 hr
    exact ⟨_, t, hmerge⟩

theorem keepsAt_entry {depth : Nat} {start : String × β} {g : FieldReader (String × β)}
    {add : σ → String → β → σ} (hg : g.Local) (hk : ∀ key, KeepsAt inner key g)
    (hkey : declared key.number = .message inner) :
    KeepsAt declared key (entry depth start g add) :=
  keepsAt_of_mergeDelimited hg hk hkey fun hr => by
    obtain ⟨-, e, hmerge, -⟩ := read_entry_eq_ok_iff.1 hr
    exact ⟨_, e, hmerge⟩

end Messages

end FieldReader

end LibraryRegistry.Wire
