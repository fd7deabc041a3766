import LibraryRegistry.Proofs.Wire.Field
import LibraryRegistry.Wire.Message

/-!
# Laws of binary messages

Reading goes field by field, so what a written field does to a message can be said of the field
alone: `f.Takes m bytes m'` says that the bytes end where a field ends and lead from `m` to `m'`,
whatever follows them and however many bytes are to be left over. Runs of fields compose
(`Takes.append`), and a run is what a whole message is made of (`Takes.merge`,
`Takes.mergeDelimited`).

* `takes_field`, `takes_encodeText`, `takes_entryFields` — a written field is taken in
* `length_encodeText`, `length_encodeEntry` — the computed sizes are those of the written fields
-/

namespace LibraryRegistry.Wire

/-! ## Lengths -/

theorem length_encodeDelimited {bytes : List UInt8} (h : bytes.length < 2 ^ 64) :
    (encodeDelimited bytes).length = sizeDelimited bytes.length := by
  rw [encodeDelimited, sizeDelimited, List.length_append, Varint.length_encode h]

theorem le_length_encodeDelimited (bytes : List UInt8) :
    bytes.length ≤ (encodeDelimited bytes).length := by
  rw [encodeDelimited, List.length_append]
  omega

/-- A text is read from the bytes that its length counts. -/
theorem decodeText_eq_ok_iff {key : Key} {s : String} {bytes rest : List UInt8} :
    decodeText key bytes = .ok (s, rest) ↔ key.wire = .lengthDelimited ∧ ∃ length content,
      Varint.Spells content.length length ∧ Text.ofUtf8? content = some s ∧
        bytes = length ++ content ++ rest := by
  constructor
  · intro h
    unfold decodeText at h
    split at h
    · cases h
    · next hw =>
      split at h
      · cases h
      · next hd =>
        obtain ⟨length, content, behind, hs, rfl, rfl, rfl⟩ := exists_content_of_decodeLength hd
        rw [List.take_left, List.drop_left] at h
        split at h
        · cases h
        · next htext =>
          cases h
          exact ⟨Decidable.not_not.1 hw, length, content, hs, htext, rfl⟩
  · rintro ⟨hw, length, content, hs, htext, rfl⟩
    rw [decodeText, if_neg (not_not_intro hw), decodeLength_spells hs]
    simp only [List.take_left, List.drop_left, htext]

theorem decodeText_encodeDelimited {key : Key} (hw : key.wire = .lengthDelimited) {s : String}
    (h : (Text.utf8 s).length < 2 ^ 64) (rest : List UInt8) :
    decodeText key (encodeDelimited (Text.utf8 s) ++ rest) = .ok (s, rest) :=
  decodeText_eq_ok_iff.2
    ⟨hw, _, _, Varint.spells_encode h, Text.ofUtf8?_utf8 s, rfl⟩

namespace FieldReader

variable {σ τ β : Type}

/-! ## Merging -/

theorem mergeDown_of_le {f : FieldReader σ} {left : Nat} {m : σ} {bytes : List UInt8}
    (h : bytes.length ≤ left) : f.mergeDown left m bytes = .ok (m, bytes) := by
  rw [mergeDown, if_pos h]

/-- One field of a message is read, and then the rest. -/
theorem mergeDown_step {f : FieldReader σ} {left : Nat} {m m' : σ} {key : Key}
    {bytes rest rest' : List UInt8} (h : left < bytes.length)
    (hk : Key.decode bytes = .ok (key, rest)) (hf : f.read m key rest = .ok (m', rest')) :
    f.mergeDown left m bytes = f.mergeDown left m' rest' := by
  rw [mergeDown, if_neg (by omega)]
  split
  · next hk' =>
    rw [hk] at hk'
    cases hk'
  · next hk' =>
    rw [hk] at hk'
    cases hk'
    split
    · next hf' =>
      rw [hf] at hf'
      cases hf'
    · next hf' =>
      rw [hf] at hf'
      cases hf'
      rfl

/-- The bytes end where a field ends, and merging them leads from `m` to `m'`. -/
def Takes (f : FieldReader σ) (m : σ) (bytes : List UInt8) (m' : σ) : Prop :=
  ∀ (left : Nat) (rest : List UInt8), left ≤ rest.length →
    f.mergeDown left m (bytes ++ rest) = f.mergeDown left m' rest

namespace Takes

variable {f : FieldReader σ} {m m' m'' : σ} {bytes bytes' : List UInt8}

theorem nil : f.Takes m [] m := fun _ _ _ => rfl

/-- Fields may be taken in in two parts. -/
theorem append (h : f.Takes m bytes m') (h' : f.Takes m' bytes' m'') :
    f.Takes m (bytes ++ bytes') m'' := by
  intro left rest hle
  rw [List.append_assoc, h left (bytes' ++ rest) (by rw [List.length_append]; omega),
    h' left rest hle]

/-- **Fields that are taken in make up a whole message.** -/
theorem merge (h : f.Takes m bytes m') : f.merge m bytes = .ok m' := by
  have hd : f.mergeDown 0 m bytes = .ok (m', []) := by
    have h0 := h 0 [] (Nat.le_refl 0)
    rwa [List.append_nil, mergeDown_of_le (m := m') (Nat.le_refl 0)] at h0
  rw [FieldReader.merge, hd]
  rfl

/-- **Fields that are taken in make up a message behind its length**, however the length is spelled;
what follows is left. -/
theorem mergeDelimited_spells {length : List UInt8} (h : f.Takes m bytes m')
    (hs : Varint.Spells bytes.length length) (rest : List UInt8) :
    f.mergeDelimited m (length ++ bytes ++ rest) = .ok (m', rest) := by
  -- The bytes behind the message are those to be left over.
  have hleft : (bytes ++ rest).length - bytes.length = rest.length := by
    rw [List.length_append]
    omega
  rw [FieldReader.mergeDelimited, decodeLength_spells hs]
  simp only [hleft, h rest.length rest (Nat.le_refl _), mergeDown_of_le (Nat.le_refl _),
    if_true]

theorem mergeDelimited (h : f.Takes m bytes m') (hlen : bytes.length < 2 ^ 64)
    (rest : List UInt8) : f.mergeDelimited m (encodeDelimited bytes ++ rest) = .ok (m', rest) :=
  h.mergeDelimited_spells (Varint.spells_encode hlen) rest

end Takes

/-- A field is taken in if its reader takes its payload and nothing more. -/
theorem takes_of_read {f : FieldReader σ} {m m' : σ} {key : Key} {start payload : List UInt8}
    (hs : key.Spells start) (h : ∀ rest, f.read m key (payload ++ rest) = .ok (m', rest)) :
    f.Takes m (start ++ payload) m' := by
  intro left rest hle
  have hpos := hs.length_pos
  rw [List.append_assoc]
  refine mergeDown_step ?_ (hs.decode _) (h rest)
  rw [List.length_append, List.length_append]
  omega

/-- A field with its key as it is written is taken in if its payload is. -/
theorem takes_field {f : FieldReader σ} {m m' : σ} {key : Key} {payload : List UInt8}
    (hpos : key.number ≠ 0) (hlt : key.number < 2 ^ 29)
    (h : ∀ rest, f.read m key (payload ++ rest) = .ok (m', rest)) :
    f.Takes m (key.encode ++ payload) m' :=
  takes_of_read (Key.spells_encode hpos hlt) h

/-! ## Readers of fields -/

theorem read_onField_self {f others : FieldReader σ} {m : σ} {key : Key} {bytes : List UInt8} :
    (onField key.number f others).read m key bytes = f.read m key bytes :=
  if_pos rfl

theorem read_onField_of_ne {number : Nat} {f others : FieldReader σ} {m : σ} {key : Key}
    {bytes : List UInt8} (h : key.number ≠ number) :
    (onField number f others).read m key bytes = others.read m key bytes :=
  if_neg h

/-- Naming a field changes nothing where it can be read. -/
theorem read_named_eq_ok_iff {name : FieldName} {f : FieldReader σ} {m : σ} {key : Key}
    {bytes : List UInt8} {r : σ × List UInt8} :
    (named name f).read m key bytes = .ok r ↔ f.read m key bytes = .ok r := by
  dsimp only [named]
  cases f.read m key bytes <;> simp

theorem read_skipping_eq_ok_iff {depth : Nat} {m m' : σ} {key : Key} {bytes rest : List UInt8} :
    (skipping depth).read m key bytes = .ok (m', rest) ↔
      skipField depth key bytes = .ok rest ∧ m' = m := by
  dsimp only [skipping]
  cases skipField depth key bytes <;> simp [and_comm, eq_comm]

theorem read_text_eq_ok_iff {store : σ → String → σ} {m m' : σ} {key : Key}
    {bytes rest : List UInt8} :
    (text store).read m key bytes = .ok (m', rest) ↔
      ∃ s, decodeText key bytes = .ok (s, rest) ∧ m' = store m s := by
  dsimp only [text]
  cases decodeText key bytes with
  | error e => simp
  | ok r => grind

/-- A nested message needs its wire type and a level for itself. -/
theorem read_nested_eq_ok_iff {depth : Nat} {f : FieldReader τ} {part : σ → τ} {store : σ → τ → σ}
    {m m' : σ} {key : Key} {bytes rest : List UInt8} :
    (nested depth f part store).read m key bytes = .ok (m', rest) ↔
      key.wire = .lengthDelimited ∧ depth ≠ 0 ∧
        ∃ t, f.mergeDelimited (part m) bytes = .ok (t, rest) ∧ m' = store m t := by
  dsimp only [nested]
  cases f.mergeDelimited (part m) bytes with
  | error e => grind
  | ok r => grind

/-- An entry needs a level for itself; its wire type is not looked at. -/
theorem read_entry_eq_ok_iff {depth : Nat} {start : String × β} {f : FieldReader (String × β)}
    {add : σ → String → β → σ} {m m' : σ} {key : Key} {bytes rest : List UInt8} :
    (entry depth start f add).read m key bytes = .ok (m', rest) ↔
      depth ≠ 0 ∧ ∃ e, f.mergeDelimited start bytes = .ok (e, rest) ∧ m' = add m e.1 e.2 := by
  dsimp only [entry]
  cases f.mergeDelimited start bytes with
  | error e => grind
  | ok r => grind

theorem read_text {store : σ → String → σ} {m : σ} {key : Key} (hw : key.wire = .lengthDelimited)
    {s : String} (h : (Text.utf8 s).length < 2 ^ 64) (rest : List UInt8) :
    (text store).read m key (encodeDelimited (Text.utf8 s) ++ rest) = .ok (store m s, rest) :=
  read_text_eq_ok_iff.2 ⟨s, decodeText_encodeDelimited hw h rest, rfl⟩

/-- A declared text is read from its field and stored. -/
theorem read_textField {number : Nat} {name : FieldName} {store : σ → String → σ}
    {others : FieldReader σ} {m : σ} {s : String} (h : (Text.utf8 s).length < 2 ^ 64)
    (rest : List UInt8) :
    (onField number (named name (text store)) others).read m ⟨number, .lengthDelimited⟩
        (encodeDelimited (Text.utf8 s) ++ rest) = .ok (store m s, rest) := by
  have hread : (named name (text store)).read m ⟨number, .lengthDelimited⟩
      (encodeDelimited (Text.utf8 s) ++ rest) = .ok (store m s, rest) :=
    read_named_eq_ok_iff.2 (read_text rfl h rest)
  exact read_onField_self.trans hread

theorem read_nested {depth : Nat} (hd : depth ≠ 0) {f : FieldReader τ} {part : σ → τ}
    {store : σ → τ → σ} {m : σ} {t : τ} {key : Key} (hw : key.wire = .lengthDelimited)
    {bytes : List UInt8} (h : f.Takes (part m) bytes t) (hlen : bytes.length < 2 ^ 64)
    (rest : List UInt8) :
    (nested depth f part store).read m key (encodeDelimited bytes ++ rest)
      = .ok (store m t, rest) :=
  read_nested_eq_ok_iff.2 ⟨hw, hd, t, h.mergeDelimited hlen rest, rfl⟩

theorem read_entry {depth : Nat} (hd : depth ≠ 0) {start : String × β}
    {f : FieldReader (String × β)} {add : σ → String → β → σ} {m : σ} {k : String} {v : β}
    {key : Key} {bytes : List UInt8} (h : f.Takes start bytes (k, v))
    (hlen : bytes.length < 2 ^ 64) (rest : List UInt8) :
    (entry depth start f add).read m key (encodeDelimited bytes ++ rest)
      = .ok (add m k v, rest) :=
  read_entry_eq_ok_iff.2 ⟨hd, (k, v), h.mergeDelimited hlen rest, rfl⟩

/-! ## Written fields -/

/-- A written text is taken in; the empty one, which is left out, must be there already. -/
theorem takes_encodeText {f : FieldReader σ} {m m' : σ} {number : Nat} {s : String}
    (hpos : number ≠ 0) (hlt : number < 2 ^ 29) (h0 : s = "" → m' = m)
    (h : s ≠ "" → ∀ rest, f.read m ⟨number, .lengthDelimited⟩
      (encodeDelimited (Text.utf8 s) ++ rest) = .ok (m', rest)) :
    f.Takes m (encodeText number s) m' := by
  rw [encodeText]
  split
  · next hs =>
    rw [h0 hs]
    exact Takes.nil
  · next hs => exact takes_field hpos hlt (h hs)

/-- A written entry is taken in if its value is: `value` reads the written value into the empty
entry `start`, and a value that is written as nothing must be there already. -/
theorem takes_entryFields {depth : Nat} {value : FieldReader (String × β)} {start v : β}
    {k : String} {bytes : List UInt8} (hk : (Text.utf8 k).length < 2 ^ 64)
    (h0 : bytes = [] → v = start)
    (h : ∀ rest, value.read (k, start) ⟨2, .lengthDelimited⟩ (encodeDelimited bytes ++ rest)
      = .ok ((k, v), rest)) :
    (entryFields depth value).Takes ("", start)
      (encodeText 1 k
        ++ if bytes = [] then [] else Key.encode ⟨2, .lengthDelimited⟩ ++ encodeDelimited bytes)
      (k, v) := by
  have hkey : (entryFields depth value).Takes ("", start) (encodeText 1 k) (k, start) := by
    refine takes_encodeText (by decide) (by decide) (fun hs => by rw [hs]) fun _ rest => ?_
    exact read_onField_self.trans (read_text rfl hk rest)
  refine hkey.append ?_
  split
  · next hb =>
    rw [h0 hb]
    exact Takes.nil
  · refine takes_field (by decide) (by decide) fun rest => ?_
    exact (read_onField_of_ne (by decide)).trans (read_onField_self.trans (h rest))

end FieldReader

/-! ## Sizes -/

theorem length_utf8_le_length_encodeText (number : Nat) (s : String) :
    (Text.utf8 s).length ≤ (encodeText number s).length := by
  rw [encodeText]
  split
  · next hs =>
    rw [hs]
    exact Nat.le_refl 0
  · have h := le_length_encodeDelimited (Text.utf8 s)
    rw [List.length_append]
    omega

/-- The computed size of a text field is that of the written one. -/
theorem length_encodeText {number : Nat} {s : String} (hlt : number < 2 ^ 29)
    (h : (Text.utf8 s).length < 2 ^ 64) : (encodeText number s).length = sizeText number s := by
  rw [encodeText, sizeText]
  split
  · rfl
  · rw [List.length_append, Key.length_encode hlt, length_encodeDelimited h, Text.length_utf8]

/-- What stands behind the length of a written entry. -/
def entryBody (k : String) (value : List UInt8) : List UInt8 :=
  encodeText 1 k
    ++ if value = [] then [] else Key.encode ⟨2, .lengthDelimited⟩ ++ encodeDelimited value

theorem encodeEntry_eq (number : Nat) (k : String) (value : List UInt8) :
    encodeEntry number k value
      = Key.encode ⟨number, .lengthDelimited⟩ ++ encodeDelimited (entryBody k value) := rfl

theorem length_key_le_length_entryBody (k : String) (value : List UInt8) :
    (Text.utf8 k).length ≤ (entryBody k value).length := by
  have h := length_utf8_le_length_encodeText 1 k
  rw [entryBody, List.length_append]
  omega

theorem length_value_le_length_entryBody (k : String) (value : List UInt8) :
    value.length ≤ (entryBody k value).length := by
  rw [entryBody, List.length_append]
  split
  · next hv =>
    rw [hv]
    exact Nat.zero_le _
  · have h := le_length_encodeDelimited value
    rw [List.length_append]
    omega

theorem length_entryBody_le (number : Nat) (k : String) (value : List UInt8) :
    (entryBody k value).length ≤ (encodeEntry number k value).length := by
  have h := le_length_encodeDelimited (entryBody k value)
  rw [encodeEntry_eq, List.length_append]
  omega

/-- The computed size of a map entry is that of the written one. -/
theorem length_encodeEntry {number : Nat} {k : String} {value : List UInt8}
    (hlt : number < 2 ^ 29) (h : (entryBody k value).length < 2 ^ 64) :
    (encodeEntry number k value).length = sizeEntry number k value.length := by
  have hk := length_key_le_length_entryBody k value
  have hv := length_value_le_length_entryBody k value
  have hbody : (entryBody k value).length = sizeText 1 k + if value.length = 0 then 0
      else Key.size ⟨2, .lengthDelimited⟩ + sizeDelimited value.length := by
    rw [entryBody, List.length_append, length_encodeText (by decide) (by omega)]
    by_cases hnil : value = []
    · rw [if_pos hnil, if_pos (by rw [hnil]; rfl)]
      rfl
    · rw [if_neg hnil, if_neg (by rwa [List.length_eq_zero_iff]), List.length_append,
        Key.length_encode (by decide), length_encodeDelimited (by omega)]
  rw [encodeEntry_eq, List.length_append, Key.length_encode hlt, length_encodeDelimited h,
    sizeEntry, hbody]

/-- What is written for one element is no longer than what is written for all. -/
theorem length_le_length_flatMap {α : Type} (write : α → List UInt8) {a : α} :
    ∀ {l : List α}, a ∈ l → (write a).length ≤ (l.flatMap write).length
  | b :: l, h => by
    rw [List.flatMap_cons, List.length_append]
    rcases List.mem_cons.1 h with rfl | h
    · omega
    · have := length_le_length_flatMap write h
      omega

end LibraryRegistry.Wire
