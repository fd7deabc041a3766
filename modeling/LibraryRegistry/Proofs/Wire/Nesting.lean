import LibraryRegistry.Proofs.Wire.Pieces

/-!
# Fields that are not declared

What a message declares is a tree (`Declared`). A field that it does not declare is dropped, so
well-formed fields of a newer schema change nothing. How deep they may be nested depends on the
levels that are left: `groupNesting` says how deep the undeclared groups of a message are nested, at
all its levels, and two readers of a message that differ in the levels left to them agree as long as
groups are nested less deep.

* `takes_undeclared` — undeclared fields are taken in and change nothing
* `skipField_of_nesting` — skipping with other levels left
* `merge_of_agree`, `mergeDelimited_of_agree` — reading with other levels left
* `agreeAt_text`, `agreeAt_nested`, `agreeAt_entry`, `agreeAt_skipping` — the kinds of fields
-/

namespace LibraryRegistry.Wire

/-- What is declared for a field number: nothing, a text, or a message with fields of its own. -/
inductive Declared
  | nothing
  | text
  | message (fields : Nat → Declared)

/-! ## Dropped fields -/

/-- Undeclared fields are dropped by this reader, with so many levels left. -/
def FieldReader.Drops {σ : Type} (declared : Nat → Declared) (depth : Nat) (f : FieldReader σ) :
    Prop :=
  ∀ {key : Key}, declared key.number = .nothing → ∀ (m : σ) (bytes : List UInt8),
    f.read m key bytes = (skipping depth).read m key bytes

theorem FieldReader.drops_skipping {σ : Type} {declared : Nat → Declared} {depth : Nat} :
    (skipping depth : FieldReader σ).Drops declared depth :=
  fun _ _ _ => rfl

theorem FieldReader.drops_onField {σ : Type} {declared : Nat → Declared} {depth number : Nat}
    {f others : FieldReader σ} (hn : declared number ≠ .nothing) (ho : others.Drops declared depth) :
    (onField number f others).Drops declared depth := by
  intro key hkey m bytes
  have hne : key.number ≠ number := by
    rintro rfl
    exact hn hkey
  rw [read_onField_of_ne hne, ho hkey]

theorem FieldReader.Drops.takes {σ : Type} {f : FieldReader σ} {declared : Nat → Declared}
    {depth : Nat} {key : Key} {start body : List UInt8} (hf : f.Drops declared depth)
    (hkey : declared key.number = .nothing) (hs : key.Spells start)
    (hskip : ∀ rest, skipField depth key (body ++ rest) = .ok rest) (m : σ) :
    f.Takes m (start ++ body) m := by
  refine takes_of_read hs fun rest => ?_
  rw [hf hkey, read_skipping_eq_ok_iff]
  exact ⟨hskip rest, rfl⟩

/-- **Undeclared fields change nothing.** -/
theorem FieldReader.takes_undeclared {σ : Type} {f : FieldReader σ} {declared : Nat → Declared}
    {depth nesting : Nat} {numbers : List Nat} {bytes : List UInt8} (hf : f.Drops declared depth)
    (hd : nesting < depth) (h : Fields nesting numbers bytes)
    (hn : ∀ number ∈ numbers, declared number = .nothing) (m : σ) : f.Takes m bytes m := by
  induction h with
  | nil => exact Takes.nil
  | plain hs hp _ ih =>
    obtain ⟨hkey, hrest⟩ := List.forall_mem_cons.1 hn
    have hhead := hf.takes hkey hs (skipField_payload hp (Nat.zero_lt_of_lt hd)) m
    exact hhead.append (ih hd hrest)
  | @group _ _ _ _ start _ _ _ hs hc he _ _ ih =>
    obtain ⟨hkey, hrest⟩ := List.forall_mem_cons.1 hn
    have hhead := hf.takes hkey hs (skipField_group hc he hd) m
    rw [List.append_assoc start]
    exact hhead.append (ih hd hrest)

/-! ## How deep groups are nested -/

/-- What is declared for a number inside `opened` groups: nothing, unless there are none. -/
def declaredAt (declared : Nat → Declared) (opened number : Nat) : Declared :=
  if opened = 0 then declared number else .nothing

/-- How deep undeclared groups are nested, in a message and in the messages that it declares, as far
as the bytes can be read; `opened` of the groups are open where the bytes begin. -/
def groupNesting (declared : Nat → Declared) (opened : Nat) (bytes : List UInt8) : Nat :=
  match _hk : Key.decode bytes with
  | .error _ => 0
  | .ok (key, rest) =>
    match declaredAt declared opened key.number, key.wire with
    | .message inner, _ =>
      match _hl : decodeLength rest with
      | .error _ => 0
      | .ok (length, behind) =>
        max (groupNesting inner 0 (behind.take length))
          (groupNesting declared opened (behind.drop length))
    | .nothing, .startGroup => max (opened + 1) (groupNesting declared (opened + 1) rest)
    | .nothing, .endGroup => groupNesting declared (opened - 1) rest
    | _, wire =>
      match _hs : skipPlain wire rest with
      | .error _ => 0
      | .ok behind => groupNesting declared opened behind
termination_by bytes.length
decreasing_by
  · have := Key.decode_length _hk
    have := decodeLength_length _hl
    simp only [List.length_take]
    omega
  · have := Key.decode_length _hk
    have := decodeLength_length _hl
    simp only [List.length_drop]
    omega
  · exact Key.decode_length _hk
  · exact Key.decode_length _hk
  · exact Nat.lt_of_le_of_lt (skipPlain_length _hs) (Key.decode_length _hk)

section Steps

variable {declared inner : Nat → Declared} {opened number length : Nat} {key : Key}
  {bytes rest behind : List UInt8}

theorem groupNesting_start (hk : Key.decode bytes = .ok (⟨number, .startGroup⟩, rest))
    (hd : declaredAt declared opened number = .nothing) :
    groupNesting declared opened bytes
      = max (opened + 1) (groupNesting declared (opened + 1) rest) := by
  rw [groupNesting]
  grind

theorem groupNesting_end (hk : Key.decode bytes = .ok (⟨number, .endGroup⟩, rest))
    (hd : declaredAt declared opened number = .nothing) :
    groupNesting declared opened bytes = groupNesting declared (opened - 1) rest := by
  rw [groupNesting]
  grind

/-- The two ends of a group have no payload to be skipped. -/
theorem groupNesting_plain (hk : Key.decode bytes = .ok (key, rest))
    (hd : ∀ inner, declaredAt declared opened key.number ≠ .message inner)
    (hs : skipPlain key.wire rest = .ok behind) :
    groupNesting declared opened bytes = groupNesting declared opened behind := by
  rw [groupNesting]
  grind [skipPlain]

theorem groupNesting_message (hk : Key.decode bytes = .ok (key, rest))
    (hd : declared key.number = .message inner) (hl : decodeLength rest = .ok (length, behind)) :
    groupNesting declared 0 bytes = max (groupNesting inner 0 (behind.take length))
      (groupNesting declared 0 (behind.drop length)) := by
  have hat : declaredAt declared 0 key.number = .message inner := hd
  rw [groupNesting]
  grind

end Steps

/-! ## Levels left -/

section Levels

variable {declared : Nat → Declared} {limit depth depth' : Nat} {bytes rest : List UInt8}

theorem declaredAt_of_pos {opened : Nat} (h : opened ≠ 0) (number : Nat) :
    declaredAt declared opened number = .nothing :=
  if_neg h

/-- Open groups are skipped with other levels left, if these are enough for the groups to come. -/
theorem skipGroups_of_nesting {opened : List Nat} (h : skipGroups depth opened bytes = .ok rest)
    (hopened : opened.length ≤ limit) (hd : limit < depth' + opened.length)
    (hn : groupNesting declared opened.length bytes ≤ limit) :
    skipGroups depth' opened bytes = .ok rest ∧ groupNesting declared 0 rest ≤ limit := by
  fun_induction skipGroups depth opened bytes generalizing depth' with
  | case1 =>
    cases h
    exact ⟨by rw [skipGroups], hn⟩
  | case2 => cases h
  | case3 depth bytes outer key rest' hk hw ih =>
    obtain ⟨number, wire⟩ := key
    cases hw
    rw [groupNesting_end hk (declaredAt_of_pos (by simp) _)] at hn
    rw [List.length_cons] at hopened hd
    rw [skipGroups_end hk]
    exact ih h (by omega) (by omega) hn
  | case4 => cases h
  | case5 => cases h
  | case6 bytes number outer key rest' hk depth hw ih =>
    obtain ⟨inner, wire⟩ := key
    cases hw
    rw [groupNesting_start hk (declaredAt_of_pos (by simp) _)] at hn
    rw [List.length_cons] at hopened hd hn
    obtain ⟨depth', rfl⟩ : ∃ d, depth' = d + 1 := Nat.exists_eq_add_one.2 (by omega)
    rw [skipGroups_start hk]
    refine ih h ?_ ?_ ?_ <;> rw [List.length_cons, List.length_cons] <;> omega
  | case7 => cases h
  | case8 bytes number outer key rest' hk depth rest'' _ _ hskip ih =>
    rw [groupNesting_plain hk (by rw [declaredAt_of_pos (by simp)]; simp) hskip] at hn
    obtain ⟨depth', rfl⟩ : ∃ d, depth' = d + 1 :=
      Nat.exists_eq_add_one.2 (by rw [List.length_cons] at hopened hd; omega)
    rw [skipGroups_plain hk hskip]
    exact ih h hopened hd hn

/-- An undeclared field is skipped with other levels left. -/
theorem skipField_of_nesting {key : Key} {behind : List UInt8}
    (hk : Key.decode bytes = .ok (key, rest)) (hkey : declared key.number = .nothing)
    (h : skipField depth key rest = .ok behind) (hd : limit < depth')
    (hn : groupNesting declared 0 bytes ≤ limit) :
    skipField depth' key rest = .ok behind ∧ groupNesting declared 0 behind ≤ limit := by
  obtain ⟨depth', rfl⟩ := Nat.exists_eq_add_one_of_ne_zero (Nat.ne_zero_of_lt hd)
  obtain ⟨number, wire⟩ := key
  have hat : declaredAt declared 0 number = .nothing := hkey
  unfold skipField at h
  split at h
  · cases h
  · split at h
    · next hw =>
      cases hw
      rw [groupNesting_start hk hat, Nat.zero_add] at hn
      refine skipGroups_of_nesting h ?_ ?_ ?_ <;> rw [List.length_singleton] <;> omega
    · rw [groupNesting_plain hk (by rw [hat]; simp) h] at hn
      obtain ⟨payload, hp, rfl⟩ := skipPlain_eq_ok_iff.1 h
      exact ⟨skipField_payload hp (Nat.succ_pos _) behind, hn⟩

end Levels

/-! ## Readers with other levels left -/

namespace FieldReader

variable {σ τ β : Type} {limit : Nat} {declared : Nat → Declared} {f f' : FieldReader σ}
  {m m' : σ} {bytes rest : List UInt8}

/-- What one reader reads with a key, the other reads as well, if the groups from the field on are
nested at most `limit` deep. -/
structure AgreeAt (limit : Nat) (declared : Nat → Declared) (key : Key) (f f' : FieldReader σ) :
    Prop where
  read : ∀ {m m' : σ} {bytes rest behind : List UInt8}, Key.decode bytes = .ok (key, rest) →
    groupNesting declared 0 bytes ≤ limit → f.read m key rest = .ok (m', behind) →
    f'.read m key rest = .ok (m', behind) ∧ groupNesting declared 0 behind ≤ limit

theorem mergeDown_of_agree (h : ∀ key, AgreeAt limit declared key f f') {left : Nat}
    (hn : groupNesting declared 0 bytes ≤ limit) (hm : f.mergeDown left m bytes = .ok (m', rest)) :
    f'.mergeDown left m bytes = .ok (m', rest) := by
  fun_induction mergeDown f left m bytes with
  | case1 _ _ hle =>
    cases hm
    exact mergeDown_of_le hle
  | case2 => cases hm
  | case3 => cases hm
  | case4 m bytes hgt key rest' hk _ _ hread ih =>
    obtain ⟨hread', hbehind⟩ := (h key).read hk hn hread
    rw [mergeDown_step (Nat.lt_of_not_le hgt) hk hread']
    exact ih hbehind hm

/-- What one reader merges, the other merges as well. -/
theorem merge_of_agree (h : ∀ key, AgreeAt limit declared key f f')
    (hn : groupNesting declared 0 bytes ≤ limit) (hm : f.merge m bytes = .ok m') :
    f'.merge m bytes = .ok m' := by
  unfold merge at hm ⊢
  cases hd : f.mergeDown 0 m bytes with
  | error e =>
    rw [hd] at hm
    cases hm
  | ok r =>
    rw [mergeDown_of_agree h hn hd, ← hd]
    exact hm

theorem mergeDelimited_of_agree {inner : Nat → Declared} {f f' : FieldReader τ} {t t' : τ} {key : Key}
    {behind : List UInt8} (hf : f.Local) (hf' : f'.Local)
    (h : ∀ key, AgreeAt limit inner key f f') (hkey : declared key.number = .message inner)
    (hk : Key.decode bytes = .ok (key, rest)) (hn : groupNesting declared 0 bytes ≤ limit)
    (hm : f.mergeDelimited t rest = .ok (t', behind)) :
    f'.mergeDelimited t rest = .ok (t', behind) ∧ groupNesting declared 0 behind ≤ limit := by
  obtain ⟨length, content, hs, rfl, htakes⟩ := hf.mergeDelimited_eq_ok_iff.1 hm
  rw [groupNesting_message hk hkey (decodeLength_spells hs behind), List.take_left,
    List.drop_left] at hn
  have hmerge : f'.merge t content = .ok t' := merge_of_agree h (by omega) htakes.merge
  exact ⟨(hf'.takes_iff_merge.2 hmerge).mergeDelimited_spells hs behind, by omega⟩

/-! ## Kinds of fields -/

theorem agreeAt_onField {number : Nat} {key : Key} {others others' : FieldReader σ}
    (hf : key.number = number → AgreeAt limit declared key f f')
    (ho : key.number ≠ number → AgreeAt limit declared key others others') :
    AgreeAt limit declared key (onField number f others) (onField number f' others') := by
  by_cases hn : key.number = number
  · subst hn
    exact ⟨fun hk hb hr =>
      (hf rfl).read hk hb (read_onField_self.symm.trans hr) |>.imp_left read_onField_self.trans⟩
  · exact ⟨fun hk hb hr => ((ho hn).read hk hb ((read_onField_of_ne hn).symm.trans hr)).imp_left
      (read_onField_of_ne hn).trans⟩

theorem agreeAt_named {name : FieldName} {key : Key} (h : AgreeAt limit declared key f f') :
    AgreeAt limit declared key (named name f) (named name f') where
  read hk hn hr := (h.read hk hn (read_named_eq_ok_iff.1 hr)).imp_left read_named_eq_ok_iff.2

theorem agreeAt_skipping {depth depth' : Nat} {key : Key} (hkey : declared key.number = .nothing)
    (hd : limit < depth') :
    AgreeAt limit declared key (skipping depth : FieldReader σ) (skipping depth') where
  read hk hn hr := by
    obtain ⟨hskip, rfl⟩ := read_skipping_eq_ok_iff.1 hr
    obtain ⟨hskip', hbehind⟩ := skipField_of_nesting hk hkey hskip hd hn
    exact ⟨read_skipping_eq_ok_iff.2 ⟨hskip', rfl⟩, hbehind⟩

/-- A text does not need any levels. -/
theorem agreeAt_text {store : σ → String → σ} {key : Key} (hkey : declared key.number = .text) :
    AgreeAt limit declared key (text store) (text store) where
  read {m m' bytes rest behind} hk hn hr := by
    refine ⟨hr, ?_⟩
    obtain ⟨s, hs, -⟩ := read_text_eq_ok_iff.1 hr
    obtain ⟨hw, length, content, hspells, -, rfl⟩ := decodeText_eq_ok_iff.1 hs
    have hskip : skipPlain key.wire (length ++ content ++ behind) = .ok behind :=
      hw ▸ (Payload.lengthDelimited hspells).skipPlain behind
    have hat : declaredAt declared 0 key.number = .text := hkey
    rwa [groupNesting_plain hk (by rw [hat]; simp) hskip] at hn

/-- A declared text, in front of other fields. -/
theorem agreeAt_textField {number : Nat} {name : FieldName} {store : σ → String → σ} {key : Key}
    {others others' : FieldReader σ} (hn : declared number = .text)
    (ho : key.number ≠ number → AgreeAt limit declared key others others') :
    AgreeAt limit declared key (onField number (named name (text store)) others)
      (onField number (named name (text store)) others') := by
  refine agreeAt_onField (fun h => agreeAt_named (agreeAt_text ?_)) ho
  rw [h, hn]

theorem agreeAt_nested {depth depth' : Nat} {inner : Nat → Declared} {f f' : FieldReader τ}
    {part : σ → τ} {store : σ → τ → σ} {key : Key} (hf : f.Local) (hf' : f'.Local)
    (h : ∀ key, AgreeAt limit inner key f f') (hkey : declared key.number = .message inner)
    (hd : depth' ≠ 0) :
    AgreeAt limit declared key (nested depth f part store) (nested depth' f' part store) where
  read hk hn hr := by
    obtain ⟨hw, -, t, hm, rfl⟩ := read_nested_eq_ok_iff.1 hr
    obtain ⟨hm', hbehind⟩ := mergeDelimited_of_agree hf hf' h hkey hk hn hm
    exact ⟨read_nested_eq_ok_iff.2 ⟨hw, hd, t, hm', rfl⟩, hbehind⟩

theorem agreeAt_entry {depth depth' : Nat} {inner : Nat → Declared}
    {f f' : FieldReader (String × β)} {start : String × β} {add : σ → String → β → σ} {key : Key}
    (hf : f.Local) (hf' : f'.Local) (h : ∀ key, AgreeAt limit inner key f f')
    (hkey : declared key.number = .message inner) (hd : depth' ≠ 0) :
    AgreeAt limit declared key (entry depth start f add) (entry depth' start f' add) where
  read hk hn hr := by
    obtain ⟨-, e, hm, rfl⟩ := read_entry_eq_ok_iff.1 hr
    obtain ⟨hm', hbehind⟩ := mergeDelimited_of_agree hf hf' h hkey hk hn hm
    exact ⟨read_entry_eq_ok_iff.2 ⟨hd, e, hm', rfl⟩, hbehind⟩

end FieldReader

end LibraryRegistry.Wire
