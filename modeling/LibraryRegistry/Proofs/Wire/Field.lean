import LibraryRegistry.Proofs.Wire.Varint
import LibraryRegistry.Wire.Field

/-!
# Laws of fields

Which bytes are a field, whatever message it is for: `Fields` is the grammar of runs of fields,
groups included, with all spellings of keys and lengths. A reader of a field takes such bytes and
nothing more.

* `Key.decode_eq_ok_iff`, `skipPlain_eq_ok_iff` — what is read, and what is left
* `exists_front_of_skipField` — skipping does not look behind what it takes
* `skipField_payload`, `skipField_group` — a well-formed field is skipped
* `eq_of_skipField_payload`, `eq_of_skipField_group` — and nothing more, whatever levels are left
-/

namespace LibraryRegistry.Wire

/-! ## Keys -/

theorem WireType.code_lt (w : WireType) : w.code < 8 := by
  cases w <;> decide

theorem WireType.code_of_ofCode? {n : Nat} {w : WireType} (h : ofCode? n = some w) : w.code = n := by
  unfold ofCode? at h
  split at h <;> cases h <;> rfl

namespace Key

/-- The bytes spell a key; field numbers have twenty-nine bits and are not zero. -/
structure Spells (key : Key) (bytes : List UInt8) : Prop where
  spells : Varint.Spells (key.number * 8 + key.wire.code) bytes
  number_ne : key.number ≠ 0
  number_lt : key.number < 2 ^ 29

theorem Spells.length_pos {key : Key} {bytes : List UInt8} (h : key.Spells bytes) :
    0 < bytes.length :=
  h.spells.length_pos

theorem ofNat_eq {key : Key} (hpos : key.number ≠ 0) (hlt : key.number < 2 ^ 29) :
    ofNat (key.number * 8 + key.wire.code) = .ok key := by
  have hc := key.wire.code_lt
  have hmod : (key.number * 8 + key.wire.code) % 8 = key.wire.code := by omega
  have hdiv : (key.number * 8 + key.wire.code) / 8 = key.number := by omega
  rw [ofNat, if_neg (by omega), hmod, WireType.ofCode?_code, hdiv]
  show (if key.number = 0 then _ else _) = _
  rw [if_neg hpos]

/-- A number is the key that it is made of. -/
theorem eq_of_ofNat {key : Key} {n : Nat} (h : ofNat n = .ok key) :
    key.number * 8 + key.wire.code = n ∧ key.number ≠ 0 ∧ key.number < 2 ^ 29 := by
  unfold ofNat at h
  split at h
  · cases h
  · next hlt =>
    split at h
    · cases h
    · next wire hw =>
      split at h
      · cases h
      · next hne =>
        cases h
        have hcode := WireType.code_of_ofCode? hw
        refine ⟨?_, hne, ?_⟩
        · show n / 8 * 8 + wire.code = n
          omega
        · show n / 8 < 2 ^ 29
          omega

/-- A key is read from its spellings. -/
theorem decode_eq_ok_iff {key : Key} {bytes rest : List UInt8} :
    decode bytes = .ok (key, rest) ↔ ∃ front, key.Spells front ∧ bytes = front ++ rest := by
  constructor
  · intro h
    unfold decode at h
    split at h
    · cases h
    · next n rest' hv =>
      cases hk : ofNat n with
      | error reason =>
        rw [hk] at h
        cases h
      | ok k =>
        rw [hk] at h
        cases h
        obtain ⟨front, hs, rfl⟩ := Varint.decode?_eq_some_iff.1 hv
        obtain ⟨rfl, hne, hlt⟩ := eq_of_ofNat hk
        exact ⟨front, ⟨hs, hne, hlt⟩, rfl⟩
  · rintro ⟨front, hs, rfl⟩
    rw [decode, hs.spells.decode?]
    show (ofNat (key.number * 8 + key.wire.code)).map (·, rest) = _
    rw [ofNat_eq hs.number_ne hs.number_lt]
    rfl

theorem Spells.decode {key : Key} {bytes : List UInt8} (h : key.Spells bytes) (rest : List UInt8) :
    decode (bytes ++ rest) = .ok (key, rest) :=
  decode_eq_ok_iff.2 ⟨bytes, h, rfl⟩

/-- What is written is one of the spellings. -/
theorem spells_encode {key : Key} (hpos : key.number ≠ 0) (hlt : key.number < 2 ^ 29) :
    key.Spells key.encode := by
  have hc := key.wire.code_lt
  exact ⟨Varint.spells_encode (by omega), hpos, hlt⟩

theorem length_encode {key : Key} (hlt : key.number < 2 ^ 29) : key.encode.length = key.size := by
  have hc := key.wire.code_lt
  exact Varint.length_encode (by omega)

end Key

/-! ## Payloads -/

/-- A length is read with the bytes that it counts. -/
theorem decodeLength_spells {length content : List UInt8}
    (h : Varint.Spells content.length length) (rest : List UInt8) :
    decodeLength (length ++ content ++ rest) = .ok (content.length, content ++ rest) := by
  rw [decodeLength, List.append_assoc, h.decode?]
  show (if (content ++ rest).length < content.length then _ else _) = _
  rw [if_neg (by rw [List.length_append]; omega)]

theorem exists_content_of_decodeLength {n : Nat} {bytes behind : List UInt8}
    (h : decodeLength bytes = .ok (n, behind)) : ∃ length content rest,
      Varint.Spells content.length length ∧ bytes = length ++ content ++ rest ∧
        n = content.length ∧ behind = content ++ rest := by
  have hle := (decodeLength_length h).2
  unfold decodeLength at h
  split at h
  · cases h
  · next hv =>
    split at h
    · cases h
    · cases h
      obtain ⟨length, hs, rfl⟩ := Varint.decode?_eq_some_iff.1 hv
      have hlen : (behind.take n).length = n := List.length_take_of_le hle
      have hbehind := List.take_append_drop n behind
      refine ⟨length, behind.take n, behind.drop n, hlen.symm ▸ hs, ?_, hlen.symm, hbehind.symm⟩
      rw [List.append_assoc, hbehind]

/-- The bytes are the payload of a field that is no group. -/
inductive Payload : WireType → List UInt8 → Prop
  | varint {n : Nat} {bytes : List UInt8} (h : Varint.Spells n bytes) : Payload .varint bytes
  | thirtyTwoBit {bytes : List UInt8} (h : bytes.length = 4) : Payload .thirtyTwoBit bytes
  | sixtyFourBit {bytes : List UInt8} (h : bytes.length = 8) : Payload .sixtyFourBit bytes
  | lengthDelimited {length content : List UInt8} (h : Varint.Spells content.length length) :
      Payload .lengthDelimited (length ++ content)

theorem skipBytes_eq_ok_iff {count : Nat} {bytes rest : List UInt8} :
    skipBytes count bytes = .ok rest ↔
      ∃ front : List UInt8, front.length = count ∧ bytes = front ++ rest := by
  unfold skipBytes
  constructor
  · intro h
    split at h
    · cases h
    · next hle =>
      cases h
      exact ⟨bytes.take count, List.length_take_of_le (Nat.not_lt.1 hle),
        (List.take_append_drop count bytes).symm⟩
  · rintro ⟨front, rfl, rfl⟩
    rw [if_neg (by rw [List.length_append]; omega), List.drop_left]

/-- **A payload is skipped**, and nothing more. -/
theorem skipPlain_eq_ok_iff {wire : WireType} {bytes rest : List UInt8} :
    skipPlain wire bytes = .ok rest ↔ ∃ payload, Payload wire payload ∧ bytes = payload ++ rest := by
  constructor
  · intro h
    unfold skipPlain at h
    split at h
    · split at h
      · cases h
      · next hv =>
        cases h
        obtain ⟨front, hs, rfl⟩ := Varint.decode?_eq_some_iff.1 hv
        exact ⟨front, .varint hs, rfl⟩
    · obtain ⟨front, hlen, rfl⟩ := skipBytes_eq_ok_iff.1 h
      exact ⟨front, .thirtyTwoBit hlen, rfl⟩
    · obtain ⟨front, hlen, rfl⟩ := skipBytes_eq_ok_iff.1 h
      exact ⟨front, .sixtyFourBit hlen, rfl⟩
    · cases hd : decodeLength bytes with
      | error reason =>
        rw [hd] at h
        cases h
      | ok r =>
        obtain ⟨n, behind⟩ := r
        rw [hd] at h
        cases h
        obtain ⟨length, content, rest, hs, rfl, rfl, rfl⟩ := exists_content_of_decodeLength hd
        have hdrop : (content ++ rest).drop content.length = rest := List.drop_left
        exact ⟨length ++ content, .lengthDelimited hs, congrArg _ hdrop.symm⟩
    · cases h
    · cases h
  · rintro ⟨payload, hp, rfl⟩
    cases hp with
    | varint hs => simp only [skipPlain, hs.decode?]
    | thirtyTwoBit hlen => exact skipBytes_eq_ok_iff.2 ⟨payload, hlen, rfl⟩
    | sixtyFourBit hlen => exact skipBytes_eq_ok_iff.2 ⟨payload, hlen, rfl⟩
    | lengthDelimited hs =>
      rw [skipPlain, decodeLength_spells hs]
      exact congrArg Except.ok List.drop_left

theorem Payload.skipPlain {wire : WireType} {payload : List UInt8} (h : Payload wire payload)
    (rest : List UInt8) : skipPlain wire (payload ++ rest) = .ok rest :=
  skipPlain_eq_ok_iff.2 ⟨payload, h, rfl⟩

/-! ## Groups -/

section Groups

variable {depth number : Nat} {outer : List Nat} {key : Key} {bytes rest rest' : List UInt8}

theorem skipGroups_end (hk : Key.decode bytes = .ok (⟨number, .endGroup⟩, rest)) :
    skipGroups depth (number :: outer) bytes = skipGroups (depth + 1) outer rest := by
  rw [skipGroups]
  grind

theorem skipGroups_start {inner : Nat} (hk : Key.decode bytes = .ok (⟨inner, .startGroup⟩, rest)) :
    skipGroups (depth + 1) (number :: outer) bytes
      = skipGroups depth (inner :: number :: outer) rest := by
  rw [skipGroups]
  grind

/-- The two ends of a group have no payload to be skipped. -/
theorem skipGroups_plain (hk : Key.decode bytes = .ok (key, rest))
    (hs : skipPlain key.wire rest = .ok rest') :
    skipGroups (depth + 1) (number :: outer) bytes
      = skipGroups (depth + 1) (number :: outer) rest' := by
  rw [skipGroups]
  grind [skipPlain]

/-- Without levels left, the innermost group has to end. -/
theorem skipGroups_zero (hk : Key.decode bytes = .ok (key, rest)) (hw : key.wire ≠ .endGroup) :
    skipGroups 0 (number :: outer) bytes = .error .tooDeep := by
  rw [skipGroups]
  grind

end Groups

/-- Skipping does not look behind the end of the outermost group. -/
theorem exists_front_of_skipGroups {depth : Nat} {opened : List Nat} {bytes rest : List UInt8}
    (h : skipGroups depth opened bytes = .ok rest) :
    ∃ front, bytes = front ++ rest ∧
      ∀ behind, skipGroups depth opened (front ++ behind) = .ok behind := by
  -- A step takes a key, and a payload if it has one; the other steps take what follows.
  fun_induction skipGroups depth opened bytes with
  | case1 =>
    cases h
    exact ⟨[], rfl, fun behind => by rw [List.nil_append, skipGroups]⟩
  | case2 => cases h
  | case3 depth bytes outer key rest' hk hw ih =>
    obtain ⟨number, wire⟩ := key
    obtain ⟨start, hs, rfl⟩ := Key.decode_eq_ok_iff.1 hk
    obtain ⟨front, rfl, hfront⟩ := ih h
    cases hw
    refine ⟨start ++ front, (List.append_assoc ..).symm, fun behind => ?_⟩
    rw [List.append_assoc, skipGroups_end (hs.decode _), hfront]
  | case4 => cases h
  | case5 => cases h
  | case6 bytes number outer key rest' hk depth hw ih =>
    obtain ⟨inner, wire⟩ := key
    obtain ⟨start, hs, rfl⟩ := Key.decode_eq_ok_iff.1 hk
    obtain ⟨front, rfl, hfront⟩ := ih h
    cases hw
    refine ⟨start ++ front, (List.append_assoc ..).symm, fun behind => ?_⟩
    rw [List.append_assoc, skipGroups_start (hs.decode _), hfront]
  | case7 => cases h
  | case8 bytes number outer key rest' hk depth rest'' _ _ hskip ih =>
    obtain ⟨start, hs, rfl⟩ := Key.decode_eq_ok_iff.1 hk
    obtain ⟨payload, hp, rfl⟩ := skipPlain_eq_ok_iff.1 hskip
    obtain ⟨front, rfl, hfront⟩ := ih h
    refine ⟨start ++ (payload ++ front), by simp only [List.append_assoc], fun behind => ?_⟩
    rw [List.append_assoc, List.append_assoc, skipGroups_plain (hs.decode _) (hp.skipPlain _),
      hfront]

/-- **Skipping a field does not look behind it.** -/
theorem exists_front_of_skipField {depth : Nat} {key : Key} {bytes rest : List UInt8}
    (h : skipField depth key bytes = .ok rest) :
    ∃ front, bytes = front ++ rest ∧
      ∀ behind, skipField depth key (front ++ behind) = .ok behind := by
  unfold skipField at h ⊢
  split at h
  · cases h
  · split at h
    · exact exists_front_of_skipGroups h
    · obtain ⟨payload, hp, rfl⟩ := skipPlain_eq_ok_iff.1 h
      exact ⟨payload, rfl, hp.skipPlain⟩

/-! ## Runs of fields -/

/-- The bytes are well-formed fields with these numbers, whatever message they are for, with groups
nested at most so deep. -/
inductive Fields : (nesting : Nat) → (numbers : List Nat) → List UInt8 → Prop
  | nil {nesting : Nat} : Fields nesting [] []
  | plain {nesting : Nat} {key : Key} {numbers : List Nat} {start payload rest : List UInt8}
      (hs : key.Spells start) (hp : Payload key.wire payload) (h : Fields nesting numbers rest) :
      Fields nesting (key.number :: numbers) (start ++ payload ++ rest)
  | group {nesting number : Nat} {inner numbers : List Nat} {start content stop rest : List UInt8}
      (hs : Key.Spells ⟨number, .startGroup⟩ start) (hc : Fields nesting inner content)
      (he : Key.Spells ⟨number, .endGroup⟩ stop) (h : Fields (nesting + 1) numbers rest) :
      Fields (nesting + 1) (number :: numbers) (start ++ content ++ stop ++ rest)

/-- Fields inside a group are skipped, if the groups among them may be entered. -/
theorem skipGroups_fields {nesting depth number : Nat} {numbers outer : List Nat}
    {bytes : List UInt8} (h : Fields nesting numbers bytes) (hd : nesting < depth)
    (rest : List UInt8) :
    skipGroups depth (number :: outer) (bytes ++ rest) = skipGroups depth (number :: outer) rest := by
  induction h generalizing depth number outer rest with
  | nil => rfl
  | @plain nesting key numbers start payload fields hs hp _ ih =>
    obtain ⟨depth, rfl⟩ := Nat.exists_eq_add_one_of_ne_zero (Nat.ne_zero_of_lt hd)
    simp only [List.append_assoc]
    rw [skipGroups_plain (hs.decode _) (hp.skipPlain _), ih hd]
  | @group nesting inner _ _ start content stop fields hs _ he _ ihc ih =>
    obtain ⟨depth, rfl⟩ := Nat.exists_eq_add_one_of_ne_zero (Nat.ne_zero_of_lt hd)
    simp only [List.append_assoc]
    rw [skipGroups_start (hs.decode _), ihc (Nat.lt_of_succ_lt_succ hd),
      skipGroups_end (he.decode _), ih hd]

/-- **A group is skipped** with all the fields in it. -/
theorem skipField_group {nesting depth number : Nat} {numbers : List Nat}
    {content stop : List UInt8} (hc : Fields nesting numbers content)
    (he : Key.Spells ⟨number, .endGroup⟩ stop) (hd : nesting + 1 < depth) (rest : List UInt8) :
    skipField depth ⟨number, .startGroup⟩ (content ++ stop ++ rest) = .ok rest := by
  obtain ⟨depth, rfl⟩ := Nat.exists_eq_add_one_of_ne_zero (Nat.ne_zero_of_lt hd)
  show skipGroups depth [number] (content ++ stop ++ rest) = .ok rest
  rw [List.append_assoc, skipGroups_fields hc (Nat.lt_of_succ_lt_succ hd),
    skipGroups_end (he.decode _), skipGroups]

/-- **A field that is no group is skipped.** -/
theorem skipField_payload {depth : Nat} {key : Key} {payload : List UInt8}
    (hp : Payload key.wire payload) (hd : 0 < depth) (rest : List UInt8) :
    skipField depth key (payload ++ rest) = .ok rest := by
  obtain ⟨depth, rfl⟩ := Nat.exists_eq_add_one_of_ne_zero (Nat.ne_zero_of_lt hd)
  have hskip := hp.skipPlain rest
  obtain ⟨number, wire⟩ := key
  cases wire with
  | startGroup => cases hp
  | _ => exact hskip

/-! ## Where skipping ends -/

theorem Payload.wire_ne {wire : WireType} {payload : List UInt8} (h : Payload wire payload) :
    wire ≠ .startGroup ∧ wire ≠ .endGroup := by
  cases h <;> decide

/-- Fields inside a group are skipped one by one, whatever levels are left. -/
theorem skipGroups_of_fields {nesting depth number : Nat} {numbers outer : List Nat}
    {bytes rest rest' : List UInt8} (h : Fields nesting numbers bytes)
    (hskip : skipGroups depth (number :: outer) (bytes ++ rest) = .ok rest') :
    skipGroups depth (number :: outer) rest = .ok rest' := by
  induction h generalizing depth number outer rest with
  | nil => exact hskip
  | @plain _ key _ start payload fields hs hp _ ih =>
    simp only [List.append_assoc] at hskip
    cases depth with
    | zero =>
      rw [skipGroups_zero (hs.decode _) hp.wire_ne.2] at hskip
      cases hskip
    | succ depth =>
      rw [skipGroups_plain (hs.decode _) (hp.skipPlain _)] at hskip
      exact ih hskip
  | @group _ inner _ _ start content stop fields hs _ he _ ihc ih =>
    simp only [List.append_assoc] at hskip
    cases depth with
    | zero =>
      rw [skipGroups_zero (hs.decode _) (by simp)] at hskip
      cases hskip
    | succ depth =>
      rw [skipGroups_start (hs.decode _)] at hskip
      have hstop := ihc hskip
      rw [skipGroups_end (he.decode _)] at hstop
      exact ih hstop

/-- A group is skipped to its end, if it is skipped at all. -/
theorem eq_of_skipField_group {nesting depth number : Nat} {numbers : List Nat}
    {content stop rest rest' : List UInt8} (hc : Fields nesting numbers content)
    (he : Key.Spells ⟨number, .endGroup⟩ stop)
    (h : skipField depth ⟨number, .startGroup⟩ (content ++ stop ++ rest) = .ok rest') :
    rest' = rest := by
  cases depth with
  | zero => cases h
  | succ depth =>
    have hskip : skipGroups depth [number] (content ++ stop ++ rest) = .ok rest' := h
    rw [List.append_assoc] at hskip
    have hstop := skipGroups_of_fields hc hskip
    rw [skipGroups_end (he.decode _), skipGroups] at hstop
    cases hstop
    rfl

theorem eq_of_skipField_payload {depth : Nat} {key : Key} {payload rest rest' : List UInt8}
    (hp : Payload key.wire payload) (h : skipField depth key (payload ++ rest) = .ok rest') :
    rest' = rest := by
  cases depth with
  | zero => cases h
  | succ depth =>
    rw [skipField_payload hp (Nat.succ_pos _)] at h
    cases h
    rfl

/-- Bytes behind a length are told apart from what follows them. -/
theorem delimited_inj {length length' content content' rest rest' : List UInt8}
    (hs : Varint.Spells content.length length) (hs' : Varint.Spells content'.length length')
    (h : length ++ content ++ rest = length' ++ content' ++ rest') :
    content = content' ∧ rest = rest' := by
  have hd := decodeLength_spells hs rest
  rw [h, decodeLength_spells hs' rest'] at hd
  simp only [Except.ok.injEq, Prod.mk.injEq] at hd
  exact (List.append_inj hd.2 hd.1).imp Eq.symm Eq.symm

end LibraryRegistry.Wire
