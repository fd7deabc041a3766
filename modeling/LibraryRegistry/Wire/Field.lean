import LibraryRegistry.Wire.Varint

/-!
# Fields of a binary message

A field is a key (its number and its wire type) and a payload whose extent the wire type gives.
Here are the keys, the ways reading can fail, and the skipping of fields that a message does not
declare, groups of fields included.
-/

namespace LibraryRegistry.Wire

/-- How the payload of a field is delimited. -/
inductive WireType
  | varint
  | sixtyFourBit
  | lengthDelimited
  | startGroup
  | endGroup
  | thirtyTwoBit
  deriving DecidableEq, Repr

namespace WireType

/-- The number of a wire type, the low three bits of a key. -/
def code : WireType → Nat
  | varint => 0
  | sixtyFourBit => 1
  | lengthDelimited => 2
  | startGroup => 3
  | endGroup => 4
  | thirtyTwoBit => 5

/-- The wire type with a number. -/
def ofCode? : Nat → Option WireType
  | 0 => some varint
  | 1 => some sixtyFourBit
  | 2 => some lengthDelimited
  | 3 => some startGroup
  | 4 => some endGroup
  | 5 => some thirtyTwoBit
  | _ => none

@[simp] theorem ofCode?_code (w : WireType) : ofCode? w.code = some w := by cases w <;> rfl

/-- The name of a wire type in messages. -/
def name : WireType → String
  | varint => "Varint"
  | sixtyFourBit => "SixtyFourBit"
  | lengthDelimited => "LengthDelimited"
  | startGroup => "StartGroup"
  | endGroup => "EndGroup"
  | thirtyTwoBit => "ThirtyTwoBit"

end WireType

/-- Why bytes cannot be read as a message. -/
inductive Reason
  /-- A length or a fixed-size payload runs past the end of the bytes. -/
  | underflow
  /-- A number is cut off or too large. -/
  | varint
  /-- A key is above `2 ^ 32 - 1`. -/
  | key (key : Nat)
  /-- A key names the field number zero. -/
  | fieldZero
  /-- A key names a wire type that does not exist. -/
  | wireType (code : Nat)
  /-- A declared field does not come with a length. -/
  | unexpected (found : WireType)
  /-- The last field of a delimited message ends behind the message's end. -/
  | pastEnd
  /-- A group ends that was not the last one begun. -/
  | endGroup
  /-- Messages and groups are nested too deeply. -/
  | tooDeep
  /-- The bytes of a text are not UTF-8. -/
  | notUtf8
  deriving DecidableEq, Repr

/-- The wording of a reason. -/
def Reason.message : Reason → String
  | underflow => "buffer underflow"
  | varint => "invalid varint"
  | key n => s!"invalid key value: {n}"
  | fieldZero => "invalid tag value: 0"
  | wireType n => s!"invalid wire type value: {n}"
  | unexpected found => s!"invalid wire type: {found.name} (expected LengthDelimited)"
  | pastEnd => "delimited length exceeded"
  | endGroup => "unexpected end group tag"
  | tooDeep => "recursion limit reached"
  | notUtf8 => "invalid string value: data is not UTF-8 encoded"

/-- The key of a field. -/
structure Key where
  number : Nat
  wire : WireType
  deriving DecidableEq, Repr

namespace Key

/-- Writes a key. -/
def encode (key : Key) : List UInt8 := Varint.encode (key.number * 8 + key.wire.code)

/-- The number of bytes of a key. -/
def size (key : Key) : Nat := Varint.size (key.number * 8 + key.wire.code)

/-- The key with a number below `2 ^ 32`: field numbers start at one. -/
def ofNat (n : Nat) : Except Reason Key :=
  if 2 ^ 32 ≤ n then .error (.key n)
  else
    match WireType.ofCode? (n % 8) with
    | none => .error (.wireType (n % 8))
    | some wire => if n / 8 = 0 then .error .fieldZero else .ok ⟨n / 8, wire⟩

/-- Reads a key and returns what follows it. -/
def decode (bytes : List UInt8) : Except Reason (Key × List UInt8) :=
  match Varint.decode? bytes with
  | none => .error .varint
  | some (n, rest) => (ofNat n).map (·, rest)

/-- Reading a key takes at least one byte. -/
theorem decode_length {key : Key} {bytes rest : List UInt8} (h : decode bytes = .ok (key, rest)) :
    rest.length < bytes.length := by
  unfold decode at h
  split at h
  · cases h
  · next n rest' hv =>
    cases hk : ofNat n with
    | error e => simp [hk, Except.map] at h
    | ok k =>
      simp only [hk, Except.map, Except.ok.injEq, Prod.mk.injEq] at h
      exact h.2 ▸ Varint.decode?_length hv

end Key

/-! ## Payloads -/

/-- Reads a length and checks that so many bytes follow. -/
def decodeLength (bytes : List UInt8) : Except Reason (Nat × List UInt8) :=
  match Varint.decode? bytes with
  | none => .error .varint
  | some (length, rest) =>
    if rest.length < length then .error .underflow else .ok (length, rest)

theorem decodeLength_length {n : Nat} {bytes rest : List UInt8}
    (h : decodeLength bytes = .ok (n, rest)) : rest.length < bytes.length ∧ n ≤ rest.length := by
  unfold decodeLength at h
  split at h
  · cases h
  · next hv =>
    split at h
    · cases h
    · next hle =>
      cases h
      exact ⟨Varint.decode?_length hv, Nat.le_of_not_lt hle⟩

/-- Drops a payload of a fixed number of bytes. -/
def skipBytes (count : Nat) (bytes : List UInt8) : Except Reason (List UInt8) :=
  if bytes.length < count then .error .underflow else .ok (bytes.drop count)

/-- Drops the payload of a field that is no group. -/
def skipPlain (wire : WireType) (bytes : List UInt8) : Except Reason (List UInt8) :=
  match wire with
  | .varint =>
    match Varint.decode? bytes with
    | none => .error .varint
    | some (_, rest) => .ok rest
  | .thirtyTwoBit => skipBytes 4 bytes
  | .sixtyFourBit => skipBytes 8 bytes
  | .lengthDelimited => (decodeLength bytes).map fun (length, rest) => rest.drop length
  | .startGroup | .endGroup => .error .endGroup

theorem skipBytes_length {count : Nat} {bytes rest : List UInt8}
    (h : skipBytes count bytes = .ok rest) : rest.length ≤ bytes.length := by
  unfold skipBytes at h
  split at h
  · cases h
  · cases h; simp

theorem skipPlain_length {wire : WireType} {bytes rest : List UInt8}
    (h : skipPlain wire bytes = .ok rest) : rest.length ≤ bytes.length := by
  unfold skipPlain at h
  split at h
  · split at h
    · cases h
    · next hv => cases h; exact Nat.le_of_lt (Varint.decode?_length hv)
  · exact skipBytes_length h
  · exact skipBytes_length h
  · cases hd : decodeLength bytes with
    | error e => simp [hd, Except.map] at h
    | ok p =>
      simp only [hd, Except.map, Except.ok.injEq] at h
      have := (decodeLength_length hd).1
      subst h
      simp only [List.length_drop]
      omega
  · cases h
  · cases h

/-- Drops the fields inside the open groups, innermost first, and the ends of the groups. `depth` is
how many levels may still be entered below the innermost group. -/
def skipGroups (depth : Nat) (opened : List Nat) (bytes : List UInt8) :
    Except Reason (List UInt8) :=
  match opened with
  | [] => .ok bytes
  | number :: outer =>
    match _hk : Key.decode bytes with
    | .error reason => .error reason
    | .ok (key, rest) =>
      match key.wire, depth with
      | .endGroup, _ =>
        if key.number = number then skipGroups (depth + 1) outer rest else .error .endGroup
      | _, 0 => .error .tooDeep
      | .startGroup, depth + 1 => skipGroups depth (key.number :: number :: outer) rest
      | wire, depth + 1 =>
        match hs : skipPlain wire rest with
        | .error reason => .error reason
        | .ok rest' => skipGroups (depth + 1) (number :: outer) rest'
termination_by bytes.length
decreasing_by
  · exact Key.decode_length _hk
  · exact Key.decode_length _hk
  · exact Nat.lt_of_le_of_lt (skipPlain_length hs) (Key.decode_length _hk)

/-- Drops the payload of a field that the message does not declare. `depth` is how many levels,
that of the field included, may be entered. -/
def skipField (depth : Nat) (key : Key) (bytes : List UInt8) : Except Reason (List UInt8) :=
  match depth with
  | 0 => .error .tooDeep
  | depth + 1 =>
    match key.wire with
    | .startGroup => skipGroups depth [key.number] bytes
    | wire => skipPlain wire bytes

theorem skipGroups_length {depth : Nat} {opened : List Nat} {bytes rest : List UInt8}
    (h : skipGroups depth opened bytes = .ok rest) : rest.length ≤ bytes.length := by
  fun_induction skipGroups depth opened bytes with
  | case1 => cases h; exact Nat.le_refl _
  | case2 => cases h
  | case3 _ _ _ _ _ hk _ ih =>
    have := Key.decode_length hk
    have := ih h
    omega
  | case4 => cases h
  | case5 => cases h
  | case6 _ _ _ _ _ hk _ _ ih =>
    have := Key.decode_length hk
    have := ih h
    omega
  | case7 => cases h
  | case8 _ _ _ _ _ hk _ _ _ _ hs ih =>
    have := Key.decode_length hk
    have := skipPlain_length hs
    have := ih h
    omega

theorem skipField_length {depth : Nat} {key : Key} {bytes rest : List UInt8}
    (h : skipField depth key bytes = .ok rest) : rest.length ≤ bytes.length := by
  unfold skipField at h
  split at h
  · cases h
  · split at h
    · exact skipGroups_length h
    · exact skipPlain_length h

end LibraryRegistry.Wire
