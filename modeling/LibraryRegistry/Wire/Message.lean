import LibraryRegistry.Text.Utf8
import LibraryRegistry.Wire.Field

/-!
# Binary messages

A message is a sequence of fields in any order. Reading merges the fields into a message one after
the other: a later text replaces an earlier one, a map entry is added, a field with an unknown
number is dropped. A field that its message cannot read fails with the path of the fields around
it, innermost first.

Reading never goes by the end of a nested message alone: a field is read from all bytes that follow,
and the message is refused when its last field ends behind its end.

## What is here

* `FieldReader` — how one kind of message takes in one field
* `FieldReader.mergeDown` — fields until only so many bytes are left
* `FieldReader.merge`, `FieldReader.mergeDelimited` — a whole input, an input that starts with a length
* `FieldReader.text`, `FieldReader.nested`, `FieldReader.entry` — readers of the kinds of fields
* writers of texts and map entries, and the sizes of what they write
-/

namespace LibraryRegistry.Wire

/-- A field of a message, for messages: the message's name and the field's. -/
structure FieldName where
  message : String
  field : String
  deriving DecidableEq, Repr

/-- A failure to read a message: the fields around it, innermost first, and the reason. -/
structure DecodeError where
  path : List FieldName
  reason : Reason
  deriving DecidableEq, Repr

namespace DecodeError

/-- A failure outside all named fields. -/
def ofReason (reason : Reason) : DecodeError := ⟨[], reason⟩

/-- The failure as seen from the message around the field. -/
def within (name : FieldName) (e : DecodeError) : DecodeError := { e with path := e.path ++ [name] }

/-- The wording of a failure. -/
def message (e : DecodeError) : String :=
  "failed to decode Protobuf message: "
    ++ String.join (e.path.map fun name => name.message ++ "." ++ name.field ++ ": ")
    ++ e.reason.message

end DecodeError

/-! ## Merging -/

/-- How one kind of message takes in one field whose key has been read. -/
structure FieldReader (σ : Type) where
  /-- Reads the payload that belongs to a key and returns what follows it. -/
  read : σ → Key → List UInt8 → Except DecodeError (σ × List UInt8)
  /-- Nothing is put back. -/
  shrinks : ∀ {m m' : σ} {key : Key} {bytes rest : List UInt8},
    read m key bytes = .ok (m', rest) → rest.length ≤ bytes.length

namespace FieldReader

variable {σ : Type}

/-- Merges fields into a message while more than `left` bytes are left. -/
def mergeDown (f : FieldReader σ) (left : Nat) (m : σ) (bytes : List UInt8) :
    Except DecodeError (σ × List UInt8) :=
  if bytes.length ≤ left then .ok (m, bytes)
  else
    match _hk : Key.decode bytes with
    | .error reason => .error (.ofReason reason)
    | .ok (key, rest) =>
      match _hf : f.read m key rest with
      | .error e => .error e
      | .ok (m', rest') => mergeDown f left m' rest'
termination_by bytes.length
decreasing_by exact Nat.lt_of_le_of_lt (f.shrinks _hf) (Key.decode_length _hk)

/-- Merges all fields of the input into a message. -/
def merge (f : FieldReader σ) (m : σ) (bytes : List UInt8) : Except DecodeError σ :=
  (f.mergeDown 0 m bytes).map (·.1)

/-- Merges the fields of a message that comes with its length and returns what follows it. -/
def mergeDelimited (f : FieldReader σ) (m : σ) (bytes : List UInt8) :
    Except DecodeError (σ × List UInt8) :=
  match decodeLength bytes with
  | .error reason => .error (.ofReason reason)
  | .ok (length, rest) =>
    match f.mergeDown (rest.length - length) m rest with
    | .error e => .error e
    | .ok (m', rest') =>
      if rest'.length = rest.length - length then .ok (m', rest')
      else .error (.ofReason .pastEnd)

theorem mergeDown_length {f : FieldReader σ} {left : Nat} {m m' : σ} {bytes rest : List UInt8}
    (h : f.mergeDown left m bytes = .ok (m', rest)) : rest.length ≤ bytes.length := by
  fun_induction mergeDown f left m bytes with
  | case1 => cases h; exact Nat.le_refl _
  | case2 => cases h
  | case3 => cases h
  | case4 _ _ _ _ _ hk _ _ hf ih =>
    have := Key.decode_length hk
    have := f.shrinks hf
    have := ih h
    omega

theorem mergeDelimited_length {f : FieldReader σ} {m m' : σ} {bytes rest : List UInt8}
    (h : f.mergeDelimited m bytes = .ok (m', rest)) : rest.length ≤ bytes.length := by
  unfold mergeDelimited at h
  split at h
  · cases h
  · next hl =>
    split at h
    · cases h
    · next hm =>
      split at h
      · cases h
        have := (decodeLength_length hl).1
        have := mergeDown_length hm
        omega
      · cases h

end FieldReader

/-- Merges inputs into a message one after the other and gives the message after each of them, up to
the first failure. -/
def mergeEach {σ : Type} (merge : σ → List UInt8 → Except DecodeError σ) (m : σ) :
    (inputs : List (List UInt8)) → List (Except DecodeError σ)
  | [] => []
  | bytes :: inputs =>
    match merge m bytes with
    | .error e => [.error e]
    | .ok m => .ok m :: mergeEach merge m inputs

/-! ## Payloads with a length -/

/-- Writes bytes behind their length. -/
def encodeDelimited (bytes : List UInt8) : List UInt8 := Varint.encode bytes.length ++ bytes

/-- The number of bytes of a payload of the given size behind its length. -/
def sizeDelimited (size : Nat) : Nat := Varint.size size + size

/-- Writes a text field; the empty text is left out. -/
def encodeText (number : Nat) (s : String) : List UInt8 :=
  if s = "" then []
  else Key.encode ⟨number, .lengthDelimited⟩ ++ encodeDelimited (Text.utf8 s)

/-- The number of bytes of a text field. -/
def sizeText (number : Nat) (s : String) : Nat :=
  if s = "" then 0
  else Key.size ⟨number, .lengthDelimited⟩ + sizeDelimited s.utf8ByteSize

/-- Writes a map entry: the key as field 1, the written value as field 2. An empty key or value is
left out. -/
def encodeEntry (number : Nat) (key : String) (value : List UInt8) : List UInt8 :=
  Key.encode ⟨number, .lengthDelimited⟩
    ++ encodeDelimited (encodeText 1 key
      ++ if value = [] then [] else Key.encode ⟨2, .lengthDelimited⟩ ++ encodeDelimited value)

/-- The number of bytes of a map entry, from the number of bytes of its value. -/
def sizeEntry (number : Nat) (key : String) (valueSize : Nat) : Nat :=
  Key.size ⟨number, .lengthDelimited⟩
    + sizeDelimited (sizeText 1 key
      + if valueSize = 0 then 0 else Key.size ⟨2, .lengthDelimited⟩ + sizeDelimited valueSize)

/-- Reads the text that belongs to a key. -/
def decodeText (key : Key) (bytes : List UInt8) : Except DecodeError (String × List UInt8) :=
  if key.wire ≠ .lengthDelimited then .error (.ofReason (.unexpected key.wire))
  else
    match decodeLength bytes with
    | .error reason => .error (.ofReason reason)
    | .ok (length, rest) =>
      match Text.ofUtf8? (rest.take length) with
      | none => .error (.ofReason .notUtf8)
      | some s => .ok (s, rest.drop length)

theorem decodeText_length {key : Key} {s : String} {bytes rest : List UInt8}
    (h : decodeText key bytes = .ok (s, rest)) : rest.length ≤ bytes.length := by
  unfold decodeText at h
  split at h
  · cases h
  · split at h
    · cases h
    · next hl =>
      split at h
      · cases h
      · cases h
        have := (decodeLength_length hl).1
        simp only [List.length_drop]
        omega

/-! ## Readers of fields -/

namespace FieldReader

variable {σ τ β : Type}

/-- Drops every field; `depth` is how many levels may be entered. -/
def skipping (depth : Nat) : FieldReader σ where
  read m key bytes :=
    match skipField depth key bytes with
    | .error reason => .error (.ofReason reason)
    | .ok rest => .ok (m, rest)
  shrinks := by
    intro _ _ _ _ _ h
    split at h
    · cases h
    · next hs => cases h; exact skipField_length hs

/-- `f` for the fields with one number, `others` for all other fields. -/
def onField (number : Nat) (f others : FieldReader σ) : FieldReader σ where
  read m key bytes := if key.number = number then f.read m key bytes else others.read m key bytes
  shrinks := by
    intro _ _ _ _ _ h
    split at h
    · exact f.shrinks h
    · exact others.shrinks h

/-- `f` with failures that name the field. -/
def named (name : FieldName) (f : FieldReader σ) : FieldReader σ where
  read m key bytes :=
    match f.read m key bytes with
    | .error e => .error (e.within name)
    | .ok r => .ok r
  shrinks := by
    intro _ _ _ _ _ h
    split at h
    · cases h
    · next hf => cases h; exact f.shrinks hf

/-- Reads a text and stores it. -/
def text (store : σ → String → σ) : FieldReader σ where
  read m key bytes :=
    match decodeText key bytes with
    | .error e => .error e
    | .ok (s, rest) => .ok (store m s, rest)
  shrinks := by
    intro _ _ _ _ _ h
    split at h
    · cases h
    · next hd => cases h; exact decodeText_length hd

/-- Merges a nested message, one level further in, into a part of the message. -/
def nested (depth : Nat) (f : FieldReader τ) (part : σ → τ) (store : σ → τ → σ) :
    FieldReader σ where
  read m key bytes :=
    if key.wire ≠ .lengthDelimited then .error (.ofReason (.unexpected key.wire))
    else if depth = 0 then .error (.ofReason .tooDeep)
    else
      match f.mergeDelimited (part m) bytes with
      | .error e => .error e
      | .ok (t, rest) => .ok (store m t, rest)
  shrinks := by
    intro _ _ _ _ _ h
    split at h
    · cases h
    · split at h
      · cases h
      · split at h
        · cases h
        · next hf => cases h; exact mergeDelimited_length hf

/-- The fields of a map entry: field 1 is its key and field 2, read by `value`, its value. -/
def entryFields (depth : Nat) (value : FieldReader (String × β)) : FieldReader (String × β) :=
  onField 1 (text fun e s => (s, e.2)) <| onField 2 value <| skipping depth

/-- Reads a map entry, one level further in, that begins as `start`, and adds it to the message. The
wire type of its key is not looked at: an entry always comes with its length. -/
def entry (depth : Nat) (start : String × β) (f : FieldReader (String × β))
    (add : σ → String → β → σ) : FieldReader σ where
  read m _ bytes :=
    if depth = 0 then .error (.ofReason .tooDeep)
    else
      match f.mergeDelimited start bytes with
      | .error e => .error e
      | .ok ((key, value), rest) => .ok (add m key value, rest)
  shrinks := by
    intro _ _ _ _ _ h
    split at h
    · cases h
    · split at h
      · cases h
      · next hf => cases h; exact mergeDelimited_length hf

end FieldReader

end LibraryRegistry.Wire
