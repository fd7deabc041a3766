import LibraryRegistry.Dict
import LibraryRegistry.Json.Skip

/-!
# Readers of JSON values

A reader expects one kind of value in front of a text and returns what follows. Blanks in front of
the value are dropped. A value of another kind is read just so far that the fault can say what it is.

## What is here

* `Reader` — a reader with its law: something is taken
* `Reader.text`, `Reader.integer`, `Reader.optional` — single values
* `MemberReader`, `readMembers` — the members of an object, one after the other
* `Reader.dict` — an object as a dictionary; the last value of a repeated key counts
* `Reader.parse` — a whole text
-/

namespace LibraryRegistry.Json

/-- A reader of one kind of value. -/
structure Reader (α : Type) where
  /-- Reads a value and returns what follows it. -/
  read : List Char → Except Fault (α × List Char)
  /-- Something is taken. -/
  shrinks : ∀ {cs rest : List Char} {a : α}, read cs = .ok (a, rest) → rest.length < cs.length

/-! ## Values of another kind -/

/-- Reads a value that is neither a list nor an object. -/
def readScalar (cs : List Char) : Except Fault (Found × List Char) :=
  match cs with
  | [] => .error (.atEnd .endInValue)
  | 'n' :: rest => (readWord ['u', 'l', 'l'] rest).map (.null, ·)
  | 't' :: rest => (readWord ['r', 'u', 'e'] rest).map (.boolean true, ·)
  | 'f' :: rest => (readWord ['a', 'l', 's', 'e'] rest).map (.boolean false, ·)
  | '"' :: rest => (readText rest).map fun (s, rest) => (.text s, rest)
  | c :: _ =>
    if c = '-' || c.isDigit then (readNumber cs).map fun (n, rest) => (.number n, rest)
    else .error (.atFirst .expectedValue cs)

/-- The fault of a value that is not what is expected. Lists and objects are not entered. -/
def wrongKind (expected : String) (cs : List Char) : Fault :=
  match cs with
  | '[' :: _ => .before (.invalidType .list expected) cs
  | '\x7b' :: _ => .before (.invalidType .object expected) cs
  | _ =>
    match readScalar cs with
    | .error f => f
    | .ok (found, rest) => .before (.invalidType found expected) rest

/-! ## Single values -/

namespace Reader

variable {α β : Type}

/-- Reads a value and turns it into another one. -/
def map (f : α → β) (r : Reader α) : Reader β where
  read cs :=
    match r.read cs with
    | .error e => .error e
    | .ok (a, rest) => .ok (f a, rest)
  shrinks := by
    intro _ _ _ h
    split at h
    · cases h
    · next hr =>
      simp only [Except.ok.injEq, Prod.mk.injEq] at h
      exact h.2 ▸ r.shrinks hr

/-- Reads a text. -/
def text : Reader String where
  read cs :=
    match skipBlanks cs with
    | '"' :: rest => readText rest
    | cs => .error (wrongKind "a string" cs)
  shrinks := by
    intro cs _ _ h
    have hb := skipBlanks_length cs
    split at h
    · next heq =>
      rw [heq] at hb
      exact Nat.lt_of_lt_of_le (Nat.lt_succ_of_le (readText_length h)) hb
    · cases h

/-- Reads a number that `accept` takes. -/
def number (expected : String) (accept : Number → Except Cause α) : Reader α where
  read cs :=
    match skipBlanks cs with
    | [] => .error (.atEnd .endInValue)
    | c :: cs =>
      if c = '-' || c.isDigit then
        match readNumber (c :: cs) with
        | .error f => .error f
        | .ok (n, rest) =>
          match accept n with
          | .error cause => .error (.before cause rest)
          | .ok a => .ok (a, rest)
      else .error (wrongKind expected (c :: cs))
  shrinks := by
    intro cs _ _ h
    have hb := skipBlanks_length cs
    split at h
    · cases h
    · next heq =>
      rw [heq] at hb
      split at h
      · split at h
        · cases h
        · next hn =>
          split at h
          · cases h
          · simp only [Except.ok.injEq, Prod.mk.injEq] at h
            exact h.2 ▸ Nat.lt_of_lt_of_le (readNumber_length hn) hb
      · cases h

/-- Reads a whole number from `low` to `high`. -/
def integer (expected : String) (low high : Int) : Reader Int :=
  number expected fun
    | .whole n =>
      if low ≤ n ∧ n ≤ high then .ok n else .error (.invalidValue (.number (.whole n)) expected)
    | n => .error (.invalidType (.number n) expected)

/-- Reads a signed integer of 64 bits. -/
def int64 : Reader Int64 := (integer "i64" (-2 ^ 63) (2 ^ 63 - 1)).map Int64.ofInt

/-- Reads an unsigned integer of 64 bits. -/
def uint64 : Reader UInt64 := (integer "u64" 0 (2 ^ 64 - 1)).map fun n => UInt64.ofNat n.toNat

/-- Reads `null` or a value. -/
def optional (r : Reader α) : Reader (Option α) where
  read cs :=
    match skipBlanks cs with
    | 'n' :: rest => (readWord ['u', 'l', 'l'] rest).map (none, ·)
    | cs =>
      match r.read cs with
      | .error f => .error f
      | .ok (a, rest) => .ok (some a, rest)
  shrinks := by
    intro cs _ _ h
    have hb := skipBlanks_length cs
    split at h
    · next r' heq =>
      rw [heq] at hb
      cases hw : readWord ['u', 'l', 'l'] r' with
      | error f => simp [hw, Except.map] at h
      | ok r'' =>
        simp only [hw, Except.map, Except.ok.injEq, Prod.mk.injEq] at h
        exact h.2 ▸ Nat.lt_of_lt_of_le (Nat.lt_succ_of_le (readWord_length hw)) hb
    · split at h
      · cases h
      · next hr =>
        simp only [Except.ok.injEq, Prod.mk.injEq] at h
        exact h.2 ▸ Nat.lt_of_lt_of_le (r.shrinks hr) hb

end Reader

/-! ## Objects -/

/-- Reads the key of a member. -/
def readKey (cs : List Char) : Except Fault (String × List Char) :=
  match cs with
  | [] => .error (.atEnd .endInValue)
  | '"' :: rest => readText rest
  | '\x7d' :: _ => .error (.atFirst .trailingComma cs)
  | _ => .error (.atFirst .keyNotString cs)

/-- Reads the key of the next member, `none` at the end of the object. -/
def nextKey (first : Bool) (cs : List Char) : Except Fault (Option String × List Char) :=
  match skipBlanks cs with
  | [] => .error (.atEnd .endInObject)
  | c :: rest =>
    if c = '\x7d' then .ok (none, rest)
    else if first then (readKey (c :: rest)).map fun (key, rest) => (some key, rest)
    else if c = ',' then (readKey (skipBlanks rest)).map fun (key, rest) => (some key, rest)
    else .error (.atFirst .expectedCommaInObject (c :: rest))

/-- Reads the colon behind a key. -/
def readColon (cs : List Char) : Except Fault (List Char) :=
  match skipBlanks cs with
  | [] => .error (.atEnd .endInObject)
  | ':' :: rest => .ok rest
  | cs => .error (.atFirst .expectedColon cs)

theorem readKey_length {cs rest : List Char} {key : String} (h : readKey cs = .ok (key, rest)) :
    rest.length < cs.length := by
  unfold readKey at h
  split at h
  · cases h
  · exact Nat.lt_succ_of_le (readText_length h)
  · cases h
  · cases h

theorem nextKey_length {first : Bool} {cs rest : List Char} {key : Option String}
    (h : nextKey first cs = .ok (key, rest)) : rest.length < cs.length := by
  have hb := skipBlanks_length cs
  unfold nextKey at h
  split at h
  · cases h
  · next c r heq =>
    rw [heq] at hb
    simp only [List.length_cons] at hb
    split at h
    · simp only [Except.ok.injEq, Prod.mk.injEq] at h
      rw [← h.2]; omega
    · split at h
      · cases hk : readKey (c :: r) with
        | error f => simp [hk, Except.map] at h
        | ok k =>
          simp only [hk, Except.map, Except.ok.injEq, Prod.mk.injEq] at h
          have := readKey_length hk
          simp only [List.length_cons] at this
          rw [← h.2]; omega
      · split at h
        · cases hk : readKey (skipBlanks r) with
          | error f => simp [hk, Except.map] at h
          | ok k =>
            simp only [hk, Except.map, Except.ok.injEq, Prod.mk.injEq] at h
            have := readKey_length hk
            have := skipBlanks_length r
            rw [← h.2]; omega
        · cases h

theorem readColon_length {cs rest : List Char} (h : readColon cs = .ok rest) :
    rest.length ≤ cs.length := by
  have hb := skipBlanks_length cs
  unfold readColon at h
  split at h
  · cases h
  · next heq =>
    cases h
    rw [heq] at hb
    exact Nat.le_of_succ_le hb
  · cases h

/-- How one kind of object takes in one member whose key has been read. -/
structure MemberReader (σ : Type) where
  /-- Reads a member from behind its key and returns what follows it. -/
  read : σ → String → List Char → Except Fault (σ × List Char)
  /-- Nothing is put back. -/
  shrinks : ∀ {m m' : σ} {key : String} {cs rest : List Char},
    read m key cs = .ok (m', rest) → rest.length ≤ cs.length

/-- Reads members up to the end of an object. -/
def readMembers {σ : Type} (f : MemberReader σ) (first : Bool) (m : σ) (cs : List Char) :
    Except Fault (σ × List Char) :=
  match _hk : nextKey first cs with
  | .error e => .error e
  | .ok (none, rest) => .ok (m, rest)
  | .ok (some key, rest) =>
    match _hf : f.read m key rest with
    | .error e => .error e
    | .ok (m', rest') => readMembers f false m' rest'
termination_by cs.length
decreasing_by exact Nat.lt_of_le_of_lt (f.shrinks _hf) (nextKey_length _hk)

theorem readMembers_length {σ : Type} {f : MemberReader σ} {first : Bool} {m m' : σ}
    {cs rest : List Char} (h : readMembers f first m cs = .ok (m', rest)) :
    rest.length < cs.length := by
  fun_induction readMembers f first m cs with
  | case1 => cases h
  | case2 _ _ _ _ hk =>
    simp only [Except.ok.injEq, Prod.mk.injEq] at h
    exact h.2 ▸ nextKey_length hk
  | case3 => cases h
  | case4 _ _ _ _ _ hk _ _ hf ih =>
    have := nextKey_length hk
    have := f.shrinks hf
    have := ih h
    omega

/-- Stores each member under its key. -/
def MemberReader.dict {α : Type} (value : Reader α) : MemberReader (Dict α) where
  read d key cs :=
    match readColon cs with
    | .error f => .error f
    | .ok rest =>
      match value.read rest with
      | .error f => .error f
      | .ok (a, rest) => .ok (d.insert key a, rest)
  shrinks := by
    intro _ _ _ _ _ h
    split at h
    · cases h
    · next hc =>
      split at h
      · cases h
      · next hv =>
        simp only [Except.ok.injEq, Prod.mk.injEq] at h
        have := readColon_length hc
        have := value.shrinks hv
        rw [← h.2]; omega

namespace Reader

/-- Reads an object as a dictionary. -/
def dict {α : Type} (value : Reader α) : Reader (Dict α) where
  read cs :=
    match skipBlanks cs with
    | '\x7b' :: rest => readMembers (.dict value) true .empty rest
    | cs => .error (wrongKind "a map" cs)
  shrinks := by
    intro cs _ _ h
    have hb := skipBlanks_length cs
    split at h
    · next heq =>
      rw [heq] at hb
      have := readMembers_length h
      simp only [List.length_cons] at hb
      omega
    · cases h

/-- Reads a whole text: one value with nothing but blanks around it. -/
def parse {α : Type} (r : Reader α) (text : String) : Except Error α :=
  match r.read text.toList with
  | .error f => .error (f.toError text)
  | .ok (a, rest) =>
    match skipBlanks rest with
    | [] => .ok a
    | rest => .error ((Fault.atFirst .trailingCharacters rest).toError text)

end Reader

end LibraryRegistry.Json
