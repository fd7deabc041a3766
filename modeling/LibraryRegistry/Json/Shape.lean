import LibraryRegistry.Json.Reader

/-!
# Values with named fields

A shape says which fields a kind of value has. It is read from an object with its fields in any
order, each at most once, or from a list with their values in the order of the shape.

A strict shape refuses members with other names and lists that end early; a lax one skips such
members and leaves the missing fields as they are.
-/

namespace LibraryRegistry.Json

variable {σ : Type}

/-- A field: its name and a reader of what its value does to the whole. -/
structure Field (σ : Type) where
  name : String
  value : Reader (σ → σ)

/-- A field whose value is stored. -/
def Field.storing {α : Type} (name : String) (value : Reader α) (store : σ → α → σ) : Field σ :=
  ⟨name, value.map fun a m => store m a⟩

/-- A kind of value with named fields. -/
structure Shape (σ : Type) where
  /-- What a message calls it. -/
  title : String
  strict : Bool
  fields : List (Field σ)

namespace Shape

/-- The names of the fields. -/
def names (s : Shape σ) : List String := s.fields.map (·.name)

/-- Reads the colon and the value of a field. -/
def readField (field : Field σ) (m : σ) (cs : List Char) : Except Fault (σ × List Char) :=
  match readColon cs with
  | .error f => .error f
  | .ok rest =>
    match field.value.read rest with
    | .error f => .error f
    | .ok (update, rest) => .ok (update m, rest)

/-- Drops the colon and the value of a member. -/
def skipMember (cs : List Char) : Except Fault (List Char) :=
  match readColon cs with
  | .error f => .error f
  | .ok rest => skipValue rest

/-- A fault that is found at a key: its place is behind the blanks that follow the key, and behind
the end of the object if that comes next. -/
def keyFault (cause : Cause) (cs : List Char) : Fault :=
  match skipBlanks cs with
  | '\x7d' :: rest => .before cause rest
  | rest => .before cause rest

theorem readField_length {field : Field σ} {m m' : σ} {cs rest : List Char}
    (h : readField field m cs = .ok (m', rest)) : rest.length ≤ cs.length := by
  unfold readField at h
  split at h
  · cases h
  · next hc =>
    split at h
    · cases h
    · next hv =>
      simp only [Except.ok.injEq, Prod.mk.injEq] at h
      have := readColon_length hc
      have := field.value.shrinks hv
      rw [← h.2]; omega

theorem skipMember_length {cs rest : List Char} (h : skipMember cs = .ok rest) :
    rest.length ≤ cs.length := by
  unfold skipMember at h
  split at h
  · cases h
  · next hc =>
    have := readColon_length hc
    have := skipValue_length h
    omega

/-- Takes in one member; the names of the fields that were there are kept beside the value. -/
def member (s : Shape σ) : MemberReader (σ × List String) where
  read m key cs :=
    match s.fields.find? (·.name == key) with
    | some field =>
      if m.2.contains key then .error (keyFault (.duplicateField key) cs)
      else
        match readField field m.1 cs with
        | .error f => .error f
        | .ok (m', rest) => .ok ((m', key :: m.2), rest)
    | none =>
      if s.strict then .error (keyFault (.unknownField key s.names) cs)
      else
        match skipMember cs with
        | .error f => .error f
        | .ok rest => .ok (m, rest)
  shrinks := by
    intro _ _ _ _ _ h
    split at h
    · split at h
      · cases h
      · split at h
        · cases h
        · next hf =>
          simp only [Except.ok.injEq, Prod.mk.injEq] at h
          exact h.2 ▸ readField_length hf
    · split at h
      · cases h
      · split at h
        · cases h
        · next hs =>
          simp only [Except.ok.injEq, Prod.mk.injEq] at h
          exact h.2 ▸ skipMember_length hs

/-- Goes to the next element of a list; `none` at its end. -/
def nextElement (first : Bool) (cs : List Char) : Except Fault (Bool × List Char) :=
  match skipBlanks cs with
  | [] => .error (.atEnd .endInList)
  | c :: rest =>
    if c = ']' then .ok (false, rest)
    else if first then .ok (true, c :: rest)
    else if c = ',' then
      match skipBlanks rest with
      | [] => .error (.atEnd .endInValue)
      | ']' :: rest => .error (.atFirst .trailingComma (']' :: rest))
      | rest => .ok (true, rest)
    else .error (.atFirst .expectedCommaInList (c :: rest))

/-- Reads the end of a list that has all its elements. -/
def readListEnd (cs : List Char) : Except Fault (List Char) :=
  match skipBlanks cs with
  | [] => .error (.atEnd .endInList)
  | ']' :: rest => .ok rest
  | ',' :: rest =>
    match skipBlanks rest with
    | ']' :: rest => .error (.atFirst .trailingComma (']' :: rest))
    | rest => .error (.atFirst .trailingCharacters rest)
  | rest => .error (.atFirst .trailingCharacters rest)

/-- Reads the elements of a list as the given fields, of which the first has the given index. -/
def readElements (s : Shape σ) (index : Nat) (fields : List (Field σ)) (m : σ) (cs : List Char) :
    Except Fault (σ × List Char) :=
  match fields with
  | [] => (readListEnd cs).map (m, ·)
  | field :: fields =>
    match nextElement (index == 0) cs with
    | .error f => .error f
    | .ok (false, rest) =>
      if s.strict then
        .error (.before (.invalidLength index s!"{s.title} with {s.fields.length} elements") rest)
      else .ok (m, rest)
    | .ok (true, rest) =>
      match field.value.read rest with
      | .error f => .error f
      | .ok (update, rest) => s.readElements (index + 1) fields (update m) rest

theorem nextElement_length {first more : Bool} {cs rest : List Char}
    (h : nextElement first cs = .ok (more, rest)) : rest.length ≤ cs.length := by
  have hb := skipBlanks_length cs
  unfold nextElement at h
  split at h
  · cases h
  · next c r heq =>
    rw [heq] at hb
    simp only [List.length_cons] at hb
    split at h
    · simp only [Except.ok.injEq, Prod.mk.injEq] at h
      rw [← h.2]; omega
    · split at h
      · simp only [Except.ok.injEq, Prod.mk.injEq] at h
        rw [← h.2]; exact hb
      · split at h
        · have := skipBlanks_length r
          split at h
          · cases h
          · cases h
          · simp only [Except.ok.injEq, Prod.mk.injEq] at h
            rw [← h.2]; omega
        · cases h

theorem readListEnd_length {cs rest : List Char} (h : readListEnd cs = .ok rest) :
    rest.length ≤ cs.length := by
  have hb := skipBlanks_length cs
  unfold readListEnd at h
  split at h
  · cases h
  · next heq =>
    cases h
    rw [heq] at hb
    exact Nat.le_of_succ_le hb
  · split at h <;> cases h
  · cases h

theorem readElements_length {s : Shape σ} {index : Nat} {fields : List (Field σ)} {m m' : σ}
    {cs rest : List Char} (h : s.readElements index fields m cs = .ok (m', rest)) :
    rest.length ≤ cs.length := by
  induction fields generalizing index m cs with
  | nil =>
    unfold readElements at h
    cases he : readListEnd cs with
    | error f => simp [he, Except.map] at h
    | ok r =>
      simp only [he, Except.map, Except.ok.injEq, Prod.mk.injEq] at h
      exact h.2 ▸ readListEnd_length he
  | cons field fields ih =>
    unfold readElements at h
    split at h
    · cases h
    · next hn =>
      split at h
      · cases h
      · simp only [Except.ok.injEq, Prod.mk.injEq] at h
        exact h.2 ▸ nextElement_length hn
    · next hn =>
      split at h
      · cases h
      · next hv =>
        have := nextElement_length hn
        have := field.value.shrinks hv
        have := ih h
        omega

/-- Reads a value of the shape over a given one. -/
def reader (s : Shape σ) (start : σ) : Reader σ where
  read cs :=
    match skipBlanks cs with
    | '[' :: rest => s.readElements 0 s.fields start rest
    | '\x7b' :: rest =>
      match readMembers s.member true (start, []) rest with
      | .error f => .error f
      | .ok (m, rest) => .ok (m.1, rest)
    | cs => .error (wrongKind s.title cs)
  shrinks := by
    intro cs _ _ h
    have hb := skipBlanks_length cs
    split at h
    · next heq =>
      rw [heq] at hb
      have := readElements_length h
      simp only [List.length_cons] at hb
      omega
    · next heq =>
      rw [heq] at hb
      split at h
      · cases h
      · next hm =>
        simp only [Except.ok.injEq, Prod.mk.injEq] at h
        have := readMembers_length hm
        simp only [List.length_cons] at hb
        rw [← h.2]; omega
    · cases h

end Shape

end LibraryRegistry.Json
