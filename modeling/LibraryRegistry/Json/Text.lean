import LibraryRegistry.Json.Fault
import LibraryRegistry.Text.Hexadecimal

/-!
# Texts in JSON

A text stands between quotation marks. Quotation marks, backslashes and control characters in it are
escaped; any character may be written as the code of four hexadecimal digits, those above U+FFFF as
a pair of surrogates.

## What is here

* `readText` — a text behind its first quotation mark
* `skipText` — the same without looking at what the escapes stand for
* `writeText` — the shortest escapes, and only where they are needed
-/

namespace LibraryRegistry.Json

/-! ## Reading -/

/-- The character that a short escape stands for. -/
def shortEscape? (c : Char) : Option Char :=
  if c = '"' || c = '\\' || c = '/' then some c
  else if c = 'b' then some '\x08'
  else if c = 'f' then some '\x0c'
  else if c = 'n' then some '\n'
  else if c = 'r' then some '\r'
  else if c = 't' then some '\t'
  else none

/-- The fault of the code in front: four bytes are taken for it, if there are so many. -/
def codeFault (cs : List Char) : Fault :=
  if bytesLeft cs < 4 then .atEnd .endInString else ⟨.invalidEscape, bytesLeft cs - 4⟩

/-- Reads a code of four hexadecimal digits. -/
def readCode (cs : List Char) : Except Fault (Nat × List Char) :=
  match cs with
  | a :: b :: c :: d :: rest =>
    match Text.ofHex? [a, b, c, d] with
    | some n => .ok (n, rest)
    | none => .error (codeFault cs)
  | _ => .error (codeFault cs)

theorem readCode_length {cs rest : List Char} {n : Nat} (h : readCode cs = .ok (n, rest)) :
    rest.length ≤ cs.length := by
  unfold readCode at h
  split at h
  · split at h
    · cases h; simp only [List.length_cons]; omega
    · cases h
  · cases h

/-- The first of a pair of surrogates. -/
def isHighSurrogate (n : Nat) : Bool := 0xD800 ≤ n && n < 0xDC00

/-- The second of a pair of surrogates. -/
def isLowSurrogate (n : Nat) : Bool := 0xDC00 ≤ n && n < 0xE000

/-- The character of a pair of surrogates. -/
def joinSurrogates (high low : Nat) : Char :=
  Char.ofNat (0x10000 + (high - 0xD800) * 0x400 + (low - 0xDC00))

/-- Reads a given character of the escape that has to follow the first of a pair of surrogates. -/
def readPairMark (mark : Char) : List Char → Except Fault (List Char)
  | [] => .error (.atEnd .endInString)
  | c :: rest =>
    if c = mark then .ok rest else .error (.atFirst .unfinishedSurrogate (c :: rest))

/-- Reads the escape of the second of a pair of surrogates. -/
def readLowSurrogate (cs : List Char) : Except Fault (Nat × List Char) := do
  let (n, rest) ← readPairMark '\\' cs >>= readPairMark 'u' >>= readCode
  if isLowSurrogate n then .ok (n, rest) else .error (.before .loneSurrogate rest)

theorem readPairMark_length {mark : Char} {cs rest : List Char}
    (h : readPairMark mark cs = .ok rest) : rest.length ≤ cs.length := by
  unfold readPairMark at h
  split at h
  · cases h
  · split at h
    · cases h; exact Nat.le_succ _
    · cases h

theorem readLowSurrogate_length {cs rest : List Char} {n : Nat}
    (h : readLowSurrogate cs = .ok (n, rest)) : rest.length ≤ cs.length := by
  simp only [readLowSurrogate, bind, Except.bind] at h
  split at h
  · cases h
  · next heq =>
    split at heq
    · cases heq
    · next hu =>
      split at hu
      · cases hu
      · next hb =>
        split at h
        · cases h
          have := readCode_length heq
          have := readPairMark_length hu
          have := readPairMark_length hb
          omega
        · cases h

/-- Reads the character of a code behind its `u`. -/
def readCodeChar (cs : List Char) : Except Fault (Char × List Char) :=
  match readCode cs with
  | .error f => .error f
  | .ok (n, rest) =>
    if isLowSurrogate n then .error (.before .loneSurrogate rest)
    else if isHighSurrogate n then
      match readLowSurrogate rest with
      | .error f => .error f
      | .ok (low, rest) => .ok (joinSurrogates n low, rest)
    else .ok (Char.ofNat n, rest)

/-- Reads an escape behind its backslash. -/
def readEscape (cs : List Char) : Except Fault (Char × List Char) :=
  match cs with
  | [] => .error (.atEnd .endInString)
  | 'u' :: rest => readCodeChar rest
  | c :: rest =>
    match shortEscape? c with
    | some d => .ok (d, rest)
    | none => .error (.atFirst .invalidEscape cs)

theorem readCodeChar_length {cs rest : List Char} {c : Char}
    (h : readCodeChar cs = .ok (c, rest)) : rest.length ≤ cs.length := by
  unfold readCodeChar at h
  split at h
  · cases h
  · next hc =>
    have := readCode_length hc
    split at h
    · cases h
    · split at h
      · split at h
        · cases h
        · next hl =>
          have := readLowSurrogate_length hl
          simp only [Except.ok.injEq, Prod.mk.injEq] at h
          rw [← h.2]; omega
      · simp only [Except.ok.injEq, Prod.mk.injEq] at h
        rw [← h.2]; omega

theorem readEscape_length {cs rest : List Char} {c : Char} (h : readEscape cs = .ok (c, rest)) :
    rest.length < cs.length := by
  unfold readEscape at h
  split at h
  · cases h
  · have := readCodeChar_length h
    simp only [List.length_cons]; omega
  · split at h
    · cases h; exact Nat.lt_succ_self _
    · cases h

/-- A control character, which may not stand in a text. -/
def isControl (c : Char) : Bool := c.toNat < 0x20

/-- Reads a text behind its first quotation mark; `read` are the characters so far, last one first. -/
def readTextFrom (read : List Char) (cs : List Char) : Except Fault (String × List Char) :=
  match cs with
  | [] => .error (.atEnd .endInString)
  | '"' :: rest => .ok (String.ofList read.reverse, rest)
  | '\\' :: rest =>
    match _h : readEscape rest with
    | .error f => .error f
    | .ok (c, rest') => readTextFrom (c :: read) rest'
  | c :: rest =>
    if isControl c then .error (.before .controlCharacter rest) else readTextFrom (c :: read) rest
termination_by cs.length
decreasing_by
  · have := readEscape_length _h; simp only [List.length_cons]; omega
  · simp

/-- Reads a text behind its first quotation mark. -/
def readText (cs : List Char) : Except Fault (String × List Char) := readTextFrom [] cs

theorem readTextFrom_length {read cs rest : List Char} {s : String}
    (h : readTextFrom read cs = .ok (s, rest)) : rest.length ≤ cs.length := by
  fun_induction readTextFrom read cs with
  | case1 => cases h
  | case2 => cases h; exact Nat.le_succ _
  | case3 => cases h
  | case4 _ _ _ _ he ih =>
    have := readEscape_length he
    have := ih h
    simp only [List.length_cons]; omega
  | case5 => cases h
  | case6 _ _ _ _ _ _ ih => exact Nat.le_succ_of_le (ih h)

theorem readText_length {cs rest : List Char} {s : String} (h : readText cs = .ok (s, rest)) :
    rest.length ≤ cs.length :=
  readTextFrom_length h

/-! ## Skipping -/

/-- Drops an escape behind its backslash. -/
def skipEscape (cs : List Char) : Except Fault (List Char) :=
  match cs with
  | [] => .error (.atEnd .endInString)
  | 'u' :: rest => (readCode rest).map (·.2)
  | c :: rest =>
    if (shortEscape? c).isSome then .ok rest else .error (.atFirst .invalidEscape cs)

theorem skipEscape_length {cs rest : List Char} (h : skipEscape cs = .ok rest) :
    rest.length < cs.length := by
  unfold skipEscape at h
  split at h
  · cases h
  · next cs =>
    cases hc : readCode cs with
    | error f => simp [hc, Except.map] at h
    | ok r =>
      simp only [hc, Except.map, Except.ok.injEq] at h
      exact h ▸ Nat.lt_succ_of_le (readCode_length hc)
  · split at h
    · cases h; exact Nat.lt_succ_self _
    · cases h

/-- Drops a text behind its first quotation mark. -/
def skipText (cs : List Char) : Except Fault (List Char) :=
  match cs with
  | [] => .error (.atEnd .endInString)
  | '"' :: rest => .ok rest
  | '\\' :: rest =>
    match _h : skipEscape rest with
    | .error f => .error f
    | .ok rest' => skipText rest'
  | c :: rest =>
    if isControl c then .error (.before .controlCharacter cs) else skipText rest
termination_by cs.length
decreasing_by
  · have := skipEscape_length _h; simp only [List.length_cons]; omega
  · simp

theorem skipText_length {cs rest : List Char} (h : skipText cs = .ok rest) :
    rest.length ≤ cs.length := by
  fun_induction skipText cs with
  | case1 => cases h
  | case2 => cases h; exact Nat.le_succ _
  | case3 => cases h
  | case4 _ _ he ih =>
    have := skipEscape_length he
    have := ih h
    simp only [List.length_cons]; omega
  | case5 => cases h
  | case6 _ _ _ _ _ ih => exact Nat.le_succ_of_le (ih h)

/-! ## Writing -/

/-- Writes one character of a text. -/
def writeChar (c : Char) : List Char :=
  if c = '"' then ['\\', '"']
  else if c = '\\' then ['\\', '\\']
  else if c = '\x08' then ['\\', 'b']
  else if c = '\x0c' then ['\\', 'f']
  else if c = '\n' then ['\\', 'n']
  else if c = '\r' then ['\\', 'r']
  else if c = '\t' then ['\\', 't']
  else if isControl c then
    ['\\', 'u', '0', '0', Nat.digitChar (c.toNat / 16), Nat.digitChar (c.toNat % 16)]
  else [c]

/-- Writes a text between quotation marks. -/
def writeText (s : String) : List Char := '"' :: (s.toList.flatMap writeChar ++ ['"'])

end LibraryRegistry.Json
