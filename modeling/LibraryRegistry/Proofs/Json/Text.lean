import LibraryRegistry.Json.Text

/-!
# Ways to write a text

A character of a text stands for itself unless it is a quotation mark, a backslash or a control
character. Some characters have a short escape, and each can be written as a code, or above U+FFFF as
a pair of codes. Reading gives back the text whichever ways were taken, and the writer takes one of
them.

* `SpellsChar`, `Spells`, `IsText` — the ways to write a character, characters and a whole text
* `readText_of_spells` — every way is read back
* `isText_writeText` — the writer takes one of them
-/

namespace LibraryRegistry.Json

/-- A code of four hexadecimal digits. -/
def IsCode (n : Nat) (cs : List Char) : Prop := cs.length = 4 ∧ Text.ofHex? cs = some n

/-- A way to write a character inside of a text. -/
inductive SpellsChar (c : Char) : List Char → Prop
  | plain : c ≠ '"' → c ≠ '\\' → isControl c = false → SpellsChar c [c]
  | short {mark : Char} : shortEscape? mark = some c → SpellsChar c ['\\', mark]
  | code {digits : List Char} : IsCode c.toNat digits → SpellsChar c ('\\' :: 'u' :: digits)
  | pair {high low : Nat} {digits digits' : List Char} :
      isHighSurrogate high = true → isLowSurrogate low = true →
      c.toNat = 0x10000 + (high - 0xD800) * 0x400 + (low - 0xDC00) →
      IsCode high digits → IsCode low digits' →
      SpellsChar c ('\\' :: 'u' :: (digits ++ '\\' :: 'u' :: digits'))

/-- A way to write the characters of a text. -/
inductive Spells : List Char → List Char → Prop
  | nil : Spells [] []
  | cons {c : Char} {s cs rest : List Char} :
      SpellsChar c cs → Spells s rest → Spells (c :: s) (cs ++ rest)

/-- A way to write a text with its quotation marks. -/
def IsText (s : String) (cs : List Char) : Prop :=
  ∃ body, Spells s.toList body ∧ cs = '"' :: (body ++ ['"'])

/-! ## Reading -/

theorem readCode_of_isCode {n : Nat} {cs : List Char} (h : IsCode n cs) (rest : List Char) :
    readCode (cs ++ rest) = .ok (n, rest) := by
  obtain ⟨hlen, hvalue⟩ := h
  match cs, hlen with
  | [a, b, c, d], _ =>
    show readCode (a :: b :: c :: d :: rest) = _
    simp only [readCode, hvalue]

/-- The code of a character is no half of a pair. -/
theorem isSurrogate_of_char (c : Char) :
    isHighSurrogate c.toNat = false ∧ isLowSurrogate c.toNat = false := by
  have hvalid : c.toNat < 0xD800 ∨ 0xDFFF < c.toNat ∧ c.toNat < 0x110000 := c.valid
  simp only [isHighSurrogate, isLowSurrogate, Bool.and_eq_false_iff, decide_eq_false_iff_not]
  omega

theorem readCodeChar_of_isCode {c : Char} {digits : List Char} (h : IsCode c.toNat digits)
    (rest : List Char) : readCodeChar (digits ++ rest) = .ok (c, rest) := by
  obtain ⟨hhigh, hlow⟩ := isSurrogate_of_char c
  simp [readCodeChar, readCode_of_isCode h, hhigh, hlow]

theorem not_isLowSurrogate_of_high {n : Nat} (h : isHighSurrogate n = true) :
    isLowSurrogate n = false := by
  simp only [isHighSurrogate, isLowSurrogate, Bool.and_eq_true, Bool.and_eq_false_iff,
    decide_eq_true_eq, decide_eq_false_iff_not] at h ⊢
  omega

theorem readLowSurrogate_of_isCode {low : Nat} {digits : List Char}
    (hlow : isLowSurrogate low = true) (h : IsCode low digits) (rest : List Char) :
    readLowSurrogate ('\\' :: 'u' :: (digits ++ rest)) = .ok (low, rest) := by
  simp [readLowSurrogate, readPairMark, readCode_of_isCode h, hlow, bind, Except.bind]

/-- A character beyond sixteen bits is read from its pair of codes. -/
theorem readCodeChar_of_pair {c : Char} {high low : Nat} {digits digits' : List Char}
    (hhigh : isHighSurrogate high = true) (hlow : isLowSurrogate low = true)
    (hc : c.toNat = 0x10000 + (high - 0xD800) * 0x400 + (low - 0xDC00)) (h : IsCode high digits)
    (h' : IsCode low digits') (rest : List Char) :
    readCodeChar (digits ++ '\\' :: 'u' :: (digits' ++ rest)) = .ok (c, rest) := by
  have hjoin : joinSurrogates high low = c := by
    rw [joinSurrogates, ← hc]
    exact Char.ofNat_toNat c
  simp [readCodeChar, readCode_of_isCode h, readLowSurrogate_of_isCode hlow h', hhigh, hjoin,
    not_isLowSurrogate_of_high hhigh]

theorem readEscape_of_short {c mark : Char} (h : shortEscape? mark = some c) (rest : List Char) :
    readEscape (mark :: rest) = .ok (c, rest) := by
  have hu : mark ≠ 'u' := by
    rintro rfl
    exact nomatch h
  rw [readEscape.eq_3 mark rest hu, h]

/-- An escape is read behind its backslash. -/
theorem readTextFrom_escape {c : Char} {read cs rest : List Char}
    (h : readEscape cs = .ok (c, rest)) :
    readTextFrom read ('\\' :: cs) = readTextFrom (c :: read) rest := by
  rw [readTextFrom]
  split
  · next hf =>
    rw [h] at hf
    cases hf
  · next hc =>
    rw [h] at hc
    cases hc
    rfl

/-- **A character is read whichever way it is written.** -/
theorem SpellsChar.readTextFrom {c : Char} {cs : List Char} (h : SpellsChar c cs)
    (read rest : List Char) :
    Json.readTextFrom read (cs ++ rest) = Json.readTextFrom (c :: read) rest := by
  cases h with
  | plain hquote hslash hcontrol =>
    show Json.readTextFrom read (c :: rest) = _
    rw [readTextFrom.eq_4 _ _ _ hquote hslash, hcontrol]
    rfl
  | short hmark => exact readTextFrom_escape (readEscape_of_short hmark rest)
  | code hcode => exact readTextFrom_escape (readCodeChar_of_isCode hcode rest)
  | @pair high low digits digits' hhigh hlow hc hcode hcode' =>
    have hread := readCodeChar_of_pair hhigh hlow hc hcode hcode' rest
    have happend : '\\' :: 'u' :: (digits ++ '\\' :: 'u' :: digits') ++ rest
        = '\\' :: 'u' :: (digits ++ '\\' :: 'u' :: (digits' ++ rest)) := by simp
    rw [happend]
    exact readTextFrom_escape hread

theorem Spells.readTextFrom {s cs : List Char} (h : Spells s cs) (read rest : List Char) :
    Json.readTextFrom read (cs ++ '"' :: rest) = .ok (String.ofList (read.reverse ++ s), rest) := by
  induction h generalizing read with
  | nil =>
    rw [List.nil_append, List.append_nil, Json.readTextFrom]
  | cons hchar _ ih =>
    rw [List.append_assoc, hchar.readTextFrom, ih, List.reverse_cons, List.append_assoc]
    rfl

/-- **A text is read back whichever ways its characters are written.** -/
theorem readText_of_spells {s : String} {body : List Char} (h : Spells s.toList body)
    (rest : List Char) : readText (body ++ '"' :: rest) = .ok (s, rest) := by
  have hread := h.readTextFrom [] rest
  rw [List.reverse_nil, List.nil_append, String.ofList_toList] at hread
  exact hread

/-! ## Writing -/

theorem isCode_control {n : Nat} (h : n < 0x20) :
    IsCode n ['0', '0', Nat.digitChar (n / 16), Nat.digitChar (n % 16)] := by
  have hall : ∀ n ∈ List.range 0x20,
      Text.ofHex? ['0', '0', Nat.digitChar (n / 16), Nat.digitChar (n % 16)] = some n := by decide
  exact ⟨rfl, hall n (List.mem_range.2 h)⟩

/-- Each character is written in one of its spellings. -/
theorem spellsChar_writeChar (c : Char) : SpellsChar c (writeChar c) := by
  unfold writeChar
  split
  · next h => subst h; exact SpellsChar.short rfl
  split
  · next h => subst h; exact SpellsChar.short rfl
  split
  · next h => subst h; exact @SpellsChar.short _ 'b' rfl
  split
  · next h => subst h; exact @SpellsChar.short _ 'f' rfl
  split
  · next h => subst h; exact @SpellsChar.short _ 'n' rfl
  split
  · next h => subst h; exact @SpellsChar.short _ 'r' rfl
  split
  · next h => subst h; exact @SpellsChar.short _ 't' rfl
  split
  · next h => exact SpellsChar.code (isCode_control (of_decide_eq_true h))
  · next hquote hslash _ _ _ _ _ h =>
    exact SpellsChar.plain hquote hslash (Bool.eq_false_iff.2 h)

theorem spells_flatMap_writeChar (s : List Char) : Spells s (s.flatMap writeChar) := by
  induction s with
  | nil => exact Spells.nil
  | cons c s ih => exact Spells.cons (spellsChar_writeChar c) ih

/-- **A written text is a way to write the text.** -/
theorem isText_writeText (s : String) : IsText s (writeText s) :=
  ⟨_, spells_flatMap_writeChar s.toList, rfl⟩

end LibraryRegistry.Json
