import LibraryRegistry.Json.Fault

/-!
# Blanks and words

The smallest pieces of a JSON text: what may stand between two tokens, and the words `null`, `true`
and `false`.
-/

namespace LibraryRegistry.Json

/-- A character that may stand between tokens. -/
def isBlank (c : Char) : Bool := c == ' ' || c == '\n' || c == '\t' || c == '\r'

/-- Drops the blanks in front. -/
def skipBlanks (cs : List Char) : List Char := cs.dropWhile isBlank

theorem skipBlanks_length (cs : List Char) : (skipBlanks cs).length ≤ cs.length :=
  (List.dropWhile_sublist _).length_le

/-- Reads the given word. -/
def readWord : (word : List Char) → List Char → Except Fault (List Char)
  | [], cs => .ok cs
  | _ :: _, [] => .error (.atEnd .endInValue)
  | w :: word, c :: cs =>
    if c = w then readWord word cs else .error (.atFirst .expectedWord (c :: cs))

theorem readWord_length {word cs rest : List Char} (h : readWord word cs = .ok rest) :
    rest.length ≤ cs.length := by
  fun_induction readWord word cs with
  | case1 => cases h; exact Nat.le_refl _
  | case2 => cases h
  | case3 _ _ _ ih => exact Nat.le_succ_of_le (ih h)
  | case4 => cases h

end LibraryRegistry.Json
