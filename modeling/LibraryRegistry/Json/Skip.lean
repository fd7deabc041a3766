import LibraryRegistry.Json.Blank
import LibraryRegistry.Json.Number
import LibraryRegistry.Json.Text

/-!
# Values that are not looked at

`skipValue` goes past a value of any kind, however deep it is nested: the lists and objects that are
open are kept on a stack. Skipping checks less than reading: a number may be out of range and
surrogates may be alone.
-/

namespace LibraryRegistry.Json

/-- A list or an object whose end is still to come. -/
inductive Open
  | list
  | object
  deriving DecidableEq, Repr

namespace Open

/-- The character that ends it. -/
def close : Open → Char
  | list => ']'
  | object => '\x7d'

/-- The fault of a text that ends inside. -/
def endCause : Open → Cause
  | list => .endInList
  | object => .endInObject

/-- The fault of something behind a value that neither goes on nor ends it. -/
def commaCause : Open → Cause
  | list => .expectedCommaInList
  | object => .expectedCommaInObject

end Open

/-- Drops the key of a member and its colon. -/
def skipKey (cs : List Char) : Except Fault (List Char) :=
  match skipBlanks cs with
  | [] => .error (.atEnd .endInObject)
  | '"' :: rest =>
    match skipText rest with
    | .error f => .error f
    | .ok rest =>
      match skipBlanks rest with
      | [] => .error (.atEnd .endInObject)
      | ':' :: rest => .ok rest
      | rest => .error (.atFirst .expectedColon rest)
  | rest => .error (.atFirst .keyNotString rest)

/-- Goes to the next value inside of an open list or object. -/
def skipToValue (o : Open) (cs : List Char) : Except Fault (List Char) :=
  match o with
  | .list => .ok cs
  | .object => skipKey cs

/-- Drops a value that is neither a list nor an object. -/
def skipScalar (cs : List Char) : Except Fault (List Char) :=
  match cs with
  | [] => .error (.atEnd .endInValue)
  | 'n' :: rest => readWord ['u', 'l', 'l'] rest
  | 't' :: rest => readWord ['r', 'u', 'e'] rest
  | 'f' :: rest => readWord ['a', 'l', 's', 'e'] rest
  | '"' :: rest => skipText rest
  | c :: _ =>
    if c = '-' || c.isDigit then skipNumber cs else .error (.atFirst .expectedValue cs)

/-- What comes next behind a value or an opening bracket: another value, or nothing more to drop. -/
inductive SkipStep
  | value (stack : List Open) (rest : List Char)
  | done (rest : List Char)

/-- Goes past closing brackets up to the next value. `filled` tells whether a value stands in front
of this place in the innermost list or object. -/
def skipToNext (stack : List Open) (filled : Bool) (cs : List Char) : Except Fault SkipStep :=
  match stack with
  | [] => .ok (.done cs)
  | o :: outer =>
    match skipBlanks cs with
    | [] => .error (.atEnd o.endCause)
    | c :: rest =>
      if c = o.close then skipToNext outer true rest
      else if !filled then (skipToValue o (c :: rest)).map (.value stack)
      else if c = ',' then (skipToValue o rest).map (.value stack)
      else .error (.atFirst o.commaCause (c :: rest))

theorem skipKey_length {cs rest : List Char} (h : skipKey cs = .ok rest) :
    rest.length ≤ cs.length := by
  have hb := skipBlanks_length cs
  unfold skipKey at h
  split at h
  · cases h
  · next r1 heq =>
    rw [heq] at hb
    split at h
    · cases h
    · next r2 ht =>
      have := skipText_length ht
      have hb2 := skipBlanks_length r2
      split at h
      · cases h
      · next r3 heq3 =>
        cases h
        rw [heq3] at hb2
        simp only [List.length_cons] at hb hb2
        omega
      · cases h
  · cases h

theorem skipToValue_length {o : Open} {cs rest : List Char} (h : skipToValue o cs = .ok rest) :
    rest.length ≤ cs.length := by
  cases o with
  | list => cases h; exact Nat.le_refl _
  | object => exact skipKey_length h

theorem skipScalar_length {cs rest : List Char} (h : skipScalar cs = .ok rest) :
    rest.length < cs.length := by
  unfold skipScalar at h
  split at h
  · cases h
  · exact Nat.lt_succ_of_le (readWord_length h)
  · exact Nat.lt_succ_of_le (readWord_length h)
  · exact Nat.lt_succ_of_le (readWord_length h)
  · exact Nat.lt_succ_of_le (skipText_length h)
  · split at h
    · exact skipNumber_length h
    · cases h

/-- What a step leaves is not longer than what it was given. -/
theorem skipToNext_length {stack : List Open} {filled : Bool} {cs : List Char} {step : SkipStep}
    (h : skipToNext stack filled cs = .ok step) :
    match step with
    | .value _ rest => rest.length ≤ cs.length
    | .done rest => rest.length ≤ cs.length := by
  induction stack generalizing filled cs with
  | nil => cases h; exact Nat.le_refl _
  | cons o outer ih =>
    have hb := skipBlanks_length cs
    unfold skipToNext at h
    split at h
    · cases h
    · next c r heq =>
      rw [heq] at hb
      simp only [List.length_cons] at hb
      split at h
      · have := ih h
        cases step <;> (simp only at this ⊢; omega)
      · split at h
        · cases hv : skipToValue o (c :: r) with
          | error f => simp [hv, Except.map] at h
          | ok r' =>
            simp only [hv, Except.map, Except.ok.injEq] at h
            subst h
            have := skipToValue_length hv
            simp only [List.length_cons] at this ⊢
            omega
        · split at h
          · cases hv : skipToValue o r with
            | error f => simp [hv, Except.map] at h
            | ok r' =>
              simp only [hv, Except.map, Except.ok.injEq] at h
              subst h
              have := skipToValue_length hv
              simp only
              omega
          · cases h

/-- Drops a value inside of the open lists and objects, and all that follows up to their ends. -/
def skipNested (stack : List Open) (cs : List Char) : Except Fault (List Char) :=
  match _hb : skipBlanks cs with
  | [] => .error (.atEnd .endInValue)
  | '[' :: rest =>
    match _hn : skipToNext (.list :: stack) false rest with
    | .error f => .error f
    | .ok (.done rest) => .ok rest
    | .ok (.value stack rest) => skipNested stack rest
  | '\x7b' :: rest =>
    match _hn : skipToNext (.object :: stack) false rest with
    | .error f => .error f
    | .ok (.done rest) => .ok rest
    | .ok (.value stack rest) => skipNested stack rest
  | c :: rest =>
    match _hs : skipScalar (c :: rest) with
    | .error f => .error f
    | .ok rest' =>
      match _hn : skipToNext stack true rest' with
      | .error f => .error f
      | .ok (.done rest) => .ok rest
      | .ok (.value stack rest) => skipNested stack rest
termination_by cs.length
decreasing_by
  all_goals
    have hb := skipBlanks_length cs
    rw [_hb] at hb
    have hn := skipToNext_length _hn
    simp only [List.length_cons] at hb hn
  · omega
  · omega
  · have hs := skipScalar_length _hs
    simp only [List.length_cons] at hs
    omega

/-- Drops a value. -/
def skipValue (cs : List Char) : Except Fault (List Char) := skipNested [] cs

theorem skipNested_length {stack : List Open} {cs rest : List Char}
    (h : skipNested stack cs = .ok rest) : rest.length < cs.length := by
  fun_induction skipNested stack cs with
  | case1 => cases h
  | case2 => cases h
  | case3 stack cs r hb r' hn =>
    cases h
    have hc := skipBlanks_length cs
    rw [hb] at hc
    have := skipToNext_length hn
    simp only [List.length_cons] at hc this
    omega
  | case4 stack cs r hb stack' r' hn ih =>
    have hc := skipBlanks_length cs
    rw [hb] at hc
    have := skipToNext_length hn
    have := ih h
    simp only [List.length_cons] at *
    omega
  | case5 => cases h
  | case6 stack cs r hb r' hn =>
    cases h
    have hc := skipBlanks_length cs
    rw [hb] at hc
    have := skipToNext_length hn
    simp only [List.length_cons] at hc this
    omega
  | case7 stack cs r hb stack' r' hn ih =>
    have hc := skipBlanks_length cs
    rw [hb] at hc
    have := skipToNext_length hn
    have := ih h
    simp only [List.length_cons] at *
    omega
  | case8 => cases h
  | case9 => cases h
  | case10 stack cs c r _ _ hb r' hs r'' hn =>
    cases h
    have hc := skipBlanks_length cs
    rw [hb] at hc
    have := skipScalar_length hs
    have := skipToNext_length hn
    simp only [List.length_cons] at *
    omega
  | case11 stack cs c r _ _ hb r' hs stack' r'' hn ih =>
    have hc := skipBlanks_length cs
    rw [hb] at hc
    have := skipScalar_length hs
    have := skipToNext_length hn
    have := ih h
    simp only [List.length_cons] at *
    omega

theorem skipValue_length {cs rest : List Char} (h : skipValue cs = .ok rest) :
    rest.length < cs.length :=
  skipNested_length h

end LibraryRegistry.Json
