import LibraryRegistry.Json.Fault
import LibraryRegistry.Powers
import LibraryRegistry.Text.Integer

/-!
# Numbers in JSON

Numbers without a point and an exponent that fit 64 bits are kept exactly; all others, and a
negative zero, are rounded. Of a longer number those digits make up the significand that fit 64
bits; the digits behind them only move the point.

`readNumber` reads a number, `skipNumber` only goes past it: it takes any number of digits and any
exponent.
-/

namespace LibraryRegistry.Json

open Text (digitValue)

/-- The largest significand. -/
def maxSignificand : Nat := 2 ^ 64 - 1

/-- The largest exponent that is read. -/
def maxExponent : Nat := 2 ^ 31 - 1

/-- A letter in front of an exponent. -/
def isExponentMark (c : Char) : Bool := c == 'e' || c == 'E'

/-- Drops the digits in front. -/
def skipDigits (cs : List Char) : List Char := cs.dropWhile Char.isDigit

theorem skipDigits_length (cs : List Char) : (skipDigits cs).length ≤ cs.length :=
  (List.dropWhile_sublist _).length_le

/-! ## Reading -/

/-- What was read of a significand: its value, the number of digits taken, and what follows. -/
structure Significand where
  value : Nat
  taken : Nat
  rest : List Char

/-- Reads digits behind a significand as long as it fits 64 bits. -/
def Significand.extend (value taken : Nat) : List Char → Significand
  | [] => ⟨value, taken, []⟩
  | c :: cs =>
    if c.isDigit && 10 * value + digitValue c ≤ maxSignificand then
      extend (10 * value + digitValue c) (taken + 1) cs
    else ⟨value, taken, c :: cs⟩

theorem Significand.extend_length (value taken : Nat) (cs : List Char) :
    (extend value taken cs).rest.length ≤ cs.length := by
  fun_induction extend value taken cs with
  | case1 => exact Nat.le_refl _
  | case2 _ _ _ _ _ ih => exact Nat.le_succ_of_le ih
  | case3 => exact Nat.le_refl _

/-- Reads more digits of an exponent. Past the largest one the number is zero if `toZero`, which
`none` stands for, and out of range otherwise. -/
def readExponentDigits (toZero : Bool) (exponent : Nat) : List Char →
    Except Fault (Option Nat × List Char)
  | [] => .ok (some exponent, [])
  | c :: cs =>
    if c.isDigit then
      if 10 * exponent + digitValue c ≤ maxExponent then
        readExponentDigits toZero (10 * exponent + digitValue c) cs
      else if toZero then .ok (none, skipDigits cs)
      else .error (.before .numberOutOfRange cs)
    else .ok (some exponent, c :: cs)

theorem readExponentDigits_length {toZero : Bool} {exponent : Nat} {cs rest : List Char}
    {e : Option Nat} (h : readExponentDigits toZero exponent cs = .ok (e, rest)) :
    rest.length ≤ cs.length := by
  fun_induction readExponentDigits toZero exponent cs with
  | case1 => cases h; exact Nat.le_refl _
  | case2 _ _ _ _ _ ih => exact Nat.le_succ_of_le (ih h)
  | case3 => cases h; exact Nat.le_succ_of_le (skipDigits_length _)
  | case4 => cases h
  | case5 => cases h; exact Nat.le_refl _

/-- Splits the sign of an exponent off. -/
def exponentSign : List Char → Bool × List Char
  | '+' :: cs => (false, cs)
  | '-' :: cs => (true, cs)
  | cs => (false, cs)

theorem exponentSign_length (cs : List Char) : (exponentSign cs).2.length ≤ cs.length := by
  unfold exponentSign
  split <;> simp

/-- Reads an exponent behind its letter; `isZero` tells whether the significand is zero. -/
def readExponent (isZero : Bool) (cs : List Char) : Except Fault (Option Int × List Char) :=
  let (negative, cs) := exponentSign cs
  match cs with
  | [] => .error (.atEnd .endInValue)
  | c :: rest =>
    if c.isDigit then
      (readExponentDigits (isZero || negative) (digitValue c) rest).map fun (e, rest) =>
        (e.map fun e => if negative then -(e : Int) else e, rest)
    else .error (.atFirst .invalidNumber cs)

theorem readExponent_length {isZero : Bool} {cs rest : List Char} {e : Option Int}
    (h : readExponent isZero cs = .ok (e, rest)) : rest.length ≤ cs.length := by
  have hs := exponentSign_length cs
  unfold readExponent at h
  dsimp only at h
  split at h
  · cases h
  · next c rest' heq =>
    rw [heq] at hs
    split at h
    · cases hd : readExponentDigits (isZero || (exponentSign cs).1) (digitValue c) rest' with
      | error f => simp [hd, Except.map] at h
      | ok r =>
        simp only [hd, Except.map, Except.ok.injEq, Prod.mk.injEq] at h
        have := readExponentDigits_length hd
        simp only [List.length_cons] at hs
        rw [← h.2]; omega
    · cases h

/-- The number `significand * 10 ^ exponent`, an exponent of `none` makes it zero. -/
def floatingNumber (negative : Bool) (significand : Nat) (exponent : Option Int)
    (rest : List Char) : Except Fault (Number × List Char) :=
  match exponent with
  | none => .ok (.floating negative .zero, rest)
  | some e =>
    match Decimal.Binary64.ofDecimal significand e with
    | some value => .ok (.floating negative value, rest)
    | none => .error (.before .numberOutOfRange rest)

/-- Reads an exponent, if there is one, behind a significand whose point is to be moved. -/
def readScale (negative : Bool) (significand : Nat) (moved : Int) (cs : List Char) :
    Except Fault (Number × List Char) :=
  match cs with
  | [] => floatingNumber negative significand (some moved) []
  | c :: rest =>
    if isExponentMark c then
      match readExponent (significand == 0) rest with
      | .error f => .error f
      | .ok (e, rest) => floatingNumber negative significand (e.map (moved + ·)) rest
    else floatingNumber negative significand (some moved) cs

/-- Reads the digits behind a point, at least one. -/
def readFraction (negative : Bool) (significand : Nat) (moved : Int) (cs : List Char) :
    Except Fault (Number × List Char) :=
  match cs with
  | [] => .error (.atEnd .endInValue)
  | c :: _ =>
    if c.isDigit then
      let s := Significand.extend significand 0 cs
      readScale negative s.value (moved - s.taken) (skipDigits s.rest)
    else .error (.atFirst .invalidNumber cs)

/-- A whole number that fits 64 bits; a negative zero and negative numbers below `-2 ^ 63` are
rounded. -/
def wholeNumber (negative : Bool) (significand : Nat) (rest : List Char) :
    Except Fault (Number × List Char) :=
  if negative then
    if 0 < significand && significand ≤ 2 ^ 63 then .ok (.whole (-(significand : Int)), rest)
    else floatingNumber true significand (some 0) rest
  else .ok (.whole significand, rest)

/-- Reads what follows the whole part of a number. -/
def readAfterWhole (negative : Bool) (s : Significand) : Except Fault (Number × List Char) :=
  let rest := skipDigits s.rest
  let moved := s.rest.length - rest.length
  match rest with
  | '.' :: rest => readFraction negative s.value moved rest
  | _ =>
    if moved = 0 && !(rest.head?.any isExponentMark) then wholeNumber negative s.value rest
    else readScale negative s.value moved rest

/-- Reads a number behind its sign. -/
def readMagnitude (negative : Bool) (cs : List Char) : Except Fault (Number × List Char) :=
  match cs with
  | [] => .error (.atEnd .endInValue)
  | c :: rest =>
    if c = '0' then
      if rest.head?.any Char.isDigit then .error (.atFirst .invalidNumber rest)
      else readAfterWhole negative ⟨0, 1, rest⟩
    else if c.isDigit then readAfterWhole negative (.extend (digitValue c) 1 rest)
    else .error (.atFirst .invalidNumber cs)

/-- Reads a number. -/
def readNumber (cs : List Char) : Except Fault (Number × List Char) :=
  match cs with
  | '-' :: rest => readMagnitude true rest
  | _ => readMagnitude false cs

theorem floatingNumber_length {negative : Bool} {significand : Nat} {e : Option Int}
    {cs rest : List Char} {n : Number}
    (h : floatingNumber negative significand e cs = .ok (n, rest)) : rest = cs := by
  unfold floatingNumber at h
  split at h
  · simp only [Except.ok.injEq, Prod.mk.injEq] at h; exact h.2.symm
  · split at h
    · simp only [Except.ok.injEq, Prod.mk.injEq] at h; exact h.2.symm
    · cases h

theorem readScale_length {negative : Bool} {significand : Nat} {moved : Int}
    {cs rest : List Char} {n : Number}
    (h : readScale negative significand moved cs = .ok (n, rest)) : rest.length ≤ cs.length := by
  unfold readScale at h
  split at h
  · exact Nat.le_of_eq (congrArg List.length (floatingNumber_length h))
  · split at h
    · split at h
      · cases h
      · next he =>
        rw [floatingNumber_length h]
        exact Nat.le_succ_of_le (readExponent_length he)
    · exact Nat.le_of_eq (congrArg List.length (floatingNumber_length h))

theorem readFraction_length {negative : Bool} {significand : Nat} {moved : Int}
    {cs rest : List Char} {n : Number}
    (h : readFraction negative significand moved cs = .ok (n, rest)) :
    rest.length ≤ cs.length := by
  unfold readFraction at h
  split at h
  · cases h
  · next c cs =>
    split at h
    · exact Nat.le_trans (readScale_length h)
        (Nat.le_trans (skipDigits_length _) (Significand.extend_length _ _ _))
    · cases h

theorem wholeNumber_length {negative : Bool} {significand : Nat} {cs rest : List Char} {n : Number}
    (h : wholeNumber negative significand cs = .ok (n, rest)) : rest = cs := by
  unfold wholeNumber at h
  split at h
  · split at h
    · simp only [Except.ok.injEq, Prod.mk.injEq] at h; exact h.2.symm
    · exact floatingNumber_length h
  · simp only [Except.ok.injEq, Prod.mk.injEq] at h; exact h.2.symm

theorem readAfterWhole_length {negative : Bool} {s : Significand} {rest : List Char} {n : Number}
    (h : readAfterWhole negative s = .ok (n, rest)) : rest.length ≤ s.rest.length := by
  have hs := skipDigits_length s.rest
  unfold readAfterWhole at h
  dsimp only at h
  split at h
  · next heq =>
    have := readFraction_length h
    rw [heq] at hs
    simp only [List.length_cons] at hs
    omega
  · split at h
    · rw [wholeNumber_length h]; exact hs
    · exact Nat.le_trans (readScale_length h) hs

theorem readMagnitude_length {negative : Bool} {cs rest : List Char} {n : Number}
    (h : readMagnitude negative cs = .ok (n, rest)) : rest.length < cs.length := by
  unfold readMagnitude at h
  split at h
  · cases h
  · split at h
    · split at h
      · cases h
      · exact Nat.lt_succ_of_le (readAfterWhole_length h)
    · split at h
      · exact Nat.lt_succ_of_le
          (Nat.le_trans (readAfterWhole_length h) (Significand.extend_length _ _ _))
      · cases h

theorem readNumber_length {cs rest : List Char} {n : Number} (h : readNumber cs = .ok (n, rest)) :
    rest.length < cs.length := by
  unfold readNumber at h
  split at h
  · exact Nat.lt_succ_of_lt (readMagnitude_length h)
  · exact readMagnitude_length h

/-! ## Skipping -/

/-- Drops an exponent behind its letter. -/
def skipExponent (cs : List Char) : Except Fault (List Char) :=
  match (exponentSign cs).2 with
  | [] => .error (.atEnd .invalidNumber)
  | c :: rest =>
    if c.isDigit then .ok (skipDigits rest) else .error (.atFirst .invalidNumber (c :: rest))

/-- Drops an exponent, if there is one. -/
def skipScale (cs : List Char) : Except Fault (List Char) :=
  match cs with
  | [] => .ok []
  | c :: rest => if isExponentMark c then skipExponent rest else .ok cs

/-- Drops a number behind its sign. -/
def skipMagnitude (cs : List Char) : Except Fault (List Char) :=
  match cs with
  | [] => .error (.atEnd .invalidNumber)
  | c :: rest =>
    if !c.isDigit then .error (.atFirst .invalidNumber cs)
    else if c = '0' && rest.head?.any Char.isDigit then .error (.atFirst .invalidNumber rest)
    else
      match skipDigits rest with
      | '.' :: rest =>
        if rest.head?.any Char.isDigit then skipScale (skipDigits rest)
        else .error (.atFirst .invalidNumber rest)
      | rest => skipScale rest

/-- Drops a number. -/
def skipNumber (cs : List Char) : Except Fault (List Char) :=
  match cs with
  | '-' :: rest => skipMagnitude rest
  | _ => skipMagnitude cs

theorem skipExponent_length {cs rest : List Char} (h : skipExponent cs = .ok rest) :
    rest.length ≤ cs.length := by
  have hs := exponentSign_length cs
  unfold skipExponent at h
  split at h
  · cases h
  · next c rest' heq =>
    rw [heq] at hs
    simp only [List.length_cons] at hs
    split at h
    · cases h
      have := skipDigits_length rest'
      omega
    · cases h

theorem skipScale_length {cs rest : List Char} (h : skipScale cs = .ok rest) :
    rest.length ≤ cs.length := by
  unfold skipScale at h
  split at h
  · cases h; exact Nat.le_refl _
  · split at h
    · exact Nat.le_succ_of_le (skipExponent_length h)
    · cases h; exact Nat.le_refl _

theorem skipMagnitude_length {cs rest : List Char} (h : skipMagnitude cs = .ok rest) :
    rest.length < cs.length := by
  unfold skipMagnitude at h
  split at h
  · cases h
  · next c cs =>
    have hs := skipDigits_length cs
    split at h
    · cases h
    · split at h
      · cases h
      · split at h
        · next rest' heq =>
          rw [heq] at hs
          simp only [List.length_cons] at hs ⊢
          split at h
          · have := skipScale_length h
            have := skipDigits_length rest'
            omega
          · cases h
        · have := skipScale_length h
          simp only [List.length_cons]
          omega

theorem skipNumber_length {cs rest : List Char} (h : skipNumber cs = .ok rest) :
    rest.length < cs.length := by
  unfold skipNumber at h
  split at h
  · exact Nat.lt_succ_of_lt (skipMagnitude_length h)
  · exact skipMagnitude_length h

end LibraryRegistry.Json
