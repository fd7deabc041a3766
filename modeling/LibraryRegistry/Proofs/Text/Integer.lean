import LibraryRegistry.Text.Integer

/-!
# Reading written numbers

Reading digits is `Nat.ofDigitChars` with a bound: a number within the bound is read from its digits
as it is.

* `readDigits_of_le` — the digits of a number within the bound, behind any number read so far
* `IsNatural.readNat`, `IsInteger.readInt` — all texts of a number, with zeros and signs in front
* `IsNatural.readNat_of_lt`, `IsInteger.exists_fault` — numbers past the bound are refused
* `readNat_toString` — the round trip
-/

namespace LibraryRegistry.Text

theorem digitValue_lt {c : Char} (h : c.isDigit = true) : digitValue c < 10 := by
  simp only [Char.isDigit, Bool.and_eq_true, decide_eq_true_eq] at h
  have hle : c.toNat ≤ 57 := UInt32.le_iff_toNat_le.1 h.2
  rw [digitValue]
  omega

/-- Further digits only make a number larger. -/
theorem le_ofDigitChars : ∀ (cs : List Char) (n : Nat), n ≤ Nat.ofDigitChars 10 cs n
  | [], _ => Nat.le_of_eq Nat.ofDigitChars_nil.symm
  | c :: cs, n => by
    rw [Nat.ofDigitChars_cons]
    have ih := le_ofDigitChars cs (10 * n + (c.toNat - '0'.toNat))
    omega

theorem readDigits_of_le {limit : Nat} {past : IntegerFault} : ∀ (cs : List Char) (n : Nat),
    (∀ c ∈ cs, c.isDigit = true) → Nat.ofDigitChars 10 cs n ≤ limit →
      readDigits limit past n cs = .ok (Nat.ofDigitChars 10 cs n)
  | [], n, _, _ => by rw [readDigits, Nat.ofDigitChars_nil]
  | c :: cs, n, hdigits, hle => by
    have hc : c.isDigit = true := hdigits c List.mem_cons_self
    have hcs : ∀ d ∈ cs, d.isDigit = true := fun d hd => hdigits d (List.mem_cons_of_mem _ hd)
    have hcons : Nat.ofDigitChars 10 (c :: cs) n = Nat.ofDigitChars 10 cs (10 * n + digitValue c) :=
      Nat.ofDigitChars_cons
    rw [hcons] at hle ⊢
    -- The bound is on the whole number, and no part of it is larger.
    have hpart : ¬ limit < 10 * n + digitValue c :=
      Nat.not_lt.2 (Nat.le_trans (le_ofDigitChars cs _) hle)
    rw [readDigits, if_pos hc, if_neg hpart]
    exact readDigits_of_le cs _ hcs hle

/-- Digits past the limit are refused, whatever fault stands for that. -/
theorem readDigits_of_lt {limit : Nat} {past : IntegerFault} : ∀ (cs : List Char) (n : Nat),
    (∀ c ∈ cs, c.isDigit = true) → n ≤ limit → limit < Nat.ofDigitChars 10 cs n →
      readDigits limit past n cs = .error past
  | [], _, _, hle, hlt => absurd hle (Nat.not_le.2 hlt)
  | c :: cs, n, hdigits, _, hlt => by
    obtain ⟨hc, hcs⟩ := List.forall_mem_cons.1 hdigits
    rw [Nat.ofDigitChars_cons] at hlt
    rw [readDigits, if_pos hc]
    by_cases hpast : limit < 10 * n + digitValue c
    · rw [if_pos hpast]
    · rw [if_neg hpast]
      exact readDigits_of_lt cs _ hcs (Nat.le_of_not_lt hpast) hlt

/-! ## Written numbers -/

theorem toList_toString (n : Nat) : (toString n).toList = Nat.toDigits 10 n := by
  rw [Nat.toString_eq_repr, Nat.toList_repr]

theorem isDigit_of_mem_toString {n : Nat} {c : Char} (h : c ∈ (toString n).toList) :
    c.isDigit = true := by
  rw [toList_toString] at h
  exact Nat.isDigit_of_mem_toDigits (by omega) (by omega) h

theorem toList_toString_ne_nil (n : Nat) : (toString n).toList ≠ [] := by
  rw [toList_toString]
  exact Nat.toDigits_ne_nil

/-- No needless zero stands in front of a written number. -/
theorem head?_toString_ne_zero {n : Nat} (h : 0 < n) : (toString n).toList.head? ≠ some '0' := by
  rw [toList_toString]
  induction n using Nat.strongRecOn with
  | ind n ih =>
    by_cases hlt : n < 10
    · rw [Nat.toDigits_of_lt_base hlt]
      have hdigit : ∀ m < 10, 0 < m → [Nat.digitChar m].head? ≠ some '0' := by decide
      exact hdigit n hlt h
    · have hdiv := ih (n / 10) (by omega) (by omega)
      rw [Nat.toDigits_of_base_le (by decide) (Nat.le_of_not_lt hlt)]
      obtain ⟨c, cs, hcs⟩ := List.exists_cons_of_ne_nil (Nat.toDigits_ne_nil (b := 10) (n := n / 10))
      rw [hcs] at hdiv ⊢
      exact hdiv

/-! ## Numerals -/

/-- The text is digits with this value; zeros may stand in front. -/
structure IsDigits (n : Nat) (cs : List Char) : Prop where
  ne_nil : cs ≠ []
  digits : ∀ c ∈ cs, c.isDigit = true
  value : Nat.ofDigitChars 10 cs 0 = n

/-- The texts of a number that has no minus sign. -/
inductive IsNatural (n : Nat) : List Char → Prop
  | unsigned {cs : List Char} (h : IsDigits n cs) : IsNatural n cs
  | plus {cs : List Char} (h : IsDigits n cs) : IsNatural n ('+' :: cs)

/-- The texts of a whole number. -/
inductive IsInteger : Int → List Char → Prop
  | unsigned {n : Nat} {cs : List Char} (h : IsDigits n cs) : IsInteger n cs
  | plus {n : Nat} {cs : List Char} (h : IsDigits n cs) : IsInteger n ('+' :: cs)
  | minus {n : Nat} {cs : List Char} (h : IsDigits n cs) : IsInteger (-n) ('-' :: cs)

theorem isDigits_toString (n : Nat) : IsDigits n (toString n).toList where
  ne_nil := toList_toString_ne_nil n
  digits := fun _ => isDigit_of_mem_toString
  value := by
    rw [toList_toString]
    exact Nat.ofDigitChars_ten_toDigits

theorem toList_toString_negSucc (n : Nat) :
    (toString (Int.negSucc n)).toList = '-' :: (toString (n + 1)).toList := by
  show ("-" ++ toString (n + 1)).toList = _
  rw [String.toList_append]
  rfl

theorem isInteger_toString : ∀ n : Int, IsInteger n (toString n).toList
  | .ofNat n => .unsigned (isDigits_toString n)
  | .negSucc n => by
    rw [toList_toString_negSucc]
    exact .minus (isDigits_toString (n + 1))

/-- A written number begins with a digit or a minus sign. -/
theorem exists_cons_toString : ∀ n : Int,
    ∃ c cs, (toString n).toList = c :: cs ∧ (c = '-' ∨ c.isDigit = true)
  | .ofNat n => by
    obtain ⟨c, cs, hcs⟩ := List.exists_cons_of_ne_nil (toList_toString_ne_nil n)
    have hc : c.isDigit = true := by
      refine isDigit_of_mem_toString (n := n) ?_
      rw [hcs]
      exact List.mem_cons_self
    exact ⟨c, cs, hcs, .inr hc⟩
  | .negSucc n => ⟨'-', _, toList_toString_negSucc n, .inl rfl⟩

theorem IsDigits.readMagnitude {n limit : Nat} {cs : List Char} (h : IsDigits n cs)
    (hle : n ≤ limit) (past : IntegerFault) : readMagnitude limit past cs = .ok n := by
  have hvalue : Nat.ofDigitChars 10 cs 0 ≤ limit := by rw [h.value]; exact hle
  rw [Text.readMagnitude.eq_2 _ _ _ h.ne_nil, readDigits_of_le cs 0 h.digits hvalue, h.value]

theorem IsDigits.readMagnitude_of_lt {n limit : Nat} {cs : List Char} (h : IsDigits n cs)
    (hlt : limit < n) (past : IntegerFault) : Text.readMagnitude limit past cs = .error past := by
  have hvalue : limit < Nat.ofDigitChars 10 cs 0 := by rw [h.value]; exact hlt
  rw [Text.readMagnitude.eq_2 _ _ _ h.ne_nil,
    readDigits_of_lt cs 0 h.digits (Nat.zero_le _) hvalue]

/-- Digits have no sign in front of them. -/
theorem IsDigits.exists_cons {n : Nat} {cs : List Char} (h : IsDigits n cs) :
    ∃ c rest, cs = c :: rest ∧ c ≠ '+' ∧ c ≠ '-' := by
  obtain ⟨c, rest, rfl⟩ := List.exists_cons_of_ne_nil h.ne_nil
  have hc : c.isDigit = true := h.digits c List.mem_cons_self
  refine ⟨c, rest, rfl, ?_, ?_⟩ <;> rintro rfl <;> exact absurd hc (by decide)

theorem IsNatural.readNat {n max : Nat} {cs : List Char} (h : IsNatural n cs) (hle : n ≤ max) :
    readNat max cs = .ok n := by
  cases h with
  | unsigned h =>
    obtain ⟨c, rest, rfl, hplus, -⟩ := h.exists_cons
    rw [Text.readNat.eq_3 _ _ (List.cons_ne_nil c rest) fun _ heq => hplus (List.cons.inj heq).1]
    exact h.readMagnitude hle _
  | plus h => exact h.readMagnitude hle _

theorem IsInteger.readInt {n : Int} {below max : Nat} {cs : List Char} (h : IsInteger n cs)
    (hlower : -(below : Int) ≤ n) (hupper : n ≤ max) : readInt below max cs = .ok n := by
  cases h with
  | unsigned h =>
    obtain ⟨c, rest, rfl, hplus, hminus⟩ := h.exists_cons
    rw [Text.readInt.eq_4 _ _ _ (List.cons_ne_nil c rest) (fun _ heq => hplus (List.cons.inj heq).1)
      fun _ heq => hminus (List.cons.inj heq).1, h.readMagnitude (Int.ofNat_le.1 hupper)]
    rfl
  | plus h =>
    rw [Text.readInt, h.readMagnitude (Int.ofNat_le.1 hupper)]
    rfl
  | @minus n cs h =>
    have hle : n ≤ below := by omega
    rw [Text.readInt, h.readMagnitude hle]
    rfl

theorem IsNatural.readNat_of_lt {n max : Nat} {cs : List Char} (h : IsNatural n cs) (hlt : max < n) :
    Text.readNat max cs = .error .tooLarge := by
  cases h with
  | unsigned h =>
    obtain ⟨c, rest, rfl, hplus, -⟩ := h.exists_cons
    rw [Text.readNat.eq_3 _ _ (List.cons_ne_nil c rest) fun _ heq => hplus (List.cons.inj heq).1]
    exact h.readMagnitude_of_lt hlt _
  | plus h => exact h.readMagnitude_of_lt hlt _

/-- A minus sign is no digit. -/
theorem readNat_minus (max : Nat) (cs : List Char) :
    readNat max ('-' :: cs) = .error .invalidDigit := rfl

theorem IsInteger.exists_fault {n : Int} {below max : Nat} {cs : List Char} (h : IsInteger n cs)
    (hn : ¬ (-(below : Int) ≤ n ∧ n ≤ max)) : ∃ fault, Text.readInt below max cs = .error fault := by
  cases h with
  | @unsigned n _ h =>
    have hlt : max < n := by omega
    obtain ⟨c, rest, rfl, hplus, hminus⟩ := h.exists_cons
    rw [Text.readInt.eq_4 _ _ _ (List.cons_ne_nil c rest) (fun _ heq => hplus (List.cons.inj heq).1)
      fun _ heq => hminus (List.cons.inj heq).1, h.readMagnitude_of_lt hlt]
    exact ⟨_, rfl⟩
  | @plus n _ h =>
    have hlt : max < n := by omega
    rw [Text.readInt, h.readMagnitude_of_lt hlt]
    exact ⟨_, rfl⟩
  | @minus n _ h =>
    have hlt : below < n := by omega
    rw [Text.readInt, h.readMagnitude_of_lt hlt]
    exact ⟨_, rfl⟩

/-- **A number is read back from its digits.** -/
theorem readNat_toString {n max : Nat} (h : n ≤ max) :
    readNat max (toString n).toList = .ok n :=
  (IsNatural.unsigned (isDigits_toString n)).readNat h

end LibraryRegistry.Text
