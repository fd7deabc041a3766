import LibraryRegistry.Proofs.Json.Object
import LibraryRegistry.Proofs.Text.Integer

/-!
# Reading whole numbers

A whole number of 64 bits is read from its digits as it is, up to the next token.

* `Significand.extend_of_le` — digits that fit
* `readNumber_toString` — a written number, whatever token follows it
* `whole_or_isRounded` — one that does not fit
* `Reader.reads_int64`, `Reader.reads_uint64` — readers of 64 bits
* `Reader.reads_optional`, `Reader.reads_null` — values that may be missing
-/

namespace LibraryRegistry.Json

open Text (digitValue)

/-! ## Where a number ends -/

/-- No number goes on with what follows a value. -/
theorem Ends.head? {rest : List Char} (h : Ends rest) {c : Char} (hc : c ∈ rest.head?) :
    c.isDigit = false ∧ c ≠ '.' ∧ isExponentMark c = false := by
  rcases h c hc with hblank | rfl | rfl | rfl
  · simp only [isBlank, Bool.or_eq_true, beq_iff_eq] at hblank
    rcases hblank with ((rfl | rfl) | rfl) | rfl <;> decide
  · decide
  · decide
  · decide

theorem Ends.any_head? {rest : List Char} (h : Ends rest) {p : Char → Bool}
    (hp : ∀ c, c.isDigit = false ∧ c ≠ '.' ∧ isExponentMark c = false → p c = false) :
    rest.head?.any p = false := by
  cases rest with
  | nil => rfl
  | cons c rest => exact hp c (h.head? rfl)

theorem Ends.stops_isDigit {rest : List Char} (h : Ends rest) : Text.Stops Char.isDigit rest :=
  fun _ hc => (h.head? hc).1

theorem Ends.skipDigits {rest : List Char} (h : Ends rest) : Json.skipDigits rest = rest := by
  have hall : ∀ c ∈ ([] : List Char), c.isDigit = true := nofun
  exact Text.dropWhile_of_stops hall h.stops_isDigit

/-! ## Digits -/

/-- Digits that fit are taken, up to the first character that is none. -/
theorem Significand.extend_of_le {rest : List Char} (hrest : Text.Stops Char.isDigit rest) :
    ∀ (cs : List Char) (value taken : Nat), (∀ c ∈ cs, c.isDigit = true) →
      Nat.ofDigitChars 10 cs value ≤ maxSignificand →
      extend value taken (cs ++ rest)
        = ⟨Nat.ofDigitChars 10 cs value, taken + cs.length, rest⟩
  | [], value, taken, _, _ => by
    cases rest with
    | nil => rfl
    | cons d rest =>
      have hd : d.isDigit = false := Text.stops_cons.1 hrest
      rw [List.nil_append, extend, hd]
      rfl
  | c :: cs, value, taken, hdigits, hle => by
    obtain ⟨hc, hcs⟩ := List.forall_mem_cons.1 hdigits
    have hcons : Nat.ofDigitChars 10 (c :: cs) value
        = Nat.ofDigitChars 10 cs (10 * value + digitValue c) := Nat.ofDigitChars_cons
    rw [hcons] at hle ⊢
    have hpart : 10 * value + digitValue c ≤ maxSignificand :=
      Nat.le_trans (Text.le_ofDigitChars cs _) hle
    have ih := extend_of_le hrest cs (10 * value + digitValue c) (taken + 1) hcs hle
    have hlength : taken + 1 + cs.length = taken + (c :: cs).length := by
      rw [List.length_cons]
      omega
    rw [List.cons_append, extend, if_pos (by rw [hc, decide_eq_true hpart]; rfl), ih, hlength]

/-- A whole part is the number if a token follows it. -/
theorem readAfterWhole_of_ends {rest : List Char} (h : Ends rest) (negative : Bool)
    (value taken : Nat) :
    readAfterWhole negative ⟨value, taken, rest⟩ = wholeNumber negative value rest := by
  have hmark : rest.head?.any isExponentMark = false := h.any_head? fun _ hc => hc.2.2
  unfold readAfterWhole
  dsimp only
  rw [h.skipDigits]
  split
  · exact absurd rfl (h.head? rfl).2.1
  · rw [hmark]
    simp

/-- The first digit of a number is the significand that the others extend. -/
theorem exists_first_digit {n : Nat} (h : 0 < n) : ∃ c cs, (toString n).toList = c :: cs ∧
    c ≠ '0' ∧ c.isDigit = true ∧ (∀ d ∈ cs, d.isDigit = true) ∧
      Nat.ofDigitChars 10 cs (digitValue c) = n := by
  obtain ⟨hne, hdigits, hvalue⟩ := Text.isDigits_toString n
  have hhead := Text.head?_toString_ne_zero h
  obtain ⟨c, cs, hcs⟩ := List.exists_cons_of_ne_nil hne
  rw [hcs] at hdigits hvalue hhead
  obtain ⟨hc, hall⟩ := List.forall_mem_cons.1 hdigits
  refine ⟨c, cs, hcs, fun heq => hhead (congrArg some heq), hc, hall, ?_⟩
  rw [Nat.ofDigitChars_cons, Nat.mul_zero, Nat.zero_add] at hvalue
  exact hvalue

/-- The digits of a number that fits are read as it. -/
theorem readMagnitude_toString {n : Nat} (h : n ≤ maxSignificand) {rest : List Char}
    (hrest : Ends rest) (negative : Bool) :
    readMagnitude negative ((toString n).toList ++ rest) = wholeNumber negative n rest := by
  by_cases hzero : n = 0
  · subst hzero
    have hnext : rest.head?.any Char.isDigit = false := hrest.any_head? fun _ hc => hc.1
    show readMagnitude negative ('0' :: rest) = _
    rw [readMagnitude, if_pos rfl, hnext]
    exact readAfterWhole_of_ends hrest negative 0 1
  · obtain ⟨c, cs, hcs, hcz, hc, hall, hcons⟩ := exists_first_digit (Nat.pos_of_ne_zero hzero)
    have hextend := Significand.extend_of_le hrest.stops_isDigit cs (digitValue c) 1 hall
      (by rw [hcons]; exact h)
    rw [hcs, List.cons_append, readMagnitude, if_neg hcz, if_pos hc, hextend, hcons]
    exact readAfterWhole_of_ends hrest negative n _

/-- **A whole number of 64 bits is read from its digits**, whatever token follows it. -/
theorem readNumber_toString {n : Int} (hlow : -2 ^ 63 ≤ n) (hhigh : n ≤ 2 ^ 64 - 1)
    {rest : List Char} (hrest : Ends rest) :
    readNumber ((toString n).toList ++ rest) = .ok (.whole n, rest) := by
  have hmax : maxSignificand = 2 ^ 64 - 1 := rfl
  cases n with
  | ofNat n =>
    have hle : (n : Int) ≤ 2 ^ 64 - 1 := hhigh
    obtain ⟨c, cs, hcs, -, hminus⟩ := (Text.isDigits_toString n).exists_cons
    have hread := readMagnitude_toString (n := n) (by omega) hrest false
    show readNumber ((toString n).toList ++ rest) = _
    rw [hcs, List.cons_append] at hread ⊢
    rw [readNumber, hread]
    · rfl
    · intro _ heq
      exact hminus (List.cons.inj heq).1
  | negSucc n =>
    have hle : -2 ^ 63 ≤ -((n : Int) + 1) := by
      rw [Int.negSucc_eq] at hlow
      exact hlow
    have hfits : (0 < n + 1 && n + 1 ≤ 2 ^ 63) = true := by
      rw [Bool.and_eq_true, decide_eq_true_eq, decide_eq_true_eq]
      omega
    have hread := readMagnitude_toString (n := n + 1) (by omega) hrest true
    rw [Text.toList_toString_negSucc, List.cons_append, readNumber, hread, wholeNumber, if_pos rfl, if_pos hfits]
    rfl

/-! ## Numbers that do not fit -/

/-- The number is not kept exactly. -/
def Number.IsRounded (n : Number) : Prop := ∃ negative value, n = .floating negative value

theorem isRounded_of_floatingNumber {negative : Bool} {significand : Nat} {e : Option Int}
    {cs rest : List Char} {n : Number}
    (h : floatingNumber negative significand e cs = .ok (n, rest)) : n.IsRounded := by
  unfold floatingNumber at h
  split at h
  · cases h
    exact ⟨_, _, rfl⟩
  · split at h
    · cases h
      exact ⟨_, _, rfl⟩
    · cases h

theorem isRounded_of_readScale {negative : Bool} {significand : Nat} {moved : Int}
    {cs rest : List Char} {n : Number}
    (h : readScale negative significand moved cs = .ok (n, rest)) : n.IsRounded := by
  unfold readScale at h
  split at h
  · exact isRounded_of_floatingNumber h
  · split at h
    · split at h
      · cases h
      · exact isRounded_of_floatingNumber h
    · exact isRounded_of_floatingNumber h

theorem isRounded_of_readFraction {negative : Bool} {significand : Nat} {moved : Int}
    {cs rest : List Char} {n : Number}
    (h : readFraction negative significand moved cs = .ok (n, rest)) : n.IsRounded := by
  unfold readFraction at h
  split at h
  · cases h
  · split at h
    · exact isRounded_of_readScale h
    · cases h

/-- The significand leaves a digit that it could not take. -/
theorem Significand.exists_rest_of_lt {rest : List Char} : ∀ (cs : List Char) (value taken : Nat),
    (∀ c ∈ cs, c.isDigit = true) → value ≤ maxSignificand →
      maxSignificand < Nat.ofDigitChars 10 cs value →
      ∃ c tail, (extend value taken (cs ++ rest)).rest = c :: tail ∧ c.isDigit = true
  | [], _, _, _, hle, hlt => absurd hle (Nat.not_le.2 hlt)
  | c :: cs, value, taken, hdigits, _, hlt => by
    obtain ⟨hc, hcs⟩ := List.forall_mem_cons.1 hdigits
    rw [Nat.ofDigitChars_cons] at hlt
    rw [List.cons_append, extend, hc, Bool.true_and]
    by_cases hfits : 10 * value + digitValue c ≤ maxSignificand
    · rw [if_pos (decide_eq_true hfits)]
      exact exists_rest_of_lt cs _ _ hcs hfits hlt
    · rw [if_neg (by simpa using hfits)]
      exact ⟨c, cs ++ rest, rfl, hc⟩

/-- Digits that are left over move the point. -/
theorem isRounded_of_readAfterWhole {negative : Bool} {s : Significand} {c : Char}
    {tail rest : List Char} {n : Number} (hs : s.rest = c :: tail) (hc : c.isDigit = true)
    (h : readAfterWhole negative s = .ok (n, rest)) : n.IsRounded := by
  have hskip : skipDigits s.rest = skipDigits tail := by
    rw [hs, skipDigits, List.dropWhile_cons_of_pos hc, ← skipDigits]
  have hmoved : s.rest.length - (skipDigits tail).length ≠ 0 := by
    have hle := skipDigits_length tail
    rw [hs, List.length_cons]
    omega
  unfold readAfterWhole at h
  dsimp only at h
  rw [hskip, decide_eq_false hmoved, Bool.false_and] at h
  split at h
  · exact isRounded_of_readFraction h
  · exact isRounded_of_readScale h

theorem isRounded_of_readMagnitude {n : Nat} (hn : maxSignificand < n) {negative : Bool}
    {rest rest' : List Char} {x : Number}
    (h : readMagnitude negative ((toString n).toList ++ rest) = .ok (x, rest')) : x.IsRounded := by
  obtain ⟨c, cs, hcs, hcz, hc, hall, hcons⟩ :=
    exists_first_digit (Nat.lt_of_le_of_lt (Nat.zero_le _) hn)
  have hfirst : digitValue c ≤ maxSignificand := by
    have hlt := Text.digitValue_lt hc
    have hmax : maxSignificand = 2 ^ 64 - 1 := rfl
    omega
  rw [hcs, List.cons_append, readMagnitude, if_neg hcz, if_pos hc] at h
  obtain ⟨d, tail, hrest, hd⟩ := @Significand.exists_rest_of_lt rest cs _ 1 hall hfirst
    (by rw [hcons]; exact hn)
  exact isRounded_of_readAfterWhole hrest hd h

/-- **A written whole number is read as it is, or rounded**, never as another whole number. -/
theorem whole_or_isRounded {n : Int} {rest rest' : List Char} (hrest : Ends rest) {x : Number}
    (h : readNumber ((toString n).toList ++ rest) = .ok (x, rest')) :
    x = .whole n ∨ x.IsRounded := by
  by_cases hrange : -2 ^ 63 ≤ n ∧ n ≤ 2 ^ 64 - 1
  · rw [readNumber_toString hrange.1 hrange.2 hrest] at h
    cases h
    exact Or.inl rfl
  · refine Or.inr ?_
    have hmax : maxSignificand = 2 ^ 64 - 1 := rfl
    cases n with
    | ofNat n =>
      obtain ⟨c, cs, hcs, -, hminus⟩ := (Text.isDigits_toString n).exists_cons
      have hread : readMagnitude false ((toString n).toList ++ rest) = .ok (x, rest') := by
        have hshow : readNumber ((toString n).toList ++ rest) = .ok (x, rest') := h
        rw [hcs, List.cons_append] at hshow ⊢
        rw [readNumber] at hshow
        · exact hshow
        · intro _ heq
          exact hminus (List.cons.inj heq).1
      have hlarge : ¬ (-2 ^ 63 ≤ (n : Int) ∧ (n : Int) ≤ 2 ^ 64 - 1) := hrange
      exact isRounded_of_readMagnitude (by omega) hread
    | negSucc n =>
      rw [Text.toList_toString_negSucc, List.cons_append, readNumber] at h
      rw [Int.negSucc_eq] at hrange
      by_cases hfits : n + 1 ≤ maxSignificand
      · rw [readMagnitude_toString hfits hrest, wholeNumber, if_pos rfl, if_neg] at h
        · exact isRounded_of_floatingNumber h
        · rw [Bool.and_eq_true, decide_eq_true_eq, decide_eq_true_eq]
          omega
      · exact isRounded_of_readMagnitude (Nat.lt_of_not_le hfits) h

/-- What a number begins with is neither a blank nor the beginning of a word. -/
theorem number_head {c : Char} (h : c = '-' ∨ c.isDigit = true) :
    isBlank c = false ∧ c ≠ 'n' ∧ (decide (c = '-') || c.isDigit) = true := by
  rcases h with rfl | hdigit
  · decide
  · refine ⟨Bool.eq_false_iff.2 ?_, ?_, by rw [hdigit, Bool.or_true]⟩
    · intro hblank
      simp only [isBlank, Bool.or_eq_true, beq_iff_eq] at hblank
      rcases hblank with ((rfl | rfl) | rfl) | rfl <;> exact absurd hdigit (by decide)
    · rintro rfl
      exact absurd hdigit (by decide)

namespace Reader

variable {α : Type}

theorem reads_integer {expected : String} {low high n : Int} (hlow : -2 ^ 63 ≤ low)
    (hhigh : high ≤ 2 ^ 64 - 1) (hn : low ≤ n ∧ n ≤ high) {b : List Char} (hb : IsBlanks b) :
    (integer expected low high).Reads (b ++ (toString n).toList) n := by
  intro rest hrest
  obtain ⟨c, cs, hcs, hc⟩ := Text.exists_cons_toString n
  obtain ⟨hblank, -, hstart⟩ := number_head hc
  have hread := readNumber_toString (n := n) (by omega) (by omega) hrest
  rw [hcs, List.cons_append] at hread
  rw [hcs, List.append_assoc, List.cons_append]
  simp only [integer, number, skipBlanks_append hb hblank, hstart, if_true, hread, if_pos hn]

theorem reads_int64 (n : Int64) {b : List Char} (hb : IsBlanks b) :
    int64.Reads (b ++ (toString n.toInt).toList) n := by
  have hlow : -2 ^ 63 ≤ n.toInt := n.le_toInt
  have hhigh : n.toInt < 2 ^ 63 := n.toInt_lt
  have hread : int64.Reads (b ++ (toString n.toInt).toList) (Int64.ofInt n.toInt) :=
    reads_map (reads_integer (by decide) (by decide) ⟨hlow, Int.le_sub_one_of_lt hhigh⟩ hb)
  rw [Int64.ofInt_toInt] at hread
  exact hread

theorem reads_uint64 (n : UInt64) {b : List Char} (hb : IsBlanks b) :
    uint64.Reads (b ++ (toString n.toNat).toList) n := by
  have hlt : n.toNat < 2 ^ 64 := n.toNat_lt
  have hread : uint64.Reads (b ++ (toString (n.toNat : Int)).toList)
      (UInt64.ofNat (n.toNat : Int).toNat) :=
    reads_map (reads_integer (by decide) (by decide) ⟨by omega, by omega⟩ hb)
  rw [Int.toNat_natCast, UInt64.ofNat_toNat] at hread
  exact hread

/-- A value that is there, where none has to be. -/
theorem reads_optional {r : Reader α} {a : α} {b : List Char} {c : Char} {cs : List Char}
    (hb : IsBlanks b) (hblank : isBlank c = false) (hword : c ≠ 'n') (h : r.Reads (c :: cs) a) :
    (optional r).Reads (b ++ c :: cs) (some a) := by
  intro rest hrest
  have hread := h rest hrest
  rw [List.cons_append] at hread
  rw [List.append_assoc, List.cons_append]
  simp only [optional, skipBlanks_append hb hblank]
  split
  · next heq => exact absurd (List.cons.inj heq).1 hword
  · rw [hread]

theorem reads_null {r : Reader α} {b : List Char} (hb : IsBlanks b) :
    (optional r).Reads (b ++ ['n', 'u', 'l', 'l']) none := by
  intro rest _
  rw [List.append_assoc]
  simp only [optional, List.cons_append, List.nil_append,
    skipBlanks_append hb (show isBlank 'n' = false from rfl)]
  rfl

end Reader

end LibraryRegistry.Json
