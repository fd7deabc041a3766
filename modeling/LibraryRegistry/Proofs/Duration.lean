import LibraryRegistry.Duration
import LibraryRegistry.Proofs.Text.Integer
import LibraryRegistry.Proofs.Text.Prefix

/-!
# The texts of spans of time

A span is written as a decimal number of a unit. Read that way the text is the span to the
nanosecond, so that no two spans have the same text.

* `TimeUnit.IsAmount` — a span as a decimal number of a unit
* `Duration.exists_isAmount` — the text of a span is one, with the largest unit that fits
* `Duration.text_inj` — texts tell spans apart
-/

namespace LibraryRegistry

/-- The units of spans. -/
inductive TimeUnit
  | nanosecond
  | microsecond
  | millisecond
  | second

namespace TimeUnit

/-- How many decimal places there are down to the nanosecond. -/
def places : TimeUnit → Nat
  | nanosecond => 0
  | microsecond => 3
  | millisecond => 6
  | second => 9

/-- A unit in nanoseconds. -/
def nanos (u : TimeUnit) : Nat := 10 ^ u.places

/-- How a unit is written. -/
def symbol : TimeUnit → String
  | nanosecond => "ns"
  | microsecond => "µs"
  | millisecond => "ms"
  | second => "s"

/-- The point and the digits behind it; there is no point without digits. -/
def pointed (fraction : List Char) : List Char :=
  if fraction = [] then [] else '.' :: fraction

/-- How a decimal number of units is written. -/
def amount (u : TimeUnit) (whole : Nat) (fraction : List Char) : String :=
  toString whole ++ String.ofList (pointed fraction) ++ u.symbol

/-- The decimal number `whole.fraction` of the unit is the span, and has no zeros to spare behind
the point. -/
structure IsAmount (u : TimeUnit) (d : Duration) (whole : Nat) (fraction : List Char) : Prop where
  digits : ∀ c ∈ fraction, c.isDigit = true
  trimmed : fraction.getLast? ≠ some '0'
  /-- The number has as many decimal places as the fraction has digits. -/
  exact : d.nanos * 10 ^ fraction.length
    = (whole * 10 ^ fraction.length + Nat.ofDigitChars 10 fraction 0) * u.nanos

end TimeUnit

namespace Duration

/-! ## Fractions -/

theorem fraction_zero (places : Nat) : fraction places 0 = [] := by
  cases places with
  | zero => rfl
  | succ places => rw [fraction, if_pos rfl]

theorem fraction_of_ne_zero {n : Nat} (h : n ≠ 0) (places : Nat) :
    fraction (places + 1) n
      = Nat.digitChar (n / 10 ^ places) :: fraction places (n % 10 ^ places) := by
  rw [fraction, if_neg h]

theorem fraction_eq_nil_iff {places n : Nat} (h : n < 10 ^ places) :
    fraction places n = [] ↔ n = 0 := by
  constructor
  · intro hnil
    cases places with
    | zero => exact Nat.lt_one_iff.1 h
    | succ places =>
      by_cases hzero : n = 0
      · exact hzero
      · rw [fraction_of_ne_zero hzero] at hnil
        cases hnil
  · rintro rfl
    exact fraction_zero places

/-- The first of the digits. -/
theorem div_lt_ten {places n : Nat} (h : n < 10 ^ (places + 1)) : n / 10 ^ places < 10 :=
  Nat.div_lt_of_lt_mul h

theorem isDigit_fraction : ∀ {places n : Nat}, n < 10 ^ places →
    ∀ c ∈ fraction places n, c.isDigit = true
  | 0, _, _, _, hc => nomatch hc
  | places + 1, n, h, c, hc => by
    by_cases hzero : n = 0
    · rw [hzero, fraction_zero] at hc
      cases hc
    rw [fraction_of_ne_zero hzero] at hc
    rcases List.mem_cons.1 hc with rfl | hc
    · rw [Nat.isDigit_digitChar]
      exact decide_eq_true (div_lt_ten h)
    · exact isDigit_fraction (Nat.mod_lt n (Nat.pow_pos (by decide))) c hc

/-- A digit that is followed by none is the last one that is not zero. -/
theorem getLast?_fraction : ∀ {places n : Nat}, n < 10 ^ places →
    (fraction places n).getLast? ≠ some '0'
  | 0, _, _ => nofun
  | places + 1, n, h => by
    by_cases hzero : n = 0
    · rw [hzero, fraction_zero]
      nofun
    have hmod : n % 10 ^ places < 10 ^ places := Nat.mod_lt n (Nat.pow_pos (by decide))
    rw [fraction_of_ne_zero hzero]
    by_cases hrest : n % 10 ^ places = 0
    · have hfirst : n / 10 ^ places ≠ 0 := by
        intro hdiv
        have hsplit := Nat.div_add_mod n (10 ^ places)
        rw [hdiv, hrest] at hsplit
        exact hzero hsplit.symm
      have hdigit : ∀ d < 10, d ≠ 0 → [Nat.digitChar d].getLast? ≠ some '0' := by decide
      rw [hrest, fraction_zero]
      exact hdigit _ (div_lt_ten h) hfirst
    · obtain ⟨c, cs, hcs⟩ := List.exists_cons_of_ne_nil (mt (fraction_eq_nil_iff hmod).1 hrest)
      have ih := getLast?_fraction hmod
      rw [hcs] at ih ⊢
      rwa [List.getLast?_cons_cons]

/-- The digits behind the point are `n / 10 ^ places`. -/
theorem fraction_exact : ∀ {places n : Nat}, n < 10 ^ places →
    n * 10 ^ (fraction places n).length
      = Nat.ofDigitChars 10 (fraction places n) 0 * 10 ^ places
  | 0, n, h => by
    obtain rfl := Nat.lt_one_iff.1 h
    rfl
  | places + 1, n, h => by
    by_cases hzero : n = 0
    · rw [hzero, fraction_zero, Nat.zero_mul, Nat.ofDigitChars_nil, Nat.zero_mul]
    have hmod : n % 10 ^ places < 10 ^ places := Nat.mod_lt n (Nat.pow_pos (by decide))
    have ih := fraction_exact hmod
    have hsplit : 10 ^ places * (n / 10 ^ places) + n % 10 ^ places = n := Nat.div_add_mod n _
    have hdigit : (Nat.digitChar (n / 10 ^ places)).toNat - '0'.toNat = n / 10 ^ places := by
      rw [Nat.toNat_digitChar_of_lt_ten (div_lt_ten h)]
      exact Nat.add_sub_cancel_left ..
    rw [fraction_of_ne_zero hzero, List.length_cons, Nat.ofDigitChars_cons, hdigit,
      Nat.ofDigitChars_eq_ofDigitChars_zero, Nat.mul_zero, Nat.zero_add]
    generalize n % 10 ^ places = rest at ih hsplit ⊢
    generalize n / 10 ^ places = digit at hsplit ⊢
    generalize Nat.ofDigitChars 10 (fraction places rest) 0 = value at ih ⊢
    generalize (fraction places rest).length = len at ih ⊢
    calc n * 10 ^ (len + 1)
        = digit * 10 ^ len * 10 ^ (places + 1) + rest * 10 ^ len * 10 := by
          rw [← hsplit]
          grind
      _ = digit * 10 ^ len * 10 ^ (places + 1) + value * 10 ^ places * 10 := by rw [ih]
      _ = (10 ^ len * digit + value) * 10 ^ (places + 1) := by grind

end Duration

/-! ## Amounts -/

namespace TimeUnit

variable {u u' : TimeUnit}

theorem nanos_pos (u : TimeUnit) : 0 < u.nanos := Nat.pow_pos (by decide)

theorem pointed_inj {cs cs' : List Char} : pointed cs = pointed cs' ↔ cs = cs' := by
  cases cs <;> cases cs' <;> simp [pointed]

theorem toList_amount (u : TimeUnit) (whole : Nat) (fraction : List Char) :
    (u.amount whole fraction).toList
      = (toString whole).toList ++ (pointed fraction ++ u.symbol.toList) := by
  rw [amount, String.toList_append, String.toList_append, String.toList_ofList, List.append_assoc]

theorem symbol_inj (h : u.symbol = u'.symbol) : u = u' := by
  cases u <;> cases u' <;> simp_all [symbol]

/-- A symbol begins with a letter. -/
theorem stops_symbol (u : TimeUnit) :
    Text.Stops (fun c => c.isDigit || c == '.') u.symbol.toList := by
  cases u <;> exact Text.stops_cons.2 (by decide)

theorem stops_pointed (u : TimeUnit) (fraction : List Char) :
    Text.Stops Char.isDigit (pointed fraction ++ u.symbol.toList) := by
  cases fraction with
  | nil => cases u <;> exact Text.stops_cons.2 (by decide)
  | cons c cs => exact Text.stops_cons.2 rfl

theorem mem_pointed {fraction : List Char} (h : ∀ c ∈ fraction, c.isDigit = true) :
    ∀ c ∈ pointed fraction, (c.isDigit || c == '.') = true := by
  intro c hc
  rw [pointed] at hc
  split at hc
  · cases hc
  · rcases List.mem_cons.1 hc with rfl | hc
    · rfl
    · rw [h c hc, Bool.true_or]

/-- **An amount is read in one way only.** -/
theorem amount_inj {whole whole' : Nat} {fraction fraction' : List Char}
    (hdigits : ∀ c ∈ fraction, c.isDigit = true) (hdigits' : ∀ c ∈ fraction', c.isDigit = true)
    (h : u.amount whole fraction = u'.amount whole' fraction') :
    u = u' ∧ whole = whole' ∧ fraction = fraction' := by
  have htext := congrArg String.toList h
  rw [toList_amount, toList_amount] at htext
  obtain ⟨hwhole, hrest⟩ := Text.append_inj_of_stops (Text.isDigits_toString whole).digits
    (Text.isDigits_toString whole').digits (stops_pointed u _) (stops_pointed u' _) htext
  obtain ⟨hpointed, hsymbol⟩ := Text.append_inj_of_stops (mem_pointed hdigits)
    (mem_pointed hdigits') (stops_symbol u) (stops_symbol u') hrest
  refine ⟨symbol_inj (String.toList_inj.1 hsymbol), ?_, pointed_inj.1 hpointed⟩
  rw [← (Text.isDigits_toString whole).value, hwhole, (Text.isDigits_toString whole').value]

/-- An amount is one span. -/
theorem IsAmount.unique {d d' : Duration} {whole : Nat} {fraction : List Char}
    (h : u.IsAmount d whole fraction) (h' : u.IsAmount d' whole fraction) : d = d' := by
  have hnanos := h.exact.trans h'.exact.symm
  exact Duration.ext (Nat.eq_of_mul_eq_mul_right (Nat.pow_pos (by decide)) hnanos)

/-- What is left of a span besides whole units. -/
theorem mod_lt (u : TimeUnit) (d : Duration) : d.nanos % u.nanos < 10 ^ u.places :=
  Nat.mod_lt d.nanos u.nanos_pos

/-- Every span is an amount of every unit. -/
theorem isAmount_div (u : TimeUnit) (d : Duration) :
    u.IsAmount d (d.nanos / u.nanos) (Duration.fraction u.places (d.nanos % u.nanos)) where
  digits := Duration.isDigit_fraction (u.mod_lt d)
  trimmed := Duration.getLast?_fraction (u.mod_lt d)
  exact := by
    have hsplit : u.nanos * (d.nanos / u.nanos) + d.nanos % u.nanos = d.nanos :=
      Nat.div_add_mod d.nanos u.nanos
    have hfraction := Duration.fraction_exact (u.mod_lt d)
    generalize Duration.fraction u.places (d.nanos % u.nanos) = fraction at hfraction ⊢
    calc d.nanos * 10 ^ fraction.length
        = (u.nanos * (d.nanos / u.nanos) + d.nanos % u.nanos) * 10 ^ fraction.length := by
          rw [hsplit]
      _ = d.nanos / u.nanos * 10 ^ fraction.length * u.nanos
            + d.nanos % u.nanos * 10 ^ fraction.length := by grind
      _ = d.nanos / u.nanos * 10 ^ fraction.length * u.nanos
            + Nat.ofDigitChars 10 fraction 0 * u.nanos := by rw [hfraction, nanos]
      _ = _ := (Nat.add_mul ..).symm

end TimeUnit

namespace Duration

/-! ## Texts -/

/-- Writing in a unit is writing an amount of it. -/
theorem inUnit_eq_amount (u : TimeUnit) {part : Nat} (h : part < 10 ^ u.places) (whole : Nat) :
    inUnit whole u.places part u.symbol = u.amount whole (fraction u.places part) := by
  refine String.toList_inj.1 ?_
  rw [TimeUnit.toList_amount, TimeUnit.pointed, inUnit]
  by_cases hpart : part = 0
  · rw [if_pos hpart, if_pos ((fraction_eq_nil_iff h).2 hpart), String.toList_append]
    rfl
  · rw [if_neg hpart, if_neg (mt (fraction_eq_nil_iff h).1 hpart)]
    simp only [String.toList_append, String.toList_ofList, List.append_assoc]
    rfl

/-- **The text of a span is an amount**, and the unit is not too large for it. -/
theorem exists_isAmount (d : Duration) :
    ∃ u : TimeUnit, ∃ whole fraction, u.IsAmount d whole fraction ∧
      d.text = u.amount whole fraction ∧ (d.nanos ≠ 0 → 1 ≤ whole) := by
  have hunit : ∃ u : TimeUnit, (d.nanos ≠ 0 → u.nanos ≤ d.nanos) ∧
      d.text = inUnit (d.nanos / u.nanos) u.places (d.nanos % u.nanos) u.symbol := by
    rw [text]
    split
    · next h => exact ⟨.second, fun _ => h, rfl⟩
    split
    · next h => exact ⟨.millisecond, fun _ => h, rfl⟩
    split
    · next h => exact ⟨.microsecond, fun _ => h, rfl⟩
    · refine ⟨.nanosecond, Nat.one_le_iff_ne_zero.2, ?_⟩
      have hnanos : TimeUnit.nanosecond.nanos = 1 := rfl
      rw [hnanos, Nat.div_one, Nat.mod_one]
      rfl
  obtain ⟨u, hle, htext⟩ := hunit
  refine ⟨u, _, _, u.isAmount_div d, ?_, ?_⟩
  · rw [htext, inUnit_eq_amount u (u.mod_lt d)]
  · intro hne
    exact Nat.div_pos (hle hne) u.nanos_pos

example : Duration.text ⟨1000000010⟩ = "1.00000001s" := by decide

/-- **Texts tell spans apart.** -/
theorem text_inj {d d' : Duration} : d.text = d'.text ↔ d = d' := by
  constructor
  · intro h
    obtain ⟨u, whole, fraction, hamount, htext, -⟩ := exists_isAmount d
    obtain ⟨u', whole', fraction', hamount', htext', -⟩ := exists_isAmount d'
    rw [htext, htext'] at h
    obtain ⟨rfl, rfl, rfl⟩ := TimeUnit.amount_inj hamount.digits hamount'.digits h
    exact hamount.unique hamount'
  · rintro rfl
    rfl

end Duration

end LibraryRegistry
