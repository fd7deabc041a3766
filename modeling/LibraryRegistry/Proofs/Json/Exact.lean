import LibraryRegistry.Json.Shape
import LibraryRegistry.Proofs.Json.Value
import LibraryRegistry.Proofs.Outcome

/-!
# Reading and skipping agree

A value that can be read is read as far as it would be skipped. So a reader that goes well on the
text of a value takes all of it, and what comes behind is found at the same place whatever was read.

* `Reader.Exact`, `MemberReader.Exact` — what is read is what would be skipped
* `Reader.Exact.rest_eq` — a reader takes a whole value and no more
* `exact_dict`, `Shape.exact_reader` — dictionaries and values with named fields
-/

namespace LibraryRegistry.Json

variable {α σ : Type}

/-- What is read is what would be skipped. -/
def Reader.Exact (r : Reader α) : Prop :=
  ∀ {cs rest : List Char} {a : α}, r.read cs = .ok (a, rest) → skipValue cs = .ok rest

/-- What is read of a member behind its key is what would be skipped. -/
def MemberReader.Exact (f : MemberReader σ) : Prop :=
  ∀ {m m' : σ} {key : String} {cs rest : List Char},
    f.read m key cs = .ok (m', rest) → Shape.skipMember cs = .ok rest

/-! ## Texts -/

theorem exists_of_readPairMark {mark : Char} {cs rest : List Char}
    (h : readPairMark mark cs = .ok rest) : cs = mark :: rest := by
  unfold readPairMark at h
  split at h
  · cases h
  · split at h
    · next hc =>
      cases h
      rw [hc]
    · cases h

theorem exists_of_readLowSurrogate {cs rest : List Char} {low : Nat}
    (h : readLowSurrogate cs = .ok (low, rest)) :
    ∃ cs', cs = '\\' :: 'u' :: cs' ∧ readCode cs' = .ok (low, rest) := by
  unfold readLowSurrogate at h
  obtain ⟨⟨n, rest'⟩, hread, hlow⟩ := exists_of_bind_eq_ok h
  obtain ⟨cs₂, hmarks, hcode⟩ := exists_of_bind_eq_ok hread
  obtain ⟨cs₁, hslash, hu⟩ := exists_of_bind_eq_ok hmarks
  obtain rfl := exists_of_readPairMark hslash
  obtain rfl := exists_of_readPairMark hu
  dsimp only at hlow
  split at hlow
  · cases hlow
    exact ⟨cs₂, rfl, hcode⟩
  · cases hlow

/-- A pair of surrogates is skipped as two codes. -/
theorem skipText_of_readCodeChar {cs rest : List Char} {c : Char}
    (h : readCodeChar cs = .ok (c, rest)) : skipText ('\\' :: 'u' :: cs) = skipText rest := by
  unfold readCodeChar at h
  split at h
  · cases h
  · next n rest₁ hcode =>
    have hfirst : skipText ('\\' :: 'u' :: cs) = skipText rest₁ :=
      skipText_escape (skipEscape_code hcode)
    rw [hfirst]
    split at h
    · cases h
    · split at h
      · split at h
        · cases h
        · next hlow =>
          obtain rfl := (Prod.mk.inj (Except.ok.inj h)).2
          obtain ⟨cs', rfl, hcode'⟩ := exists_of_readLowSurrogate hlow
          exact skipText_escape (skipEscape_code hcode')
      · rw [(Prod.mk.inj (Except.ok.inj h)).2]

/-- An escape that could be read is skipped, whatever character it stands for. -/
theorem skipText_of_readEscape {cs rest : List Char} {c : Char}
    (h : readEscape cs = .ok (c, rest)) : skipText ('\\' :: cs) = skipText rest := by
  unfold readEscape at h
  split at h
  · cases h
  · exact skipText_of_readCodeChar h
  · split at h
    · next hmark =>
      cases h
      exact skipText_escape (skipEscape_short (by rw [hmark]; rfl) _)
    · cases h

/-- A text that could be read is skipped up to its closing quotation mark. -/
theorem skipText_of_readTextFrom {read cs rest : List Char} {s : String}
    (h : readTextFrom read cs = .ok (s, rest)) : skipText cs = .ok rest := by
  fun_induction readTextFrom read cs with
  | case1 => cases h
  | case2 =>
    cases h
    rw [skipText]
  | case3 => cases h
  | case4 _ _ _ _ hescape ih => rw [skipText_of_readEscape hescape, ih h]
  | case5 => cases h
  | case6 _ _ _ hquote hslash hcontrol ih =>
    rw [skipText.eq_4 _ _ hquote hslash, if_neg hcontrol, ih h]

/-! ## Numbers -/

theorem Significand.skipDigits_extend (value taken : Nat) (cs : List Char) :
    skipDigits (extend value taken cs).rest = skipDigits cs := by
  fun_induction extend value taken cs with
  | case1 => rfl
  | case2 value taken c cs h ih =>
    rw [Bool.and_eq_true] at h
    rw [ih, skipDigits, skipDigits, List.dropWhile_cons_of_pos h.1]
  | case3 => rfl

theorem skipDigits_of_readExponentDigits {toZero : Bool} {exponent : Nat} {cs rest : List Char}
    {e : Option Nat} (h : readExponentDigits toZero exponent cs = .ok (e, rest)) :
    skipDigits cs = rest := by
  fun_induction readExponentDigits toZero exponent cs with
  | case1 =>
    cases h
    rfl
  | case2 _ _ _ hc _ ih => rw [skipDigits, List.dropWhile_cons_of_pos hc, ← skipDigits, ih h]
  | case3 _ _ _ hc _ _ =>
    cases h
    rw [skipDigits, List.dropWhile_cons_of_pos hc, ← skipDigits]
  | case4 => cases h
  | case5 _ _ _ hc =>
    cases h
    rw [skipDigits, List.dropWhile_cons_of_neg hc]

theorem skipExponent_of_readExponent {isZero : Bool} {cs rest : List Char} {e : Option Int}
    (h : readExponent isZero cs = .ok (e, rest)) : skipExponent cs = .ok rest := by
  unfold readExponent at h
  dsimp only at h
  unfold skipExponent
  split at h
  · cases h
  · next c cs' _ =>
    split at h
    · next hc =>
      obtain ⟨⟨e', rest'⟩, hdigits, heq⟩ := exists_of_map_eq_ok h
      cases heq
      simp only [hc, if_true, skipDigits_of_readExponentDigits hdigits]
    · cases h

theorem skipScale_of_readScale {negative : Bool} {significand : Nat} {moved : Int}
    {cs rest : List Char} {n : Number}
    (h : readScale negative significand moved cs = .ok (n, rest)) : skipScale cs = .ok rest := by
  unfold readScale at h
  split at h
  · rw [floatingNumber_length h]
    rfl
  · next c cs' =>
    split at h
    · next hmark =>
      split at h
      · cases h
      · next hexponent =>
        rw [floatingNumber_length h, skipScale, if_pos hmark]
        exact skipExponent_of_readExponent hexponent
    · next hmark => rw [floatingNumber_length h, skipScale, if_neg hmark]

/-- A fraction that could be read begins with a digit and is skipped with the exponent behind it. -/
theorem skipScale_of_readFraction {negative : Bool} {significand : Nat} {moved : Int}
    {cs rest : List Char} {n : Number}
    (h : readFraction negative significand moved cs = .ok (n, rest)) :
    cs.head?.any Char.isDigit = true ∧ skipScale (skipDigits cs) = .ok rest := by
  unfold readFraction at h
  split at h
  · cases h
  · split at h
    · next hc =>
      have hskip := skipScale_of_readScale h
      rw [Significand.skipDigits_extend] at hskip
      exact ⟨hc, hskip⟩
    · cases h

theorem skipScale_of_wholeNumber {negative : Bool} {significand : Nat} {cs rest : List Char}
    {n : Number} (hmark : cs.head?.any isExponentMark = false)
    (h : wholeNumber negative significand cs = .ok (n, rest)) : skipScale cs = .ok rest := by
  rw [wholeNumber_length h]
  cases cs with
  | nil => rfl
  | cons c cs =>
    have hc : isExponentMark c = false := hmark
    rw [skipScale, hc]
    rfl

/-- The digits that a significand leaves are skipped with those it takes. -/
theorem skipMagnitude_of_readAfterWhole {negative : Bool} {s : Significand} {c : Char}
    {cs rest : List Char} {n : Number} (hc : c.isDigit = true)
    (hzero : (decide (c = '0') && cs.head?.any Char.isDigit) = false)
    (hs : skipDigits s.rest = skipDigits cs) (h : readAfterWhole negative s = .ok (n, rest)) :
    skipMagnitude (c :: cs) = .ok rest := by
  unfold readAfterWhole at h
  rw [hs] at h
  rw [skipMagnitude, hc, hzero]
  simp only [Bool.not_true, Bool.false_eq_true, if_false]
  dsimp only at h
  split at h
  · obtain ⟨hdigit, hskip⟩ := skipScale_of_readFraction h
    simp only [hdigit, if_true, hskip]
  · split at h
    · next hmark =>
      rw [Bool.and_eq_true, Bool.not_eq_true'] at hmark
      exact skipScale_of_wholeNumber hmark.2 h
    · exact skipScale_of_readScale h

theorem skipMagnitude_of_readMagnitude {negative : Bool} {cs rest : List Char} {n : Number}
    (h : readMagnitude negative cs = .ok (n, rest)) : skipMagnitude cs = .ok rest := by
  unfold readMagnitude at h
  split at h
  · cases h
  · next c cs =>
    split at h
    · next hc =>
      subst hc
      split at h
      · cases h
      · next hdigit =>
        exact skipMagnitude_of_readAfterWhole (by decide) (by simpa using hdigit) rfl h
    · next hc =>
      split at h
      · next hdigit =>
        have hzero : (decide (c = '0') && cs.head?.any Char.isDigit) = false := by
          rw [decide_eq_false hc]
          rfl
        exact skipMagnitude_of_readAfterWhole hdigit hzero
          (Significand.skipDigits_extend _ _ _) h
      · cases h

/-- A number that could be read is skipped up to the same place. -/
theorem skipNumber_of_readNumber {cs rest : List Char} {n : Number}
    (h : readNumber cs = .ok (n, rest)) : skipNumber cs = .ok rest := by
  unfold readNumber at h
  split at h
  · exact skipMagnitude_of_readMagnitude h
  · next hminus =>
    rw [skipNumber]
    · exact skipMagnitude_of_readMagnitude h
    · exact hminus

/-! ## Single values -/

theorem skipValue_opening (o : Open) {cs rest : List Char} (h : skipBlanks cs = o.opening :: rest) :
    skipValue cs = skipInside [o] false rest :=
  skipNested_opening o [] h

theorem skipValue_scalar {cs rest : List Char} {c : Char} (h : skipBlanks cs = c :: rest)
    (hlist : c ≠ '[') (hobject : c ≠ '\x7b') : skipValue cs = skipScalar (c :: rest) := by
  rw [skipValue, skipNested_scalar [] h hlist hobject]
  cases skipScalar (c :: rest) <;> rfl

namespace Reader

theorem exact_text : text.Exact := by
  intro cs rest s h
  unfold text at h
  dsimp only at h
  split at h
  · next heq =>
    rw [skipValue_scalar heq (by decide) (by decide)]
    exact skipText_of_readTextFrom h
  · cases h

/-- What is thought of a number does not matter to where it ends. -/
theorem exact_number {expected : String} {accept : Number → Except Cause α} :
    (number expected accept).Exact := by
  intro cs rest a h
  unfold number at h
  dsimp only at h
  split at h
  · cases h
  · next c cs' heq =>
    split at h
    · next hstart =>
      have hc : c = '-' ∨ c.isDigit = true := by simpa using hstart
      split at h
      · cases h
      · next hread =>
        split at h
        · cases h
        · cases h
          have hlist : c ≠ '[' := by
            rintro rfl
            exact absurd hc (by decide)
          have hobject : c ≠ '\x7b' := by
            rintro rfl
            exact absurd hc (by decide)
          rw [skipValue_scalar heq hlist hobject, skipScalar_number hc]
          exact skipNumber_of_readNumber hread
    · cases h

theorem exact_map {f : α → σ} {r : Reader α} (hr : r.Exact) : (r.map f).Exact := by
  intro cs rest a h
  unfold map at h
  dsimp only at h
  split at h
  · cases h
  · next hread =>
    cases h
    exact hr hread

theorem exact_optional {r : Reader α} (hr : r.Exact) : (optional r).Exact := by
  intro cs rest a h
  unfold optional at h
  dsimp only at h
  split at h
  · next heq =>
    obtain ⟨rest', hword, hpair⟩ := exists_of_map_eq_ok h
    cases hpair
    rw [skipValue_scalar heq (by decide) (by decide)]
    exact hword
  · split at h
    · cases h
    · next hread =>
      cases h
      have hskip := hr hread
      rw [skipValue, skipNested_congr [] (skipBlanks_skipBlanks cs)] at hskip
      exact hskip

end Reader

/-! ## Objects -/

theorem skipBlanks_of_readColon {cs rest : List Char} (h : readColon cs = .ok rest) :
    skipBlanks cs = ':' :: rest := by
  unfold readColon at h
  split at h
  · cases h
  · next heq =>
    cases h
    exact heq
  · cases h

/-- A key is read as it is skipped. -/
theorem skipKey_of_readKey {cs cs' rest rest' : List Char} {key : String}
    (hblanks : skipBlanks cs = cs') (h : readKey cs' = .ok (key, rest))
    (hcolon : readColon rest = .ok rest') : skipKey cs = .ok rest' := by
  unfold readKey at h
  split at h
  · cases h
  · have htext := skipText_of_readTextFrom h
    rw [skipKey, hblanks]
    simp only [htext, skipBlanks_of_readColon hcolon]
  · cases h
  · cases h

theorem skipBlanks_of_nextKey_none {first : Bool} {cs rest : List Char}
    (h : nextKey first cs = .ok (none, rest)) : skipBlanks cs = '\x7d' :: rest := by
  unfold nextKey at h
  split at h
  · cases h
  · next c cs' heq =>
    split at h
    · next hc =>
      cases h
      rw [heq, hc]
    · split at h
      · obtain ⟨_, _, hpair⟩ := exists_of_map_eq_ok h
        cases hpair
      · split at h
        · obtain ⟨_, _, hpair⟩ := exists_of_map_eq_ok h
          cases hpair
        · cases h

/-- The next key and its colon are skipped on the way to its value. -/
theorem skipInside_of_nextKey {first : Bool} {cs rest rest' : List Char} {key : String}
    (h : nextKey first cs = .ok (some key, rest)) (hcolon : readColon rest = .ok rest') :
    skipInside [.object] (!first) cs = skipNested [.object] rest' := by
  unfold nextKey at h
  split at h
  · cases h
  · next c cs' heq =>
    have hsame : skipBlanks (c :: cs') = c :: cs' := by rw [← heq, skipBlanks_skipBlanks]
    split at h
    · cases h
    · next hclose =>
      split at h
      · next hfirst =>
        obtain ⟨_, hkey, hpair⟩ := exists_of_map_eq_ok h
        cases hpair
        rw [hfirst]
        exact skipInside_first heq hclose (skipKey_of_readKey hsame hkey hcolon)
      · next hfirst =>
        split at h
        · next hcomma =>
          obtain ⟨_, hkey, hpair⟩ := exists_of_map_eq_ok h
          cases hpair
          rw [Bool.eq_false_iff.2 hfirst]
          rw [hcomma] at heq
          exact skipInside_further heq (skipKey_of_readKey rfl hkey hcolon)
        · cases h

/-- **The members of an object are read as they are skipped.** -/
theorem skipInside_of_readMembers {f : MemberReader σ} (hf : f.Exact) {first : Bool} {m m' : σ}
    {cs rest : List Char} (h : readMembers f first m cs = .ok (m', rest)) :
    skipInside [.object] (!first) cs = .ok rest := by
  fun_induction readMembers f first m cs with
  | case1 => cases h
  | case2 _ _ _ _ hkey =>
    cases h
    exact skipInside_close (skipBlanks_of_nextKey_none hkey)
  | case3 => cases h
  | case4 first m cs key rest₁ hkey m₁ rest₂ hmember ih =>
    have hskip := hf hmember
    unfold Shape.skipMember at hskip
    split at hskip
    · cases hskip
    · next hcolon =>
      rw [skipInside_of_nextKey hkey hcolon, skipNested_singleton, hskip]
      exact ih h

theorem Reader.exact_object {f : MemberReader σ} (hf : f.Exact) {m m' : σ} {cs cs' rest : List Char}
    (hcs : skipBlanks cs = '\x7b' :: cs') (h : readMembers f true m cs' = .ok (m', rest)) :
    skipValue cs = .ok rest :=
  (skipValue_opening .object hcs).trans (skipInside_of_readMembers hf h)

/-- A member of a dictionary is skipped with its colon and its value. -/
theorem exact_dict_member {value : Reader α} (hvalue : value.Exact) :
    (MemberReader.dict value).Exact := by
  intro m m' key cs rest h
  unfold MemberReader.dict at h
  dsimp only at h
  split at h
  · cases h
  · next hcolon =>
    split at h
    · cases h
    · next hread =>
      cases h
      rw [Shape.skipMember, hcolon]
      exact hvalue hread

theorem Reader.exact_dict {value : Reader α} (hvalue : value.Exact) : (dict value).Exact := by
  intro cs rest d h
  unfold dict at h
  dsimp only at h
  split at h
  · next heq => exact exact_object (exact_dict_member hvalue) heq h
  · cases h

/-! ## Values with named fields -/

namespace Shape

variable {s : Shape σ}

/-- A member of an object is skipped as it is read, be it a field or not. -/
theorem exact_member (hs : ∀ field ∈ s.fields, field.value.Exact) : s.member.Exact := by
  intro m m' key cs rest h
  unfold member at h
  dsimp only at h
  split at h
  · next field hfind =>
    split at h
    · cases h
    · split at h
      · cases h
      · next hfield =>
        cases h
        unfold readField at hfield
        unfold skipMember
        split at hfield
        · cases hfield
        · split at hfield
          · cases hfield
          · next hread =>
            cases hfield
            exact hs field (List.mem_of_find?_eq_some hfind) hread
  · split at h
    · cases h
    · split at h
      · cases h
      · next hskip =>
        cases h
        exact hskip

theorem skipBlanks_of_readListEnd {cs rest : List Char} (h : readListEnd cs = .ok rest) :
    skipBlanks cs = ']' :: rest := by
  unfold readListEnd at h
  split at h
  · cases h
  · next heq =>
    cases h
    exact heq
  · split at h <;> cases h
  · cases h

theorem skipBlanks_of_nextElement_end {first : Bool} {cs rest : List Char}
    (h : nextElement first cs = .ok (false, rest)) : skipBlanks cs = ']' :: rest := by
  unfold nextElement at h
  split at h
  · cases h
  · next heq =>
    split at h
    · next hc =>
      cases h
      rw [heq, hc]
    · split at h
      · cases h
      · split at h
        · split at h <;> cases h
        · cases h

/-- A separator is skipped on the way to the next element. -/
theorem skipInside_of_nextElement {first : Bool} {cs rest : List Char}
    (h : nextElement first cs = .ok (true, rest)) :
    skipInside [.list] (!first) cs = skipNested [.list] rest := by
  unfold nextElement at h
  split at h
  · cases h
  · next c cs' heq =>
    split at h
    · cases h
    · next hclose =>
      split at h
      · next hfirst =>
        cases h
        rw [hfirst]
        exact skipInside_first heq hclose rfl
      · next hfirst =>
        split at h
        · next hcomma =>
          rw [Bool.eq_false_iff.2 hfirst]
          rw [hcomma] at heq
          have hfurther : skipInside [.list] true cs = skipNested [.list] cs' :=
            skipInside_further heq rfl
          split at h
          · cases h
          · cases h
          · cases h
            exact hfurther.trans (skipNested_congr _ (skipBlanks_skipBlanks cs').symm)
        · cases h

theorem skipInside_of_readElements {fields : List (Field σ)} (hfields : ∀ field ∈ fields,
    field.value.Exact) {index : Nat} {m m' : σ} {cs rest : List Char}
    (h : s.readElements index fields m cs = .ok (m', rest)) :
    skipInside [.list] (!(index == 0)) cs = .ok rest := by
  induction fields generalizing index m cs with
  | nil =>
    obtain ⟨rest', hend, hpair⟩ := exists_of_map_eq_ok h
    cases hpair
    exact skipInside_close (skipBlanks_of_readListEnd hend)
  | cons field fields ih =>
    obtain ⟨hfield, hmore⟩ := List.forall_mem_cons.1 hfields
    unfold readElements at h
    split at h
    · cases h
    · next hnext =>
      split at h
      · cases h
      · cases h
        exact skipInside_close (skipBlanks_of_nextElement_end hnext)
    · next hnext =>
      split at h
      · cases h
      · next hread =>
        rw [skipInside_of_nextElement hnext, skipNested_singleton, hfield hread]
        exact ih hmore h

/-- **A value with named fields is read as it would be skipped.** -/
theorem exact_reader (hs : ∀ field ∈ s.fields, field.value.Exact) (start : σ) :
    (s.reader start).Exact := by
  intro cs rest m h
  unfold reader at h
  dsimp only at h
  split at h
  · next heq => exact (skipValue_opening .list heq).trans (skipInside_of_readElements hs h)
  · next heq =>
    split at h
    · cases h
    · next hmembers =>
      cases h
      exact Reader.exact_object (exact_member hs) heq hmembers
  · cases h

end Shape

/-! ## How far a reader goes -/

/-- **A reader takes a whole value and no more.** -/
theorem Reader.Exact.rest_eq {r : Reader α} (hr : r.Exact) {b v rest rest' : List Char} {a : α}
    (hb : IsBlanks b) (hv : IsValue v) (hrest : Ends rest)
    (h : r.read (b ++ (v ++ rest)) = .ok (a, rest')) : rest' = rest := by
  have hread := hr h
  rw [skipValue_of_isValue hb hv hrest] at hread
  exact (Except.ok.inj hread).symm

end LibraryRegistry.Json
