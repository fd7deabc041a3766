import LibraryRegistry.Proofs.Json.Number

/-!
# Texts of values, and going past them

The grammar of JSON, with any depth of nesting, numbers of any size, and texts in which surrogates may
be alone. A text of the grammar is cut at the brackets: a `Piece` is a value, or what stands in an
open list or object from some place up to its end.

* `IsNumber`, `IsRawText`, `IsValue` — the texts of numbers, of texts and of all values
* `skipInside_append` — what is open further out does not matter to what is dropped
* `skipValue_of_isValue` — skipping drops a value and no more, whatever follows it
-/

namespace LibraryRegistry.Json

/-! ## Numbers -/

/-- One digit or more. -/
def IsDigits (cs : List Char) : Prop := cs ≠ [] ∧ ∀ c ∈ cs, c.isDigit = true

/-- The digits in front of a point: no needless zero stands in front. -/
def IsWhole (cs : List Char) : Prop := IsDigits cs ∧ (cs.head? = some '0' → cs = ['0'])

/-- A point with its digits, which may be missing. -/
inductive IsFraction : List Char → Prop
  | none : IsFraction []
  | digits {cs : List Char} : IsDigits cs → IsFraction ('.' :: cs)

/-- An exponent with its letter and maybe a sign, which may be missing. -/
inductive IsExponent : List Char → Prop
  | none : IsExponent []
  | digits {mark : Char} {sign cs : List Char} : isExponentMark mark = true →
      sign ∈ [[], ['+'], ['-']] → IsDigits cs → IsExponent (mark :: (sign ++ cs))

/-- The texts of numbers. -/
inductive IsNumber : List Char → Prop
  | parts {sign whole fraction exponent : List Char} : sign ∈ [[], ['-']] → IsWhole whole →
      IsFraction fraction → IsExponent exponent →
      IsNumber (sign ++ (whole ++ (fraction ++ exponent)))

theorem IsDigits.exists_cons {cs : List Char} (h : IsDigits cs) :
    ∃ d ds, cs = d :: ds ∧ d.isDigit = true ∧ ∀ c ∈ ds, c.isDigit = true := by
  obtain ⟨d, ds, rfl⟩ := List.exists_cons_of_ne_nil h.1
  exact ⟨d, ds, rfl, List.forall_mem_cons.1 h.2⟩

theorem skipDigits_append {cs rest : List Char} (hcs : ∀ c ∈ cs, c.isDigit = true)
    (hrest : Text.Stops Char.isDigit rest) : skipDigits (cs ++ rest) = rest :=
  Text.dropWhile_of_stops hcs hrest

/-- A digit is no sign. -/
theorem exponentSign_digit {d : Char} (hd : d.isDigit = true) (cs : List Char) :
    (exponentSign (d :: cs)).2 = d :: cs := by
  unfold exponentSign
  split
  · next heq =>
    rw [(List.cons.inj heq).1] at hd
    exact absurd hd (by decide)
  · next heq =>
    rw [(List.cons.inj heq).1] at hd
    exact absurd hd (by decide)
  · rfl

theorem skipExponent_append {sign cs rest : List Char} (hsign : sign ∈ [[], ['+'], ['-']])
    (hcs : IsDigits cs) (hrest : Ends rest) : skipExponent (sign ++ (cs ++ rest)) = .ok rest := by
  obtain ⟨d, ds, rfl, hd, hds⟩ := hcs.exists_cons
  have hdigits : (exponentSign (sign ++ (d :: ds ++ rest))).2 = d :: (ds ++ rest) := by
    simp only [List.mem_cons, List.not_mem_nil, or_false] at hsign
    rcases hsign with rfl | rfl | rfl
    · exact exponentSign_digit hd _
    · rfl
    · rfl
  rw [skipExponent, hdigits]
  simp only [hd, if_true, skipDigits_append hds hrest.stops_isDigit]

theorem skipScale_append {exponent rest : List Char} (h : IsExponent exponent) (hrest : Ends rest) :
    skipScale (exponent ++ rest) = .ok rest := by
  cases h with
  | none =>
    cases rest with
    | nil => rfl
    | cons c rest =>
      have hmark : isExponentMark c = false := (hrest.head? rfl).2.2
      rw [List.nil_append, skipScale, hmark]
      rfl
  | digits hmark hsign hcs =>
    rw [List.cons_append, List.append_assoc, skipScale, hmark]
    exact skipExponent_append hsign hcs hrest

/-- What may stand behind the whole part of a number, if no point does. -/
theorem head?_exponent_append {exponent rest : List Char} (h : IsExponent exponent)
    (hrest : Ends rest) {c : Char} (hc : c ∈ (exponent ++ rest).head?) :
    c.isDigit = false ∧ c ≠ '.' := by
  cases h with
  | none => exact ⟨(hrest.head? hc).1, (hrest.head? hc).2.1⟩
  | digits hmark _ _ =>
    obtain rfl := Option.some.inj hc
    simp only [isExponentMark, Bool.or_eq_true, beq_iff_eq] at hmark
    rcases hmark with rfl | rfl <;> decide

theorem skipMagnitude_append {whole fraction exponent rest : List Char} (hwhole : IsWhole whole)
    (hfraction : IsFraction fraction) (hexponent : IsExponent exponent) (hrest : Ends rest) :
    skipMagnitude (whole ++ (fraction ++ (exponent ++ rest))) = .ok rest := by
  obtain ⟨hdigits, hzero⟩ := hwhole
  obtain ⟨d, ds, rfl, hd, hds⟩ := hdigits.exists_cons
  have hstop : Text.Stops Char.isDigit (fraction ++ (exponent ++ rest)) := by
    cases hfraction with
    | none => exact fun c hc => (head?_exponent_append hexponent hrest hc).1
    | digits _ => exact Text.stops_cons.2 (by decide)
  -- Nothing but a point or an exponent may follow a zero.
  have hnext : (decide (d = '0') && (ds ++ (fraction ++ (exponent ++ rest))).head?.any Char.isDigit)
      = false := by
    by_cases hd0 : d = '0'
    · have hds0 : ds = [] := (List.cons.inj (hzero (congrArg some hd0))).2
      rw [hds0, List.nil_append, decide_eq_true hd0, Bool.true_and]
      cases hhead : (fraction ++ (exponent ++ rest)).head? with
      | none => rfl
      | some c => exact hstop c hhead
    · rw [decide_eq_false hd0]
      rfl
  rw [List.cons_append, skipMagnitude, hd, hnext, skipDigits_append hds hstop]
  simp only [Bool.not_true, Bool.false_eq_true, if_false]
  cases hfraction with
  | digits hcs =>
    obtain ⟨e, es, rfl, he, hes⟩ := hcs.exists_cons
    have hall : ∀ c ∈ e :: es, c.isDigit = true := List.forall_mem_cons.2 ⟨he, hes⟩
    have hends : Text.Stops Char.isDigit (exponent ++ rest) :=
      fun c hc => (head?_exponent_append hexponent hrest hc).1
    simp only [List.cons_append, List.head?_cons, Option.any_some, he, if_true]
    rw [← List.cons_append, skipDigits_append hall hends]
    exact skipScale_append hexponent hrest
  | none =>
    rw [List.nil_append]
    split
    · next heq => exact absurd rfl (head?_exponent_append hexponent hrest (by rw [heq]; rfl)).2
    · exact skipScale_append hexponent hrest

theorem skipNumber_append {cs rest : List Char} (h : IsNumber cs) (hrest : Ends rest) :
    skipNumber (cs ++ rest) = .ok rest := by
  cases h with
  | @parts sign whole fraction exponent hsign hwhole hfraction hexponent =>
    have hmagnitude := skipMagnitude_append hwhole hfraction hexponent hrest
    have happend : sign ++ (whole ++ (fraction ++ exponent)) ++ rest
        = sign ++ (whole ++ (fraction ++ (exponent ++ rest))) := by simp
    rw [happend]
    simp only [List.mem_cons, List.not_mem_nil, or_false] at hsign
    rcases hsign with rfl | rfl
    · obtain ⟨d, ds, rfl, hd, -⟩ := hwhole.1.exists_cons
      rw [List.nil_append, skipNumber]
      · exact hmagnitude
      · intro _ heq
        rw [(List.cons.inj heq).1] at hd
        exact absurd hd (by decide)
    · exact hmagnitude

/-- A number begins with a digit or a minus sign. -/
theorem IsNumber.exists_cons {cs : List Char} (h : IsNumber cs) :
    ∃ c rest, cs = c :: rest ∧ (c = '-' ∨ c.isDigit = true) := by
  cases h with
  | parts hsign hwhole _ _ =>
    obtain ⟨d, ds, rfl, hd, -⟩ := hwhole.1.exists_cons
    simp only [List.mem_cons, List.not_mem_nil, or_false] at hsign
    rcases hsign with rfl | rfl
    · exact ⟨d, _, rfl, Or.inr hd⟩
    · exact ⟨'-', _, rfl, Or.inl rfl⟩

/-- A written whole number is a number. -/
theorem isNumber_toString (n : Int) : IsNumber (toString n).toList := by
  have hwhole : ∀ n : Nat, IsWhole (toString n).toList := by
    intro n
    obtain ⟨hne, hdigits, -⟩ := Text.isDigits_toString n
    refine ⟨⟨hne, hdigits⟩, fun hzero => ?_⟩
    by_cases hn : n = 0
    · rw [hn]
      rfl
    · exact absurd hzero (Text.head?_toString_ne_zero (Nat.pos_of_ne_zero hn))
  cases n with
  | ofNat n =>
    have h := IsNumber.parts (List.mem_cons_self (a := [])) (hwhole n) IsFraction.none
      IsExponent.none
    rw [List.append_nil, List.append_nil] at h
    exact h
  | negSucc n =>
    have hsign : ['-'] ∈ [[], ['-']] := by simp
    have h := IsNumber.parts hsign (hwhole (n + 1)) IsFraction.none IsExponent.none
    rw [List.append_nil, List.append_nil] at h
    rw [Text.toList_toString_negSucc]
    exact h

/-! ## Texts -/

/-- A piece of a text that stands by itself. A code may be that of a surrogate. -/
inductive IsRawChar : List Char → Prop
  | plain {c : Char} : c ≠ '"' → c ≠ '\\' → isControl c = false → IsRawChar [c]
  | short {mark : Char} : (shortEscape? mark).isSome = true → IsRawChar ['\\', mark]
  | code {n : Nat} {digits : List Char} : IsCode n digits → IsRawChar ('\\' :: 'u' :: digits)

/-- The inside of a text. -/
inductive IsRawBody : List Char → Prop
  | nil : IsRawBody []
  | cons {cs rest : List Char} : IsRawChar cs → IsRawBody rest → IsRawBody (cs ++ rest)

/-- The texts of texts with their quotation marks; what they stand for is not looked at. -/
def IsRawText (cs : List Char) : Prop := ∃ body, IsRawBody body ∧ cs = '"' :: (body ++ ['"'])

theorem skipEscape_short {mark : Char} (h : (shortEscape? mark).isSome = true) (rest : List Char) :
    skipEscape (mark :: rest) = .ok rest := by
  have hu : mark ≠ 'u' := by
    rintro rfl
    exact absurd h (by decide)
  rw [skipEscape.eq_3 mark rest hu, if_pos h]

theorem skipEscape_code {n : Nat} {cs rest : List Char} (h : readCode cs = .ok (n, rest)) :
    skipEscape ('u' :: cs) = .ok rest := by
  rw [skipEscape, h]
  rfl

/-- An escape is dropped behind its backslash. -/
theorem skipText_escape {cs rest : List Char} (h : skipEscape cs = .ok rest) :
    skipText ('\\' :: cs) = skipText rest := by
  rw [skipText]
  split
  · next hf =>
    rw [h] at hf
    cases hf
  · next hr =>
    rw [h] at hr
    cases hr
    rfl

theorem skipText_rawChar {cs : List Char} (h : IsRawChar cs) (rest : List Char) :
    skipText (cs ++ rest) = skipText rest := by
  cases h with
  | plain hquote hslash hcontrol =>
    rw [List.singleton_append, skipText.eq_4 _ _ hquote hslash, hcontrol]
    rfl
  | short hmark => exact skipText_escape (skipEscape_short hmark rest)
  | code hcode => exact skipText_escape (skipEscape_code (readCode_of_isCode hcode rest))

theorem skipText_rawBody {body : List Char} (h : IsRawBody body) (rest : List Char) :
    skipText (body ++ '"' :: rest) = .ok rest := by
  induction h with
  | nil => rw [List.nil_append, skipText]
  | cons hchar _ ih => rw [List.append_assoc, skipText_rawChar hchar, ih]

theorem IsRawBody.append {cs cs' : List Char} (h : IsRawBody cs) (h' : IsRawBody cs') :
    IsRawBody (cs ++ cs') := by
  induction h with
  | nil => exact h'
  | cons hchar _ ih =>
    rw [List.append_assoc]
    exact IsRawBody.cons hchar ih

theorem isRawBody_of_isRawChar {cs : List Char} (h : IsRawChar cs) : IsRawBody cs := by
  have hcons := IsRawBody.cons h IsRawBody.nil
  rwa [List.append_nil] at hcons

/-- A pair of surrogates is two codes one behind the other. -/
theorem isRawBody_of_spellsChar {c : Char} {cs : List Char} (h : SpellsChar c cs) :
    IsRawBody cs := by
  cases h with
  | plain hquote hslash hcontrol =>
    exact isRawBody_of_isRawChar (IsRawChar.plain hquote hslash hcontrol)
  | short hmark => exact isRawBody_of_isRawChar (IsRawChar.short (by rw [hmark]; rfl))
  | code hcode => exact isRawBody_of_isRawChar (IsRawChar.code hcode)
  | pair _ _ _ hcode hcode' =>
    have hhigh := IsRawChar.code hcode
    have hlow := isRawBody_of_isRawChar (IsRawChar.code hcode')
    simpa using IsRawBody.cons hhigh hlow

theorem isRawText_of_isText {s : String} {cs : List Char} (h : IsText s cs) : IsRawText cs := by
  have hbody : ∀ {s body : List Char}, Spells s body → IsRawBody body := by
    intro s body hspells
    induction hspells with
    | nil => exact IsRawBody.nil
    | cons hchar _ ih => exact (isRawBody_of_spellsChar hchar).append ih
  obtain ⟨body, hspells, rfl⟩ := h
  exact ⟨body, hbody hspells, rfl⟩

/-! ## Values -/

/-- The values that are neither lists nor objects. -/
inductive IsScalar : List Char → Prop
  | null : IsScalar ['n', 'u', 'l', 'l']
  | yes : IsScalar ['t', 'r', 'u', 'e']
  | no : IsScalar ['f', 'a', 'l', 's', 'e']
  | number {cs : List Char} : IsNumber cs → IsScalar cs
  | text {cs : List Char} : IsRawText cs → IsScalar cs

/-- The character that begins a list or an object. -/
def Open.opening : Open → Char
  | list => '['
  | object => '\x7b'

/-- What a text is a piece of: a value, or what stands in a list or an object behind its opening
bracket, or behind a value in it, up to its end. -/
inductive Piece
  | value
  | inside (o : Open) (filled : Bool)

/-- What stands in front of a value in a list or an object. -/
inductive Lead : (o : Open) → (filled : Bool) → List Char → Prop
  | element {filled : Bool} {sep : List Char} : Separator (!filled) sep → Lead .list filled sep
  | member {filled : Bool} {sep k b b' : List Char} : Separator (!filled) sep → IsRawText k →
      IsBlanks b → IsBlanks b' → Lead .object filled (sep ++ (k ++ (b ++ ':' :: b')))

/-- The texts of pieces. -/
inductive IsPiece : Piece → List Char → Prop
  | scalar {cs : List Char} : IsScalar cs → IsPiece .value cs
  | opened {o : Open} {cs : List Char} :
      IsPiece (.inside o false) cs → IsPiece .value (o.opening :: cs)
  | closed {o : Open} {filled : Bool} {b : List Char} :
      IsBlanks b → IsPiece (.inside o filled) (b ++ [o.close])
  | next {o : Open} {filled : Bool} {lead v cs : List Char} : Lead o filled lead →
      IsPiece .value v → IsPiece (.inside o true) cs → IsPiece (.inside o filled) (lead ++ (v ++ cs))

/-- The texts of values. -/
abbrev IsValue : List Char → Prop := IsPiece .value

/-! ## Going past what is open -/

theorem skipBlanks_append_of_isBlanks {b : List Char} (hb : IsBlanks b) (cs : List Char) :
    skipBlanks (b ++ cs) = skipBlanks cs :=
  List.dropWhile_append_of_pos hb

theorem skipBlanks_cons {c : Char} (hc : isBlank c = false) (cs : List Char) :
    skipBlanks (c :: cs) = c :: cs :=
  skipBlanks_append isBlanks_nil hc cs

theorem skipBlanks_skipBlanks (cs : List Char) : skipBlanks (skipBlanks cs) = skipBlanks cs := by
  have hnone : IsBlanks [] := isBlanks_nil
  exact Text.dropWhile_of_stops hnone (Text.stops_dropWhile isBlank cs)

/-- Drops what stands from a place on up to the ends of all that is open. -/
def skipInside (stack : List Open) (filled : Bool) (cs : List Char) : Except Fault (List Char) :=
  match skipToNext stack filled cs with
  | .error f => .error f
  | .ok (.done rest) => .ok rest
  | .ok (.value stack rest) => skipNested stack rest

theorem skipNested_nil (stack : List Open) {cs : List Char} (h : skipBlanks cs = []) :
    skipNested stack cs = .error (.atEnd .endInValue) := by
  unfold skipNested
  split <;> simp_all

theorem skipNested_opening (o : Open) (stack : List Open) {cs rest : List Char}
    (h : skipBlanks cs = o.opening :: rest) :
    skipNested stack cs = skipInside (o :: stack) false rest := by
  unfold skipNested skipInside
  cases o <;> (split <;> simp_all [Open.opening]) <;> (split <;> simp_all)

theorem skipNested_scalar (stack : List Open) {cs rest : List Char} {c : Char}
    (h : skipBlanks cs = c :: rest) (hlist : c ≠ '[') (hobject : c ≠ '\x7b') :
    skipNested stack cs = skipScalar (c :: rest) >>= skipInside stack true := by
  unfold skipNested
  split
  · next heq =>
    rw [h] at heq
    cases heq
  · next heq =>
    rw [h] at heq
    exact absurd (List.cons.inj heq).1 hlist
  · next heq =>
    rw [h] at heq
    exact absurd (List.cons.inj heq).1 hobject
  · next heq =>
    rw [h] at heq
    cases heq
    split
    · next hs => rw [hs]; rfl
    · next hs =>
      rw [hs]
      show _ = skipInside stack true _
      unfold skipInside
      split <;> simp_all

/-- A step with more that is open further out. -/
def SkipStep.further (outer : List Open) : SkipStep → Except Fault SkipStep
  | .value stack rest => .ok (.value (stack ++ outer) rest)
  | .done rest => skipToNext outer true rest

theorem skipToNext_append (outer : List Open) : ∀ (inner : List Open) (filled : Bool)
    (cs : List Char), inner ≠ [] ∨ filled = true →
      skipToNext (inner ++ outer) filled cs = skipToNext inner filled cs >>= SkipStep.further outer
  | [], filled, cs, h => by
    obtain rfl : filled = true := by simpa using h
    rfl
  | o :: inner, filled, cs, _ => by
    rw [List.cons_append, skipToNext, skipToNext]
    cases skipBlanks cs with
    | nil => rfl
    | cons c rest =>
      simp only []
      split
      · exact skipToNext_append outer inner true rest (Or.inr rfl)
      · split
        · cases skipToValue o (c :: rest) <;> rfl
        · split
          · cases skipToValue o rest <;> rfl
          · rfl

theorem skipInside_append_of_nested {inner outer : List Open} {filled : Bool} {cs : List Char}
    (hnested : ∀ stack rest, rest.length ≤ cs.length →
      skipNested (stack ++ outer) rest = skipNested stack rest >>= skipInside outer true)
    (h : inner ≠ [] ∨ filled = true) :
    skipInside (inner ++ outer) filled cs = skipInside inner filled cs >>= skipInside outer true := by
  unfold skipInside
  rw [skipToNext_append outer inner filled cs h]
  cases hstep : skipToNext inner filled cs with
  | error f => rfl
  | ok step =>
    have hlength := skipToNext_length hstep
    cases step with
    | value stack rest => exact hnested stack rest hlength
    | done rest => rfl

/-- **What is open further out does not matter to what is dropped.** -/
theorem skipNested_append (inner outer : List Open) (cs : List Char) :
    skipNested (inner ++ outer) cs = skipNested inner cs >>= skipInside outer true := by
  induction hn : cs.length using Nat.strongRecOn generalizing inner cs with
  | ind n ih =>
    have hblanks : (skipBlanks cs).length ≤ n := hn ▸ skipBlanks_length cs
    -- Behind the first character less is left than there was.
    have hinside : ∀ {inner : List Open} {filled : Bool} {rest : List Char}, rest.length < n →
        inner ≠ [] ∨ filled = true → skipInside (inner ++ outer) filled rest
          = skipInside inner filled rest >>= skipInside outer true :=
      fun hlt => skipInside_append_of_nested fun stack rest' hle =>
        ih _ (Nat.lt_of_le_of_lt hle hlt) stack rest' rfl
    cases h : skipBlanks cs with
    | nil =>
      rw [skipNested_nil _ h, skipNested_nil _ h]
      rfl
    | cons c rest =>
      rw [h, List.length_cons] at hblanks
      have hopening : ∀ o : Open, c = o.opening → skipNested (inner ++ outer) cs
          = skipNested inner cs >>= skipInside outer true := by
        rintro o rfl
        rw [skipNested_opening o _ h, skipNested_opening o _ h, ← List.cons_append]
        exact hinside hblanks (Or.inl (List.cons_ne_nil _ _))
      by_cases hlist : c = '['
      · exact hopening .list hlist
      by_cases hobject : c = '\x7b'
      · exact hopening .object hobject
      rw [skipNested_scalar _ h hlist hobject, skipNested_scalar _ h hlist hobject]
      cases hs : skipScalar (c :: rest) with
      | error f => rfl
      | ok rest' =>
        have hscalar := skipScalar_length hs
        rw [List.length_cons] at hscalar
        exact hinside (Nat.lt_of_lt_of_le hscalar hblanks) (Or.inr rfl)

/-! ## Going past one list or object -/

theorem skipNested_singleton (o : Open) (cs : List Char) :
    skipNested [o] cs = skipValue cs >>= skipInside [o] true :=
  skipNested_append [] [o] cs

/-- Blanks in front of a value do not matter. -/
theorem skipNested_congr (stack : List Open) {cs cs' : List Char}
    (hsame : skipBlanks cs = skipBlanks cs') : skipNested stack cs = skipNested stack cs' := by
  cases h : skipBlanks cs' with
  | nil =>
    rw [h] at hsame
    rw [skipNested_nil _ h, skipNested_nil _ hsame]
  | cons c rest =>
    rw [h] at hsame
    by_cases hlist : c = '['
    · subst hlist
      rw [skipNested_opening .list _ h, skipNested_opening .list _ hsame]
    by_cases hobject : c = '\x7b'
    · subst hobject
      rw [skipNested_opening .object _ h, skipNested_opening .object _ hsame]
    rw [skipNested_scalar _ h hlist hobject, skipNested_scalar _ hsame hlist hobject]

theorem skipNested_blanks (stack : List Open) {b : List Char} (hb : IsBlanks b) (cs : List Char) :
    skipNested stack (b ++ cs) = skipNested stack cs :=
  skipNested_congr stack (skipBlanks_append_of_isBlanks hb cs)

theorem skipInside_close {o : Open} {filled : Bool} {cs rest : List Char}
    (h : skipBlanks cs = o.close :: rest) : skipInside [o] filled cs = .ok rest := by
  rw [skipInside, skipToNext, h]
  simp only [if_true]
  rfl

/-- The first value in a list or an object. -/
theorem skipInside_first {o : Open} {cs rest rest' : List Char} {c : Char}
    (h : skipBlanks cs = c :: rest) (hc : c ≠ o.close)
    (hvalue : skipToValue o (c :: rest) = .ok rest') :
    skipInside [o] false cs = skipNested [o] rest' := by
  rw [skipInside, skipToNext, h]
  simp only [if_neg hc, Bool.not_false, if_true, hvalue]
  rfl

/-- A further value in a list or an object. -/
theorem skipInside_further {o : Open} {cs rest rest' : List Char} (h : skipBlanks cs = ',' :: rest)
    (hvalue : skipToValue o rest = .ok rest') :
    skipInside [o] true cs = skipNested [o] rest' := by
  have hc : ',' ≠ o.close := by cases o <;> decide
  rw [skipInside, skipToNext, h]
  simp only [if_neg hc, Bool.not_true, Bool.false_eq_true, if_false, if_true, hvalue]
  rfl

/-! ## Going past values -/

theorem IsScalar.exists_cons {cs : List Char} (h : IsScalar cs) :
    ∃ c rest, cs = c :: rest ∧ isBlank c = false ∧ c ≠ '[' ∧ c ≠ ']' ∧ c ≠ '\x7b' := by
  cases h with
  | null => exact ⟨'n', _, rfl, by decide⟩
  | yes => exact ⟨'t', _, rfl, by decide⟩
  | no => exact ⟨'f', _, rfl, by decide⟩
  | number h =>
    obtain ⟨c, rest, rfl, hc⟩ := h.exists_cons
    refine ⟨c, rest, rfl, (number_head hc).1, ?_, ?_, ?_⟩ <;>
      (rintro rfl; exact absurd hc (by decide))
  | text h =>
    obtain ⟨body, -, rfl⟩ := h
    exact ⟨'"', _, rfl, by decide⟩

/-- A value begins with no blank and no closing bracket. -/
theorem exists_cons_of_isValue {v : List Char} (h : IsValue v) :
    ∃ c cs, v = c :: cs ∧ isBlank c = false ∧ c ≠ ']' := by
  cases h with
  | scalar h =>
    obtain ⟨c, rest, rfl, hblank, -, hclose, -⟩ := h.exists_cons
    exact ⟨c, rest, rfl, hblank, hclose⟩
  | @opened o cs _ => exact ⟨o.opening, cs, rfl, by cases o <;> decide⟩

theorem skipScalar_number {c : Char} (hc : c = '-' ∨ c.isDigit = true) (cs : List Char) :
    skipScalar (c :: cs) = skipNumber (c :: cs) := by
  have hstart := (number_head hc).2.2
  rw [skipScalar.eq_6]
  · rw [if_pos (by simpa using hstart)]
  all_goals
    rintro rfl
    exact absurd hc (by decide)

theorem skipScalar_append {cs rest : List Char} (h : IsScalar cs) (hrest : Ends rest) :
    skipScalar (cs ++ rest) = .ok rest := by
  cases h with
  | null => rfl
  | yes => rfl
  | no => rfl
  | number h =>
    have hskip := skipNumber_append h hrest
    obtain ⟨c, tail, rfl, hc⟩ := h.exists_cons
    rw [List.cons_append] at hskip ⊢
    rw [skipScalar_number hc, hskip]
  | text h =>
    obtain ⟨body, hbody, rfl⟩ := h
    have hskip := skipText_rawBody hbody rest
    have happend : '"' :: (body ++ ['"']) ++ rest = '"' :: (body ++ '"' :: rest) := by simp
    rw [happend]
    exact hskip

theorem skipKey_append {a k b rest : List Char} (ha : IsBlanks a) (hk : IsRawText k)
    (hb : IsBlanks b) : skipKey (a ++ (k ++ (b ++ ':' :: rest))) = .ok rest := by
  obtain ⟨body, hbody, rfl⟩ := hk
  have happend : '"' :: (body ++ ['"']) ++ (b ++ ':' :: rest)
      = '"' :: (body ++ '"' :: (b ++ ':' :: rest)) := by simp
  rw [happend, skipKey, skipBlanks_append ha (by decide)]
  simp only [skipText_rawBody hbody, skipBlanks_append hb (show isBlank ':' = false from rfl)]

/-- In front of a value stands what is dropped to get to it. -/
theorem skipInside_lead {o : Open} {filled : Bool} {lead v : List Char}
    (hlead : Lead o filled lead) (hv : IsValue v) (rest : List Char) :
    skipInside [o] filled (lead ++ (v ++ rest)) = skipNested [o] (v ++ rest) := by
  cases hlead with
  | element hsep =>
    obtain ⟨c, cs, rfl, hblank, hclose⟩ := exists_cons_of_isValue hv
    cases filled with
    | false =>
      cases hsep with
      | first hb => exact skipInside_first (skipBlanks_append hb hblank _) hclose rfl
    | true =>
      cases hsep with
      | next hb hb' =>
        rw [List.append_assoc, List.cons_append,
          skipInside_further (skipBlanks_append hb (show isBlank ',' = false from rfl) _) rfl]
        exact skipNested_blanks _ hb' _
  | @member _ sep k b b' hsep hk hb hb' =>
    have happend : ∀ a, a ++ (k ++ (b ++ ':' :: b')) ++ (v ++ rest)
        = a ++ (k ++ (b ++ ':' :: (b' ++ (v ++ rest)))) := by simp
    rw [happend]
    cases filled with
    | false =>
      cases hsep with
      | first ha =>
        have hkey : skipToValue .object (k ++ (b ++ ':' :: (b' ++ (v ++ rest)))) = _ :=
          skipKey_append isBlanks_nil hk hb
        obtain ⟨body, -, rfl⟩ := hk
        have hquote := skipBlanks_append ha (show isBlank '"' = false from rfl)
          (body ++ ['"'] ++ (b ++ ':' :: (b' ++ (v ++ rest))))
        exact (skipInside_first hquote (by decide) hkey).trans (skipNested_blanks _ hb' _)
    | true =>
      cases hsep with
      | @next a a' ha ha' =>
        have hkey : skipToValue .object (a' ++ (k ++ (b ++ ':' :: (b' ++ (v ++ rest))))) = _ :=
          skipKey_append ha' hk hb
        have hcomma := skipBlanks_append ha (show isBlank ',' = false from rfl)
          (a' ++ (k ++ (b ++ ':' :: (b' ++ (v ++ rest)))))
        rw [List.append_assoc, List.cons_append]
        exact (skipInside_further hcomma hkey).trans (skipNested_blanks _ hb' _)

/-- What comes behind a value in a list or an object ends it. -/
theorem ends_of_isPiece {o : Open} {cs : List Char} (h : IsPiece (.inside o true) cs)
    (rest : List Char) : Ends (cs ++ rest) := by
  have hsep : ∀ {sep : List Char}, Separator false sep → ∀ rest, Ends (sep ++ rest) := by
    intro sep hsep rest
    cases hsep with
    | next hb _ =>
      rw [List.append_assoc]
      exact ends_blanks_append hb (ends_cons (Or.inr (Or.inl rfl)))
  cases h with
  | closed hb =>
    rw [List.append_assoc]
    refine ends_blanks_append hb (ends_cons (Or.inr (Or.inr ?_)))
    cases o with
    | list => exact Or.inl rfl
    | object => exact Or.inr rfl
  | next hlead _ _ =>
    rw [List.append_assoc]
    cases hlead with
    | element h => exact hsep h _
    | member h _ _ _ =>
      rw [List.append_assoc]
      exact hsep h _

/-- What is dropped of a piece is all of it. -/
def Piece.Skips : Piece → List Char → Prop
  | .value, cs => ∀ rest, Ends rest → skipValue (cs ++ rest) = .ok rest
  | .inside o filled, cs => ∀ rest, skipInside [o] filled (cs ++ rest) = .ok rest

theorem skips_of_isPiece {p : Piece} {cs : List Char} (h : IsPiece p cs) : p.Skips cs := by
  induction h with
  | scalar h =>
    intro rest hrest
    have hskip := skipScalar_append h hrest
    obtain ⟨c, tail, rfl, hblank, hlist, -, hobject⟩ := h.exists_cons
    rw [List.cons_append] at hskip ⊢
    rw [skipValue, skipNested_scalar [] (skipBlanks_cons hblank _) hlist hobject, hskip]
    rfl
  | @opened o cs _ ih =>
    intro rest _
    have hopening : isBlank o.opening = false := by cases o <;> rfl
    rw [List.cons_append, skipValue, skipNested_opening o [] (skipBlanks_cons hopening _)]
    exact ih rest
  | @closed o filled b hb =>
    intro rest
    have hclose : isBlank o.close = false := by cases o <;> rfl
    rw [List.append_assoc]
    exact skipInside_close (skipBlanks_append hb hclose rest)
  | @next o filled lead v cs hlead hv hcs ihv ihcs =>
    intro rest
    rw [List.append_assoc, List.append_assoc, skipInside_lead hlead hv, skipNested_singleton,
      ihv _ (ends_of_isPiece hcs rest)]
    exact ihcs rest

/-- **Skipping drops a value and no more**, whatever follows it. -/
theorem skipValue_of_isValue {b v rest : List Char} (hb : IsBlanks b) (hv : IsValue v)
    (hrest : Ends rest) : skipValue (b ++ (v ++ rest)) = .ok rest := by
  rw [skipValue, skipNested_blanks [] hb]
  exact skips_of_isPiece hv rest hrest

end LibraryRegistry.Json
