import LibraryRegistry.Proofs.Text.Prefix
import LibraryRegistry.Text.Hexadecimal
import LibraryRegistry.Text.Quoted

/-!
# Reading quoted texts

A quoted text stays on its line: whatever text it is made of, there is no control character in it.
Nothing is lost for that, it tells which text it was made of.

* `controls_quote` — no control characters
* `quote_inj` — quoted texts tell texts apart
-/

namespace LibraryRegistry.Text

/-! ## Control characters -/

/-- A control character, of ASCII or behind it. -/
def isControlCode (c : Char) : Bool := c.toNat ≤ 0x1F || (0x7F ≤ c.toNat && c.toNat ≤ 0x9F)

/-- The control characters of a text, one after the other. -/
def controls (s : String) : List Char := s.toList.filter isControlCode

@[simp]
theorem controls_append (s t : String) : controls (s ++ t) = controls s ++ controls t := by
  rw [controls, String.toList_append, List.filter_append]
  rfl

theorem controls_eq_nil_iff {s : String} :
    controls s = [] ↔ ∀ c ∈ s.toList, isControlCode c = false := by
  simp [controls, List.filter_eq_nil_iff]

theorem controls_ofList {cs : List Char} (h : cs.all (fun c => !isControlCode c) = true) :
    controls (String.ofList cs) = [] := by
  rw [controls_eq_nil_iff, String.toList_ofList]
  intro c hc
  simpa using List.all_eq_true.1 h c hc

/-- Characters of a kind are no control characters if none of these is of the kind. -/
theorem isControlCode_of_kind {p : Char → Bool}
    (hp : ∀ n < 0xA0, isControlCode (Char.ofNat n) = true → p (Char.ofNat n) = false) {c : Char}
    (h : p c = true) : isControlCode c = false := by
  refine Bool.eq_false_iff.2 fun hcontrol => ?_
  have hle : c.toNat < 0xA0 := by
    simp only [isControlCode, Bool.or_eq_true, Bool.and_eq_true, decide_eq_true_eq] at hcontrol
    omega
  have hnot := hp c.toNat hle
  rw [Char.ofNat_toNat, h] at hnot
  cases hnot hcontrol

/-- The table of unprintable characters begins with the control characters. -/
theorem isHidden_of_isControlCode {c : Char} (h : isControlCode c = true) : isHidden c = true := by
  have hranges : ∃ rest, Unprintable.ranges = (0x0, 0x1F) :: (0x7F, 0xA0) :: rest := ⟨_, rfl⟩
  obtain ⟨rest, hrest⟩ := hranges
  have hunprintable : isUnprintable c = true := by
    rw [isControlCode, Bool.or_eq_true, Bool.and_eq_true] at h
    simp only [decide_eq_true_eq] at h
    rw [isUnprintable, hrest, inRanges]
    split
    · exact decide_eq_true (Nat.zero_le _)
    · next hlow =>
      have hhigh : 0x7F ≤ c.toNat ∧ c.toNat ≤ 0x9F := h.resolve_left hlow
      rw [inRanges, if_pos (Nat.le_trans hhigh.2 (by decide))]
      exact decide_eq_true hhigh.1
  rw [isHidden, hunprintable, Bool.or_true]

/-! ## Codes of characters -/

theorem isHexDigit_digitChar {d : Nat} (h : d < 16) : isHexDigit (Nat.digitChar d) = true := by
  have hall : ∀ d < 16, isHexDigit (Nat.digitChar d) = true := by decide
  exact hall d h

theorem isHexDigit_of_mem_toDigits {n : Nat} :
    ∀ c ∈ Nat.toDigits 16 n, isHexDigit c = true := by
  induction n using Nat.strongRecOn with
  | ind n ih =>
    by_cases hlt : n < 16
    · rw [Nat.toDigits_of_lt_base hlt]
      exact List.forall_mem_singleton.2 (isHexDigit_digitChar hlt)
    · rw [Nat.toDigits_of_base_le (by decide) (Nat.le_of_not_lt hlt)]
      intro c hc
      rcases List.mem_append.1 hc with hc | hc
      · exact ih (n / 16) (by omega) c hc
      · rw [List.mem_singleton.1 hc]
        exact isHexDigit_digitChar (Nat.mod_lt n (by decide))

theorem ofHex?_concat {cs : List Char} {n d : Nat} (hcs : ofHex? cs = some n) (hd : d < 16) :
    ofHex? (cs ++ [Nat.digitChar d]) = some (16 * n + d) := by
  have hvalue : ∀ d < 16, hexValue? (Nat.digitChar d) = some d := by decide
  rw [ofHex?] at hcs ⊢
  rw [List.foldlM_append, hcs]
  simp [hvalue d hd]

/-- Hexadecimal digits are read back. -/
theorem ofHex?_toDigits (n : Nat) : ofHex? (Nat.toDigits 16 n) = some n := by
  induction n using Nat.strongRecOn with
  | ind n ih =>
    by_cases hlt : n < 16
    · rw [Nat.toDigits_of_lt_base hlt]
      have h := ofHex?_concat (rfl : ofHex? [] = some 0) hlt
      rwa [Nat.mul_zero, Nat.zero_add] at h
    · rw [Nat.toDigits_of_base_le (by decide) (Nat.le_of_not_lt hlt),
        ofHex?_concat (ih (n / 16) (by omega)) (Nat.mod_lt n (by decide)), Nat.div_add_mod]

/-! ## Characters -/

/-- The short escapes. -/
def shortEscapes : List (Char × Char) :=
  [('\x00', '0'), ('\t', 't'), ('\r', 'r'), ('\n', 'n'), ('\\', '\\'), ('"', '"')]

/-- What a character is written as between quotation marks. -/
inductive Quotes (c : Char) : List Char → Prop
  | short {e : Char} : (c, e) ∈ shortEscapes → Quotes c ['\\', e]
  | code : Quotes c (codeEscape c)
  | plain : c ≠ '\\' → c ≠ '"' → isHidden c = false → Quotes c [c]

theorem quotes_quoteChar (c : Char) : Quotes c (quoteChar c) := by
  rw [quoteChar]
  split
  · next h => exact .short (by rw [h]; decide)
  split
  · next h => exact .short (by rw [h]; decide)
  split
  · next h => exact .short (by rw [h]; decide)
  split
  · next h => exact .short (by rw [h]; decide)
  split
  · next h => exact .short (by rw [h]; decide)
  split
  · next h => exact .short (by rw [h]; decide)
  split
  · exact .code
  · next hbackslash hmark hhidden => exact .plain hbackslash hmark (Bool.eq_false_iff.2 hhidden)

theorem isControlCode_of_isHexDigit {c : Char} (h : isHexDigit c = true) :
    isControlCode c = false :=
  isControlCode_of_kind (by decide +kernel) h

/-- A code ends at its brace. -/
theorem codeEscape_inj {c d : Char} {rest rest' : List Char}
    (h : codeEscape c ++ rest = codeEscape d ++ rest') : c = d ∧ rest = rest' := by
  simp only [codeEscape, List.cons_append, List.append_assoc, List.cons.injEq, true_and] at h
  have hstops : ∀ cs : List Char, Stops isHexDigit ('\x7d' :: cs) := fun _ => stops_cons.2 (by decide)
  obtain ⟨hdigits, hrest⟩ := append_inj_of_stops isHexDigit_of_mem_toDigits
    isHexDigit_of_mem_toDigits (hstops _) (hstops _) h
  have hcode := ofHex?_toDigits c.toNat
  rw [hdigits, ofHex?_toDigits] at hcode
  exact ⟨Char.toNat_inj.1 (Option.some.inj hcode).symm, (List.cons.inj hrest).2⟩

namespace Quotes

variable {c d : Char} {cs ds rest rest' : List Char}

theorem isControlCode_eq_false (h : Quotes c cs) : ∀ x ∈ cs, isControlCode x = false := by
  cases h with
  | @short e he =>
    have hall : ∀ p ∈ shortEscapes, isControlCode p.2 = false := by decide
    exact List.forall_mem_cons.2 ⟨by decide, List.forall_mem_singleton.2 (hall _ he)⟩
  | code =>
    intro x hx
    simp only [codeEscape, List.mem_cons, List.mem_append, List.not_mem_nil, or_false] at hx
    rcases hx with rfl | rfl | rfl | hx | rfl
    · decide
    · decide
    · decide
    · exact isControlCode_of_isHexDigit (isHexDigit_of_mem_toDigits x hx)
    · decide
  | plain _ _ hhidden =>
    refine List.forall_mem_singleton.2 (Bool.eq_false_iff.2 fun hcontrol => ?_)
    rw [isHidden_of_isControlCode hcontrol] at hhidden
    cases hhidden

/-- Nothing that stands for a character begins with a quotation mark. -/
theorem exists_cons (h : Quotes c cs) : ∃ x xs, cs = x :: xs ∧ x ≠ '"' := by
  cases h with
  | @short e he => exact ⟨'\\', [e], rfl, by decide⟩
  | code => exact ⟨'\\', _, rfl, by decide⟩
  | plain _ hmark _ => exact ⟨c, [], rfl, hmark⟩

/-- What stands for a character tells the character, and ends where nothing else would. -/
theorem append_inj (h : Quotes c cs) (h' : Quotes d ds) (heq : cs ++ rest = ds ++ rest') :
    c = d ∧ rest = rest' := by
  have hshort : ∀ p ∈ shortEscapes, p.2 ≠ 'u' ∧ ∀ q ∈ shortEscapes, p.2 = q.2 → p.1 = q.1 := by
    decide
  cases h with
  | @short e he =>
    cases h' with
    | @short e' he' =>
      simp only [List.cons_append, List.nil_append, List.cons.injEq, true_and] at heq
      exact ⟨(hshort _ he).2 _ he' heq.1, heq.2⟩
    | code =>
      simp only [codeEscape, List.cons_append, List.cons.injEq, true_and] at heq
      exact absurd heq.1 (hshort _ he).1
    | plain hbackslash _ _ => exact absurd (List.cons.inj heq).1.symm hbackslash
  | code =>
    cases h' with
    | @short e' he' =>
      simp only [codeEscape, List.cons_append, List.cons.injEq, true_and] at heq
      exact absurd heq.1.symm (hshort _ he').1
    | code => exact codeEscape_inj heq
    | plain hbackslash _ _ => exact absurd (List.cons.inj heq).1.symm hbackslash
  | plain hbackslash _ _ =>
    cases h' with
    | short _ => exact absurd (List.cons.inj heq).1 hbackslash
    | code => exact absurd (List.cons.inj heq).1 hbackslash
    | plain _ _ _ => exact List.cons.inj heq

end Quotes

/-! ## Texts -/

theorem toList_quote (s : String) :
    (quote s).toList = '"' :: (s.toList.flatMap quoteChar ++ ['"']) :=
  String.toList_ofList

/-- **A quoted text has no control characters**, whatever text it is made of. -/
theorem controls_quote (s : String) : controls (quote s) = [] := by
  have hmark : isControlCode '"' = false := by decide
  rw [controls_eq_nil_iff, toList_quote]
  intro x hx
  rcases List.mem_cons.1 hx with rfl | hx
  · exact hmark
  rcases List.mem_append.1 hx with hx | hx
  · obtain ⟨c, -, hc⟩ := List.mem_flatMap.1 hx
    exact (quotes_quoteChar c).isControlCode_eq_false x hc
  · rw [List.mem_singleton.1 hx]
    exact hmark

example : quote "\x1b\"é" = "\"\\u\x7b1b\x7d\\\"é\"" := by decide

/-- Nothing but the end of a text is written as the closing quotation mark. -/
theorem flatMap_quoteChar_inj : ∀ {cs ds : List Char},
    cs.flatMap quoteChar ++ ['"'] = ds.flatMap quoteChar ++ ['"'] → cs = ds
  | [], [], _ => rfl
  | [], d :: ds, h => by
    obtain ⟨x, xs, hx, hne⟩ := (quotes_quoteChar d).exists_cons
    rw [List.flatMap_cons, hx] at h
    exact absurd (List.cons.inj h).1.symm hne
  | c :: cs, [], h => by
    obtain ⟨x, xs, hx, hne⟩ := (quotes_quoteChar c).exists_cons
    rw [List.flatMap_cons, hx] at h
    exact absurd (List.cons.inj h).1 hne
  | c :: cs, d :: ds, h => by
    rw [List.flatMap_cons, List.flatMap_cons, List.append_assoc, List.append_assoc] at h
    obtain ⟨rfl, hrest⟩ := (quotes_quoteChar c).append_inj (quotes_quoteChar d) h
    rw [flatMap_quoteChar_inj hrest]

/-- **Quoted texts tell texts apart.** -/
theorem quote_inj {s t : String} : quote s = quote t ↔ s = t := by
  constructor
  · intro h
    have hlist := congrArg String.toList h
    rw [toList_quote, toList_quote] at hlist
    exact String.toList_inj.1 (flatMap_quoteChar_inj (List.cons.inj hlist).2)
  · rintro rfl
    rfl

end LibraryRegistry.Text
