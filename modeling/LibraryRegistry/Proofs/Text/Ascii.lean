import LibraryRegistry.Text.Hexadecimal
import LibraryRegistry.Text.Utf8

/-!
# ASCII texts

The UTF-8 bytes of an ASCII text are its characters one by one, and in any text an ASCII byte is a
character of its own.

* `utf8_ofList_ascii`, `utf8ByteSize_of_ascii` — the bytes of an ASCII text, and how many they are
* `asciiByte_mem_utf8_iff`, `exists_split_iff` — ASCII bytes among those of a text
* `toNat_lt_of_hexValue?` — hexadecimal digits are ASCII
-/

namespace LibraryRegistry.Text

theorem utf8_ofList (cs : List Char) :
    utf8 (String.ofList cs) = cs.flatMap String.utf8EncodeChar := by
  rw [utf8, String.toByteArray_ofList, List.utf8Encode, List.toList_data_toByteArray]

/-- The byte of an ASCII character. -/
def asciiByte (c : Char) : UInt8 := UInt8.ofNat c.toNat

theorem toNat_asciiByte {c : Char} (h : c.toNat < 128) : (asciiByte c).toNat = c.toNat := by
  rw [asciiByte, UInt8.toNat_ofNat', Nat.mod_eq_of_lt (by omega)]

theorem utf8EncodeChar_ascii {c : Char} (h : c.toNat < 128) :
    String.utf8EncodeChar c = [asciiByte c] := by
  have hle : c.val.toNat ≤ 0x7f := Nat.le_of_lt_succ h
  rw [String.utf8EncodeChar]
  exact if_pos hle

theorem utf8_ofList_ascii : ∀ cs : List Char, (∀ c ∈ cs, c.toNat < 128) →
    utf8 (String.ofList cs) = cs.map asciiByte
  | [], _ => rfl
  | c :: cs, h => by
    have ih := utf8_ofList_ascii cs fun d hd => h d (List.mem_cons_of_mem _ hd)
    rw [utf8_ofList] at ih ⊢
    rw [List.flatMap_cons, utf8EncodeChar_ascii (h c List.mem_cons_self), ih, List.map_cons,
      List.singleton_append]

/-- An ASCII text has a byte a character. -/
theorem utf8ByteSize_of_ascii {s : String} (h : ∀ c ∈ s.toList, c.toNat < 128) :
    s.utf8ByteSize = s.toList.length := by
  have hbytes := utf8_ofList_ascii s.toList h
  rw [String.ofList_toList] at hbytes
  rw [← length_utf8, hbytes, List.length_map]

theorem toNat_ofNat_ascii {n : Nat} (h : n < 128) : (Char.ofNat n).toNat = n := by
  have hv : n.isValidChar := Or.inl (by omega)
  rw [Char.ofNat, dif_pos hv]
  rfl

theorem asciiByte_ofNat {b : UInt8} (h : b.toNat < 128) : asciiByte (Char.ofNat b.toNat) = b := by
  rw [asciiByte, toNat_ofNat_ascii h, UInt8.ofNat_toNat]

theorem exists_asciiByte_eq {b : UInt8} (h : b.toNat < 128) :
    ∃ c : Char, c.toNat < 128 ∧ asciiByte c = b := by
  refine ⟨Char.ofNat b.toNat, ?_, asciiByte_ofNat h⟩
  rw [toNat_ofNat_ascii h]
  exact h

theorem ofNat_toNat_asciiByte {c : Char} (h : c.toNat < 128) :
    Char.ofNat (asciiByte c).toNat = c := by
  rw [toNat_asciiByte h, Char.ofNat_toNat]

/-! ## ASCII bytes among those of a text -/

/-- Characters that are not ASCII are written without ASCII bytes. -/
theorem le_toNat_of_mem_utf8EncodeChar {c : Char} (h : 128 ≤ c.toNat) {b : UInt8}
    (hb : b ∈ String.utf8EncodeChar c) : 128 ≤ b.toNat := by
  have hc : ¬ c.val.toNat ≤ 0x7f := fun hle => absurd h (Nat.not_le.2 (Nat.lt_succ_of_le hle))
  have hhigh : ∀ n, 128 ≤ n → n < 256 → 128 ≤ (UInt8.ofNat n).toNat := by
    intro n hle hlt
    rw [UInt8.toNat_ofNat', Nat.mod_eq_of_lt hlt]
    exact hle
  rw [String.utf8EncodeChar] at hb
  simp only [hc, if_false] at hb
  split at hb
  · simp only [List.mem_cons, List.not_mem_nil, or_false] at hb
    rcases hb with rfl | rfl <;> exact hhigh _ (by omega) (by omega)
  split at hb
  · simp only [List.mem_cons, List.not_mem_nil, or_false] at hb
    rcases hb with rfl | rfl | rfl <;> exact hhigh _ (by omega) (by omega)
  · simp only [List.mem_cons, List.not_mem_nil, or_false] at hb
    rcases hb with rfl | rfl | rfl | rfl <;> exact hhigh _ (by omega) (by omega)

theorem utf8_ofList_cons (c : Char) (cs : List Char) :
    utf8 (String.ofList (c :: cs)) = String.utf8EncodeChar c ++ utf8 (String.ofList cs) := by
  rw [utf8_ofList, utf8_ofList, List.flatMap_cons]

theorem utf8_ofList_append (cs ds : List Char) :
    utf8 (String.ofList (cs ++ ds)) = utf8 (String.ofList cs) ++ utf8 (String.ofList ds) := by
  rw [utf8_ofList, utf8_ofList, utf8_ofList, List.flatMap_append]

/-- A byte that is not among the first ones stands behind them. -/
theorem exists_append_of_not_mem {own rest front back : List UInt8} {b : UInt8} (hb : b ∉ own)
    (h : own ++ rest = front ++ b :: back) :
    ∃ front', front = own ++ front' ∧ rest = front' ++ b :: back := by
  rcases List.append_eq_append_iff.1 h with ⟨front', hfront, hrest⟩ | ⟨left, hown, hrest⟩
  · exact ⟨front', hfront, hrest⟩
  cases left with
  | nil =>
    rw [List.append_nil] at hown
    exact ⟨[], by rw [hown, List.append_nil], hrest.symm⟩
  | cons d left =>
    obtain ⟨rfl, -⟩ := List.cons.inj hrest
    refine absurd ?_ hb
    rw [hown]
    exact List.mem_append_right _ List.mem_cons_self

/-- **An ASCII byte is a character of its own**, and what is in front of it are characters, too. -/
theorem exists_char_of_utf8_eq_append {b : UInt8} (hb : b.toNat < 128) :
    ∀ {cs : List Char} {front back : List UInt8}, utf8 (String.ofList cs) = front ++ b :: back →
      ∃ before c after, cs = before ++ c :: after ∧ front = utf8 (String.ofList before) ∧
        c.toNat < 128 ∧ asciiByte c = b
  | [], front, back, h => by
    rw [utf8_ofList, List.flatMap_nil] at h
    exact absurd h.symm (List.append_ne_nil_of_right_ne_nil _ (List.cons_ne_nil _ _))
  | c :: cs, front, back, h => by
    rw [utf8_ofList_cons] at h
    by_cases hc : c.toNat < 128
    · rw [utf8EncodeChar_ascii hc, List.singleton_append] at h
      cases front with
      | nil =>
        obtain ⟨hbyte, -⟩ := List.cons.inj h
        exact ⟨[], c, cs, rfl, rfl, hc, hbyte⟩
      | cons d front =>
        obtain ⟨rfl, hrest⟩ := List.cons.inj h
        obtain ⟨before, e, after, rfl, rfl, he, hbyte⟩ := exists_char_of_utf8_eq_append hb hrest
        refine ⟨c :: before, e, after, rfl, ?_, he, hbyte⟩
        rw [utf8_ofList_cons, utf8EncodeChar_ascii hc]
        rfl
    · -- The byte is behind those of the first character.
      have hnot : b ∉ String.utf8EncodeChar c := fun hmem =>
        absurd hb (Nat.not_lt.2 (le_toNat_of_mem_utf8EncodeChar (Nat.le_of_not_lt hc) hmem))
      obtain ⟨front, rfl, hrest⟩ := exists_append_of_not_mem hnot h
      obtain ⟨before, e, after, rfl, rfl, he, hbyte⟩ := exists_char_of_utf8_eq_append hb hrest
      exact ⟨c :: before, e, after, rfl, (utf8_ofList_cons c before).symm, he, hbyte⟩

/-- An ASCII character is in a text exactly if its byte is among the bytes. -/
theorem asciiByte_mem_utf8_iff {c : Char} (hc : c.toNat < 128) {cs : List Char} :
    asciiByte c ∈ utf8 (String.ofList cs) ↔ c ∈ cs := by
  constructor
  · intro hmem
    obtain ⟨front, back, h⟩ := List.append_of_mem hmem
    have hb : (asciiByte c).toNat < 128 := by
      rw [toNat_asciiByte hc]
      exact hc
    obtain ⟨before, d, after, rfl, -, hd, hbyte⟩ := exists_char_of_utf8_eq_append hb h
    have hcd : d = c := by
      rw [← ofNat_toNat_asciiByte hd, hbyte, ofNat_toNat_asciiByte hc]
    rw [← hcd]
    exact List.mem_append_right _ List.mem_cons_self
  · intro hmem
    rw [utf8_ofList]
    refine List.mem_flatMap.2 ⟨c, hmem, ?_⟩
    rw [utf8EncodeChar_ascii hc]
    exact List.mem_singleton_self _

theorem utf8_concat {c : Char} (hc : c.toNat < 128) (cs : List Char) :
    utf8 (String.ofList (cs ++ [c])) = utf8 (String.ofList cs) ++ [asciiByte c] := by
  rw [utf8_ofList_append, utf8_ofList_ascii [c] (by simpa using hc)]
  rfl

/-- **An ASCII character stands in a text where its byte stands among the bytes**: what is in front of
the one are the bytes of what is in front of the other. -/
theorem exists_split_iff {c : Char} (hc : c.toNat < 128) {s : String} {P : List Char → Prop}
    {Q : List UInt8 → Prop} (h : ∀ before, P before ↔ Q (utf8 (String.ofList before))) :
    (∃ before after, s.toList = before ++ c :: after ∧ P before) ↔
      ∃ front back, utf8 s = front ++ asciiByte c :: back ∧ Q front := by
  have hs : utf8 s = utf8 (String.ofList s.toList) := by rw [String.ofList_toList]
  rw [hs]
  constructor
  · rintro ⟨before, after, hsplit, hP⟩
    refine ⟨_, utf8 (String.ofList after), ?_, (h before).1 hP⟩
    rw [hsplit, utf8_ofList_append, utf8_ofList_cons, utf8EncodeChar_ascii hc]
    rfl
  · rintro ⟨front, back, hsplit, hQ⟩
    have hbyte : (asciiByte c).toNat < 128 := by
      rw [toNat_asciiByte hc]
      exact hc
    obtain ⟨before, d, after, hcs, rfl, hd, heq⟩ := exists_char_of_utf8_eq_append hbyte hsplit
    obtain rfl : d = c := by rw [← ofNat_toNat_asciiByte hd, heq, ofNat_toNat_asciiByte hc]
    exact ⟨before, after, hcs, (h before).2 hQ⟩

/-! ## Digits -/

theorem toNat_lt_of_isDigit {c : Char} (h : c.isDigit = true) : c.toNat < 128 := by
  simp only [Char.isDigit, Bool.and_eq_true, decide_eq_true_eq] at h
  exact Nat.lt_of_le_of_lt (UInt32.le_iff_toNat_le.1 h.2) (by decide)

/-- Hexadecimal digits are ASCII. -/
theorem toNat_lt_of_hexValue? {c : Char} {n : Nat} (h : hexValue? c = some n) : c.toNat < 128 := by
  rw [hexValue?] at h
  split at h
  · next hdigit => exact toNat_lt_of_isDigit hdigit
  split at h
  · next hlower =>
    have hle : c ≤ 'f' := by simpa using (Bool.and_eq_true_iff.1 hlower).2
    exact Nat.lt_of_le_of_lt hle (by decide)
  split at h
  · next hupper =>
    have hle : c ≤ 'F' := by simpa using (Bool.and_eq_true_iff.1 hupper).2
    exact Nat.lt_of_le_of_lt hle (by decide)
  · exact nomatch h

theorem toNat_lt_of_isHexDigit {c : Char} (h : isHexDigit c = true) : c.toNat < 128 := by
  obtain ⟨n, hn⟩ := Option.isSome_iff_exists.1 h
  exact toNat_lt_of_hexValue? hn

end LibraryRegistry.Text
