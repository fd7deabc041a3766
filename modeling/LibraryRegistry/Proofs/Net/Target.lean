import LibraryRegistry.Net.Target
import LibraryRegistry.Proofs.Text.Ascii
import LibraryRegistry.Proofs.Text.Prefix

/-!
# Laws of request targets

A target is refused for what it starts with, or for a byte that may not stand where it does: in the
path, which goes up to the first `?` or `#`, or in the query, which goes on up to the first `#`.

* `exists_fault_iff_malformed` — what is refused
* `rawPath_of_parse` — the path of a target that is not refused
-/

namespace LibraryRegistry.Net.Target

/-! ## What is no target -/

/-- A byte that may stand in a path. -/
def IsPathByte (b : UInt8) : Prop :=
  b = 0x21 ∨ b = 0x22 ∨ (0x24 ≤ b ∧ b ≤ 0x3B) ∨ b = 0x3D ∨ (0x40 ≤ b ∧ b ≤ 0x5F) ∨
    (0x61 ≤ b ∧ b ≤ 0x7E) ∨ 0x80 ≤ b

/-- A byte that may stand in a query. -/
def IsQueryByte (b : UInt8) : Prop :=
  b = 0x21 ∨ (0x24 ≤ b ∧ b ≤ 0x3B) ∨ b = 0x3D ∨ (0x3F ≤ b ∧ b ≤ 0x7E) ∨ 0x80 ≤ b

/-- The text is no target. The byte of `?` is 0x3F, the one of `#` is 0x23. -/
inductive Malformed (s : String) : Prop
  | empty (h : s = "")
  | start (hstar : s ≠ "*") (hhead : ∀ c ∈ s.toList.head?, c ≠ '/' ∧ c ≠ '?' ∧ c ≠ '#')
  | path {front back : List UInt8} {b : UInt8} (h : Text.utf8 s = front ++ b :: back)
      (hquery : 0x3F ∉ front ++ [b]) (hfragment : 0x23 ∉ front ++ [b]) (hb : ¬ IsPathByte b)
  | query {front back : List UInt8} {b : UInt8} (h : Text.utf8 s = front ++ b :: back)
      (hquery : 0x3F ∈ front) (hfragment : 0x23 ∉ front ++ [b]) (hb : ¬ IsQueryByte b)

/-- The part of a text in front of its first `?` or `#`. -/
def barePath (s : String) : String := String.ofList (s.toList.takeWhile fun c => c ≠ '?' && c ≠ '#')

/-! ## Characters and bytes -/

/-- The same is allowed among characters and among bytes, and no more than ASCII is refused. -/
structure Agrees (allowed : Char → Bool) (Allowed : UInt8 → Prop) : Prop where
  ascii : ∀ c, c.toNat < 128 → (allowed c = true ↔ Allowed (Text.asciiByte c))
  char : ∀ c, ¬ c.toNat < 128 → allowed c = true
  byte : ∀ b, ¬ b.toNat < 128 → Allowed b

theorem agrees_path : Agrees isPathChar IsPathByte where
  ascii := by
    intro c hc
    simp only [isPathChar, IsPathByte, UInt8.le_iff_toNat_le, ← UInt8.toNat_inj,
      Text.toNat_asciiByte hc, Bool.or_eq_true, Bool.and_eq_true, beq_iff_eq, decide_eq_true_eq,
      UInt8.reduceToNat]
    omega
  char := by
    intro c hc
    simp only [isPathChar, Bool.or_eq_true, decide_eq_true_eq]
    exact .inr (Nat.le_of_not_lt hc)
  byte := by
    intro b hb
    simp only [IsPathByte, UInt8.le_iff_toNat_le, UInt8.reduceToNat]
    omega

theorem agrees_query : Agrees isQueryChar IsQueryByte where
  ascii := by
    intro c hc
    simp only [isQueryChar, IsQueryByte, UInt8.le_iff_toNat_le, ← UInt8.toNat_inj,
      Text.toNat_asciiByte hc, Bool.or_eq_true, Bool.and_eq_true, beq_iff_eq, decide_eq_true_eq,
      UInt8.reduceToNat]
    omega
  char := by
    intro c hc
    simp only [isQueryChar, Bool.or_eq_true, decide_eq_true_eq]
    exact .inr (Nat.le_of_not_lt hc)
  byte := by
    intro b hb
    simp only [IsQueryByte, UInt8.le_iff_toNat_le, UInt8.reduceToNat]
    omega

namespace Agrees

variable {allowed : Char → Bool} {Allowed : UInt8 → Prop} (h : Agrees allowed Allowed)

include h

/-- A character that is refused is a byte that is refused. -/
theorem of_char {c : Char} (hc : allowed c = false) :
    c.toNat < 128 ∧ ¬ Allowed (Text.asciiByte c) := by
  have hlt : c.toNat < 128 := by
    refine Decidable.of_not_not fun hge => ?_
    rw [h.char c hge] at hc
    cases hc
  refine ⟨hlt, fun hbyte => ?_⟩
  rw [(h.ascii c hlt).2 hbyte] at hc
  cases hc

/-- A byte that is refused is a character that is refused. -/
theorem exists_char {b : UInt8} (hb : ¬ Allowed b) :
    ∃ c : Char, c.toNat < 128 ∧ Text.asciiByte c = b ∧ allowed c = false := by
  have hlt : b.toNat < 128 := Decidable.of_not_not fun hge => hb (h.byte b hge)
  obtain ⟨c, hc, rfl⟩ := Text.exists_asciiByte_eq hlt
  exact ⟨c, hc, rfl, Bool.eq_false_iff.2 fun hok => hb ((h.ascii c hc).1 hok)⟩

end Agrees

/-! ## Where a character stands -/

section Positions

variable {c : Char} {cs : List Char}

/-- The characters of the path. -/
def pathChars (cs : List Char) : List Char := (split cs).1

/-- The characters of the query, which may be missing. -/
def queryChars (cs : List Char) : List Char := (split cs).2.getD []

theorem pathChars_eq (cs : List Char) :
    pathChars cs = (cs.takeWhile (· ≠ '#')).takeWhile (· ≠ '?') := by
  unfold pathChars split
  dsimp only
  split <;> rfl

theorem queryChars_eq (cs : List Char) :
    queryChars cs = ((cs.takeWhile (· ≠ '#')).dropWhile (· ≠ '?')).tail := by
  unfold queryChars split
  dsimp only
  split
  · next h =>
    rw [h]
    rfl
  · next h =>
    rw [h]
    rfl

theorem pathChars_eq_takeWhile (cs : List Char) :
    pathChars cs = cs.takeWhile fun c => c ≠ '?' && c ≠ '#' := by
  rw [pathChars_eq]
  induction cs with
  | nil => rfl
  | cons c cs ih =>
    by_cases hfragment : c = '#'
    · simp [hfragment]
    by_cases hquery : c = '?'
    · simp [hquery]
    · simpa [hfragment, hquery] using ih

theorem forall_ne_iff {d : Char} {before : List Char} :
    (∀ e ∈ before, decide (e ≠ d) = true) ↔ d ∉ before := by
  simp only [decide_eq_true_eq]
  exact ⟨fun h hd => h d hd rfl, fun h e he hed => h (hed ▸ he)⟩

/-- A character is in the path if there is no `?` and no `#` up to it. -/
theorem mem_pathChars_iff : c ∈ pathChars cs ↔
    ∃ before after, cs = before ++ c :: after ∧ '?' ∉ before ++ [c] ∧ '#' ∉ before ++ [c] := by
  rw [pathChars_eq, Text.mem_takeWhile_iff]
  constructor
  · rintro ⟨before, after, h, hquery⟩
    obtain ⟨⟨after, hcs⟩, hfragment⟩ := Text.exists_takeWhile_eq_iff.1 ⟨after, h⟩
    exact ⟨before, after, hcs, forall_ne_iff.1 hquery, forall_ne_iff.1 hfragment⟩
  · rintro ⟨before, after, hcs, hquery, hfragment⟩
    obtain ⟨after, h⟩ :=
      Text.exists_takeWhile_eq_iff.2 ⟨⟨after, hcs⟩, forall_ne_iff.2 hfragment⟩
    exact ⟨before, after, h, forall_ne_iff.2 hquery⟩

/-- A character is in the query if there is a `?` in front of it, and no `#` up to it. -/
theorem mem_queryChars_iff : c ∈ queryChars cs ↔
    ∃ before after, cs = before ++ c :: after ∧ '?' ∈ before ∧ '#' ∉ before ++ [c] := by
  rw [queryChars_eq, Text.mem_tail_dropWhile_iff]
  constructor
  · rintro ⟨before, after, h, d, hd, hquery⟩
    obtain ⟨⟨after, hcs⟩, hfragment⟩ := Text.exists_takeWhile_eq_iff.1 ⟨after, h⟩
    obtain rfl : d = '?' := by simpa using hquery
    exact ⟨before, after, hcs, hd, forall_ne_iff.1 hfragment⟩
  · rintro ⟨before, after, hcs, hquery, hfragment⟩
    obtain ⟨after, h⟩ :=
      Text.exists_takeWhile_eq_iff.2 ⟨⟨after, hcs⟩, forall_ne_iff.2 hfragment⟩
    exact ⟨before, after, h, '?', hquery, by decide⟩

/-- A character is in the path if there is no byte of `?` and none of `#` up to it. -/
theorem mem_pathChars_iff_utf8 (hc : c.toNat < 128) {s : String} : c ∈ pathChars s.toList ↔
    ∃ front back, Text.utf8 s = front ++ Text.asciiByte c :: back ∧
      0x3F ∉ front ++ [Text.asciiByte c] ∧ 0x23 ∉ front ++ [Text.asciiByte c] := by
  rw [mem_pathChars_iff]
  refine Text.exists_split_iff hc fun before => ?_
  rw [← Text.utf8_concat hc before]
  exact and_congr (not_congr (Text.asciiByte_mem_utf8_iff (by decide)).symm)
    (not_congr (Text.asciiByte_mem_utf8_iff (by decide)).symm)

theorem mem_queryChars_iff_utf8 (hc : c.toNat < 128) {s : String} : c ∈ queryChars s.toList ↔
    ∃ front back, Text.utf8 s = front ++ Text.asciiByte c :: back ∧
      0x3F ∈ front ∧ 0x23 ∉ front ++ [Text.asciiByte c] := by
  rw [mem_queryChars_iff]
  refine Text.exists_split_iff hc fun before => ?_
  rw [← Text.utf8_concat hc before]
  exact and_congr (Text.asciiByte_mem_utf8_iff (by decide)).symm
    (not_congr (Text.asciiByte_mem_utf8_iff (by decide)).symm)

end Positions

/-! ## Characters that may not stand where they stand -/

section Parse

variable {s : String}

/-- A character stands in the path or in the query that may not stand there. -/
def HasBadChar (s : String) : Prop :=
  (∃ c ∈ pathChars s.toList, isPathChar c = false) ∨
    ∃ c ∈ queryChars s.toList, isQueryChar c = false

theorem malformed_of_hasBadChar (h : HasBadChar s) : Malformed s := by
  rcases h with ⟨c, hmem, hc⟩ | ⟨c, hmem, hc⟩
  · obtain ⟨hlt, hb⟩ := agrees_path.of_char hc
    obtain ⟨front, back, hsplit, hquery, hfragment⟩ := (mem_pathChars_iff_utf8 hlt).1 hmem
    exact .path hsplit hquery hfragment hb
  · obtain ⟨hlt, hb⟩ := agrees_query.of_char hc
    obtain ⟨front, back, hsplit, hquery, hfragment⟩ := (mem_queryChars_iff_utf8 hlt).1 hmem
    exact .query hsplit hquery hfragment hb

theorem hasBadChar_of_path {front back : List UInt8} {b : UInt8}
    (h : Text.utf8 s = front ++ b :: back) (hquery : 0x3F ∉ front ++ [b])
    (hfragment : 0x23 ∉ front ++ [b]) (hb : ¬ IsPathByte b) : HasBadChar s := by
  obtain ⟨c, hc, rfl, hbad⟩ := agrees_path.exists_char hb
  exact .inl ⟨c, (mem_pathChars_iff_utf8 hc).2 ⟨front, back, h, hquery, hfragment⟩, hbad⟩

theorem hasBadChar_of_query {front back : List UInt8} {b : UInt8}
    (h : Text.utf8 s = front ++ b :: back) (hquery : 0x3F ∈ front)
    (hfragment : 0x23 ∉ front ++ [b]) (hb : ¬ IsQueryByte b) : HasBadChar s := by
  obtain ⟨c, hc, rfl, hbad⟩ := agrees_query.exists_char hb
  exact .inr ⟨c, (mem_queryChars_iff_utf8 hc).2 ⟨front, back, h, hquery, hfragment⟩, hbad⟩

/-! ## What is refused -/

theorem parse_of_not_startsWell (hempty : s ≠ "") (hstart : startsWell s.toList = false) :
    parse s = .error .noSlash := by
  have hcs : s.toList ≠ [] := by simpa using hempty
  unfold parse
  dsimp only
  rw [if_neg hcs, if_pos (by simp [hstart])]

/-- What a text is read as if it is a target. -/
def ofText (s : String) : Target :=
  ⟨String.ofList (pathChars s.toList), (split s.toList).2.map String.ofList⟩

theorem parse_of_startsWell (hempty : s ≠ "") (hstart : startsWell s.toList = true) :
    parse s = if (pathChars s.toList).all isPathChar && (queryChars s.toList).all isQueryChar then
      .ok (ofText s) else .error .invalidChar := by
  have hcs : s.toList ≠ [] := by simpa using hempty
  have hquery : (split s.toList).2.all (List.all · isQueryChar)
      = (queryChars s.toList).all isQueryChar := by
    unfold queryChars
    cases (split s.toList).2 <;> rfl
  unfold parse
  dsimp only
  rw [if_neg hcs, if_neg (by simp [hstart]), hquery]
  rfl

theorem startsWell_eq_false_iff : startsWell s.toList = false ↔
    s ≠ "*" ∧ ∀ c ∈ s.toList.head?, c ≠ '/' ∧ c ≠ '?' ∧ c ≠ '#' := by
  have hstar : s = "*" ↔ s.toList = ['*'] := by
    rw [← String.toList_inj]
    rfl
  rw [ne_eq, hstar]
  generalize s.toList = cs
  unfold startsWell
  split
  · simp
  · simp
  · simp
  · next hslash hquery hfragment =>
    constructor
    · intro h
      refine ⟨by simpa using h, fun c hc => ?_⟩
      obtain ⟨rest, rfl⟩ := List.head?_eq_some_iff.1 hc
      refine ⟨?_, ?_, ?_⟩
      · rintro rfl
        exact hslash rest rfl
      · rintro rfl
        exact hquery rest rfl
      · rintro rfl
        exact hfragment rest rfl
    · intro h
      simpa using h.1

theorem all_isChar_iff : ((pathChars s.toList).all isPathChar &&
    (queryChars s.toList).all isQueryChar) = true ↔ ¬ HasBadChar s := by
  simp [HasBadChar, not_or]

/-- A text is refused, or it is read as what it is. -/
theorem parse_cases (s : String) :
    (∃ fault, parse s = .error fault) ∧
      (s = "" ∨ startsWell s.toList = false ∨ HasBadChar s) ∨
    parse s = .ok (ofText s) ∧ s ≠ "" ∧ startsWell s.toList = true ∧ ¬ HasBadChar s := by
  by_cases hempty : s = ""
  · subst hempty
    exact .inl ⟨⟨.empty, rfl⟩, .inl rfl⟩
  cases hstart : startsWell s.toList with
  | false => exact .inl ⟨⟨_, parse_of_not_startsWell hempty hstart⟩, .inr (.inl rfl)⟩
  | true =>
    have hparse := parse_of_startsWell hempty hstart
    by_cases hbad : HasBadChar s
    · rw [if_neg fun hall => all_isChar_iff.1 hall hbad] at hparse
      exact .inl ⟨⟨_, hparse⟩, .inr (.inr hbad)⟩
    · rw [if_pos (all_isChar_iff.2 hbad)] at hparse
      exact .inr ⟨hparse, hempty, rfl, hbad⟩

/-- **What is refused**: nothing, a text that starts as no target does, and bytes that may not stand
where they stand. -/
theorem exists_fault_iff_malformed : (∃ fault, parse s = .error fault) ↔ Malformed s := by
  constructor
  · rintro ⟨fault, h⟩
    rcases parse_cases s with ⟨-, hempty | hstart | hbad⟩ | ⟨hok, -⟩
    · exact .empty hempty
    · obtain ⟨hstar, hhead⟩ := startsWell_eq_false_iff.1 hstart
      exact .start hstar hhead
    · exact malformed_of_hasBadChar hbad
    · cases hok.symm.trans h
  · intro h
    rcases parse_cases s with ⟨hfault, -⟩ | ⟨-, hempty, hstart, hbad⟩
    · exact hfault
    cases h with
    | empty h => exact absurd h hempty
    | start hstar hhead =>
      rw [startsWell_eq_false_iff.2 ⟨hstar, hhead⟩] at hstart
      cases hstart
    | path h hquery hfragment hb => exact absurd (hasBadChar_of_path h hquery hfragment hb) hbad
    | query h hquery hfragment hb => exact absurd (hasBadChar_of_query h hquery hfragment hb) hbad

theorem rawPath_of_parse {t : Target} (h : parse s = .ok t) : t.rawPath = barePath s := by
  rcases parse_cases s with ⟨⟨fault, hfault⟩, -⟩ | ⟨hok, -⟩
  · cases hfault.symm.trans h
  · cases hok.symm.trans h
    rw [ofText, pathChars_eq_takeWhile, barePath]

end Parse

end LibraryRegistry.Net.Target
