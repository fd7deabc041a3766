import LibraryRegistry.Wire.Varint

/-!
# Laws of variable-length integers

A number may be spelled with more groups than are written, with groups of zeros at their end; `Spells`
has all the spellings. Reading takes a spelling, whatever follows, and the size computed from the
position of the highest bit is the number of bytes written.

* `decode?_eq_some_iff` — what is read is a spelling, and what follows it is left
* `spells_encode` — a written number below `2 ^ 64` is one of its spellings
* `length_encode`, `Groups.length_encode_le` — a written number takes `size` bytes, the fewest it can
* `groups_iff`, `reads_littleEndian` — which bytes are a number, and which number
-/

namespace LibraryRegistry.Wire.Varint

/-! ## Writing -/

theorem encode_of_lt {n : Nat} (h : n < 128) : encode n = [n.toUInt8] := by
  rw [encode, if_pos h]

theorem encode_of_le {n : Nat} (h : 128 ≤ n) :
    encode n = (n % 128 + 128).toUInt8 :: encode (n / 128) := by
  rw [encode, if_neg (by omega)]

theorem toNat_toUInt8 {n : Nat} (h : n < 256) : n.toUInt8.toNat = n := by
  rw [Nat.toUInt8, UInt8.toNat_ofNat', Nat.mod_eq_of_lt h]

/-- Zero has the logarithm of one by convention. -/
theorem log2_lt {n k : Nat} (hk : 0 < k) (h : n < 2 ^ k) : n.log2 < k := by
  by_cases h0 : n = 0
  · subst h0
    exact hk
  · exact (Nat.log2_lt h0).2 h

theorem log2_div_128 {n : Nat} (h : 128 ≤ n) : n.log2 = (n / 128).log2 + 7 := by
  have hd : n / 128 ≠ 0 := by omega
  rw [Nat.log2_eq_iff (by omega)]
  have hlow : 2 ^ (n / 128).log2 ≤ n / 128 := Nat.log2_self_le hd
  have hhigh : n / 128 < 2 ^ ((n / 128).log2 + 1) := Nat.lt_log2_self
  constructor
  · rw [Nat.pow_add]
    omega
  · rw [show (n / 128).log2 + 7 + 1 = (n / 128).log2 + 1 + 7 by omega, Nat.pow_add]
    omega

/-- There is one group for every seven bits. -/
theorem length_encode_eq_log2 (n : Nat) : (encode n).length = n.log2 / 7 + 1 := by
  induction n using Nat.strongRecOn with
  | ind n ih =>
    rcases Nat.lt_or_ge n 128 with hlt | hge
    · have hlog : n.log2 < 7 := log2_lt (by decide) hlt
      rw [encode_of_lt hlt, Nat.div_eq_of_lt hlog]
      rfl
    -- One byte more, seven bits more.
    · rw [encode_of_le hge, List.length_cons, ih (n / 128) (by omega), log2_div_128 hge]
      omega

/-! ## Spellings -/

/-- Groups of seven bits, least group first: every byte but the last has its high bit set. -/
inductive Groups : Nat → List UInt8 → Prop
  | last {b : UInt8} (h : b < 128) : Groups b.toNat [b]
  | more {b : UInt8} {n : Nat} {bytes : List UInt8} (h : ¬b < 128) (hs : Groups n bytes) :
      Groups (b.toNat - 128 + 128 * n) (b :: bytes)

theorem Groups.length_pos {n : Nat} {bytes : List UInt8} (h : Groups n bytes) :
    0 < bytes.length := by
  cases h <;> simp

theorem groups_encode (n : Nat) : Groups n (encode n) := by
  induction n using Nat.strongRecOn with
  | ind n ih =>
    rcases Nat.lt_or_ge n 128 with hlt | hge
    · have hb : n.toUInt8 < 128 := by
        rw [UInt8.lt_iff_toNat_lt, toNat_toUInt8 (by omega)]
        exact hlt
      have hlast := Groups.last hb
      rw [toNat_toUInt8 (by omega)] at hlast
      rwa [encode_of_lt hlt]
    -- The first byte takes the low seven bits.
    · have hb : ¬(n % 128 + 128).toUInt8 < 128 := by
        rw [UInt8.lt_iff_toNat_lt, toNat_toUInt8 (by omega)]
        show ¬n % 128 + 128 < 128
        omega
      have hmore := Groups.more hb (ih (n / 128) (by omega))
      rw [toNat_toUInt8 (by omega), Nat.add_sub_cancel, Nat.mod_add_div] at hmore
      rwa [encode_of_le hge]

/-- At most ten groups for a number below `2 ^ 64`. -/
structure Spells (n : Nat) (bytes : List UInt8) : Prop where
  groups : Groups n bytes
  length_le : bytes.length ≤ 10
  lt : n < 2 ^ 64

theorem Spells.length_pos {n : Nat} {bytes : List UInt8} (h : Spells n bytes) :
    0 < bytes.length :=
  h.groups.length_pos

theorem Groups.decodeGroups {n : Nat} {bytes : List UInt8} (h : Groups n bytes) :
    ∀ {more : Nat}, bytes.length ≤ more + 1 → n < 2 * 128 ^ more → ∀ rest,
      decodeGroups more (bytes ++ rest) = some (n, rest) := by
  induction h with
  | @last b hb =>
    intro more _ hlt rest
    cases more with
    | zero =>
      have hb2 : b < 2 := UInt8.lt_iff_toNat_lt.2 hlt
      rw [List.singleton_append, Varint.decodeGroups, if_pos hb2]
    | succ more => rw [List.singleton_append, Varint.decodeGroups, if_pos hb]
  | @more b n bytes hb hs ih =>
    intro more hlen hlt rest
    have hpos := hs.length_pos
    rw [List.length_cons] at hlen
    cases more with
    | zero => omega
    | succ more =>
      -- The groups behind the first are those of a number with seven bits less.
      have hhigh : n < 2 * 128 ^ more := by
        rw [Nat.pow_succ] at hlt
        omega
      rw [List.cons_append, Varint.decodeGroups, if_neg hb, ih (by omega) hhigh rest]
      rfl

theorem exists_groups_of_decodeGroups : ∀ {more n : Nat} {bytes rest : List UInt8},
    decodeGroups more bytes = some (n, rest) → ∃ front, Groups n front ∧
      front.length ≤ more + 1 ∧ n < 2 * 128 ^ more ∧ bytes = front ++ rest
  | _, _, [], _, h => by simp [decodeGroups] at h
  | 0, _, b :: bytes, _, h => by
    unfold decodeGroups at h
    split at h
    · next hb =>
      cases h
      have hlt : b.toNat < 2 := UInt8.lt_iff_toNat_lt.1 hb
      have hb128 : b < 128 := UInt8.lt_iff_toNat_lt.2 (Nat.lt_of_lt_of_le hlt (by decide))
      exact ⟨[b], .last hb128, Nat.le_refl _, by omega, rfl⟩
    · cases h
  | more + 1, n, b :: bytes, rest, h => by
    have hpow : 0 < 128 ^ more := Nat.pow_pos (by decide)
    have hsucc : 128 ^ (more + 1) = 128 ^ more * 128 := Nat.pow_succ _ _
    unfold decodeGroups at h
    split at h
    · next hb =>
      cases h
      have hlt : b.toNat < 128 := UInt8.lt_iff_toNat_lt.1 hb
      exact ⟨[b], .last hb, by simp, by omega, rfl⟩
    · next hb =>
      obtain ⟨⟨high, rest'⟩, hd, he⟩ := Option.map_eq_some_iff.1 h
      cases he
      obtain ⟨front, hs, hlen, hlt, rfl⟩ := exists_groups_of_decodeGroups hd
      have hbyte : b.toNat < 256 := b.toNat_lt
      exact ⟨b :: front, .more hb hs, by simpa using hlen, by omega, rfl⟩

/-- **What is read is a spelling**, all that the bytes begin with and nothing more. -/
theorem decode?_eq_some_iff {n : Nat} {bytes rest : List UInt8} :
    decode? bytes = some (n, rest) ↔ ∃ front, Spells n front ∧ bytes = front ++ rest := by
  constructor
  · intro h
    obtain ⟨front, hs, hlen, hlt, rfl⟩ := exists_groups_of_decodeGroups h
    exact ⟨front, ⟨hs, hlen, hlt⟩, rfl⟩
  · rintro ⟨front, hs, rfl⟩
    exact hs.groups.decodeGroups hs.length_le hs.lt rest

theorem Spells.decode? {n : Nat} {bytes : List UInt8} (h : Spells n bytes) (rest : List UInt8) :
    decode? (bytes ++ rest) = some (n, rest) :=
  decode?_eq_some_iff.2 ⟨bytes, h, rfl⟩

/-- One byte spells a number of seven bits. -/
theorem spells_singleton {b : UInt8} (h : b < 128) : Spells b.toNat [b] :=
  ⟨.last h, by simp, Nat.lt_of_lt_of_le b.toNat_lt (by decide)⟩

/-- **What is written is one of the spellings.** -/
theorem spells_encode {n : Nat} (h : n < 2 ^ 64) : Spells n (encode n) := by
  have hlog : n.log2 < 64 := log2_lt (by decide) h
  refine ⟨groups_encode n, ?_, h⟩
  rw [length_encode_eq_log2]
  omega

/-! ## Sizes -/

theorem log2_or_one (n : Nat) : (n ||| 1).log2 = n.log2 := by
  -- Zero is where the lowest bit matters, and has the logarithm of one by convention.
  by_cases h0 : n = 0
  · subst h0; decide
  · have hlog : (n ||| 1).log2 < n.log2 + 1 := by
      rw [Nat.log2_lt (by rw [Ne, Nat.or_eq_zero_iff]; omega)]
      exact Nat.or_lt_two_pow Nat.lt_log2_self (Nat.one_lt_two_pow (by omega))
    have hle : n.log2 ≤ (n ||| 1).log2 := by
      rw [Nat.le_log2 (by rw [Ne, Nat.or_eq_zero_iff]; omega)]
      exact Nat.le_trans (Nat.log2_self_le h0) Nat.left_le_or
    omega

/-- **The size of a number is the number of bytes written.** The formula divides by seven as nine
sixty-fourths, which is exact for positions below sixty-four. -/
theorem length_encode {n : Nat} (h : n < 2 ^ 64) : (encode n).length = size n := by
  have hlog : n.log2 < 64 := log2_lt (by decide) h
  rw [length_encode_eq_log2, size, log2_or_one]
  omega

/-- No spelling of a number is shorter than the written one. -/
theorem Groups.length_encode_le {n : Nat} {bytes : List UInt8} (h : Groups n bytes) :
    (encode n).length ≤ bytes.length := by
  induction h with
  | @last b hb =>
    rw [encode_of_lt (UInt8.lt_iff_toNat_lt.1 hb)]
    exact Nat.le_refl 1
  | @more b n bytes hb hs ih =>
    rcases Nat.lt_or_ge (b.toNat - 128 + 128 * n) 128 with hlt | hge
    · rw [encode_of_lt hlt, List.length_cons]
      exact Nat.succ_le_succ (Nat.zero_le _)
    -- Behind the first byte stands a spelling of the number without its low seven bits.
    · have hbyte : b.toNat < 256 := b.toNat_lt
      have hdiv : (b.toNat - 128 + 128 * n) / 128 = n := by omega
      rw [encode_of_le hge, hdiv, List.length_cons, List.length_cons]
      exact Nat.succ_le_succ ih

/-! ## Numbers by their bytes -/

/-- The number with these groups of seven bits, least group first; the high bits do not count. -/
def littleEndian (bytes : List UInt8) : Nat :=
  bytes.foldr (fun b n => b.toNat % 128 + 128 * n) 0

theorem littleEndian_cons (b : UInt8) (bytes : List UInt8) :
    littleEndian (b :: bytes) = b.toNat % 128 + 128 * littleEndian bytes := rfl

/-- A spelling is bytes with their high bits set and a last one without, and spells their value. -/
theorem groups_iff {n : Nat} {bytes : List UInt8} :
    Groups n bytes ↔ ∃ front last, bytes = front ++ [last] ∧ (∀ b ∈ front, 128 ≤ b) ∧ last < 128 ∧
      n = littleEndian bytes := by
  constructor
  · intro h
    induction h with
    | @last b hb =>
      have hlt : b.toNat < 128 := UInt8.lt_iff_toNat_lt.1 hb
      refine ⟨[], b, rfl, nofun, hb, ?_⟩
      rw [littleEndian_cons, Nat.mod_eq_of_lt hlt]
      rfl
    | @more b n bytes hb hs ih =>
      obtain ⟨front, last, rfl, hfront, hlast, rfl⟩ := ih
      have hle : 128 ≤ b.toNat := Nat.le_of_not_lt fun hlt => hb (UInt8.lt_iff_toNat_lt.2 hlt)
      have hbyte : b.toNat < 256 := b.toNat_lt
      refine ⟨b :: front, last, rfl, List.forall_mem_cons.2 ⟨UInt8.le_iff_toNat_le.2 hle, hfront⟩,
        hlast, ?_⟩
      rw [littleEndian_cons]
      omega
  · rintro ⟨front, last, rfl, hfront, hlast, rfl⟩
    induction front with
    | nil =>
      have hlt : last.toNat < 128 := UInt8.lt_iff_toNat_lt.1 hlast
      have hvalue : littleEndian ([] ++ [last]) = last.toNat := Nat.mod_eq_of_lt hlt
      rw [hvalue]
      exact .last hlast
    | cons b front ih =>
      obtain ⟨hb, hfront⟩ := List.forall_mem_cons.1 hfront
      have hle : 128 ≤ b.toNat := UInt8.le_iff_toNat_le.1 hb
      have hbyte : b.toNat < 256 := b.toNat_lt
      have hmod : b.toNat % 128 = b.toNat - 128 := by omega
      rw [List.cons_append, littleEndian_cons, hmod]
      exact .more (fun hlt => Nat.not_lt.2 hle (UInt8.lt_iff_toNat_lt.1 hlt)) (ih hfront)

/-- **A number is read from at most nine bytes with their high bits set and one without**, if their
value stays below `2 ^ 64`, whatever follows. Every such number is read back from what is written of
it, which takes `size` bytes, and from no fewer bytes. -/
theorem reads_littleEndian :
    (∀ (n : Nat) (bytes rest : List UInt8), decode? bytes = some (n, rest) ↔
      ∃ front last, bytes = front ++ last :: rest ∧ front.length ≤ 9 ∧ (∀ b ∈ front, 128 ≤ b) ∧
        last < 128 ∧ n = littleEndian (front ++ [last]) ∧ n < 2 ^ 64) ∧
    ∀ n < 2 ^ 64, ∀ rest, decode? (encode n ++ rest) = some (n, rest) ∧
      (encode n).length = size n ∧
      ∀ bytes : List UInt8, decode? (bytes ++ rest) = some (n, rest) → size n ≤ bytes.length := by
  constructor
  · intro n bytes rest
    rw [decode?_eq_some_iff]
    constructor
    · rintro ⟨spelling, ⟨hgroups, hlen, hlt⟩, rfl⟩
      obtain ⟨front, last, rfl, hfront, hlast, hvalue⟩ := groups_iff.1 hgroups
      rw [List.length_append, List.length_singleton] at hlen
      exact ⟨front, last, (List.append_cons front last rest).symm, Nat.le_of_succ_le_succ hlen,
        hfront, hlast, hvalue, hlt⟩
    · rintro ⟨front, last, rfl, hlen, hfront, hlast, hvalue, hlt⟩
      have hgroups : Groups n (front ++ [last]) :=
        groups_iff.2 ⟨front, last, rfl, hfront, hlast, hvalue⟩
      have hlen' : (front ++ [last]).length ≤ 10 := by
        rw [List.length_append, List.length_singleton]
        exact Nat.succ_le_succ hlen
      exact ⟨front ++ [last], ⟨hgroups, hlen', hlt⟩, List.append_cons front last rest⟩
  · intro n hlt rest
    refine ⟨(spells_encode hlt).decode? rest, length_encode hlt, fun bytes h => ?_⟩
    obtain ⟨spelling, hs, happend⟩ := decode?_eq_some_iff.1 h
    obtain rfl := List.append_cancel_right happend
    rw [← length_encode hlt]
    exact hs.groups.length_encode_le

/-- Three hundred takes two bytes, and is read from three as well. -/
theorem reads_littleEndian_padded :
    300 < 2 ^ 64 ∧ decode? (encode 300 ++ [255]) = some (300, [255]) ∧
      (encode 300).length = size 300 ∧
      decode? ([0xAC, 0x82, 0x00] ++ [255]) = some (300, [255]) ∧ size 300 ≤ 3 := by
  obtain ⟨hread, hlen, hleast⟩ := reads_littleEndian.2 300 (by decide) [255]
  have hpadded : decode? ([0xAC, 0x82, 0x00] ++ [255]) = some (300, [255]) := by decide
  exact ⟨by decide, hread, hlen, hpadded, hleast _ hpadded⟩

end LibraryRegistry.Wire.Varint
