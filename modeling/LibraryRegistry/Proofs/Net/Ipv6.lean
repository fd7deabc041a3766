import LibraryRegistry.Net.Ipv6
import LibraryRegistry.Powers
import LibraryRegistry.Proofs.Text.Prefix

/-!
# IPv6 literals are what they are read as

The grammar of IPv6 literals, stated without a reader, and the reader that recognises it. The reader
never goes back, and need not: a group and a number of a quad are over at the first character that
is no digit of theirs, so a text is cut into groups in one way only.

* `group?_eq_some_iff`, `octet?_eq_some_iff`, `quad?_eq_some_iff` — the readers of the pieces
* `groups_sound`, `groups_complete` — groups with colons between them
* `isLiteral_iff` — the reader of literals
* `IsLiteral.mem`, `IsLiteral.length_le` — what literals are made of, and how long they are
-/

namespace LibraryRegistry.Net.Ipv6

open LibraryRegistry.Text

/-! ## Grammar -/

/-- A group: one to four hexadecimal digits. -/
def IsGroup (g : List Char) : Prop := g ≠ [] ∧ g.length ≤ 4 ∧ ∀ c ∈ g, isHexDigit c = true

/-- A number from 0 to 255 without leading zeros. -/
def IsOctet (o : List Char) : Prop :=
  o ≠ [] ∧ (∀ c ∈ o, c.isDigit = true) ∧ decimalValue o ≤ 255 ∧ (o.head? = some '0' → o = ['0'])

/-- A dotted quad. -/
def IsQuad (q : List Char) : Prop :=
  ∃ a b c d, IsOctet a ∧ IsOctet b ∧ IsOctet c ∧ IsOctet d ∧
    q = a ++ '.' :: (b ++ '.' :: (c ++ '.' :: d))

/-- Groups with colons between them; at the end, a quad may stand for two of them. -/
inductive Run : (count : Nat) → (quad : Bool) → List Char → Prop
  | empty : Run 0 false []
  | group {g : List Char} : IsGroup g → Run 1 false g
  | quad {q : List Char} : IsQuad q → Run 2 true q
  | cons {g cs : List Char} {n : Nat} {b : Bool} :
      IsGroup g → Run (n + 1) b cs → Run (n + 2) b (g ++ ':' :: cs)

/-- An IPv6 literal: eight groups, or fewer with a `::` for those that are missing. -/
def IsLiteral (cs : List Char) : Prop :=
  (∃ b, Run 8 b cs) ∨
  ∃ m n b front back, Run m false front ∧ Run n b back ∧ m + n ≤ 7 ∧ cs = front ++ ':' :: ':' :: back

/-! ## Characters -/

theorem isHexDigit_of_isDigit {c : Char} (h : c.isDigit = true) : isHexDigit c = true := by
  rw [isHexDigit, hexValue?, if_pos h]
  rfl

theorem isAlphanum_of_isAlpha {c : Char} (h : c.isAlpha = true) : c.isAlphanum = true := by
  rw [Char.isAlphanum, h, Bool.true_or]

theorem isAlphanum_of_isHexDigit {c : Char} (h : isHexDigit c = true) : c.isAlphanum = true := by
  rw [isHexDigit, hexValue?] at h
  by_cases hdigit : c.isDigit = true
  · rw [Char.isAlphanum, hdigit, Bool.or_true]
  by_cases hlower : ('a' ≤ c && c ≤ 'f') = true
  · have hle : 'a' ≤ c ∧ c ≤ 'f' := by simpa using hlower
    have hto : c.val ≤ 122 := UInt32.le_trans hle.2 (by decide)
    have hletter : c.isLower = true :=
      Bool.and_eq_true_iff.2 ⟨decide_eq_true hle.1, decide_eq_true hto⟩
    exact isAlphanum_of_isAlpha (Bool.or_eq_true_iff.2 (Or.inr hletter))
  by_cases hupper : ('A' ≤ c && c ≤ 'F') = true
  · have hle : 'A' ≤ c ∧ c ≤ 'F' := by simpa using hupper
    have hto : c.val ≤ 90 := UInt32.le_trans hle.2 (by decide)
    have hletter : c.isUpper = true := decide_eq_true ⟨hle.1, hto⟩
    exact isAlphanum_of_isAlpha (Bool.or_eq_true_iff.2 (Or.inl hletter))
  · rw [if_neg hdigit, if_neg hlower, if_neg hupper] at h
    exact nomatch h

/-! ## Readers of the pieces -/

theorem group?_eq_some_iff {cs rest : List Char} :
    group? cs = some rest ↔ ∃ g, IsGroup g ∧ cs = g ++ rest ∧ Stops isHexDigit rest := by
  constructor
  · intro h
    rw [group?] at h
    split at h
    · next hg =>
      obtain rfl := Option.some.inj h
      obtain ⟨hne, hlen⟩ : cs.takeWhile isHexDigit ≠ [] ∧ (cs.takeWhile isHexDigit).length ≤ 4 := by
        simpa using hg
      refine ⟨cs.takeWhile isHexDigit, ⟨hne, hlen, fun c => of_mem_takeWhile⟩, ?_, ?_⟩
      · exact List.takeWhile_append_dropWhile.symm
      · exact stops_dropWhile isHexDigit cs
    · exact nomatch h
  · rintro ⟨g, ⟨hne, hlen, hhex⟩, rfl, hstops⟩
    rw [group?, takeWhile_of_stops hhex hstops, dropWhile_of_stops hhex hstops]
    simp [hne, hlen]

/-- A number without leading zeros is at least a power of ten. -/
theorem pow_le_decimalValue {o : List Char} {c : Char} (hc : c.isDigit = true) (hzero : c ≠ '0') :
    10 ^ o.length ≤ decimalValue (c :: o) := by
  have hfold : ∀ (ds : List Char) (n : Nat),
      n * 10 ^ ds.length ≤ ds.foldl (fun n c => 10 * n + digitValue c) n := by
    intro ds
    induction ds with
    | nil => intro n; simp
    | cons d ds ih =>
      intro n
      calc n * 10 ^ (d :: ds).length = 10 * n * 10 ^ ds.length := by
            rw [List.length_cons, Nat.pow_succ, Nat.mul_comm 10 n, Nat.mul_assoc n 10,
              Nat.mul_comm 10 (10 ^ _)]
        _ ≤ (10 * n + digitValue d) * 10 ^ ds.length :=
            Nat.mul_le_mul_right _ (Nat.le_add_right _ _)
        _ ≤ (d :: ds).foldl (fun n c => 10 * n + digitValue c) n := ih _
  have hone : 1 ≤ digitValue c := by
    have hge : 48 ≤ c.toNat := by
      have hle : 48 ≤ c.val := by
        simp only [Char.isDigit, Bool.and_eq_true, decide_eq_true_eq] at hc
        exact hc.1
      exact hle
    have hne : c.toNat ≠ 48 := fun heq => hzero (Char.toNat_inj.1 heq)
    rw [digitValue]
    omega
  calc 10 ^ o.length = 1 * 10 ^ o.length := (Nat.one_mul _).symm
    _ ≤ (10 * 0 + digitValue c) * 10 ^ o.length :=
        Nat.mul_le_mul_right _ (by omega)
    _ ≤ decimalValue (c :: o) := hfold o _

/-- A number up to 255 has three digits at most. -/
theorem IsOctet.length_le {o : List Char} (h : IsOctet o) : o.length ≤ 3 := by
  obtain ⟨hne, hdigits, hvalue, hzero⟩ := h
  obtain ⟨c, rest, rfl⟩ := List.exists_cons_of_ne_nil hne
  by_cases hc : c = '0'
  · subst hc
    rw [hzero rfl]
    decide
  · have hpow : 10 ^ rest.length ≤ 255 :=
      Nat.le_trans (pow_le_decimalValue (hdigits c List.mem_cons_self) hc) hvalue
    have hlen : rest.length < 3 := by
      refine Nat.lt_of_not_le fun hge => ?_
      have hthousand : 10 ^ 3 ≤ 10 ^ rest.length := Nat.pow_le_pow_right (by decide) hge
      omega
    rw [List.length_cons]
    omega

theorem octet?_eq_some_iff {cs rest : List Char} :
    octet? cs = some rest ↔ ∃ o, IsOctet o ∧ cs = o ++ rest ∧ Stops Char.isDigit rest := by
  constructor
  · intro h
    rw [octet?] at h
    split at h
    · next ho =>
      obtain rfl := Option.some.inj h
      obtain ⟨⟨⟨hne, -⟩, hvalue⟩, hzero⟩ := by
        simpa only [Bool.and_eq_true, decide_eq_true_eq, Bool.or_eq_true, bne_iff_ne, ne_eq,
          beq_iff_eq] using ho
      refine ⟨cs.takeWhile Char.isDigit, ⟨hne, fun c => of_mem_takeWhile, hvalue, ?_⟩, ?_, ?_⟩
      · intro hhead
        rcases hzero with hzero | hlen
        · exact absurd hhead hzero
        · obtain ⟨c, hc⟩ := List.length_eq_one_iff.1 hlen
          rw [hc] at hhead ⊢
          rw [Option.some.inj hhead]
      · exact List.takeWhile_append_dropWhile.symm
      · exact stops_dropWhile Char.isDigit cs
    · exact nomatch h
  · rintro ⟨o, ho, rfl, hstops⟩
    have hlen : o.length ≤ 3 := ho.length_le
    obtain ⟨hne, hdigits, hvalue, hzero⟩ := ho
    rw [octet?, takeWhile_of_stops hdigits hstops, dropWhile_of_stops hdigits hstops]
    have hlead : o.head? ≠ some '0' ∨ o.length = 1 := by
      by_cases hhead : o.head? = some '0'
      · rw [hzero hhead]
        exact Or.inr rfl
      · exact Or.inl hhead
    simp [hne, hlen, hvalue, hlead]

theorem char?_eq_some_iff {c : Char} {cs rest : List Char} :
    char? c cs = some rest ↔ cs = c :: rest := by
  cases cs with
  | nil => simp [char?]
  | cons d cs =>
    rw [char?]
    by_cases hd : d = c
    · rw [if_pos hd, hd]
      simp
    · rw [if_neg hd]
      simp [hd]

theorem dotOctet_eq_some_iff {cs rest : List Char} :
    (char? '.' cs >>= octet?) = some rest ↔
      ∃ o, IsOctet o ∧ cs = '.' :: (o ++ rest) ∧ Stops Char.isDigit rest := by
  constructor
  · intro h
    obtain ⟨mid, hdot, hoctet⟩ := Option.bind_eq_some_iff.1 h
    obtain rfl := char?_eq_some_iff.1 hdot
    obtain ⟨o, ho, rfl, hstops⟩ := octet?_eq_some_iff.1 hoctet
    exact ⟨o, ho, rfl, hstops⟩
  · rintro ⟨o, ho, rfl, hstops⟩
    exact Option.bind_eq_some_iff.2
      ⟨o ++ rest, char?_eq_some_iff.2 rfl, octet?_eq_some_iff.2 ⟨o, ho, rfl, hstops⟩⟩

theorem stops_dot {rest : List Char} : Stops Char.isDigit ('.' :: rest) :=
  stops_cons.2 (by decide)

theorem quad?_eq_some_iff {cs rest : List Char} :
    quad? cs = some rest ↔ ∃ q, IsQuad q ∧ cs = q ++ rest ∧ Stops Char.isDigit rest := by
  constructor
  · intro h
    obtain ⟨cs₁, h₁, h⟩ := Option.bind_eq_some_iff.1 h
    obtain ⟨cs₂, h₂, h⟩ := Option.bind_eq_some_iff.1 h
    obtain ⟨cs₃, h₃, h₄⟩ := Option.bind_eq_some_iff.1 h
    obtain ⟨a, ha, rfl, -⟩ := octet?_eq_some_iff.1 h₁
    obtain ⟨b, hb, rfl, -⟩ := dotOctet_eq_some_iff.1 h₂
    obtain ⟨c, hc, rfl, -⟩ := dotOctet_eq_some_iff.1 h₃
    obtain ⟨d, hd, rfl, hstops⟩ := dotOctet_eq_some_iff.1 h₄
    exact ⟨_, ⟨a, b, c, d, ha, hb, hc, hd, rfl⟩, by simp, hstops⟩
  · rintro ⟨q, ⟨a, b, c, d, ha, hb, hc, hd, rfl⟩, rfl, hstops⟩
    refine Option.bind_eq_some_iff.2 ⟨'.' :: (b ++ '.' :: (c ++ '.' :: (d ++ rest))), ?_, ?_⟩
    · exact octet?_eq_some_iff.2 ⟨a, ha, by simp, stops_dot⟩
    refine Option.bind_eq_some_iff.2 ⟨'.' :: (c ++ '.' :: (d ++ rest)), ?_, ?_⟩
    · exact dotOctet_eq_some_iff.2 ⟨b, hb, rfl, stops_dot⟩
    refine Option.bind_eq_some_iff.2 ⟨'.' :: (d ++ rest), ?_, ?_⟩
    · exact dotOctet_eq_some_iff.2 ⟨c, hc, rfl, stops_dot⟩
    · exact dotOctet_eq_some_iff.2 ⟨d, hd, rfl, hstops⟩

/-! ## Groups in a row -/

/-- What may follow groups: nothing, or a `::`. -/
def Ends (rest : List Char) : Prop := rest = [] ∨ ∃ cs, rest = ':' :: ':' :: cs

theorem Ends.stops {p : Char → Bool} {rest : List Char} (hp : p ':' = false) (h : Ends rest) :
    Stops p rest := by
  rcases h with rfl | ⟨cs, rfl⟩
  · exact stops_nil
  · exact stops_cons.2 hp

theorem head?_colon_ne_dot {cs : List Char} : (':' :: cs).head? ≠ some '.' := fun h =>
  absurd (Option.some.inj h) (by decide)

theorem Ends.head?_ne_dot {rest : List Char} (h : Ends rest) : rest.head? ≠ some '.' := by
  rcases h with rfl | ⟨cs, rfl⟩
  · exact fun h => nomatch h
  · exact head?_colon_ne_dot

/-- A text that stops at once has no group. -/
theorem group?_of_stops {cs : List Char} (h : Stops isHexDigit cs) : group? cs = none := by
  refine Option.eq_none_iff_forall_ne_some.2 fun rest hsome => ?_
  obtain ⟨g, ⟨hne, -, hhex⟩, rfl, -⟩ := group?_eq_some_iff.1 hsome
  obtain ⟨c, g, rfl⟩ := List.exists_cons_of_ne_nil hne
  have hc : isHexDigit c = false := h c rfl
  rw [hhex c List.mem_cons_self] at hc
  exact nomatch hc

/-- A quad begins with digits and a dot, so a group with something else behind it is none. -/
theorem quad?_of_hex {g rest : List Char} (hhex : ∀ c ∈ g, isHexDigit c = true)
    (hstops : Stops isHexDigit rest) (hdot : rest.head? ≠ some '.') : quad? (g ++ rest) = none := by
  refine Option.eq_none_iff_forall_ne_some.2 fun rest' hsome => ?_
  obtain ⟨q, ⟨a, b, c, d, ⟨-, ha, -⟩, -, -, -, rfl⟩, heq, -⟩ := quad?_eq_some_iff.1 hsome
  rw [List.append_assoc, List.cons_append] at heq
  have hahex : ∀ c ∈ a, isHexDigit c = true := fun c hc => isHexDigit_of_isDigit (ha c hc)
  have hdotStops : Stops isHexDigit ('.' :: ((b ++ '.' :: (c ++ '.' :: d)) ++ rest')) :=
    stops_cons.2 (by decide)
  obtain ⟨-, rfl⟩ := append_inj_of_stops hhex hahex hstops hdotStops heq
  exact hdot rfl

theorem quad?_of_stops {cs : List Char} (hstops : Stops isHexDigit cs) (hdot : cs.head? ≠ some '.') :
    quad? cs = none :=
  quad?_of_hex (g := []) (fun _ h => nomatch h) hstops hdot

theorem groups_quad {room : Nat} {cs rest : List Char} (h : quad? cs = some rest) :
    groups (room + 2) true cs = ⟨2, true, rest⟩ := by
  rw [groups]
  simp [h]

theorem groups_group {room : Nat} {cs rest : List Char} (hquad : room = 0 ∨ quad? cs = none)
    (h : group? cs = some rest) :
    groups (room + 1) true cs =
      ⟨(groups room false rest).count + 1, (groups room false rest).quad,
        (groups room false rest).rest⟩ := by
  have hnone : (if room = 0 then none else quad? cs) = none := by
    rcases hquad with rfl | hquad
    · rw [if_pos rfl]
    · rw [hquad, ite_self]
  rw [groups]
  simp only [if_true, Option.bind_eq_bind, Option.bind_some, hnone, h]

theorem groups_none {room : Nat} {cs : List Char} (hquad : room = 0 ∨ quad? cs = none)
    (h : group? cs = none) : groups (room + 1) true cs = ⟨0, false, cs⟩ := by
  have hnone : (if room = 0 then none else quad? cs) = none := by
    rcases hquad with rfl | hquad
    · rw [if_pos rfl]
    · rw [hquad, ite_self]
  rw [groups]
  simp only [if_true, Option.bind_eq_bind, Option.bind_some, hnone, h]

/-- Behind a group, groups need a colon in front of them. -/
theorem groups_colon {room : Nat} {cs : List Char} (h : (groups room true cs).count ≠ 0) :
    groups room false (':' :: cs) = groups room true cs := by
  cases room with
  | zero => exact absurd rfl h
  | succ room =>
    have hchar : char? ':' (':' :: cs) = some cs := char?_eq_some_iff.2 rfl
    rw [groups] at h ⊢
    rw [groups]
    simp only [if_true, Option.bind_eq_bind, Option.bind_some, hchar, Bool.false_eq_true,
      if_false] at h ⊢
    split
    · rfl
    · next hquad =>
      rw [hquad] at h
      split
      · rfl
      · next hgroup =>
        rw [hgroup] at h
        exact absurd rfl h

theorem groups_of_stops {cs : List Char} (hstops : Stops isHexDigit cs)
    (hdot : cs.head? ≠ some '.') : ∀ room, groups room true cs = ⟨0, false, cs⟩
  | 0 => rfl
  | _ + 1 => groups_none (Or.inr (quad?_of_stops hstops hdot)) (group?_of_stops hstops)

/-- Without a group behind a colon, the colon stays where it is, too. -/
theorem groups_false_eq (room : Nat) (cs : List Char) :
    groups room false cs = ⟨0, false, cs⟩ ∨
      ∃ rest, cs = ':' :: rest ∧ (groups room true rest).count ≠ 0 ∧
        groups room false cs = groups room true rest := by
  cases room with
  | zero => exact Or.inl rfl
  | succ room =>
    cases hchar : char? ':' cs with
    | none =>
      left
      rw [groups]
      simp only [hchar, Bool.false_eq_true, if_false, Option.bind_eq_bind, Option.bind_none,
        ite_self]
    | some rest =>
      obtain rfl := char?_eq_some_iff.1 hchar
      by_cases hzero : (groups (room + 1) true rest).count = 0
      · left
        rw [groups] at hzero ⊢
        simp only [if_true, Option.bind_eq_bind, Option.bind_some, hchar, Bool.false_eq_true,
          if_false] at hzero ⊢
        split at hzero
        · exact nomatch hzero
        · split at hzero
          · exact nomatch hzero
          · rfl
      · exact Or.inr ⟨rest, rfl, hzero, groups_colon hzero⟩

theorem Ends.groups_false {rest : List Char} (h : Ends rest) (room : Nat) :
    groups room false rest = ⟨0, false, rest⟩ := by
  rcases groups_false_eq room rest with heq | ⟨cs, rfl, hne, -⟩
  · exact heq
  · rcases h with hnil | ⟨ds, hcons⟩
    · exact nomatch hnil
    -- Behind the first colon of a `::` stands another one, and no group.
    · obtain rfl := (List.cons.inj hcons).2
      rw [groups_of_stops (stops_cons.2 (by decide)) head?_colon_ne_dot] at hne
      exact absurd rfl hne

/-- What is read are groups in a row, with what follows them left over. -/
theorem groups_sound : ∀ (room : Nat) (cs : List Char), ∃ run,
    cs = run ++ (groups room true cs).rest ∧ (groups room true cs).count ≤ room ∧
      Run (groups room true cs).count (groups room true cs).quad run
  | 0, cs => ⟨[], rfl, Nat.le_refl 0, Run.empty⟩
  | room + 1, cs => by
    -- The reader prefers a quad, then a group with what is read behind its colon.
    by_cases hquad : room ≠ 0 ∧ quad? cs ≠ none
    · obtain ⟨hroom, hsome⟩ := hquad
      obtain ⟨room, rfl⟩ := Nat.exists_eq_succ_of_ne_zero hroom
      obtain ⟨rest, hrest⟩ := Option.ne_none_iff_exists'.1 hsome
      obtain ⟨q, hq, rfl, -⟩ := quad?_eq_some_iff.1 hrest
      rw [groups_quad hrest]
      exact ⟨q, rfl, Nat.le_add_left 2 room, Run.quad hq⟩
    have hnot : room = 0 ∨ quad? cs = none := by
      by_cases hroom : room = 0
      · exact Or.inl hroom
      · exact Or.inr (Classical.not_not.1 fun hsome => hquad ⟨hroom, hsome⟩)
    cases hgroup : group? cs with
    | none =>
      rw [groups_none hnot hgroup]
      exact ⟨[], rfl, Nat.zero_le _, Run.empty⟩
    | some rest =>
      obtain ⟨g, hg, rfl, -⟩ := group?_eq_some_iff.1 hgroup
      rw [groups_group hnot hgroup]
      rcases groups_false_eq room rest with heq | ⟨rest, rfl, hne, heq⟩
      · rw [heq]
        exact ⟨g, rfl, Nat.le_add_left 1 room, Run.group hg⟩
      · rw [heq]
        obtain ⟨run, hrun, hle, hgroups⟩ := groups_sound room rest
        obtain ⟨n, hn⟩ := Nat.exists_eq_succ_of_ne_zero hne
        refine ⟨g ++ ':' :: run, ?_, Nat.succ_le_succ hle, ?_⟩
        · rw [List.append_assoc, List.cons_append, ← hrun]
        · rw [hn] at hgroups ⊢
          exact Run.cons hg hgroups

/-- Groups in a row are read to their end where nothing or a `::` follows. -/
theorem groups_complete {n : Nat} {b : Bool} {run rest : List Char} (h : Run n b run) :
    ∀ {room : Nat}, n ≤ room → Ends rest → groups room true (run ++ rest) = ⟨n, b, rest⟩ := by
  -- By the derivation of the groups; a group in it is never the beginning of a quad.
  induction h with
  | empty =>
    intro room _ hends
    exact groups_of_stops (hends.stops (by decide)) hends.head?_ne_dot room
  | @group g hg =>
    intro room hle hends
    obtain ⟨room, rfl⟩ := Nat.exists_eq_add_of_le' hle
    have hstops : Stops isHexDigit rest := hends.stops (by decide)
    have hquad : quad? (g ++ rest) = none := quad?_of_hex hg.2.2 hstops hends.head?_ne_dot
    rw [groups_group (Or.inr hquad) (group?_eq_some_iff.2 ⟨g, hg, rfl, hstops⟩),
      hends.groups_false room]
  | @quad q hq =>
    intro room hle hends
    obtain ⟨room, rfl⟩ := Nat.exists_eq_add_of_le' hle
    exact groups_quad (quad?_eq_some_iff.2 ⟨q, hq, rfl, hends.stops (by decide)⟩)
  | @cons g cs n b hg _ ih =>
    intro room hle hends
    obtain ⟨room, rfl⟩ := Nat.exists_eq_add_of_le' (Nat.le_trans (Nat.le_add_left 1 (n + 1)) hle)
    have hstops : Stops isHexDigit (':' :: (cs ++ rest)) := stops_cons.2 (by decide)
    have hquad : quad? (g ++ ':' :: (cs ++ rest)) = none :=
      quad?_of_hex hg.2.2 hstops head?_colon_ne_dot
    have hmore : groups room true (cs ++ rest) = ⟨n + 1, b, rest⟩ :=
      ih (Nat.le_of_succ_le_succ hle) hends
    have hcolon : groups room false (':' :: (cs ++ rest)) = ⟨n + 1, b, rest⟩ := by
      rw [groups_colon (by rw [hmore]; exact Nat.succ_ne_zero n), hmore]
    rw [List.append_assoc, List.cons_append,
      groups_group (Or.inr hquad) (group?_eq_some_iff.2 ⟨g, hg, rfl, hstops⟩), hcolon]

/-! ## Literals -/

/-- **What is read as an IPv6 literal are the IPv6 literals.** -/
theorem isLiteral_iff {cs : List Char} : isLiteral cs = true ↔ IsLiteral cs := by
  constructor
  · intro h
    obtain ⟨front, hfront, hle, hrun⟩ := groups_sound 8 cs
    rw [isLiteral] at h
    split at h
    · next height =>
      rw [height] at hrun
      rw [List.isEmpty_iff.1 h, List.append_nil] at hfront
      subst hfront
      exact Or.inl ⟨_, hrun⟩
    next height =>
    split at h
    · exact nomatch h
    next hquad =>
    split at h
    · next rest hrest =>
      obtain ⟨back, hback, hle', hrun'⟩ := groups_sound (7 - (groups 8 true cs).count) rest
      rw [List.isEmpty_iff.1 h, List.append_nil] at hback
      subst hback
      rw [Bool.not_eq_true] at hquad
      rw [hquad] at hrun
      rw [hrest] at hfront
      -- The groups behind the `::` have the room that is left but for one zero group.
      exact Or.inr ⟨_, _, _, front, rest, hrun, hrun', by omega, hfront⟩
    · exact nomatch h
  · rintro (⟨b, hrun⟩ | ⟨m, n, b, front, back, hfront, hback, hle, rfl⟩)
    · have hall : groups 8 true cs = ⟨8, b, []⟩ := by
        have h := groups_complete hrun (Nat.le_refl 8) (Or.inl rfl)
        rwa [List.append_nil] at h
      rw [isLiteral, hall]
      rfl
    · have hbefore : groups 8 true (front ++ ':' :: ':' :: back) =
          ⟨m, false, ':' :: ':' :: back⟩ :=
        groups_complete hfront (by omega) (Or.inr ⟨back, rfl⟩)
      have hbehind : groups (7 - m) true back = ⟨n, b, []⟩ := by
        have h := groups_complete hback (show n ≤ 7 - m by omega) (Or.inl rfl)
        rwa [List.append_nil] at h
      have hm : m ≠ 8 := by omega
      rw [isLiteral, hbefore]
      simp only [if_neg hm, Bool.false_eq_true, if_false, hbehind, List.isEmpty_nil]

example : IsLiteral "::ffff:192.0.2.1".toList := isLiteral_iff.1 (by decide)

example : ¬ IsLiteral "1:2:3:4::5:6:7:8".toList := mt isLiteral_iff.2 (by decide)

/-! ## Characters of literals -/

theorem IsQuad.mem {q : List Char} (h : IsQuad q) : ∀ x ∈ q, isHexDigit x = true ∨ x = '.' := by
  obtain ⟨a, b, c, d, ⟨-, ha, -⟩, ⟨-, hb, -⟩, ⟨-, hc, -⟩, ⟨-, hd, -⟩, rfl⟩ := h
  have hoctet : ∀ {o : List Char} {x : Char}, (∀ y ∈ o, y.isDigit = true) → x ∈ o →
      isHexDigit x = true ∨ x = '.' := fun ho hx => Or.inl (isHexDigit_of_isDigit (ho _ hx))
  intro x hx
  simp only [List.mem_append, List.mem_cons] at hx
  rcases hx with hx | hx | hx | hx | hx | hx | hx
  · exact hoctet ha hx
  · exact Or.inr hx
  · exact hoctet hb hx
  · exact Or.inr hx
  · exact hoctet hc hx
  · exact Or.inr hx
  · exact hoctet hd hx

theorem count_colon_eq_zero {cs : List Char} (h : ∀ x ∈ cs, isHexDigit x = true ∨ x = '.') :
    cs.count ':' = 0 := by
  refine List.count_eq_zero.2 fun hmem => ?_
  rcases h ':' hmem with hhex | hdot
  · exact absurd hhex (by decide)
  · exact absurd hdot (by decide)

theorem Run.mem {n : Nat} {b : Bool} {cs : List Char} (h : Run n b cs) :
    ∀ x ∈ cs, (isHexDigit x = true ∨ x = '.') ∨ x = ':' := by
  induction h with
  | empty => exact fun _ hx => nomatch hx
  | group hg => exact fun x hx => Or.inl (Or.inl (hg.2.2 x hx))
  | quad hq => exact fun x hx => Or.inl (hq.mem x hx)
  | cons hg _ ih =>
    intro x hx
    rcases List.mem_append.1 hx with hx | hx
    · exact Or.inl (Or.inl (hg.2.2 x hx))
    · rcases List.mem_cons.1 hx with hx | hx
      · exact Or.inr hx
      · exact ih x hx

/-- Groups in a row have colons between them only. -/
theorem Run.count_colon_le {n : Nat} {b : Bool} {cs : List Char} (h : Run n b cs) :
    cs.count ':' ≤ n - 1 := by
  have hgroup : ∀ {g : List Char}, IsGroup g → g.count ':' = 0 := fun hg =>
    count_colon_eq_zero fun x hx => Or.inl (hg.2.2 x hx)
  induction h with
  | empty => exact Nat.le_refl 0
  | group hg => exact Nat.le_trans (Nat.le_of_eq (hgroup hg)) (Nat.zero_le _)
  | quad hq => exact Nat.le_trans (Nat.le_of_eq (count_colon_eq_zero hq.mem)) (Nat.zero_le _)
  | cons hg _ ih =>
    rw [List.count_append, List.count_cons_self, hgroup hg]
    omega

theorem IsLiteral.mem {cs : List Char} (h : IsLiteral cs) :
    ∀ x ∈ cs, (isHexDigit x = true ∨ x = '.') ∨ x = ':' := by
  rcases h with ⟨b, hrun⟩ | ⟨m, n, b, front, back, hfront, hback, -, rfl⟩
  · exact hrun.mem
  · intro x hx
    simp only [List.mem_append, List.mem_cons] at hx
    rcases hx with hx | hx | hx | hx
    · exact hfront.mem x hx
    · exact Or.inr hx
    · exact Or.inr hx
    · exact hback.mem x hx

theorem IsLiteral.colon_mem {cs : List Char} (h : IsLiteral cs) : ':' ∈ cs := by
  rcases h with ⟨b, hrun⟩ | ⟨m, n, b, front, back, -, -, -, rfl⟩
  · cases hrun with
    | cons _ _ => simp
  · simp

/-- A literal has a colon at both sides of its missing groups, if these stand at one of its ends. -/
theorem IsLiteral.count_colon_le {cs : List Char} (h : IsLiteral cs) : cs.count ':' ≤ 8 := by
  rcases h with ⟨b, hrun⟩ | ⟨m, n, b, front, back, hfront, hback, hle, rfl⟩
  · exact Nat.le_trans hrun.count_colon_le (by decide)
  · have hf : front.count ':' ≤ m - 1 := hfront.count_colon_le
    have hb : back.count ':' ≤ n - 1 := hback.count_colon_le
    rw [List.count_append, List.count_cons_self, List.count_cons_self]
    omega

theorem IsLiteral.not_mem {cs : List Char} (h : IsLiteral cs) (c : Char)
    (hc : isHexDigit c = false ∧ c ≠ '.' ∧ c ≠ ':') : c ∉ cs := by
  intro hmem
  obtain ⟨hhex, hdot, hcolon⟩ := hc
  rcases h.mem c hmem with (h | h) | h
  · rw [hhex] at h
    exact nomatch h
  · exact hdot h
  · exact hcolon h

/-! ## Lengths of literals -/

theorem IsQuad.length_le {q : List Char} (h : IsQuad q) : q.length ≤ 15 := by
  obtain ⟨a, b, c, d, ha, hb, hc, hd, rfl⟩ := h
  have hlen : a.length ≤ 3 ∧ b.length ≤ 3 ∧ c.length ≤ 3 ∧ d.length ≤ 3 :=
    ⟨ha.length_le, hb.length_le, hc.length_le, hd.length_le⟩
  simp only [List.length_append, List.length_cons]
  omega

/-- A group takes five characters at most with the colon behind it, and a quad three times as many. -/
theorem Run.length_le {n : Nat} {b : Bool} {cs : List Char} (h : Run n b cs) :
    cs.length ≤ 5 * n + 5 := by
  induction h with
  | empty => exact Nat.zero_le _
  | group hg => exact Nat.le_trans hg.2.1 (by decide)
  | quad hq => exact hq.length_le
  | cons hg _ ih =>
    have hlen := hg.2.1
    simp only [List.length_append, List.length_cons]
    omega

theorem IsLiteral.length_le {cs : List Char} (h : IsLiteral cs) : cs.length ≤ 47 := by
  rcases h with ⟨b, hrun⟩ | ⟨m, n, b, front, back, hfront, hback, hle, rfl⟩
  · exact Nat.le_trans hrun.length_le (by decide)
  · have hf : front.length ≤ 5 * m + 5 := hfront.length_le
    have hb : back.length ≤ 5 * n + 5 := hback.length_le
    simp only [List.length_append, List.length_cons]
    omega

end LibraryRegistry.Net.Ipv6
