import LibraryRegistry.Net.Uri
import LibraryRegistry.Proofs.Text.Integer
import LibraryRegistry.Proofs.Text.Prefix

/-!
# Authorities and what a scan has seen of them

The scan keeps counts; the text it came from can be told from them. Away from `@`, a text with
balanced brackets is one without brackets, or one with a single pair of them and no percent sign in
front of it.

* `Seen.step_cases` — what taking in one character can do
* `Describes.scan` — the shape of a scanned text
* `scan_plain`, `scan_flat`, `scan_bracketed` — texts that can be scanned
* `wellFormed_iff` — the hosts without colons that may stand in front of a port
* `split?_eq_some_iff`, `parse?_http` — splitting, and reading a URI
* `port?_append`, `host_bracketed`, `host_append` — the parts of an authority with a port
-/

namespace LibraryRegistry.Net.Authority

open LibraryRegistry.Text

/-! ## Characters -/

/-- A character between brackets and `@` signs that has no bearing on the port. -/
def IsFlat (c : Char) : Prop := isPlain c = true ∨ c = '%' ∨ c = ':'

theorem ne_of_isPlain {c d : Char} (hc : isPlain c = true) (hd : isPlain d = false) : c ≠ d := by
  rintro rfl
  rw [hd] at hc
  exact nomatch hc

theorem isPlain_of_isAlphanum {c : Char} (h : c.isAlphanum = true) : isPlain c = true := by
  rw [isPlain, h, Bool.true_or]

theorem isPlain_of_isDigit {c : Char} (h : c.isDigit = true) : isPlain c = true :=
  isPlain_of_isAlphanum (by rw [Char.isAlphanum, h, Bool.or_true])

theorem isEnd_of_isFlat {c : Char} (h : IsFlat c) : isEnd c = false := by
  rcases h with h | rfl | rfl
  · have hslash : c ≠ '/' := ne_of_isPlain h (by decide)
    have hquestion : c ≠ '?' := ne_of_isPlain h (by decide)
    have hhash : c ≠ '#' := ne_of_isPlain h (by decide)
    simp [isEnd, hslash, hquestion, hhash]
  · decide
  · decide

/-! ## One character -/

theorem Seen.step_plain {c : Char} (h : isPlain c = true) (seen : Seen) :
    seen.step c = some { seen with atSign := false } := by
  have hcolon : c ≠ ':' := ne_of_isPlain h (by decide)
  have hopen : c ≠ '[' := ne_of_isPlain h (by decide)
  have hclose : c ≠ ']' := ne_of_isPlain h (by decide)
  have hat : c ≠ '@' := ne_of_isPlain h (by decide)
  have hpercent : c ≠ '%' := ne_of_isPlain h (by decide)
  rw [step, if_neg hcolon, if_neg hopen, if_neg hclose, if_neg hat, if_neg hpercent, if_pos h]

theorem Seen.step_colon {seen : Seen} (h : seen.colons < maxColons) :
    seen.step ':' = some { seen with colons := seen.colons + 1, atSign := false } := by
  rw [step, if_pos rfl, if_neg (Nat.not_le.2 h)]

/-- What taking in one character can do. -/
theorem Seen.step_cases {seen seen' : Seen} {c : Char} (h : seen.step c = some seen') :
    (IsFlat c ∧ ∃ n, seen' = { seen with
      colons := n, percent := seen.percent || c == '%', atSign := false }) ∨
    (c = '[' ∧ seen.percent = false ∧ seen.opened = false ∧
      seen' = { seen with opened := true, atSign := false }) ∨
    (c = ']' ∧ seen.opened = true ∧ seen.closed = false ∧
      seen' = { seen with closed := true, colons := 0, percent := false, atSign := false }) ∨
    (c = '@' ∧ seen' = { seen with colons := 0, percent := false, atSign := true }) := by
  rw [step] at h
  by_cases hcolon : c = ':'
  · rw [if_pos hcolon] at h
    split at h
    · exact nomatch h
    · subst hcolon
      obtain rfl := Option.some.inj h
      exact Or.inl ⟨Or.inr (Or.inr rfl), seen.colons + 1, by simp⟩
  rw [if_neg hcolon] at h
  by_cases hopen : c = '['
  · rw [if_pos hopen] at h
    split at h
    · exact nomatch h
    · next hfree =>
      obtain ⟨hpercent, hopened⟩ : seen.percent = false ∧ seen.opened = false := by
        simpa using hfree
      exact Or.inr (Or.inl ⟨hopen, hpercent, hopened, (Option.some.inj h).symm⟩)
  rw [if_neg hopen] at h
  by_cases hclose : c = ']'
  · rw [if_pos hclose] at h
    split at h
    · exact nomatch h
    · next hfree =>
      obtain ⟨hopened, hclosed⟩ : seen.opened = true ∧ seen.closed = false := by
        simpa using hfree
      exact Or.inr (Or.inr (Or.inl ⟨hclose, hopened, hclosed, (Option.some.inj h).symm⟩))
  rw [if_neg hclose] at h
  by_cases hat : c = '@'
  · rw [if_pos hat] at h
    exact Or.inr (Or.inr (Or.inr ⟨hat, (Option.some.inj h).symm⟩))
  rw [if_neg hat] at h
  by_cases hpercent : c = '%'
  · rw [if_pos hpercent] at h
    subst hpercent
    obtain rfl := Option.some.inj h
    exact Or.inl ⟨Or.inr (Or.inl rfl), seen.colons, by simp⟩
  rw [if_neg hpercent] at h
  split at h
  · next hplain =>
    obtain rfl := Option.some.inj h
    refine Or.inl ⟨Or.inl hplain, seen.colons, ?_⟩
    rw [beq_eq_false_iff_ne.2 hpercent, Bool.or_false]
  · exact nomatch h

/-! ## The shape of a scanned text -/

/-- A text up to the last bracket in it, with what is known of its brackets: there is none; or one
is opened behind a text without percent signs; or this one is closed again. -/
inductive Brackets : (opened closed : Bool) → List Char → Prop
  | none : Brackets false false []
  | opened {x : List Char} : (∀ c ∈ x, IsFlat c) → '%' ∉ x → Brackets true false (x ++ ['['])
  | closed {x y : List Char} : (∀ c ∈ x, IsFlat c) → '%' ∉ x → (∀ c ∈ y, IsFlat c) →
      Brackets true true (x ++ ['['] ++ y ++ [']'])

theorem Brackets.of_not_opened {closed : Bool} {done : List Char} (h : Brackets false closed done) :
    closed = false ∧ done = [] := by
  cases h
  exact ⟨rfl, rfl⟩

/-- What a scan of a text without `@` signs tells of it: its brackets, and whether there is a percent
sign behind them. -/
def Describes (seen : Seen) (cs : List Char) : Prop :=
  ∃ done rest, cs = done ++ rest ∧ Brackets seen.opened seen.closed done ∧
    (∀ c ∈ rest, IsFlat c) ∧ (seen.percent = false → '%' ∉ rest)

theorem Describes.nil : Describes {} [] :=
  ⟨[], [], rfl, Brackets.none, (fun _ h => nomatch h), fun _ h => nomatch h⟩

theorem forall_mem_concat {P : Char → Prop} {cs : List Char} {c : Char} (hcs : ∀ d ∈ cs, P d)
    (hc : P c) : ∀ d ∈ cs ++ [c], P d := by
  intro d hd
  rcases List.mem_append.1 hd with hd | hd
  · exact hcs d hd
  · rw [List.mem_singleton.1 hd]
    exact hc

/-- Taking in a character keeps the description true. -/
theorem Describes.step {seen seen' : Seen} {cs : List Char} {c : Char} (h : Describes seen cs)
    (hat : c ≠ '@') (hstep : seen.step c = some seen') : Describes seen' (cs ++ [c]) := by
  obtain ⟨done, rest, rfl, hdone, hrest, hpercent⟩ := h
  rcases Seen.step_cases hstep with ⟨hflat, n, rfl⟩ | ⟨rfl, hclean, hopened, rfl⟩ |
    ⟨rfl, hopened, hclosed, rfl⟩ | ⟨hat', -⟩
  -- A flat character goes behind the last bracket, where the percent sign is remembered.
  · refine ⟨done, rest ++ [c], List.append_assoc .., hdone, forall_mem_concat hrest hflat, ?_⟩
    intro hfalse
    obtain ⟨hclean, hc⟩ := Bool.or_eq_false_iff.1 hfalse
    intro hmem
    rcases List.mem_append.1 hmem with hmem | hmem
    · exact hpercent hclean hmem
    · rw [← List.mem_singleton.1 hmem] at hc
      exact nomatch hc
  -- The bracket is the first one, so what stands in front of it is all of the text.
  · rw [hopened] at hdone
    obtain ⟨hclosed, rfl⟩ := hdone.of_not_opened
    refine ⟨rest ++ ['['], [], (List.append_nil _).symm, ?_, (fun _ h => nomatch h),
      fun _ h => nomatch h⟩
    show Brackets true seen.closed (rest ++ ['['])
    rw [hclosed]
    exact Brackets.opened hrest (hpercent hclean)
  · rw [hopened, hclosed] at hdone
    cases hdone with
    | @opened x hx hxclean =>
      refine ⟨x ++ ['['] ++ rest ++ [']'], [], (List.append_nil _).symm, ?_, (fun _ h => nomatch h),
        fun _ h => nomatch h⟩
      show Brackets seen.opened true (x ++ ['['] ++ rest ++ [']'])
      rw [hopened]
      exact Brackets.closed hx hxclean hrest
  · exact absurd hat' hat

/-- Scanning on keeps the description true. -/
theorem Describes.scan : ∀ {cs done : List Char} {seen seen' : Seen}, Describes seen done → '@' ∉ cs →
    cs.foldlM Seen.step seen = some seen' → Describes seen' (done ++ cs)
  | [], done, seen, seen', h, _, hscan => by
    obtain rfl := Option.some.inj hscan
    rw [List.append_nil]
    exact h
  | c :: cs, done, seen, seen', h, hat, hscan => by
    rw [List.foldlM_cons] at hscan
    obtain ⟨mid, hstep, hscan⟩ := Option.bind_eq_some_iff.1 hscan
    have hc : c ≠ '@' := fun heq => hat (heq ▸ List.mem_cons_self)
    have hmid : Describes mid (done ++ [c]) := h.step hc hstep
    have hcs : Describes seen' (done ++ [c] ++ cs) :=
      hmid.scan (fun hmem => hat (List.mem_cons_of_mem _ hmem)) hscan
    rw [List.append_assoc, List.singleton_append] at hcs
    exact hcs

/-! ## Texts that can be scanned -/

theorem scan_plain {n : Nat} {opened closed percent : Bool} : ∀ {cs : List Char},
    (∀ c ∈ cs, isPlain c = true) →
      cs.foldlM Seen.step ⟨n, opened, closed, percent, false⟩ =
        some ⟨n, opened, closed, percent, false⟩
  | [], _ => rfl
  | c :: cs, h => by
    rw [List.foldlM_cons, Seen.step_plain (h c List.mem_cons_self)]
    exact scan_plain fun d hd => h d (List.mem_cons_of_mem _ hd)

theorem scan_flat {opened closed : Bool} : ∀ (cs : List Char) (n : Nat) (percent : Bool),
    (∀ c ∈ cs, IsFlat c) → n + cs.count ':' ≤ maxColons →
      cs.foldlM Seen.step ⟨n, opened, closed, percent, false⟩ =
        some ⟨n + cs.count ':', opened, closed, percent || cs.contains '%', false⟩
  | [], n, percent, _, _ => by
    rw [List.foldlM_nil, List.count_nil, List.contains_nil, Bool.or_false]
    rfl
  | c :: cs, n, percent, hcs, hcolons => by
    have hrest : ∀ d ∈ cs, IsFlat d := fun d hd => hcs d (List.mem_cons_of_mem _ hd)
    rw [List.foldlM_cons, List.contains_cons]
    rcases hcs c List.mem_cons_self with hplain | rfl | rfl
    · have hcolon : c ≠ ':' := ne_of_isPlain hplain (by decide)
      have hpercent : '%' ≠ c := (ne_of_isPlain hplain (by decide)).symm
      rw [List.count_cons_of_ne hcolon] at hcolons ⊢
      rw [Seen.step_plain hplain, beq_eq_false_iff_ne.2 hpercent, Bool.false_or]
      exact scan_flat cs n percent hrest hcolons
    · rw [List.count_cons_of_ne (by decide)] at hcolons ⊢
      rw [beq_self_eq_true, Bool.true_or, Bool.or_true]
      have ih : cs.foldlM Seen.step ⟨n, opened, closed, true, false⟩ =
          some ⟨n + cs.count ':', opened, closed, true, false⟩ := by
        rw [scan_flat cs n true hrest hcolons, Bool.true_or]
      exact ih
    · rw [List.count_cons_self] at hcolons ⊢
      rw [Seen.step_colon (show n < maxColons by omega), beq_eq_false_iff_ne.2 (by decide),
        Bool.false_or, Nat.add_comm (cs.count ':'), ← Nat.add_assoc]
      exact scan_flat cs (n + 1) percent hrest (by omega)

theorem not_mem_of_isPlain {cs : List Char} {d : Char} (h : ∀ c ∈ cs, isPlain c = true)
    (hd : isPlain d = false) : d ∉ cs :=
  fun hmem => ne_of_isPlain (h d hmem) hd rfl

/-- One pair of brackets, with nothing in front of it that is not allowed there. -/
theorem scan_bracketed {x y z : List Char} (hx : ∀ c ∈ x, isPlain c = true)
    (hy : ∀ c ∈ y, IsFlat c) (hcolons : y.count ':' ≤ maxColons) (hz : ∀ c ∈ z, isPlain c = true) :
    (x ++ '[' :: (y ++ ']' :: z)).foldlM Seen.step {} = some ⟨0, true, true, false, false⟩ := by
  rw [List.foldlM_append]
  show x.foldlM Seen.step ⟨0, false, false, false, false⟩ >>= _ = _
  rw [scan_plain hx]
  show (y ++ ']' :: z).foldlM Seen.step ⟨0, true, false, false, false⟩ = _
  rw [List.foldlM_append, scan_flat y 0 false hy (by rw [Nat.zero_add]; exact hcolons)]
  show z.foldlM Seen.step ⟨0, true, true, false, false⟩ = _
  exact scan_plain hz

/-! ## Authorities -/

/-- A text that is scanned to its end. -/
def WellFormed (authority : List Char) : Prop :=
  ∃ seen, authority.foldlM Seen.step {} = some seen ∧ seen.isComplete = true

theorem isEnd_of_scan : ∀ {cs : List Char} {seen seen' : Seen},
    cs.foldlM Seen.step seen = some seen' → ∀ c ∈ cs, isEnd c = false
  | [], _, _, _, _, hc => nomatch hc
  | d :: cs, seen, seen', h, c, hc => by
    rw [List.foldlM_cons] at h
    obtain ⟨mid, hstep, hscan⟩ := Option.bind_eq_some_iff.1 h
    rcases List.mem_cons.1 hc with rfl | hc
    · rcases Seen.step_cases hstep with ⟨hflat, -⟩ | ⟨rfl, -⟩ | ⟨rfl, -⟩ | ⟨rfl, -⟩
      · exact isEnd_of_isFlat hflat
      all_goals decide
    · exact isEnd_of_scan hscan c hc

/-- **Splitting finds the well-formed authority that goes up to the first end.** -/
theorem split?_eq_some_iff {cs authority rest : List Char} :
    split? cs = some (authority, rest) ↔
      cs = authority ++ rest ∧ authority ≠ [] ∧ WellFormed authority ∧
        Stops (fun c => !isEnd c) rest := by
  constructor
  · intro h
    obtain ⟨seen, hscan, h⟩ := Option.bind_eq_some_iff.1 h
    split at h
    · next hcomplete =>
      obtain ⟨rfl, rfl⟩ := Prod.mk.inj (Option.some.inj h)
      obtain ⟨hcomplete, hne⟩ := by
        simpa only [Bool.and_eq_true, decide_eq_true_eq] using hcomplete
      exact ⟨List.takeWhile_append_dropWhile.symm, hne, ⟨seen, hscan, hcomplete⟩,
        stops_dropWhile _ cs⟩
    · exact nomatch h
  · rintro ⟨rfl, hne, ⟨seen, hscan, hcomplete⟩, hstops⟩
    have hin : ∀ c ∈ authority, (!isEnd c) = true := fun c hc => by
      rw [isEnd_of_scan hscan c hc]
      rfl
    have htake := takeWhile_of_stops hin hstops
    have hdrop := dropWhile_of_stops hin hstops
    refine Option.bind_eq_some_iff.2 ⟨seen, by rw [htake]; exact hscan, ?_⟩
    simp [htake, hdrop, hcomplete, hne]

/-! ## Hosts in front of a port -/

/-- The digits of a port. -/
def portDigits (port : UInt16) : List Char := (toString port.toNat).toList

theorem isPlain_of_mem_portDigits {port : UInt16} : ∀ c ∈ portDigits port, isPlain c = true :=
  fun _ hc => isPlain_of_isDigit (isDigit_of_mem_toString hc)

theorem length_portDigits_le (port : UInt16) : (portDigits port).length ≤ 5 := by
  have hport : port.toNat < 65536 := port.toNat_lt
  rw [portDigits, toList_toString, Nat.length_toDigits_le_iff (by decide) (by decide)]
  omega

/-- A text that can be scanned is an authority with a port behind it, if it has balanced brackets
and leaves no colon and no percent sign open. -/
theorem WellFormed.of_scan {cs : List Char} {bracketed : Bool}
    (h : cs.foldlM Seen.step {} = some ⟨0, bracketed, bracketed, false, false⟩) (port : UInt16) :
    WellFormed (cs ++ ':' :: portDigits port) := by
  refine ⟨⟨1, bracketed, bracketed, false, false⟩, ?_, by cases bracketed <;> rfl⟩
  rw [List.foldlM_append, h]
  show (portDigits port).foldlM Seen.step ⟨1, bracketed, bracketed, false, false⟩ = _
  exact scan_plain isPlain_of_mem_portDigits

/-- What stands in front of the port has balanced brackets and no percent sign behind them. -/
theorem WellFormed.describes {cs : List Char} {port : UInt16} (hat : '@' ∉ cs)
    (h : WellFormed (cs ++ ':' :: portDigits port)) :
    ∃ seen, Describes seen cs ∧ seen.opened = seen.closed ∧ seen.percent = false := by
  obtain ⟨last, hscan, hcomplete⟩ := h
  rw [List.foldlM_append] at hscan
  obtain ⟨seen, hcs, hport⟩ := Option.bind_eq_some_iff.1 hscan
  rw [List.foldlM_cons] at hport
  obtain ⟨mid, hcolon, hdigits⟩ := Option.bind_eq_some_iff.1 hport
  refine ⟨seen, Describes.nil.scan hat hcs, ?_⟩
  -- From the colon on, nothing changes but the number of colons.
  obtain ⟨n, rfl⟩ : ∃ n, mid = ⟨n, seen.opened, seen.closed, seen.percent, false⟩ := by
    rcases Seen.step_cases hcolon with ⟨-, n, hmid⟩ | ⟨hc, -⟩ | ⟨hc, -⟩ | ⟨hc, -⟩
    · refine ⟨n, ?_⟩
      rw [hmid, show (':' == '%') = false by decide, Bool.or_false]
    all_goals exact absurd hc (by decide)
  rw [scan_plain isPlain_of_mem_portDigits] at hdigits
  obtain rfl := Option.some.inj hdigits
  simp only [Seen.isComplete, Bool.and_eq_true, beq_iff_eq, Bool.not_eq_true'] at hcomplete
  exact ⟨hcomplete.1.1.1, hcomplete.2⟩

/-- A host without colons: plain characters, or these with one pair of brackets somewhere, where
percent signs may stand, too. -/
inductive HostShape : List Char → Prop
  | plain {cs : List Char} : (∀ c ∈ cs, isPlain c = true) → HostShape cs
  | bracketed {x y z : List Char} : (∀ c ∈ x, isPlain c = true) →
      (∀ c ∈ y, isPlain c = true ∨ c = '%') → (∀ c ∈ z, isPlain c = true) →
      HostShape (x ++ '[' :: (y ++ ']' :: z))

theorem isPlain_of_isFlat {cs : List Char} (h : ∀ c ∈ cs, IsFlat c) (hpercent : '%' ∉ cs)
    (hcolon : ':' ∉ cs) : ∀ c ∈ cs, isPlain c = true := by
  intro c hc
  rcases h c hc with hplain | rfl | rfl
  · exact hplain
  · exact absurd hc hpercent
  · exact absurd hc hcolon

/-- **The colon-free hosts that may stand in front of a port.** -/
theorem wellFormed_iff {cs : List Char} {port : UInt16} (hcolon : ':' ∉ cs) (hat : '@' ∉ cs) :
    WellFormed (cs ++ ':' :: portDigits port) ↔ HostShape cs := by
  constructor
  · intro h
    obtain ⟨seen, ⟨done, z, rfl, hdone, hz, hpercent⟩, hbalanced, hclean⟩ := h.describes hat
    have hzcolon : ':' ∉ z := fun hmem => hcolon (List.mem_append_right _ hmem)
    have hzplain : ∀ c ∈ z, isPlain c = true := isPlain_of_isFlat hz (hpercent hclean) hzcolon
    rw [hbalanced] at hdone
    generalize seen.closed = closed at hdone
    cases hdone with
    | none => exact HostShape.plain hzplain
    | @closed x y hx hxclean hy =>
      simp only [List.mem_append, not_or] at hcolon
      have hxplain : ∀ c ∈ x, isPlain c = true := isPlain_of_isFlat hx hxclean hcolon.1.1.1.1
      have hyplain : ∀ c ∈ y, isPlain c = true ∨ c = '%' := fun c hc => by
        rcases hy c hc with h | h | rfl
        · exact Or.inl h
        · exact Or.inr h
        · exact absurd hc hcolon.1.1.2
      have hshape := HostShape.bracketed hxplain hyplain hzplain
      simpa using hshape
  · intro h
    cases h with
    | plain h => exact WellFormed.of_scan (scan_plain h) port
    | @bracketed x y z hx hy hz =>
      have hyflat : ∀ c ∈ y, IsFlat c := fun c hc => (hy c hc).imp_right Or.inl
      have hycolon : y.count ':' = 0 := by
        refine List.count_eq_zero.2 fun hmem => hcolon ?_
        simp [hmem]
      exact WellFormed.of_scan (scan_bracketed hx hyflat (by omega) hz) port

/-! ## The parts of an authority -/

theorem afterLast_of_not_mem {c : Char} {cs : List Char} (h : c ∉ cs) : afterLast c cs = cs := by
  have hne : ∀ d ∈ cs.reverse, decide (d ≠ c) = true := fun d hd =>
    decide_eq_true fun heq => h (heq ▸ List.mem_reverse.1 hd)
  have htake := takeWhile_of_stops hne stops_nil
  rw [List.append_nil] at htake
  rw [afterLast, htake, List.reverse_reverse]

theorem afterLast_append {c : Char} {cs ds : List Char} (h : c ∉ ds) :
    afterLast c (cs ++ c :: ds) = ds := by
  have hne : ∀ d ∈ ds.reverse, decide (d ≠ c) = true := fun d hd =>
    decide_eq_true fun heq => h (heq ▸ List.mem_reverse.1 hd)
  have hstops : Stops (fun d => decide (d ≠ c)) (c :: cs.reverse) := stops_cons.2 (by simp)
  rw [afterLast, List.reverse_append, List.reverse_cons, List.append_assoc, List.singleton_append,
    takeWhile_of_stops hne hstops, List.reverse_reverse]

theorem not_mem_afterLast (c : Char) (cs : List Char) : c ∉ afterLast c cs := by
  intro hmem
  have hne : decide (c ≠ c) = true := of_mem_takeWhile (List.mem_reverse.1 hmem)
  exact absurd rfl (of_decide_eq_true hne)

/-- **The port behind a text is read back.** -/
theorem port?_append (cs : List Char) (port : UInt16) :
    port? (cs ++ ':' :: portDigits port) = some port := by
  have hcolon : ':' ∉ portDigits port := not_mem_of_isPlain isPlain_of_mem_portDigits (by decide)
  have hcontains : (cs ++ ':' :: portDigits port).contains ':' = true := by simp
  have hread : readNat 65535 (portDigits port) = .ok port.toNat :=
    readNat_toString (Nat.le_of_lt_succ port.toNat_lt)
  rw [port?, if_pos hcontains, afterLast_append hcolon, hread]
  exact congrArg some UInt16.ofNat_toNat

/-- There is no user part in a host. -/
theorem at_not_mem_host (authority : List Char) : '@' ∉ host authority := by
  have hlast : '@' ∉ afterLast '@' authority := not_mem_afterLast '@' authority
  rw [host]
  split
  · intro hmem
    rcases List.mem_append.1 hmem with hmem | hmem
    · exact hlast (List.takeWhile_subset _ hmem)
    · exact absurd (List.mem_singleton.1 hmem) (by decide)
  · exact fun hmem => hlast (List.takeWhile_subset _ hmem)

theorem host_bracketed {cs rest : List Char} (hclose : ']' ∉ cs) (hat : '@' ∉ cs)
    (hrest : '@' ∉ rest) : host ('[' :: (cs ++ ']' :: rest)) = '[' :: (cs ++ [']']) := by
  have hnot : '@' ∉ '[' :: (cs ++ ']' :: rest) := by simp [hat, hrest]
  have hin : ∀ c ∈ '[' :: cs, decide (c ≠ ']') = true := by
    intro c hc
    refine decide_eq_true ?_
    rintro rfl
    rcases List.mem_cons.1 hc with hc | hc
    · exact absurd hc (by decide)
    · exact hclose hc
  have hstops : Stops (fun c => decide (c ≠ ']')) (']' :: rest) := stops_cons.2 (by decide)
  have htake := takeWhile_of_stops hin hstops
  rw [host, afterLast_of_not_mem hnot]
  show ('[' :: cs ++ ']' :: rest).takeWhile (fun c => decide (c ≠ ']')) ++ [']'] = _
  rw [htake, List.cons_append]

theorem host_append {cs rest : List Char} (hcolon : ':' ∉ cs) (hat : '@' ∉ cs) (hrest : '@' ∉ rest)
    (hopen : cs.head? ≠ some '[') : host (cs ++ ':' :: rest) = cs := by
  have hnot : '@' ∉ cs ++ ':' :: rest := by simp [hat, hrest]
  have hin : ∀ c ∈ cs, decide (c ≠ ':') = true := fun c hc =>
    decide_eq_true fun heq => hcolon (heq ▸ hc)
  have hstops : Stops (fun c => decide (c ≠ ':')) (':' :: rest) := stops_cons.2 (by decide)
  rw [host, afterLast_of_not_mem hnot]
  split
  · next tail heq =>
    cases cs with
    | nil => exact absurd (List.cons.inj heq).1 (by decide)
    | cons c cs => exact absurd (congrArg some (List.cons.inj heq).1) hopen
  · exact takeWhile_of_stops hin hstops

theorem colon_mem_of_port? {authority : List Char} {port : UInt16}
    (h : port? authority = some port) : ':' ∈ authority := by
  rw [port?] at h
  split at h
  · next hcontains => exact List.contains_iff_mem.1 hcontains
  · exact nomatch h

end LibraryRegistry.Net.Authority

namespace LibraryRegistry.Net.Uri

/-! ## URIs -/

/-- Reading a URI of the http scheme is splitting what stands behind the scheme. -/
theorem parse?_http {s : String} {uri : Uri} :
    parse? ("http://" ++ s) = some uri ↔ ("http://" ++ s).utf8ByteSize ≤ maxBytes ∧
      ∃ rest, Authority.split? s.toList = some (uri.authority, rest) ∧
        (rest = [] ∧ uri.target = noTarget ∨
          rest ≠ [] ∧ Target.parse (String.ofList rest) = .ok uri.target) := by
  have hlist : ("http://" ++ s).toList = 'h' :: 't' :: 't' :: 'p' :: ':' :: '/' :: '/' :: s.toList := by
    rw [String.toList_append]
    rfl
  constructor
  · intro h
    rw [parse?] at h
    split at h
    · exact nomatch h
    next hbytes =>
    rw [hlist] at h
    obtain ⟨⟨authority, rest⟩, hsplit, h⟩ := Option.bind_eq_some_iff.1 h
    refine ⟨Nat.le_of_not_lt hbytes, rest, ?_⟩
    by_cases hrest : rest = []
    · simp only [if_pos hrest] at h
      obtain rfl := Option.some.inj h
      exact ⟨hsplit, Or.inl ⟨hrest, rfl⟩⟩
    · simp only [if_neg hrest] at h
      split at h
      · next target htarget =>
        obtain rfl := Option.some.inj h
        exact ⟨hsplit, Or.inr ⟨hrest, htarget⟩⟩
      · exact nomatch h
  · rintro ⟨hbytes, rest, hsplit, htarget⟩
    rw [parse?, if_neg (Nat.not_lt.2 hbytes), hlist]
    refine Option.bind_eq_some_iff.2 ⟨_, hsplit, ?_⟩
    rcases htarget with ⟨hrest, htarget⟩ | ⟨hrest, htarget⟩
    · simp only [if_pos hrest, ← htarget]
    · simp only [if_neg hrest, htarget]

end LibraryRegistry.Net.Uri
