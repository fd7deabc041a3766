import LibraryRegistry.Endpoint
import LibraryRegistry.Proofs.Net.Ipv6
import LibraryRegistry.Proofs.Net.Uri
import LibraryRegistry.Proofs.Text.Ascii

/-!
# The hosts of addresses

An address is checked by reading its URI back. Nothing but the shape of the host decides what comes
of that: the part of a URI in front of the port is a name, an IPv6 literal in brackets, or one of
the texts with brackets that a scan lets through.

* `bareHost_cases`, `dropBrackets_of_ends`, `dropBrackets_bracketed` — taking brackets away
* `authority_eq_of_split` — an address that is read back is all authority
* `isAddress_iff_wellFormed` — the check of an address, without the URI
* `isAddress_iff`, `isUriHost_uriHost_iff` — the hosts that pass the check
-/

namespace LibraryRegistry

open Net Net.Authority Net.Ipv6 Text

/-! ## Brackets -/

theorem bareHost_bracketed (cs : List Char) : bareHost ('[' :: (cs ++ [']'])) = cs := by
  rw [bareHost, if_pos (List.getLast?_concat ..), List.dropLast_concat]

theorem bareHost_of_head? {cs : List Char} (h : cs.head? ≠ some '[') : bareHost cs = cs := by
  rw [bareHost.eq_def]
  split
  · exact absurd rfl h
  · rfl

/-- At most one pair of brackets is taken away. -/
theorem bareHost_cases (cs : List Char) : bareHost cs = cs ∨ cs = '[' :: (bareHost cs ++ [']']) := by
  rw [bareHost.eq_def]
  split
  · next rest =>
    split
    · next hlast =>
      obtain ⟨front, rfl⟩ := List.getLast?_eq_some_iff.1 hlast
      right
      rw [List.dropLast_concat]
    · exact Or.inl rfl
  · exact Or.inl rfl

theorem bareHost_of_getLast? {cs : List Char} (h : cs.getLast? ≠ some ']') : bareHost cs = cs := by
  rcases bareHost_cases cs with heq | heq
  · exact heq
  · rw [heq, ← List.cons_append, List.getLast?_concat] at h
    exact absurd rfl h

theorem mem_bareHost {cs : List Char} {c : Char} (h : c ∈ cs) (hopen : c ≠ '[') (hclose : c ≠ ']') :
    c ∈ bareHost cs := by
  rcases bareHost_cases cs with heq | heq
  · rw [heq]
    exact h
  · rw [heq] at h
    simpa [hopen, hclose] using h

theorem mem_of_mem_bareHost {cs : List Char} {c : Char} (h : c ∈ bareHost cs) : c ∈ cs := by
  rcases bareHost_cases cs with heq | heq
  · rwa [heq] at h
  · rw [heq]
    exact List.mem_cons_of_mem _ (List.mem_append_left _ h)

theorem mem_of_mem_dropBrackets {cs : List Char} {c : Char} (h : c ∈ dropBrackets cs) : c ∈ cs := by
  have hback := List.dropWhile_subset _ (List.mem_reverse.1 h)
  exact List.dropWhile_subset _ (List.mem_reverse.1 hback)

theorem dropWhile_of_head? {c : Char} {cs : List Char} (h : cs.head? ≠ some c) :
    cs.dropWhile (· == c) = cs := by
  cases cs with
  | nil => rfl
  | cons d cs =>
    have hne : d ≠ c := fun heq => h (congrArg some heq)
    rw [List.dropWhile_cons_of_neg (by rw [beq_eq_false_iff_ne.2 hne]; exact Bool.false_ne_true)]

theorem dropBrackets_of_ends {cs : List Char} (hopen : cs.head? ≠ some '[')
    (hclose : cs.getLast? ≠ some ']') : dropBrackets cs = cs := by
  have hback : cs.reverse.head? ≠ some ']' := by rwa [List.head?_reverse]
  rw [dropBrackets, dropWhile_of_head? hopen, dropWhile_of_head? hback, List.reverse_reverse]

theorem dropBrackets_bracketed {cs : List Char} (hopen : '[' ∉ cs) (hclose : ']' ∉ cs) :
    dropBrackets ('[' :: (cs ++ [']'])) = cs := by
  have hfront : (cs ++ [']']).head? ≠ some '[' := by
    intro h
    have hmem := List.mem_of_head? h
    simp [hopen] at hmem
  have hback : cs.reverse.head? ≠ some ']' := by
    intro h
    exact hclose (List.mem_reverse.1 (List.mem_of_head? h))
  rw [dropBrackets, List.dropWhile_cons_of_pos rfl, dropWhile_of_head? hfront, List.reverse_concat,
    List.dropWhile_cons_of_pos rfl, dropWhile_of_head? hback, List.reverse_reverse]

theorem getLast?_dropBrackets (cs : List Char) : (dropBrackets cs).getLast? ≠ some ']' := by
  rw [dropBrackets, List.getLast?_reverse]
  intro h
  have hstops := stops_dropWhile (· == ']') (cs.dropWhile (· == '[')).reverse ']' h
  exact nomatch hstops

/-! ## Texts -/

/-- The part of a URI in front of the port: the host, in brackets if it is an IPv6 literal without
any. -/
def uriHost (host : List Char) : List Char :=
  if host.contains ':' && host.head? != some '[' then '[' :: (host ++ [']']) else host

theorem toList_renderAddress (host : String) (port : UInt16) :
    (renderAddress host port).toList = uriHost host.toList ++ ':' :: portDigits port := by
  rw [renderAddress, uriHost]
  split
  · simp [portDigits]
  · simp [portDigits]

theorem uriHost_of_colon_not_mem {cs : List Char} (h : ':' ∉ cs) : uriHost cs = cs := by
  rw [uriHost, if_neg]
  simp [h]

theorem uriHost_bracketed (cs : List Char) : uriHost ('[' :: cs) = '[' :: cs := by
  rw [uriHost, if_neg]
  simp

/-- Putting brackets around a host is for good, and does not matter to the check of the host. -/
theorem bareHost_uriHost (cs : List Char) : bareHost (uriHost cs) = bareHost cs := by
  rw [uriHost]
  split
  · next h =>
    have hopen : cs.head? ≠ some '[' := by
      simp only [Bool.and_eq_true, bne_iff_ne] at h
      exact h.2
    rw [bareHost_bracketed, bareHost_of_head? hopen]
  · rfl

theorem uriHost_uriHost (cs : List Char) : uriHost (uriHost cs) = uriHost cs := by
  by_cases h : (cs.contains ':' && cs.head? != some '[') = true
  · rw [uriHost.eq_def cs, if_pos h, uriHost_bracketed]
  · rw [uriHost.eq_def cs, if_neg h, uriHost, if_neg h]

/-! ## Reading an address back -/

/-- The authority of an address. -/
def authorityOf (host : List Char) (port : UInt16) : List Char :=
  uriHost host ++ ':' :: portDigits port

/-- An authority that goes up to the first end, and has a colon, leaves no end in a host without. -/
theorem not_isEnd_of_split {host rest front back : List Char} (hcolon : ':' ∉ host)
    (heq : host ++ ':' :: rest = front ++ back) (hfront : ∀ c ∈ front, isEnd c = false)
    (hback : Stops (fun c => !isEnd c) back) (hmem : ':' ∈ front) : ∀ c ∈ host, isEnd c = false := by
  have hin : ∀ c ∈ front, (!isEnd c) = true := fun c hc => by rw [hfront c hc]; rfl
  by_cases hdrop : host.dropWhile (fun c => !isEnd c) = []
  · intro c hc
    rw [← List.takeWhile_append_dropWhile (p := fun c => !isEnd c) (l := host), hdrop,
      List.append_nil] at hc
    simpa using of_mem_takeWhile hc
  -- Cut at an end in the host, the front is a part of the host, which has no colon.
  · exfalso
    obtain ⟨d, tail, htail⟩ := List.exists_cons_of_ne_nil hdrop
    have hd : Stops (fun c => !isEnd c) (d :: (tail ++ ':' :: rest)) := by
      have hstops := stops_dropWhile (fun c => !isEnd c) host
      rw [htail] at hstops
      exact stops_cons.2 (stops_cons.1 hstops)
    have hcut : host.takeWhile (fun c => !isEnd c) ++ d :: (tail ++ ':' :: rest) = front ++ back := by
      rw [← heq, ← List.cons_append, ← htail, ← List.append_assoc,
        List.takeWhile_append_dropWhile]
    obtain ⟨hsame, -⟩ := append_inj_of_stops (fun c => of_mem_takeWhile) hin hd hback hcut
    rw [← hsame] at hmem
    exact hcolon (List.takeWhile_subset _ hmem)

theorem isFlat_of_isLiteral {cs : List Char} (h : IsLiteral cs) : ∀ c ∈ cs, IsFlat c := by
  intro c hc
  rcases h.mem c hc with (hhex | rfl) | hcolon
  · exact Or.inl (isPlain_of_isAlphanum (isAlphanum_of_isHexDigit hhex))
  · exact Or.inl (by decide)
  · exact Or.inr (Or.inr hcolon)

/-- There is no end in an address that is read back, and so its whole text is the authority. -/
theorem authority_eq_of_split {host authority rest : List Char} {port port' : UInt16}
    (hliteral : ':' ∈ bareHost host → IsLiteral (bareHost host))
    (hsplit : split? (authorityOf host port) = some (authority, rest))
    (hport : Authority.port? authority = some port') :
    authority = authorityOf host port ∧ rest = [] := by
  obtain ⟨heq, -, ⟨seen, hscan, -⟩, hstops⟩ := split?_eq_some_iff.1 hsplit
  have hfront : ∀ c ∈ authority, isEnd c = false := isEnd_of_scan hscan
  -- A host with colons is a literal; without, only the port has a colon.
  have hhost : ∀ c ∈ uriHost host, isEnd c = false := by
    by_cases hcolon : ':' ∈ host
    · have hbare : IsLiteral (bareHost host) :=
        hliteral (mem_bareHost hcolon (by decide) (by decide))
      intro c hc
      by_cases hopen : c = '['
      · rw [hopen]; decide
      by_cases hclose : c = ']'
      · rw [hclose]; decide
      have hmem := mem_bareHost hc hopen hclose
      rw [bareHost_uriHost] at hmem
      exact isEnd_of_isFlat (isFlat_of_isLiteral hbare c hmem)
    · rw [authorityOf, uriHost_of_colon_not_mem hcolon] at heq
      rw [uriHost_of_colon_not_mem hcolon]
      exact not_isEnd_of_split hcolon heq hfront hstops (colon_mem_of_port? hport)
  have htext : ∀ c ∈ authorityOf host port, isEnd c = false := by
    intro c hc
    rcases List.mem_append.1 hc with hc | hc
    · exact hhost c hc
    rcases List.mem_cons.1 hc with rfl | hc
    · decide
    · exact isEnd_of_isFlat (Or.inl (isPlain_of_mem_portDigits c hc))
  have hall : ∀ c ∈ authorityOf host port, (!isEnd c) = true := fun c hc => by rw [htext c hc]; rfl
  have hin : ∀ c ∈ authority, (!isEnd c) = true := fun c hc => by rw [hfront c hc]; rfl
  have hcut : authorityOf host port ++ [] = authority ++ rest := by rw [List.append_nil, heq]
  obtain ⟨hsame, hrest⟩ := append_inj_of_stops hall hin stops_nil hstops hcut
  exact ⟨hsame.symm, hrest.symm⟩

/-- An address with a well-formed authority makes a URI without a target. -/
theorem parse?_renderUri {host : String} {port : UInt16}
    (hbytes : (renderUri host port).utf8ByteSize ≤ Uri.maxBytes)
    (hwf : WellFormed (authorityOf host.toList port)) :
    Uri.parse? (renderUri host port) = some ⟨authorityOf host.toList port, Uri.noTarget⟩ := by
  refine Uri.parse?_http.2 ⟨hbytes, [], ?_, Or.inl ⟨rfl, rfl⟩⟩
  rw [toList_renderAddress]
  refine split?_eq_some_iff.2 ⟨(List.append_nil _).symm, ?_, hwf, stops_nil⟩
  simp [authorityOf]

/-- The check of an address, without the URI. -/
theorem isAddress_iff_wellFormed {host : String} {port : UInt16} :
    isAddress host port = true ↔
      (renderUri host port).utf8ByteSize ≤ Uri.maxBytes ∧
      (':' ∈ bareHost host.toList → IsLiteral (bareHost host.toList)) ∧
      WellFormed (authorityOf host.toList port) ∧
      dropBrackets (Authority.host (authorityOf host.toList port)) = bareHost host.toList := by
  have htext : (renderAddress host port).toList = authorityOf host.toList port :=
    toList_renderAddress host port
  constructor
  · intro h
    rw [isAddress] at h
    split at h
    · exact nomatch h
    next hbare =>
    have hliteral : ':' ∈ bareHost host.toList → IsLiteral (bareHost host.toList) := by
      intro hcolon
      refine isLiteral_iff.1 ?_
      simpa [hcolon] using hbare
    split at h
    · exact nomatch h
    · next uri huri =>
      obtain ⟨⟨hhost, hport⟩, -⟩ := by
        simpa only [Bool.and_eq_true, beq_iff_eq] using h
      obtain ⟨hbytes, rest, hsplit, -⟩ := Uri.parse?_http.1 huri
      rw [htext] at hsplit
      obtain ⟨hauthority, -⟩ := authority_eq_of_split hliteral hsplit hport
      obtain ⟨-, -, hwf, -⟩ := split?_eq_some_iff.1 hsplit
      rw [hauthority] at hwf
      rw [Uri.host, hauthority] at hhost
      exact ⟨hbytes, hliteral, hwf, hhost⟩
  · rintro ⟨hbytes, hliteral, hwf, hhost⟩
    have hbare : ¬ (((bareHost host.toList).contains ':' &&
        !isLiteral (bareHost host.toList)) = true) := by
      rw [Bool.and_eq_true, List.contains_iff_mem, Bool.not_eq_true']
      rintro ⟨hcolon, hnot⟩
      rw [isLiteral_iff.2 (hliteral hcolon)] at hnot
      exact nomatch hnot
    have hport : Authority.port? (authorityOf host.toList port) = some port := port?_append _ port
    rw [isAddress, if_neg hbare, parse?_renderUri hbytes hwf]
    simp only [Uri.host, Uri.port?, hhost, hport, beq_self_eq_true, Bool.true_and]
    rfl

/-! ## Hosts -/

/-- What may stand in front of the port: a name, a text in brackets, or plain characters with a text
in brackets among them. In brackets there may be an IPv6 literal, or a name with percent signs. -/
inductive IsUriHost : List Char → Prop
  | name {cs : List Char} : (∀ c ∈ cs, isPlain c = true) → IsUriHost cs
  | literal {cs : List Char} : IsLiteral cs → IsUriHost ('[' :: (cs ++ [']']))
  | bracketed {cs : List Char} : (∀ c ∈ cs, isPlain c = true ∨ c = '%') →
      IsUriHost ('[' :: (cs ++ [']']))
  | embedded {x y z : List Char} : x ≠ [] → z ≠ [] → (∀ c ∈ x, isPlain c = true) →
      (∀ c ∈ y, isPlain c = true ∨ c = '%') → (∀ c ∈ z, isPlain c = true) →
      IsUriHost (x ++ '[' :: (y ++ ']' :: z))

theorem not_mem_of_isPlain_or {cs : List Char} {d : Char}
    (h : ∀ c ∈ cs, isPlain c = true ∨ c = '%') (hplain : isPlain d = false) (hd : d ≠ '%') :
    d ∉ cs := by
  intro hmem
  rcases h d hmem with h | h
  · rw [hplain] at h
    exact nomatch h
  · exact hd h

theorem not_mem_embedded {x y z : List Char} {d : Char} (hx : ∀ c ∈ x, isPlain c = true)
    (hy : ∀ c ∈ y, isPlain c = true ∨ c = '%') (hz : ∀ c ∈ z, isPlain c = true)
    (hplain : isPlain d = false) (hd : d ≠ '%' ∧ d ≠ '[' ∧ d ≠ ']') :
    d ∉ x ++ '[' :: (y ++ ']' :: z) := by
  obtain ⟨hpercent, hopen, hclose⟩ := hd
  have hxnot : d ∉ x := not_mem_of_isPlain hx hplain
  have hynot : d ∉ y := not_mem_of_isPlain_or hy hplain hpercent
  have hznot : d ∉ z := not_mem_of_isPlain hz hplain
  simp [hxnot, hynot, hznot, hopen, hclose]

theorem head?_append_ne_of_isPlain {cs rest : List Char} {d : Char} (hne : cs ≠ [])
    (h : ∀ c ∈ cs, isPlain c = true) (hd : isPlain d = false) : (cs ++ rest).head? ≠ some d := by
  rw [List.head?_append, List.head?_eq_some_head hne, Option.some_or]
  exact fun heq => ne_of_isPlain (h _ (List.head_mem hne)) hd (Option.some.inj heq)

theorem getLast?_append_ne_of_isPlain {cs rest : List Char} {d : Char} (hne : rest ≠ [])
    (h : ∀ c ∈ rest, isPlain c = true) (hd : isPlain d = false) :
    (cs ++ rest).getLast? ≠ some d := by
  rw [List.getLast?_append, List.getLast?_eq_some_getLast hne, Option.some_or]
  exact fun heq => ne_of_isPlain (h _ (List.getLast_mem hne)) hd (Option.some.inj heq)

/-- A host without colons, if it is read back, is one of those. -/
theorem isUriHost_of_hostShape {cs : List Char} {port : UInt16} (hcolon : ':' ∉ cs)
    (hat : '@' ∉ cs) (hshape : HostShape cs)
    (hback : dropBrackets (Authority.host (cs ++ ':' :: portDigits port)) = bareHost cs) :
    IsUriHost cs := by
  have hatPort : '@' ∉ portDigits port := not_mem_of_isPlain isPlain_of_mem_portDigits (by decide)
  cases hshape with
  | plain h => exact IsUriHost.name h
  | @bracketed x y z hx hy hz =>
    have hopen : '[' ∉ y := not_mem_of_isPlain_or hy (by decide) (by decide)
    have hclose : ']' ∉ y := not_mem_of_isPlain_or hy (by decide) (by decide)
    have hyat : '@' ∉ y := not_mem_of_isPlain_or hy (by decide) (by decide)
    have hzat : '@' ∉ z := not_mem_of_isPlain hz (by decide)
    by_cases hxnil : x = [] <;> by_cases hznil : z = []
    · rw [hxnil, hznil]
      exact IsUriHost.bracketed hy
    -- Text behind the closing bracket is not read back.
    · subst hxnil
      have hrest : '@' ∉ z ++ ':' :: portDigits port := by simp [hzat, hatPort]
      have hlast : ('[' :: (y ++ [']']) ++ z).getLast? ≠ some ']' :=
        getLast?_append_ne_of_isPlain hznil hz (by decide)
      have hhost := host_bracketed hclose hyat hrest
      simp only [List.nil_append, List.cons_append, List.append_assoc] at hback hlast hhost ⊢
      rw [hhost, dropBrackets_bracketed hopen hclose, bareHost_of_getLast? hlast] at hback
      exact absurd (hback ▸ List.mem_cons_self) hopen
    -- A closing bracket at the end is dropped without the opening one.
    · have hhead : (x ++ '[' :: (y ++ ']' :: z)).head? ≠ some '[' :=
        head?_append_ne_of_isPlain hxnil hx (by decide)
      rw [host_append hcolon hat hatPort hhead, bareHost_of_head? hhead] at hback
      have hlast := getLast?_dropBrackets (x ++ '[' :: (y ++ ']' :: z))
      have hsplit : x ++ '[' :: (y ++ [']']) = x ++ '[' :: y ++ [']'] := by simp
      rw [hback, hznil, hsplit, List.getLast?_concat] at hlast
      exact absurd rfl hlast
    · exact IsUriHost.embedded hxnil hznil hx hy hz

namespace IsUriHost

variable {cs : List Char}

theorem at_not_mem (h : IsUriHost cs) : '@' ∉ cs := by
  cases h with
  | name h => exact not_mem_of_isPlain h (by decide)
  | literal h => simp [h.not_mem '@' (by decide)]
  | bracketed h => simp [not_mem_of_isPlain_or h (d := '@') (by decide) (by decide)]
  | embedded _ _ hx hy hz => exact not_mem_embedded hx hy hz (by decide) (by decide)

/-- All characters are ones of names and numbers, or brackets. -/
theorem mem (h : IsUriHost cs) : ∀ c ∈ cs, IsFlat c ∨ c = '[' ∨ c = ']' := by
  have hinner : ∀ {ys : List Char}, (∀ c ∈ ys, isPlain c = true ∨ c = '%') → ∀ c ∈ ys, IsFlat c :=
    fun hys c hc => (hys c hc).imp_right Or.inl
  intro c hc
  cases h with
  | name h => exact Or.inl (Or.inl (h c hc))
  | literal h =>
    simp only [List.mem_cons, List.mem_append, List.not_mem_nil, or_false] at hc
    rcases hc with hc | hc | hc
    · exact Or.inr (Or.inl hc)
    · exact Or.inl (isFlat_of_isLiteral h c hc)
    · exact Or.inr (Or.inr hc)
  | bracketed h =>
    simp only [List.mem_cons, List.mem_append, List.not_mem_nil, or_false] at hc
    rcases hc with hc | hc | hc
    · exact Or.inr (Or.inl hc)
    · exact Or.inl (hinner h c hc)
    · exact Or.inr (Or.inr hc)
  | embedded _ _ hx hy hz =>
    simp only [List.mem_cons, List.mem_append] at hc
    rcases hc with hc | hc | hc | hc | hc
    · exact Or.inl (Or.inl (hx c hc))
    · exact Or.inr (Or.inl hc)
    · exact Or.inl (hinner hy c hc)
    · exact Or.inr (Or.inr hc)
    · exact Or.inl (Or.inl (hz c hc))

theorem wellFormed (h : IsUriHost cs) (port : UInt16) :
    WellFormed (cs ++ ':' :: portDigits port) := by
  have hcount : ∀ {y : List Char}, (∀ c ∈ y, isPlain c = true ∨ c = '%') →
      y.count ':' ≤ maxColons := fun hy => by
    rw [List.count_eq_zero.2 (not_mem_of_isPlain_or hy (by decide) (by decide))]
    exact Nat.zero_le _
  have hflat : ∀ {y : List Char}, (∀ c ∈ y, isPlain c = true ∨ c = '%') → ∀ c ∈ y, IsFlat c :=
    fun hy c hc => (hy c hc).imp_right Or.inl
  have hnil : ∀ c ∈ ([] : List Char), isPlain c = true := fun _ hc => nomatch hc
  cases h with
  | name h => exact WellFormed.of_scan (scan_plain h) port
  | literal h =>
    exact WellFormed.of_scan
      (scan_bracketed hnil (isFlat_of_isLiteral h) h.count_colon_le hnil) port
  | bracketed h => exact WellFormed.of_scan (scan_bracketed hnil (hflat h) (hcount h) hnil) port
  | embedded _ _ hx hy hz =>
    exact WellFormed.of_scan (scan_bracketed hx (hflat hy) (hcount hy) hz) port

/-- What stands in front of the port is read back as the host. -/
theorem host_eq (h : IsUriHost cs) (port : UInt16) :
    Authority.host (cs ++ ':' :: portDigits port) = cs := by
  have hat : '@' ∉ cs := h.at_not_mem
  have hport : '@' ∉ portDigits port := not_mem_of_isPlain isPlain_of_mem_portDigits (by decide)
  have hrest : '@' ∉ ':' :: portDigits port := by simp [hport]
  cases h with
  | name h =>
    refine host_append (not_mem_of_isPlain h (by decide)) hat hport fun heq => ?_
    exact not_mem_of_isPlain h (d := '[') (by decide) (List.mem_of_head? heq)
  | @literal y h =>
    have hclose : ']' ∉ y := h.not_mem ']' (by decide)
    have hyat : '@' ∉ y := h.not_mem '@' (by decide)
    simpa using host_bracketed hclose hyat hrest
  | @bracketed y h =>
    have hclose : ']' ∉ y := not_mem_of_isPlain_or h (by decide) (by decide)
    have hyat : '@' ∉ y := not_mem_of_isPlain_or h (by decide) (by decide)
    simpa using host_bracketed hclose hyat hrest
  | @embedded x y z hxne _ hx hy hz =>
    have hcolon := not_mem_embedded hx hy hz (d := ':') (by decide) (by decide)
    exact host_append hcolon hat hport (head?_append_ne_of_isPlain hxne hx (by decide))

theorem dropBrackets_eq (h : IsUriHost cs) : dropBrackets cs = bareHost cs := by
  cases h with
  | name h =>
    have hopen : cs.head? ≠ some '[' := fun heq =>
      not_mem_of_isPlain h (d := '[') (by decide) (List.mem_of_head? heq)
    have hclose : cs.getLast? ≠ some ']' := fun heq =>
      not_mem_of_isPlain h (d := ']') (by decide) (List.mem_of_getLast? heq)
    rw [dropBrackets_of_ends hopen hclose, bareHost_of_head? hopen]
  | literal h =>
    rw [bareHost_bracketed,
      dropBrackets_bracketed (h.not_mem '[' (by decide)) (h.not_mem ']' (by decide))]
  | bracketed h =>
    rw [bareHost_bracketed, dropBrackets_bracketed
      (not_mem_of_isPlain_or h (by decide) (by decide))
      (not_mem_of_isPlain_or h (by decide) (by decide))]
  | @embedded x y z hxne hzne hx _ hz =>
    have hopen : (x ++ '[' :: (y ++ ']' :: z)).head? ≠ some '[' :=
      head?_append_ne_of_isPlain hxne hx (by decide)
    have hclose : (x ++ '[' :: (y ++ [']']) ++ z).getLast? ≠ some ']' :=
      getLast?_append_ne_of_isPlain hzne hz (by decide)
    simp only [List.cons_append, List.append_assoc, List.nil_append] at hclose
    rw [dropBrackets_of_ends hopen hclose, bareHost_of_head? hopen]

theorem uriHost_eq (h : IsUriHost cs) : uriHost cs = cs := by
  cases h with
  | name h => exact uriHost_of_colon_not_mem (not_mem_of_isPlain h (by decide))
  | literal _ => exact uriHost_bracketed _
  | bracketed _ => exact uriHost_bracketed _
  | embedded _ _ hx hy hz =>
    exact uriHost_of_colon_not_mem (not_mem_embedded hx hy hz (by decide) (by decide))

theorem isLiteral_of_colon_mem (h : IsUriHost cs) (hcolon : ':' ∈ cs) :
    IsLiteral (bareHost cs) := by
  cases h with
  | name h => exact absurd hcolon (not_mem_of_isPlain h (by decide))
  | literal h =>
    rw [bareHost_bracketed]
    exact h
  | bracketed h =>
    have hnot := not_mem_of_isPlain_or h (d := ':') (by decide) (by decide)
    simp [hnot] at hcolon
  | embedded _ _ hx hy hz =>
    exact absurd hcolon (not_mem_embedded hx hy hz (by decide) (by decide))

end IsUriHost

theorem uriHost_of_isLiteral {cs : List Char} (h : IsLiteral cs) :
    uriHost cs = '[' :: (cs ++ [']']) := by
  have hopen : cs.head? ≠ some '[' := fun heq =>
    h.not_mem '[' (by decide) (List.mem_of_head? heq)
  rw [uriHost, if_pos]
  simp [h.colon_mem, hopen]

/-- **The addresses that are read back are those with a host of the right shape.** -/
theorem isAddress_iff {host : String} {port : UInt16} :
    isAddress host port = true ↔ (renderUri host port).utf8ByteSize ≤ Uri.maxBytes ∧
      IsUriHost (uriHost host.toList) := by
  rw [isAddress_iff_wellFormed]
  constructor
  · rintro ⟨hbytes, hliteral, hwf, hback⟩
    refine ⟨hbytes, ?_⟩
    by_cases hcolon : ':' ∈ host.toList
    · have hbare : IsLiteral (bareHost host.toList) :=
        hliteral (mem_bareHost hcolon (by decide) (by decide))
      rcases bareHost_cases host.toList with heq | heq
      · rw [heq] at hbare
        rw [uriHost_of_isLiteral hbare]
        exact IsUriHost.literal hbare
      · rw [heq, uriHost_bracketed]
        exact IsUriHost.literal hbare
    · rw [authorityOf, uriHost_of_colon_not_mem hcolon] at hwf hback
      rw [uriHost_of_colon_not_mem hcolon]
      -- What is read back as the host has no user part in it.
      have hat : '@' ∉ host.toList := by
        intro hmem
        have hbare := mem_bareHost hmem (by decide) (by decide)
        rw [← hback] at hbare
        exact at_not_mem_host _ (mem_of_mem_dropBrackets hbare)
      exact isUriHost_of_hostShape hcolon hat ((wellFormed_iff hcolon hat).1 hwf) hback
  · rintro ⟨hbytes, hhost⟩
    refine ⟨hbytes, ?_, hhost.wellFormed port, ?_⟩
    · intro hcolon
      rw [← bareHost_uriHost] at hcolon ⊢
      exact hhost.isLiteral_of_colon_mem (mem_of_mem_bareHost hcolon)
    · rw [authorityOf, hhost.host_eq port, hhost.dropBrackets_eq, bareHost_uriHost]

/-- Brackets around a host without colons are part of it; around an IPv6 literal they may be left
out. -/
theorem isUriHost_uriHost_iff {cs : List Char} :
    IsUriHost (uriHost cs) ↔ IsUriHost cs ∨ IsLiteral cs := by
  constructor
  · intro h
    by_cases hcolon : ':' ∈ cs
    · have hliteral : IsLiteral (bareHost cs) := by
        rw [← bareHost_uriHost]
        refine h.isLiteral_of_colon_mem (mem_of_mem_bareHost ?_)
        rw [bareHost_uriHost]
        exact mem_bareHost hcolon (by decide) (by decide)
      rcases bareHost_cases cs with heq | heq
      · rw [heq] at hliteral
        exact Or.inr hliteral
      · left
        rw [heq]
        exact IsUriHost.literal hliteral
    · rw [uriHost_of_colon_not_mem hcolon] at h
      exact Or.inl h
  · rintro (h | h)
    · rw [h.uriHost_eq]
      exact h
    · rw [uriHost_of_isLiteral h]
      exact IsUriHost.literal h

/-- The URI of an IPv6 literal is never too long. -/
theorem utf8ByteSize_renderUri_le {host : String} {cs : List Char} (h : IsLiteral cs)
    (hhost : uriHost host.toList = '[' :: (cs ++ [']'])) (port : UInt16) :
    (renderUri host port).utf8ByteSize ≤ Uri.maxBytes := by
  have htext : (renderUri host port).toList
      = "http://".toList ++ ('[' :: (cs ++ [']']) ++ ':' :: portDigits port) := by
    rw [renderUri, String.toList_append, toList_renderAddress, hhost]
  have hascii : ∀ c ∈ (renderUri host port).toList, c.toNat < 128 := by
    have hscheme : ∀ c ∈ "http://".toList, c.toNat < 128 := by simp
    intro c hc
    rw [htext] at hc
    simp only [List.mem_append, List.mem_cons, List.not_mem_nil, or_false] at hc
    rcases hc with hc | (rfl | hc | rfl) | rfl | hc
    · exact hscheme c hc
    · decide
    · rcases h.mem c hc with (hhex | rfl) | rfl
      · exact toNat_lt_of_isHexDigit hhex
      · decide
      · decide
    · decide
    · decide
    · exact toNat_lt_of_isDigit (isDigit_of_mem_toString hc)
  have hcs : cs.length ≤ 47 := h.length_le
  have hport : (portDigits port).length ≤ 5 := length_portDigits_le port
  have hscheme : "http://".toList.length = 7 := rfl
  rw [utf8ByteSize_of_ascii hascii, htext]
  simp only [List.length_append, List.length_cons, List.length_nil, hscheme, Uri.maxBytes]
  omega

end LibraryRegistry
