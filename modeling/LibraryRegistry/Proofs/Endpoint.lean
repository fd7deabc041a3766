import LibraryRegistry.Proofs.Host

/-!
# Making endpoints, and their texts

What becomes of a host and a port, and what the text of an endpoint tells of it.

* `Endpoint.ofHostPort_without_brackets` — what becomes of a host without brackets
* `Endpoint.ofHostPort_with_brackets` — what becomes of a host with brackets, not all of which are
  brackets around an IPv6 literal
* `Endpoint.uri_reads_back` — an endpoint is told by its text, brackets of IPv6 literals apart
-/

namespace LibraryRegistry

open Net Net.Authority Net.Ipv6 Text

/-- A host without brackets that makes an address: an IPv6 literal, or a name without colons. -/
def IsBareHost (cs : List Char) : Prop :=
  ':' ∈ cs ∧ IsLiteral cs ∨
  ':' ∉ cs ∧ ∀ c ∈ cs, c.isAlphanum = true ∨ c ∈ "!$&'()*+,-.;=_~".toList

theorem isPlain_iff {c : Char} :
    isPlain c = true ↔ c.isAlphanum = true ∨ c ∈ "!$&'()*+,-.;=_~".toList := by
  rw [isPlain, Bool.or_eq_true, List.contains_iff_mem]

/-- Without brackets a host of a URI is a bare one. -/
theorem isUriHost_iff_isBareHost {cs : List Char} (hopen : '[' ∉ cs) (hclose : ']' ∉ cs) :
    IsUriHost (uriHost cs) ↔ IsBareHost cs := by
  rw [isUriHost_uriHost_iff]
  constructor
  · rintro (h | h)
    · cases h with
      | name h =>
        exact Or.inr ⟨not_mem_of_isPlain h (by decide), fun c hc => isPlain_iff.1 (h c hc)⟩
      | literal _ => simp at hopen
      | bracketed _ => simp at hopen
      | embedded _ _ _ _ _ => simp at hopen
    · exact Or.inl ⟨h.colon_mem, h⟩
  · rintro (⟨-, h⟩ | ⟨-, h⟩)
    · exact Or.inr h
    · exact Or.inl (IsUriHost.name fun c hc => isPlain_iff.2 (h c hc))

/-- An IPv6 literal in brackets. -/
def IsBracketedLiteral (cs : List Char) : Prop := ∃ ys, IsLiteral ys ∧ cs = '[' :: (ys ++ [']'])

/-- One pair of brackets with no colon in it, only plain characters and percent signs. It is all of
the text, or has plain characters on both sides. -/
def HasLooseBrackets (cs : List Char) : Prop :=
  ∃ x y z, (x = [] ↔ z = []) ∧ (∀ c ∈ x, isPlain c = true) ∧
    (∀ c ∈ y, isPlain c = true ∨ c = '%') ∧ (∀ c ∈ z, isPlain c = true) ∧
    cs = x ++ '[' :: (y ++ ']' :: z)

/-- With brackets it is a literal inside them, or a text with them in some other place. -/
theorem isUriHost_iff_brackets {cs : List Char} (h : '[' ∈ cs ∨ ']' ∈ cs) :
    IsUriHost (uriHost cs) ↔ IsBracketedLiteral cs ∨ HasLooseBrackets cs := by
  rw [isUriHost_uriHost_iff]
  constructor
  · rintro (hhost | hliteral)
    · cases hhost with
      | name hplain =>
        have hopen : '[' ∉ cs := not_mem_of_isPlain hplain (by decide)
        have hclose : ']' ∉ cs := not_mem_of_isPlain hplain (by decide)
        exact absurd h (not_or.2 ⟨hopen, hclose⟩)
      | @literal ys hys => exact Or.inl ⟨ys, hys, rfl⟩
      | @bracketed ys hys =>
        have hnone : ∀ c ∈ ([] : List Char), isPlain c = true := fun _ hc => nomatch hc
        exact Or.inr ⟨[], ys, [], Iff.rfl, hnone, hys, hnone, rfl⟩
      | @embedded x y z hxne hzne hx hy hz =>
        exact Or.inr ⟨x, y, z, iff_of_false hxne hzne, hx, hy, hz, rfl⟩
    · have hopen : '[' ∉ cs := hliteral.not_mem '[' (by decide)
      have hclose : ']' ∉ cs := hliteral.not_mem ']' (by decide)
      exact absurd h (not_or.2 ⟨hopen, hclose⟩)
  · rintro (⟨ys, hys, rfl⟩ | ⟨x, y, z, hsides, hx, hy, hz, rfl⟩)
    · exact Or.inl (IsUriHost.literal hys)
    · by_cases hxnil : x = []
      · rw [hxnil, hsides.1 hxnil]
        exact Or.inl (IsUriHost.bracketed hy)
      · exact Or.inl (IsUriHost.embedded hxnil (mt hsides.2 hxnil) hx hy hz)

theorem isAddress_iff_brackets {host : String} {port : UInt16}
    (h : '[' ∈ host.toList ∨ ']' ∈ host.toList) :
    isAddress host port = true ↔ IsBracketedLiteral host.toList ∨
      (renderUri host port).utf8ByteSize ≤ Uri.maxBytes ∧ HasLooseBrackets host.toList := by
  rw [isAddress_iff, isUriHost_iff_brackets h]
  constructor
  · rintro ⟨hbytes, hliteral | hloose⟩
    · exact Or.inl hliteral
    · exact Or.inr ⟨hbytes, hloose⟩
  · rintro (⟨ys, hys, hhost⟩ | ⟨hbytes, hloose⟩)
    · have huri : uriHost host.toList = '[' :: (ys ++ [']']) := by
        rw [hhost, uriHost_bracketed]
      exact ⟨utf8ByteSize_renderUri_le hys huri port, Or.inl ⟨ys, hys, hhost⟩⟩
    · exact ⟨hbytes, Or.inr hloose⟩

namespace Endpoint

/-! ## Making endpoints -/

variable {host : String} {port : UInt16}

theorem ofHostPort_of_blank (h : isAllBlank host = true) :
    ofHostPort host port = .error .emptyHost := by
  rw [ofHostPort, dif_pos h]

theorem ofHostPort_zero (h : isAllBlank host = false) :
    ofHostPort host 0 = .error (.invalidPort 0) := by
  rw [ofHostPort, dif_neg (Bool.eq_false_iff.1 h), dif_pos rfl]

theorem ofHostPort_of_isAddress (hblank : isAllBlank host = false) (hport : port ≠ 0)
    (h : LibraryRegistry.isAddress host port = true) :
    ofHostPort host port = .ok ⟨host, port, hblank, hport, h⟩ := by
  rw [ofHostPort, dif_neg (Bool.eq_false_iff.1 hblank), dif_neg hport, dif_pos h]

theorem ofHostPort_of_not_isAddress (hblank : isAllBlank host = false) (hport : port ≠ 0)
    (h : ¬ LibraryRegistry.isAddress host port = true) :
    ofHostPort host port = .error (.invalidHost host) := by
  rw [ofHostPort, dif_neg (Bool.eq_false_iff.1 hblank), dif_neg hport, dif_neg h]

/-- An endpoint is what becomes of its host and its port. -/
theorem ofHostPort_eq_ok_iff {e : Endpoint} :
    ofHostPort host port = .ok e ↔ e.host = host ∧ e.port = port := by
  constructor
  · intro h
    unfold ofHostPort at h
    split at h
    · cases h
    · split at h
      · cases h
      · split at h
        · cases h
          exact ⟨rfl, rfl⟩
        · cases h
  · rintro ⟨rfl, rfl⟩
    exact ofHostPort_of_isAddress e.notBlank e.port_ne_zero e.isAddress

theorem port_range (e : Endpoint) : 1 ≤ e.port.toNat ∧ e.port.toNat ≤ 65535 := by
  have hne : e.port.toNat ≠ 0 := fun h => e.port_ne_zero (UInt16.toNat_inj.1 h)
  have hlt : e.port.toNat < 65536 := e.port.toNat_lt
  omega

/-- **What becomes of a host without brackets and a port.** Only white space is no host, whatever the
port; then the port is looked at, and last the host. -/
theorem ofHostPort_without_brackets (host : String) (port : UInt16) (hopen : '[' ∉ host.toList)
    (hclose : ']' ∉ host.toList) :
    ((∀ c ∈ host.toList, isBlank c = true) → ofHostPort host port = .error .emptyHost) ∧
    (¬ (∀ c ∈ host.toList, isBlank c = true) →
      (port = 0 → ofHostPort host port = .error (.invalidPort 0)) ∧
      (port ≠ 0 →
        ((renderUri host port).utf8ByteSize ≤ 65534 ∧ IsBareHost host.toList →
          ∃ e, ofHostPort host port = .ok e ∧ e.host = host ∧ e.port = port) ∧
        (¬ ((renderUri host port).utf8ByteSize ≤ 65534 ∧ IsBareHost host.toList) →
          ofHostPort host port = .error (.invalidHost host)))) := by
  have haddress : LibraryRegistry.isAddress host port = true ↔
      (renderUri host port).utf8ByteSize ≤ 65534 ∧ IsBareHost host.toList := by
    rw [isAddress_iff, isUriHost_iff_isBareHost hopen hclose]
    rfl
  constructor
  · intro hblank
    exact ofHostPort_of_blank (List.all_eq_true.2 hblank)
  · intro hsome
    have hblank : isAllBlank host = false := by
      rw [isAllBlank, List.all_eq_false]
      simpa using hsome
    constructor
    · rintro rfl
      exact ofHostPort_zero hblank
    · intro hport
      constructor
      · intro h
        exact ⟨_, ofHostPort_of_isAddress hblank hport (haddress.2 h), rfl, rfl⟩
      · intro h
        exact ofHostPort_of_not_isAddress hblank hport (mt haddress.1 h)

theorem ofHostPort_without_brackets_loopback :
    ∃ e, ofHostPort "::1" 8080 = .ok e ∧ e.host = "::1" ∧ e.port = 8080 := by
  have hsome : ¬ ∀ c ∈ "::1".toList, isBlank c = true := fun h =>
    absurd (h '1' (by decide)) (by decide)
  have hbare : IsBareHost "::1".toList := Or.inl ⟨by decide, isLiteral_iff.1 (by decide)⟩
  have h := ofHostPort_without_brackets "::1" 8080 (by decide) (by decide)
  exact ((h.2 hsome).2 (by decide)).1 ⟨by decide, hbare⟩

/-- **What becomes of a host with brackets and a port.** An IPv6 literal in one pair of brackets
makes an endpoint, but so does a text with loose brackets that is not too long. Every other host with
brackets is refused as it is. -/
theorem ofHostPort_with_brackets (host : String) (port : UInt16)
    (hbracket : '[' ∈ host.toList ∨ ']' ∈ host.toList) (hport : port ≠ 0) :
    (IsBracketedLiteral host.toList ∨
        (renderUri host port).utf8ByteSize ≤ 65534 ∧ HasLooseBrackets host.toList →
      ∃ e, ofHostPort host port = .ok e ∧ e.host = host ∧ e.port = port) ∧
    (¬ (IsBracketedLiteral host.toList ∨
        (renderUri host port).utf8ByteSize ≤ 65534 ∧ HasLooseBrackets host.toList) →
      ofHostPort host port = .error (.invalidHost host)) := by
  have hblank : isAllBlank host = false := by
    rw [isAllBlank, List.all_eq_false]
    rcases hbracket with hopen | hclose
    · exact ⟨'[', hopen, by decide⟩
    · exact ⟨']', hclose, by decide⟩
  constructor
  · intro h
    exact ⟨_, ofHostPort_of_isAddress hblank hport ((isAddress_iff_brackets hbracket).2 h), rfl, rfl⟩
  · intro h
    exact ofHostPort_of_not_isAddress hblank hport (mt (isAddress_iff_brackets hbracket).1 h)

theorem ofHostPort_with_brackets_loopback :
    ('[' ∈ "[::1]".toList ∨ ']' ∈ "[::1]".toList) ∧ (443 : UInt16) ≠ 0 ∧
      ∃ e, ofHostPort "[::1]" 443 = .ok e ∧ e.host = "[::1]" ∧ e.port = 443 := by
  have hbracket : '[' ∈ "[::1]".toList ∨ ']' ∈ "[::1]".toList := Or.inl (by decide)
  have hliteral : IsBracketedLiteral "[::1]".toList :=
    ⟨"::1".toList, isLiteral_iff.1 (by decide), by decide⟩
  exact ⟨hbracket, by decide,
    (ofHostPort_with_brackets "[::1]" 443 hbracket (by decide)).1 (Or.inl hliteral)⟩

/-- There need not be a literal in the brackets, and there may be text around them. -/
theorem ofHostPort_loose_brackets :
    (∃ e, ofHostPort "[]" 80 = .ok e) ∧ ¬ IsBracketedLiteral "[]".toList ∧
    (∃ e, ofHostPort "a[b]c" 80 = .ok e) ∧ ¬ IsBracketedLiteral "a[b]c".toList := by
  -- A literal has a colon.
  have hcolon : ∀ {cs : List Char}, ':' ∉ cs → ¬ IsBracketedLiteral cs := by
    rintro cs hnot ⟨ys, hys, rfl⟩
    have hmem := hys.colon_mem
    simp [hmem] at hnot
  refine ⟨⟨_, ofHostPort_of_isAddress (by decide) (by decide) (by decide)⟩, hcolon (by decide),
    ⟨_, ofHostPort_of_isAddress (by decide) (by decide) (by decide)⟩, hcolon (by decide)⟩

/-! ## Texts of endpoints -/

theorem isUriHost (e : Endpoint) : IsUriHost (uriHost e.host.toList) :=
  (isAddress_iff.1 e.isAddress).2

theorem toList_render (e : Endpoint) : e.render.toList = authorityOf e.host.toList e.port :=
  toList_renderAddress e.host e.port

/-- The URI of an endpoint is read as its authority, with nothing behind it. -/
theorem parse?_uri (e : Endpoint) :
    Uri.parse? e.uri = some ⟨authorityOf e.host.toList e.port, Uri.noTarget⟩ :=
  parse?_renderUri (isAddress_iff.1 e.isAddress).1 (e.isUriHost.wellFormed e.port)

theorem renderAddress_uriHost (host : String) (port : UInt16) :
    renderAddress (String.ofList (uriHost host.toList)) port = renderAddress host port := by
  refine String.toList_inj.1 ?_
  rw [toList_renderAddress, toList_renderAddress, String.toList_ofList, uriHost_uriHost]

theorem mem_uriHost {cs : List Char} {c : Char} (h : c ∈ cs) : c ∈ uriHost cs := by
  rw [uriHost]
  split
  · exact List.mem_cons_of_mem _ (List.mem_append_left _ h)
  · exact h

/-- The host of the URI of an endpoint makes an endpoint with the same text. -/
theorem exists_ofHostPort_uriHost (e : Endpoint) :
    ∃ back, ofHostPort (String.ofList (uriHost e.host.toList)) e.port = .ok back ∧
      back.render = e.render := by
  have hblank : isAllBlank (String.ofList (uriHost e.host.toList)) = false := by
    obtain ⟨c, hc, hnot⟩ := List.all_eq_false.1 e.notBlank
    rw [isAllBlank, String.toList_ofList, List.all_eq_false]
    exact ⟨c, mem_uriHost hc, hnot⟩
  have haddress : LibraryRegistry.isAddress (String.ofList (uriHost e.host.toList)) e.port = true := by
    rw [isAddress_iff, renderUri, renderAddress_uriHost, String.toList_ofList, uriHost_uriHost]
    exact isAddress_iff.1 e.isAddress
  exact ⟨_, ofHostPort_of_isAddress hblank e.port_ne_zero haddress,
    renderAddress_uriHost e.host e.port⟩

/-- The text of an endpoint tells what stands in front of the port, and the port. -/
theorem authorityOf_inj {cs cs' : List Char} {port port' : UInt16} :
    authorityOf cs port = authorityOf cs' port' ↔ uriHost cs = uriHost cs' ∧ port = port' := by
  constructor
  · intro h
    have hport := port?_append (uriHost cs) port
    rw [← authorityOf, h, authorityOf, port?_append] at hport
    obtain rfl := Option.some.inj hport
    exact ⟨List.append_cancel_right h, rfl⟩
  · rintro ⟨hhost, rfl⟩
    rw [authorityOf, hhost, authorityOf]

/-- The second host is the first, an IPv6 literal, in brackets. -/
def AddsBrackets (host host' : String) : Prop :=
  IsLiteral host.toList ∧ host' = "[" ++ host ++ "]"

/-- A pair of brackets around a host makes no difference to its URI. -/
theorem uriHost_of_addsBrackets {host host' : String} (h : AddsBrackets host host') :
    uriHost host.toList = uriHost host'.toList := by
  obtain ⟨hliteral, rfl⟩ := h
  have hlist : ("[" ++ host ++ "]").toList = '[' :: (host.toList ++ [']']) := by
    simp
  rw [hlist, uriHost_bracketed, uriHost_of_isLiteral hliteral]

theorem eq_addBrackets {host host' : String} (h : host'.toList = '[' :: (host.toList ++ [']'])) :
    host' = "[" ++ host ++ "]" := by
  refine String.toList_inj.1 ?_
  rw [h]
  simp

/-- Hosts that stand alike in a URI differ by one pair of brackets at most. -/
theorem host_eq_or_addsBrackets {e e' : Endpoint}
    (h : uriHost e.host.toList = uriHost e'.host.toList) :
    e.host = e'.host ∨ AddsBrackets e.host e'.host ∨ AddsBrackets e'.host e.host := by
  rcases isUriHost_uriHost_iff.1 e.isUriHost with hhost | hliteral <;>
    rcases isUriHost_uriHost_iff.1 e'.isUriHost with hhost' | hliteral'
  · rw [hhost.uriHost_eq, hhost'.uriHost_eq] at h
    exact Or.inl (String.toList_inj.1 h)
  · rw [hhost.uriHost_eq, uriHost_of_isLiteral hliteral'] at h
    exact Or.inr (Or.inr ⟨hliteral', eq_addBrackets h⟩)
  · rw [uriHost_of_isLiteral hliteral, hhost'.uriHost_eq] at h
    exact Or.inr (Or.inl ⟨hliteral, eq_addBrackets h.symm⟩)
  · rw [uriHost_of_isLiteral hliteral, uriHost_of_isLiteral hliteral'] at h
    exact Or.inl (String.toList_inj.1 (List.append_cancel_right (List.cons.inj h).2))

/-- **The text of an endpoint is the authority of its URI.** It is read back as an endpoint with
this text, and endpoints share their text only if they differ by brackets around an IPv6
literal. -/
theorem uri_reads_back (e : Endpoint) :
    (∃ uri port, Uri.parse? e.uri = some uri ∧ String.ofList uri.authority = e.render ∧
      '@' ∉ uri.authority ∧ uri.path = "/" ∧ uri.target.query = none ∧ uri.port? = some port ∧
      ∃ back, ofHostPort (String.ofList uri.host) port = .ok back ∧ back.render = e.render) ∧
    ∀ e' : Endpoint, e.render = e'.render ↔ e.port = e'.port ∧
      (e.host = e'.host ∨ AddsBrackets e.host e'.host ∨ AddsBrackets e'.host e.host) := by
  constructor
  · refine ⟨_, e.port, e.parse?_uri, ?_, ?_, rfl, rfl, port?_append _ e.port, ?_⟩
    · rw [← toList_render, String.ofList_toList]
    · intro hmem
      rcases List.mem_append.1 hmem with hmem | hmem
      · exact e.isUriHost.at_not_mem hmem
      · have hdigits : '@' ∉ portDigits e.port :=
          not_mem_of_isPlain isPlain_of_mem_portDigits (by decide)
        simp [hdigits] at hmem
    · have hhost : Authority.host (authorityOf e.host.toList e.port) = uriHost e.host.toList :=
        e.isUriHost.host_eq e.port
      rw [Uri.host, hhost]
      exact e.exists_ofHostPort_uriHost
  · intro e'
    rw [← String.toList_inj, toList_render, toList_render, authorityOf_inj]
    constructor
    · rintro ⟨hhost, hport⟩
      exact ⟨hport, host_eq_or_addsBrackets hhost⟩
    · rintro ⟨hport, hsame | hadds | hadds⟩
      · exact ⟨by rw [hsame], hport⟩
      · exact ⟨uriHost_of_addsBrackets hadds, hport⟩
      · exact ⟨(uriHost_of_addsBrackets hadds).symm, hport⟩

end Endpoint

end LibraryRegistry
