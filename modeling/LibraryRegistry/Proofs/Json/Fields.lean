import LibraryRegistry.Proofs.Json.Members

/-!
# Texts of values with named fields

A value with named fields has a part for each of them: the part says what the text of the field may
be, and whether it may be missing. The value is written as an object with its fields in any order,
among other members unless the shape is strict, or as the list of its fields in their order.

* `TextPart`, `Written` — the texts of a value with the given parts
* `Shape.Collects` — what the fields of a shape make of the parts, in whatever order they come
* `Shape.reads_of_written` — every such text is read
* `Shape.refuses_repeated`, `Shape.refuses_undeclared`, `Shape.refuses_member`,
  `Shape.refuses_element` — what is refused
-/

namespace LibraryRegistry.Json

variable {σ : Type}

/-- One of the named fields of a value that is written down. -/
structure TextPart where
  name : String
  /-- The texts that the field may have. -/
  IsOf : List Char → Prop
  /-- The field may be left out. -/
  Missable : Prop

/-- The texts of a value with the given parts. -/
inductive Written (strict : Bool) (parts : List TextPart) : List Char → Prop
  | object {ms : List Member} {cs : List Char} : IsObject ms cs →
      (∀ part ∈ parts, ∀ v, (part.name, v) ∈ ms → part.IsOf v) →
      (∀ part ∈ parts, (ms.map (·.1)).count part.name ≤ 1) →
      (∀ part ∈ parts, part.name ∉ ms.map (·.1) → part.Missable) →
      (strict = true → ∀ member ∈ ms, member.1 ∈ parts.map (·.name)) → Written strict parts cs
  | list {front back : List TextPart} {vs : List (List Char)} {cs : List Char} : IsList vs cs →
      parts = front ++ back → List.Forall₂ (fun part v => part.IsOf v) front vs →
      (∀ part ∈ back, part.Missable) → (strict = true → back = []) → Written strict parts cs

theorem Written.isValue {strict : Bool} {parts : List TextPart} {cs : List Char}
    (h : Written strict parts cs) : IsValue cs := by
  cases h with
  | object hcs _ _ _ _ => exact hcs.isValue
  | list hcs _ _ _ _ => exact hcs.isValue

/-- The field makes the value of its part the value of the whole in that place, where `kept` has the
fields with the given names. -/
def Field.Gathers (kept : List String → σ) (field : Field σ) (part : TextPart) : Prop :=
  field.name = part.name ∧ ∀ v, part.IsOf v → ∃ update, field.value.ReadsValue v update ∧
    ∀ names, update (kept names) = kept (field.name :: names)

theorem gathers_storing {α : Type} {kept : List String → σ} {name : String} {value : Reader α}
    {store : σ → α → σ} {IsOf : List Char → Prop} {Missable : Prop} {a : α}
    (hvalue : ∀ v, IsOf v → value.ReadsValue v a)
    (hkept : ∀ names, store (kept names) a = kept (name :: names)) :
    (Field.storing name value store).Gathers kept ⟨name, IsOf, Missable⟩ := by
  refine ⟨rfl, fun v hv => ⟨fun m => store m a, fun b hb => ?_, hkept⟩⟩
  exact Reader.reads_map (hvalue v hv b hb)

/-- A field that is there or has its default. -/
theorem ite_contains_eq {α : Type} {names : List String} {name : String} {value default : α}
    (h : name ∉ names → value = default) :
    (if names.contains name then value else default) = value := by
  by_cases hmem : name ∈ names
  · rw [if_pos (List.contains_iff_mem.2 hmem)]
  · rw [h hmem, ite_self]

namespace Shape

variable {s : Shape σ} {start m : σ} {parts : List TextPart} {kept : List String → σ}

/-- The fields of the shape make the value of the given parts, in whatever order they come. -/
structure Collects (s : Shape σ) (start : σ) (parts : List TextPart) (m : σ)
    (kept : List String → σ) : Prop where
  fields : List.Forall₂ (Field.Gathers kept) s.fields parts
  nothing : kept [] = start
  everything : ∀ names, (∀ part ∈ parts, part.name ∉ names → part.Missable) → kept names = m

/-! ## Objects -/

/-- A member with the name of a field does what the field says. -/
theorem takesMember_field {field : Field σ} {names : List String} {key : String} {v : List Char}
    {update : σ → σ} (hfind : s.fields.find? (·.name == key) = some field) (hnew : key ∉ names)
    (h : field.value.ReadsValue v update) :
    s.member.TakesMember (m, names) (key, v) (update m, key :: names) :=
  fun _ b' hb hb' => takes_member hfind hnew hb (h b' hb')

/-- Other members are skipped unless the shape is strict. -/
theorem takesMember_undeclared {names : List String} {key : String} {v : List Char}
    (hfind : s.fields.find? (·.name == key) = none) (hstrict : s.strict = false) (hv : IsValue v) :
    s.member.TakesMember (m, names) (key, v) (m, names) := by
  intro b b' hb hb' rest hrest
  have happend : b ++ ':' :: (b' ++ v) ++ rest = b ++ ':' :: (b' ++ (v ++ rest)) := by simp
  rw [happend]
  simp [member, hfind, hstrict, skipMember_append hb hb' hv hrest]

theorem forall₂_find? {fields : List (Field σ)} (h : List.Forall₂ (Field.Gathers kept) fields parts)
    (key : String) :
    (fields.find? (·.name == key) = none ∧ key ∉ parts.map (·.name)) ∨
      ∃ field, fields.find? (·.name == key) = some field ∧ field.name = key ∧
        ∃ part ∈ parts, field.Gathers kept part := by
  induction h with
  | nil => exact Or.inl ⟨rfl, List.not_mem_nil⟩
  | @cons field part fields parts hfirst _ ih =>
    by_cases hkey : field.name = key
    · refine Or.inr ⟨field, ?_, hkey, part, List.mem_cons_self, hfirst⟩
      exact List.find?_cons_of_pos (by simpa using hkey)
    · rw [List.find?_cons_of_neg (by simpa using hkey)]
      rcases ih with ⟨hnone, hkeys⟩ | ⟨field', hsome, hname, part', hmem, hgathers⟩
      · refine Or.inl ⟨hnone, ?_⟩
        rw [List.map_cons, List.mem_cons, ← hfirst.1]
        exact fun h => h.elim (fun heq => hkey heq.symm) hkeys
      · exact Or.inr ⟨field', hsome, hname, part', List.mem_cons_of_mem _ hmem, hgathers⟩

/-- Members are taken in, each field at most once, whatever other members stand among them. -/
theorem exists_takesAll (h : List.Forall₂ (Field.Gathers kept) s.fields parts) {ms : List Member}
    (hvalues : ∀ member ∈ ms, IsValue member.2)
    (hof : ∀ part ∈ parts, ∀ v, (part.name, v) ∈ ms → part.IsOf v)
    (hstrict : s.strict = true → ∀ member ∈ ms, member.1 ∈ parts.map (·.name))
    {names : List String} (honce : ∀ part ∈ parts, (ms.map (·.1) ++ names).count part.name ≤ 1) :
    ∃ names', TakesAll s.member (kept names, names) ms (kept names', names') ∧
      ∀ key ∈ parts.map (·.name), key ∈ ms.map (·.1) ++ names → key ∈ names' := by
  induction ms generalizing names with
  | nil => exact ⟨names, TakesAll.nil, fun key _ hmem => hmem⟩
  | cons member ms ih =>
    obtain ⟨key, v⟩ := member
    obtain ⟨hv, hvalues⟩ := List.forall_mem_cons.1 hvalues
    have hof' : ∀ part ∈ parts, ∀ v, (part.name, v) ∈ ms → part.IsOf v :=
      fun part hpart v hmem => hof part hpart v (List.mem_cons_of_mem _ hmem)
    have hstrict' : s.strict = true → ∀ member ∈ ms, member.1 ∈ parts.map (·.name) :=
      fun hs => (List.forall_mem_cons.1 (hstrict hs)).2
    rcases forall₂_find? h key with ⟨hnone, hkey⟩ | ⟨field, hsome, hname, part, hpart, hfield⟩
    · have hlax : s.strict = false := by
        rw [← Bool.not_eq_true]
        exact fun hs => hkey ((List.forall_mem_cons.1 (hstrict hs)).1)
      obtain ⟨names', htakes, hmem'⟩ := ih hvalues hof' hstrict' fun part hpart =>
        Nat.le_trans (List.count_le_count_cons) (honce part hpart)
      refine ⟨names', TakesAll.cons (takesMember_undeclared hnone hlax hv) htakes, ?_⟩
      intro key' hkey' hmem
      rcases List.mem_cons.1 hmem with rfl | hmem
      · exact absurd hkey' hkey
      · exact hmem' key' hkey' hmem
    · obtain ⟨heq, hgathers⟩ := hfield
      rw [hname] at heq hgathers
      have hmiddle : ((key, v) :: ms).map (·.1) ++ names = key :: (ms.map (·.1) ++ names) := rfl
      have hnew : key ∉ names := by
        intro hmem
        have hcount := honce part hpart
        rw [hmiddle, ← heq, List.count_cons_self, List.count_append] at hcount
        have hpos := List.count_pos_iff.2 hmem
        omega
      obtain ⟨update, hread, hupdate⟩ := hgathers v (hof part hpart v (by rw [← heq]; simp))
      have honce' : ∀ part ∈ parts, (ms.map (·.1) ++ key :: names).count part.name ≤ 1 := by
        intro part hpart
        rw [List.perm_middle.count_eq]
        exact honce part hpart
      obtain ⟨names', htakes, hmem'⟩ := ih hvalues hof' hstrict' honce'
      refine ⟨names', TakesAll.cons (takesMember_field hsome hnew hread) ?_, fun key' hkey' hmem => ?_⟩
      · rw [hupdate]
        exact htakes
      · exact hmem' key' hkey' (List.perm_middle.mem_iff.2 hmem)

theorem reads_of_object (h : s.Collects start parts m kept) {ms : List Member} {cs : List Char}
    (hcs : IsObject ms cs) (hof : ∀ part ∈ parts, ∀ v, (part.name, v) ∈ ms → part.IsOf v)
    (honce : ∀ part ∈ parts, (ms.map (·.1)).count part.name ≤ 1)
    (hmissing : ∀ part ∈ parts, part.name ∉ ms.map (·.1) → part.Missable)
    (hstrict : s.strict = true → ∀ member ∈ ms, member.1 ∈ parts.map (·.name)) :
    (s.reader start).ReadsValue cs m := by
  obtain ⟨body, hbody, rfl⟩ := hcs
  have honce' : ∀ part ∈ parts, (ms.map Prod.fst ++ []).count part.name ≤ 1 := by
    simpa using honce
  obtain ⟨names, htakes, hmem⟩ := exists_takesAll h.fields hbody.values hof hstrict honce'
  have hkept : kept names = m := h.everything names fun part hpart hname =>
    hmissing part hpart fun hin =>
      hname (hmem part.name (List.mem_map_of_mem hpart) (List.mem_append_left _ hin))
  rw [h.nothing, hkept] at htakes
  exact fun b hb => reads_object hb (members_of_membersText hbody htakes)

/-! ## Lists -/

theorem nextElement_of_done {first : Bool} {b : List Char} (hb : IsBlanks b) (rest : List Char) :
    nextElement first (b ++ ']' :: rest) = .ok (false, rest) := by
  simp only [nextElement, skipBlanks_append hb (show isBlank ']' = false from rfl), if_true]

theorem readListEnd_of_done {b : List Char} (hb : IsBlanks b) (rest : List Char) :
    readListEnd (b ++ ']' :: rest) = .ok rest := by
  simp only [readListEnd, skipBlanks_append hb (show isBlank ']' = false from rfl)]

theorem nextElement_of_separator {first : Bool} {sep v : List Char} (hsep : Separator first sep)
    (hv : IsValue v) (rest : List Char) :
    nextElement first (sep ++ (v ++ rest)) = .ok (true, v ++ rest) := by
  obtain ⟨c, cs, rfl, hblank, hclose⟩ := exists_cons_of_isValue hv
  cases hsep with
  | first hb =>
    simp only [nextElement, List.cons_append, skipBlanks_append hb hblank, if_neg hclose, if_true]
  | next hb hb' =>
    rw [List.append_assoc, List.cons_append]
    simp only [nextElement, List.cons_append,
      skipBlanks_append hb (show isBlank ',' = false from rfl), skipBlanks_append hb' hblank]
    rw [if_neg (by decide), if_neg (by decide), if_pos trivial]
    split
    · next heq => cases heq
    · next heq => exact absurd (List.cons.inj heq).1 hclose
    · rfl

/-- The elements of a list are read as the fields in their order, up to where the list ends. -/
theorem readElements_append {back : List TextPart} {fields : List (Field σ)}
    {front : List TextPart} {vs : List (List Char)}
    (hfields : List.Forall₂ (Field.Gathers kept) fields (front ++ back))
    (hvs : List.Forall₂ (fun part v => part.IsOf v) front vs) (hback : s.strict = true → back = [])
    {index : Nat} {cs : List Char} (hcs : ElementsText (index == 0) vs cs) (names : List String)
    (rest : List Char) :
    s.readElements index fields (kept names) (cs ++ rest)
      = .ok (kept ((front.map (·.name)).reverse ++ names), rest) := by
  induction hvs generalizing index fields cs names with
  | nil =>
    cases hcs with
    | done hb =>
      rw [List.append_assoc, List.singleton_append]
      cases hfields with
      | nil => rw [readElements, readListEnd_of_done hb]; rfl
      | cons _ _ =>
        have hlax : s.strict = false := by
          rw [← Bool.not_eq_true]
          exact fun hs => List.cons_ne_nil _ _ (hback hs)
        simp only [readElements, nextElement_of_done hb, hlax]
        rfl
  | @cons part v front vs hof _ ih =>
    cases hcs with
    | @element _ sep _ tail _ hsep hv htail =>
      cases hfields with
      | @cons field _ fields _ hfield hfields =>
        obtain ⟨hname, hgathers⟩ := hfield
        obtain ⟨update, hread, hupdate⟩ := hgathers v hof
        have hvalue := hread [] isBlanks_nil (tail ++ rest)
          (ends_of_isPiece (isPiece_of_elementsText htail) rest)
        rw [List.nil_append] at hvalue
        rw [List.append_assoc, List.append_assoc]
        simp only [readElements, nextElement_of_separator hsep hv, hvalue, hupdate]
        have hmore : ElementsText (index + 1 == 0) vs tail := htail
        rw [ih hfields hmore, hname, List.map_cons, List.reverse_cons, List.append_assoc]
        rfl

theorem reads_of_list (h : s.Collects start parts m kept) {front back : List TextPart}
    {vs : List (List Char)} {cs : List Char} (hcs : IsList vs cs) (hparts : parts = front ++ back)
    (hvs : List.Forall₂ (fun part v => part.IsOf v) front vs)
    (hmissing : ∀ part ∈ back, part.Missable) (hback : s.strict = true → back = []) :
    (s.reader start).ReadsValue cs m := by
  obtain ⟨body, hbody, rfl⟩ := hcs
  subst hparts
  intro b hb rest _
  have hkept : kept ((front.map (·.name)).reverse ++ []) = m := by
    refine h.everything _ fun part hpart hname => ?_
    rcases List.mem_append.1 hpart with hfront | hin
    · exact absurd (List.mem_append_left _ (List.mem_reverse.2 (List.mem_map_of_mem hfront))) hname
    · exact hmissing part hin
  rw [List.append_assoc, List.cons_append]
  simp only [reader, skipBlanks_append hb (show isBlank '[' = false from rfl)]
  have helements : ElementsText (0 == 0) vs body := hbody
  rw [← h.nothing, readElements_append h.fields hvs hback helements [] rest, hkept]

/-- **A value with named fields is read from every text in which it may be written.** -/
theorem reads_of_written (h : s.Collects start parts m kept) {cs : List Char}
    (hcs : Written s.strict parts cs) : (s.reader start).ReadsValue cs m := by
  cases hcs with
  | object hcs hof honce hmissing hstrict => exact reads_of_object h hcs hof honce hmissing hstrict
  | list hcs hparts hvs hmissing hback => exact reads_of_list h hcs hparts hvs hmissing hback

/-! ## What is refused -/

/-- A member that was taken in stands for a field that was not there before, or is none. -/
theorem cases_of_accepts {st st' : σ × List String} {member : Member}
    (h : s.member.Accepts st member st') :
    (∃ field, s.fields.find? (·.name == member.1) = some field ∧ member.1 ∉ st.2 ∧
      ¬ field.value.Refuses member.2 ∧ st'.2 = member.1 :: st.2) ∨
    (s.fields.find? (·.name == member.1) = none ∧ s.strict = false ∧ st' = st) := by
  obtain ⟨b, b', rest, hb, hb', hrest, hread⟩ := h
  unfold Shape.member at hread
  dsimp only at hread
  split at hread
  · next field hfind =>
    split at hread
    · cases hread
    · next hnew =>
      simp only [readField, readColon_append hb] at hread
      split at hread
      · cases hread
      · next hfield =>
        split at hfield
        · cases hfield
        · next hvalue =>
          cases hfield
          cases hread
          exact Or.inl ⟨field, hfind, by simpa using hnew,
            fun hrefuses => hrefuses _ _ _ _ hb' hrest hvalue, rfl⟩
  · next hfind =>
    split at hread
    · cases hread
    · next hlax =>
      split at hread
      · cases hread
      · cases hread
        exact Or.inr ⟨hfind, by simpa using hlax, rfl⟩

/-- The names of fields that are there stay there. -/
theorem not_mem_of_acceptsAll {st st' : σ × List String} {ms : List Member}
    (h : AcceptsAll s.member st ms st') {field : Field σ} {key : String}
    (hfind : s.fields.find? (·.name == key) = some field) (hkey : key ∈ st.2) :
    key ∉ ms.map (·.1) := by
  induction h with
  | nil => exact List.not_mem_nil
  | @cons st st₁ st' member ms haccept _ ih =>
    rw [List.map_cons, List.mem_cons]
    rintro (rfl | hmem)
    · rcases cases_of_accepts haccept with ⟨_, _, hnew, _⟩ | ⟨hnone, _⟩
      · exact hnew hkey
      · rw [hfind] at hnone
        cases hnone
    · refine ih ?_ hmem
      rcases cases_of_accepts haccept with ⟨_, _, _, _, hnames⟩ | ⟨_, _, rfl⟩
      · rw [hnames]
        exact List.mem_cons_of_mem _ hkey
      · exact hkey

theorem count_le_one_of_acceptsAll {st st' : σ × List String} {ms : List Member}
    (h : AcceptsAll s.member st ms st') {field : Field σ} {key : String}
    (hfind : s.fields.find? (·.name == key) = some field) : (ms.map (·.1)).count key ≤ 1 := by
  induction h with
  | nil => exact Nat.zero_le _
  | @cons st st₁ st' member ms haccept hrest ih =>
    rw [List.map_cons]
    by_cases heq : member.1 = key
    · subst heq
      have hin : member.1 ∈ st₁.2 := by
        rcases cases_of_accepts haccept with ⟨_, _, _, _, hnames⟩ | ⟨hnone, _⟩
        · rw [hnames]
          exact List.mem_cons_self
        · rw [hfind] at hnone
          cases hnone
      have hzero := List.count_eq_zero_of_not_mem (not_mem_of_acceptsAll hrest hfind hin)
      rw [List.count_cons_self]
      omega
    · rw [List.count_cons_of_ne heq]
      exact ih

section Refused

variable {ms : List Member} {cs : List Char}

/-- An object that was read was read member by member. -/
theorem refuses_of_acceptsAll (hs : ∀ field ∈ s.fields, field.value.Exact) (h : IsObject ms cs)
    (hno : ∀ st, ¬ AcceptsAll s.member (start, []) ms st) : (s.reader start).Refuses cs := by
  obtain ⟨body, hbody, rfl⟩ := h
  intro b rest m rest' hb _ hread
  simp only [reader, List.cons_append,
    skipBlanks_append hb (show isBlank '\x7b' = false from rfl)] at hread
  split at hread
  · cases hread
  · next hmembers => exact hno _ (acceptsAll_of_readMembers (exact_member hs) hbody hmembers)

theorem find?_eq_none_iff {key : String} :
    s.fields.find? (·.name == key) = none ↔ key ∉ s.names := by
  simp [names, List.find?_eq_none]

/-- **A field may stand in an object once.** -/
theorem refuses_repeated (hs : ∀ field ∈ s.fields, field.value.Exact) (h : IsObject ms cs)
    {key : String} (hkey : key ∈ s.names) (htwice : 2 ≤ (ms.map (·.1)).count key) :
    (s.reader start).Refuses cs := by
  refine refuses_of_acceptsAll hs h fun st haccepts => ?_
  cases hfind : s.fields.find? (·.name == key) with
  | none => exact find?_eq_none_iff.1 hfind hkey
  | some field =>
    have hle := count_le_one_of_acceptsAll haccepts hfind
    omega

/-- **Nothing but its fields may stand in an object of a strict shape.** -/
theorem refuses_undeclared (hs : ∀ field ∈ s.fields, field.value.Exact) (h : IsObject ms cs)
    (hstrict : s.strict = true) {member : Member} (hmem : member ∈ ms)
    (hkey : member.1 ∉ s.names) : (s.reader start).Refuses cs := by
  refine refuses_of_acceptsAll hs h fun st haccepts => ?_
  obtain ⟨st₁, st₂, haccept⟩ := haccepts.exists_of_mem hmem
  rcases cases_of_accepts haccept with ⟨_, hsome, _⟩ | ⟨_, hlax, _⟩
  · rw [find?_eq_none_iff.2 hkey] at hsome
    cases hsome
  · rw [hstrict] at hlax
    cases hlax

/-- **A value that its field refuses may not stand in an object.** -/
theorem refuses_member (hs : ∀ field ∈ s.fields, field.value.Exact) (h : IsObject ms cs)
    {field : Field σ} {member : Member} (hmem : member ∈ ms)
    (hfind : s.fields.find? (·.name == member.1) = some field)
    (hrefuses : field.value.Refuses member.2) : (s.reader start).Refuses cs := by
  refine refuses_of_acceptsAll hs h fun st haccepts => ?_
  obtain ⟨st₁, st₂, haccept⟩ := haccepts.exists_of_mem hmem
  rcases cases_of_accepts haccept with ⟨field', hsome, _, hnot, _⟩ | ⟨hnone, _⟩
  · rw [hfind] at hsome
    cases hsome
    exact hnot hrefuses
  · rw [hfind] at hnone
    cases hnone

end Refused

/-- The elements of a list that was read are refused by none of the fields in whose places they
stand. -/
theorem not_refuses_of_readElements {fields : List (Field σ)}
    (hs : ∀ field ∈ fields, field.value.Exact) {vs : List (List Char)} {index : Nat}
    {cs rest rest' : List Char} {m m' : σ} (hcs : ElementsText (index == 0) vs cs)
    (hread : s.readElements index fields m (cs ++ rest) = .ok (m', rest')) {field : Field σ}
    {v : List Char} (hmem : (field, v) ∈ fields.zip vs) : ¬ field.value.Refuses v := by
  induction fields generalizing index vs cs m with
  | nil => cases hmem
  | cons first fields ih =>
    obtain ⟨hfirst, hs⟩ := List.forall_mem_cons.1 hs
    cases hcs with
    | done hb => cases hmem
    | @element _ sep v' tail vs hsep hv htail =>
      have hends := ends_of_isPiece (isPiece_of_elementsText htail) rest
      rw [List.append_assoc, List.append_assoc] at hread
      simp only [readElements, nextElement_of_separator hsep hv] at hread
      split at hread
      · cases hread
      · next hvalue =>
        have hrest := hfirst.rest_eq isBlanks_nil hv hends hvalue
        rw [hrest] at hread
        rcases List.mem_cons.1 hmem with heq | hmem
        · cases heq
          exact fun hrefuses => hrefuses _ _ _ _ isBlanks_nil hends hvalue
        · have hmore : ElementsText (index + 1 == 0) vs tail := htail
          exact ih hs hmore hread hmem

/-- **A value that its field refuses may not stand in a list.** -/
theorem refuses_element (hs : ∀ field ∈ s.fields, field.value.Exact) {vs : List (List Char)}
    {cs : List Char} (h : IsList vs cs) {field : Field σ} {v : List Char}
    (hmem : (field, v) ∈ s.fields.zip vs) (hrefuses : field.value.Refuses v) :
    (s.reader start).Refuses cs := by
  obtain ⟨body, hbody, rfl⟩ := h
  intro b rest m rest' hb _ hread
  simp only [reader, List.cons_append,
    skipBlanks_append hb (show isBlank '[' = false from rfl)] at hread
  have helements : ElementsText (0 == 0) vs body := hbody
  exact not_refuses_of_readElements hs helements hread hmem hrefuses

theorem exists_zip_of_forall₂ {field : Field σ} {part : TextPart} {front back : List TextPart}
    {vs : List (List Char)} (h : List.Forall₂ (fun part v => part.IsOf v) front vs)
    (hback : part ∉ back) {fields : List (Field σ)}
    (hmem : (field, part) ∈ fields.zip (front ++ back)) :
    ∃ v, part.IsOf v ∧ (field, v) ∈ fields.zip vs := by
  induction h generalizing fields with
  | nil => exact absurd (List.of_mem_zip hmem).2 hback
  | @cons part' v front vs hof _ ih =>
    cases fields with
    | nil => cases hmem
    | cons field' fields =>
      rcases List.mem_cons.1 hmem with heq | hmem
      · cases heq
        exact ⟨v, hof, List.mem_cons_self⟩
      · obtain ⟨v', hof', hmem'⟩ := ih hmem
        exact ⟨v', hof', List.mem_cons_of_mem _ hmem'⟩

/-- **A part that its field refuses makes the whole unreadable**, however it is written. -/
theorem refuses_of_written (hs : ∀ field ∈ s.fields, field.value.Exact) {field : Field σ}
    {part : TextPart} (hmem : (field, part) ∈ s.fields.zip parts)
    (hfind : s.fields.find? (·.name == part.name) = some field) (hmissing : ¬ part.Missable)
    (hrefuses : ∀ v, part.IsOf v → field.value.Refuses v) {cs : List Char}
    (h : Written s.strict parts cs) : (s.reader start).Refuses cs := by
  have hpart : part ∈ parts := (List.of_mem_zip hmem).2
  cases h with
  | @object ms _ hcs hof _ hleft _ =>
    have hkey : part.name ∈ ms.map (·.1) := Classical.byContradiction fun hkey =>
      hmissing (hleft part hpart hkey)
    obtain ⟨⟨name, v⟩, hin, hname⟩ := List.mem_map.1 hkey
    obtain rfl : name = part.name := hname
    exact refuses_member hs hcs hin hfind (hrefuses v (hof part hpart v hin))
  | @list front back vs _ hcs hparts hvs hleft _ =>
    rw [hparts] at hmem
    obtain ⟨v, hof, hin⟩ := exists_zip_of_forall₂ hvs (fun hback => hmissing (hleft part hback)) hmem
    exact refuses_element hs hcs hin (hrefuses v hof)

end Shape

end LibraryRegistry.Json
