import Mathlib.Data.List.Forall2
import LibraryRegistry.Proofs.Dict
import LibraryRegistry.Proofs.Json.Exact

/-!
# Texts of objects and lists

The text of an object is known by its members, each with its key and the text of its value, and that
of a list by the texts of its elements. A value may be refused as well as read: then nothing can be
read in which it stands.

* `IsObject`, `IsList`, `IsDict` — texts of objects, of lists and of dictionaries
* `Reader.ReadsValue`, `Reader.Refuses` — what a reader does with the text of a value
* `members_of_membersText` — members that are taken in one after the other
* `acceptsAll_of_readMembers` — an object that could be read, member by member
* `Reader.readsValue_dict`, `Reader.refuses_dict` — dictionaries
-/

namespace LibraryRegistry.Json

variable {α σ : Type}

/-! ## Texts -/

/-- A member of an object: its key and the text of its value. -/
abbrev Member := String × List Char

/-- The text of an object from in front of a member up to its end. -/
inductive MembersText : (first : Bool) → List Member → List Char → Prop
  | done {first : Bool} {b : List Char} : IsBlanks b → MembersText first [] (b ++ ['\x7d'])
  | member {first : Bool} {sep k b b' v rest : List Char} {key : String} {ms : List Member} :
      Separator first sep → IsText key k → IsBlanks b → IsBlanks b' → IsValue v →
      MembersText false ms rest →
      MembersText first ((key, v) :: ms) (sep ++ (k ++ (b ++ ':' :: (b' ++ (v ++ rest)))))

/-- The texts of an object with the given members in their order. -/
def IsObject (ms : List Member) (cs : List Char) : Prop :=
  ∃ body, MembersText true ms body ∧ cs = '\x7b' :: body

/-- The text of a list from in front of an element up to its end. -/
inductive ElementsText : (first : Bool) → List (List Char) → List Char → Prop
  | done {first : Bool} {b : List Char} : IsBlanks b → ElementsText first [] (b ++ [']'])
  | element {first : Bool} {sep v rest : List Char} {vs : List (List Char)} :
      Separator first sep → IsValue v → ElementsText false vs rest →
      ElementsText first (v :: vs) (sep ++ (v ++ rest))

/-- The texts of a list with the given elements. -/
def IsList (vs : List (List Char)) (cs : List Char) : Prop :=
  ∃ body, ElementsText true vs body ∧ cs = '[' :: body

/-- The texts of a dictionary, as an object with any order of its members; of a repeated key the
last value counts. -/
def IsDict (IsOf : α → List Char → Prop) (d : Dict α) (cs : List Char) : Prop :=
  ∃ (entries : List (String × α)) (ms : List Member),
    List.Forall₂ (fun e m => e.1 = m.1 ∧ IsOf e.2 m.2) entries ms ∧ IsObject ms cs ∧
      d.HasLast entries

/-- The whole text is a value with nothing but blanks around it. -/
def Holds (text : String) (IsOf : List Char → Prop) : Prop :=
  ∃ b v b', IsBlanks b ∧ IsBlanks b' ∧ IsOf v ∧ text.toList = b ++ (v ++ b')

/-- What stands from a member on closes its object. -/
theorem isPiece_of_membersText {first : Bool} {ms : List Member} {cs : List Char}
    (h : MembersText first ms cs) : IsPiece (.inside .object (!first)) cs := by
  induction h with
  | done hb => exact IsPiece.closed hb
  | @member first sep k b b' v rest key ms hsep hk hb hb' hv _ ih =>
    have hlead : Lead .object (!first) (sep ++ (k ++ (b ++ ':' :: b'))) :=
      Lead.member (by rwa [Bool.not_not]) (isRawText_of_isText hk) hb hb'
    have hpiece := IsPiece.next hlead hv ih
    simpa using hpiece

theorem IsObject.isValue {ms : List Member} {cs : List Char} (h : IsObject ms cs) : IsValue cs := by
  obtain ⟨body, hbody, rfl⟩ := h
  exact IsPiece.opened (isPiece_of_membersText hbody)

/-- Every member has a value. -/
theorem MembersText.values {first : Bool} {ms : List Member} {cs : List Char}
    (h : MembersText first ms cs) : ∀ member ∈ ms, IsValue member.2 := by
  induction h with
  | done _ => exact List.forall_mem_nil _
  | member _ _ _ _ hv _ ih => exact List.forall_mem_cons.2 ⟨hv, ih⟩

/-- What stands from an element on closes its list. -/
theorem isPiece_of_elementsText {first : Bool} {vs : List (List Char)} {cs : List Char}
    (h : ElementsText first vs cs) : IsPiece (.inside .list (!first)) cs := by
  induction h with
  | done hb => exact IsPiece.closed hb
  | element hsep hv _ ih => exact IsPiece.next (Lead.element (by rwa [Bool.not_not])) hv ih

theorem IsList.isValue {vs : List (List Char)} {cs : List Char} (h : IsList vs cs) :
    IsValue cs := by
  obtain ⟨body, hbody, rfl⟩ := h
  exact IsPiece.opened (isPiece_of_elementsText hbody)

/-! ## Texts without blanks -/

/-- The members behind the first one, up to the end of their object. -/
def furtherMembers : List Member → List Char
  | [] => ['\x7d']
  | (key, v) :: ms => ',' :: (writeText key ++ ':' :: (v ++ furtherMembers ms))

/-- An object with the given members. -/
def compactObject : List Member → List Char
  | [] => ['\x7b', '\x7d']
  | (key, v) :: ms => '\x7b' :: (writeText key ++ ':' :: (v ++ furtherMembers ms))

/-- The elements behind the first one, up to the end of their list. -/
def furtherElements : List (List Char) → List Char
  | [] => [']']
  | v :: vs => ',' :: (v ++ furtherElements vs)

/-- A list with the given elements. -/
def compactList : List (List Char) → List Char
  | [] => ['[', ']']
  | v :: vs => '[' :: (v ++ furtherElements vs)

theorem membersText_furtherMembers : ∀ {ms : List Member}, (∀ member ∈ ms, IsValue member.2) →
    MembersText false ms (furtherMembers ms)
  | [], _ => .done isBlanks_nil
  | (key, _) :: _, h =>
    .member (.next isBlanks_nil isBlanks_nil) (isText_writeText key) isBlanks_nil isBlanks_nil
      (List.forall_mem_cons.1 h).1 (membersText_furtherMembers (List.forall_mem_cons.1 h).2)

/-- Any members make an object, the same key twice included. -/
theorem isObject_compactObject {ms : List Member} (h : ∀ member ∈ ms, IsValue member.2) :
    IsObject ms (compactObject ms) := by
  cases ms with
  | nil => exact ⟨_, .done isBlanks_nil, rfl⟩
  | cons member ms =>
    obtain ⟨hv, hms⟩ := List.forall_mem_cons.1 h
    exact ⟨_, .member (.first isBlanks_nil) (isText_writeText member.1) isBlanks_nil isBlanks_nil hv
      (membersText_furtherMembers hms), rfl⟩

theorem elementsText_furtherElements : ∀ {vs : List (List Char)}, (∀ v ∈ vs, IsValue v) →
    ElementsText false vs (furtherElements vs)
  | [], _ => .done isBlanks_nil
  | _ :: _, h =>
    .element (.next isBlanks_nil isBlanks_nil) (List.forall_mem_cons.1 h).1
      (elementsText_furtherElements (List.forall_mem_cons.1 h).2)

/-- Any values make a list. -/
theorem isList_compactList {vs : List (List Char)} (h : ∀ v ∈ vs, IsValue v) :
    IsList vs (compactList vs) := by
  cases vs with
  | nil => exact ⟨_, .done isBlanks_nil, rfl⟩
  | cons v vs =>
    obtain ⟨hv, hvs⟩ := List.forall_mem_cons.1 h
    exact ⟨_, .element (.first isBlanks_nil) hv (elementsText_furtherElements hvs), rfl⟩

theorem isValue_null : IsValue ['n', 'u', 'l', 'l'] := .scalar .null

theorem isValue_writeText (s : String) : IsValue (writeText s) :=
  .scalar (.text (isRawText_of_isText (isText_writeText s)))

/-- A text with nothing around its value. -/
theorem holds_ofList {IsOf : List Char → Prop} {v : List Char} (h : IsOf v) :
    Holds (String.ofList v) IsOf :=
  ⟨[], v, [], isBlanks_nil, isBlanks_nil, h, by rw [String.toList_ofList]; simp⟩

/-! ## What is read -/

/-- A value is read from its text, with blanks in front of it. -/
def Reader.ReadsValue (r : Reader α) (v : List Char) (a : α) : Prop :=
  ∀ b, IsBlanks b → r.Reads (b ++ v) a

/-- A member is taken in, with blanks around its colon. -/
def MemberReader.TakesMember (f : MemberReader σ) (m : σ) (member : Member) (m' : σ) : Prop :=
  ∀ b b', IsBlanks b → IsBlanks b' → f.Takes m member.1 (b ++ ':' :: (b' ++ member.2)) m'

/-- Members are taken in one after the other. -/
inductive TakesAll (f : MemberReader σ) : σ → List Member → σ → Prop
  | nil {m : σ} : TakesAll f m [] m
  | cons {m m' m'' : σ} {member : Member} {ms : List Member} :
      f.TakesMember m member m' → TakesAll f m' ms m'' → TakesAll f m (member :: ms) m''

/-- **Members that are taken in lead through the text of their object.** -/
theorem members_of_membersText {f : MemberReader σ} {first : Bool} {ms : List Member}
    {cs : List Char} (h : MembersText first ms cs) {m m' : σ} (hf : TakesAll f m ms m') :
    Members f first m cs m' := by
  induction h generalizing m with
  | done hb =>
    cases hf
    exact Members.done hb
  | @member first sep k b b' v rest key ms hsep hk hb hb' _ _ ih =>
    cases hf with
    | cons htake htakes =>
      have hmembers := Members.member hsep hk (htake b b' hb hb') (ih htakes)
      simpa using hmembers

theorem Reader.readsValue_text (s : String) (v : List Char) (hv : IsText s v) :
    text.ReadsValue v s :=
  fun _ hb => reads_text hb hv

/-- A text whose value is read is parsed, with blanks around the value. -/
theorem Reader.parse_of_readsValue {r : Reader α} {text : String} {IsOf : List Char → Prop} {a : α}
    (h : Holds text IsOf) (hr : ∀ v, IsOf v → r.ReadsValue v a) : r.parse text = .ok a := by
  obtain ⟨b, v, b', hb, hb', hv, htext⟩ := h
  rw [← List.append_assoc] at htext
  exact parse_of_reads htext (hr v hv b hb) hb'

/-! ## What is refused -/

/-- Nothing is read from the text of a value, whatever follows it. -/
def Reader.Refuses (r : Reader α) (v : List Char) : Prop :=
  ∀ (b rest : List Char) (a : α) (rest' : List Char), IsBlanks b → Ends rest →
    r.read (b ++ (v ++ rest)) ≠ .ok (a, rest')

theorem ends_of_isBlanks {b : List Char} (hb : IsBlanks b) : Ends b := by
  have hends := ends_blanks_append hb (show Ends [] from fun _ hc => nomatch hc)
  rwa [List.append_nil] at hends

/-- A text whose value is refused is not parsed. -/
theorem Reader.parse_of_refuses {r : Reader α} {text : String} {IsOf : List Char → Prop}
    (h : Holds text IsOf) (hr : ∀ v, IsOf v → r.Refuses v) : ∃ e, r.parse text = .error e := by
  obtain ⟨b, v, b', hb, hb', hv, htext⟩ := h
  rw [parse, htext]
  cases hread : r.read (b ++ (v ++ b')) with
  | error f => exact ⟨_, rfl⟩
  | ok pair => exact absurd hread (hr v hv b b' pair.1 pair.2 hb (ends_of_isBlanks hb'))

namespace Reader

/-- What is made of a value does not matter to whether it is refused. -/
theorem refuses_map {r : Reader α} {f : α → σ} {v : List Char} (h : r.Refuses v) :
    (r.map f).Refuses v := by
  intro b rest a rest' hb hrest hread
  simp only [map] at hread
  split at hread
  · cases hread
  · next hvalue => exact h _ _ _ _ hb hrest hvalue

/-- A whole number out of range is refused. -/
theorem refuses_integer {expected : String} {low high n : Int} (hn : ¬ (low ≤ n ∧ n ≤ high)) :
    (integer expected low high).Refuses (toString n).toList := by
  intro b rest a rest' hb hrest hread
  obtain ⟨c, cs, hcs, hc⟩ := Text.exists_cons_toString n
  obtain ⟨hblank, -, hstart⟩ := number_head hc
  have hcons : (toString n).toList ++ rest = c :: (cs ++ rest) := by rw [hcs, List.cons_append]
  simp only [integer, number, hcons, skipBlanks_append hb hblank, hstart, if_true] at hread
  split at hread
  · cases hread
  · next x _ hnumber =>
    rw [← hcons] at hnumber
    rcases whole_or_isRounded hrest hnumber with rfl | ⟨_, _, rfl⟩
    · simp only [if_neg hn] at hread
      cases hread
    · cases hread

/-- A value that is refused does not become `null`. -/
theorem refuses_optional {r : Reader α} {c : Char} {cs : List Char} (hblank : isBlank c = false)
    (hword : c ≠ 'n') (h : r.Refuses (c :: cs)) : (optional r).Refuses (c :: cs) := by
  intro b rest a rest' hb hrest hread
  simp only [optional, List.cons_append, skipBlanks_append hb hblank] at hread
  split at hread
  · next heq => exact hword (List.cons.inj heq).1
  · split at hread
    · cases hread
    · next hvalue => exact h _ _ _ _ isBlanks_nil hrest hvalue

end Reader

/-- A member has been taken in from some place. -/
def MemberReader.Accepts (f : MemberReader σ) (m : σ) (member : Member) (m' : σ) : Prop :=
  ∃ b b' rest, IsBlanks b ∧ IsBlanks b' ∧ Ends rest ∧
    f.read m member.1 (b ++ ':' :: (b' ++ (member.2 ++ rest))) = .ok (m', rest)

/-- Members have been taken in one after the other. -/
inductive AcceptsAll (f : MemberReader σ) : σ → List Member → σ → Prop
  | nil {m : σ} : AcceptsAll f m [] m
  | cons {m m' m'' : σ} {member : Member} {ms : List Member} :
      f.Accepts m member m' → AcceptsAll f m' ms m'' → AcceptsAll f m (member :: ms) m''

theorem MembersText.ends {ms : List Member} {cs : List Char} (h : MembersText false ms cs)
    (rest : List Char) : Ends (cs ++ rest) :=
  ends_of_isPiece (isPiece_of_membersText h) rest

/-- A member with any value is skipped up to the end of the value. -/
theorem skipMember_append {b b' v rest : List Char} (hb : IsBlanks b) (hb' : IsBlanks b')
    (hv : IsValue v) (hrest : Ends rest) :
    Shape.skipMember (b ++ ':' :: (b' ++ (v ++ rest))) = .ok rest := by
  rw [Shape.skipMember, readColon_append hb]
  exact skipValue_of_isValue hb' hv hrest

/-- **An object that could be read was read member by member.** -/
theorem acceptsAll_of_readMembers {f : MemberReader σ} (hf : f.Exact) {first : Bool}
    {ms : List Member} {cs : List Char} (h : MembersText first ms cs) {m m' : σ}
    {rest rest' : List Char} (hread : readMembers f first m (cs ++ rest) = .ok (m', rest')) :
    AcceptsAll f m ms m' := by
  induction h generalizing m with
  | done hb =>
    rw [List.append_assoc, List.singleton_append,
      readMembers_of_done (nextKey_of_done hb rest)] at hread
    cases hread
    exact AcceptsAll.nil
  | @member first sep k b b' v tail key ms hsep hk hb hb' hv htail ih =>
    have happend : sep ++ (k ++ (b ++ ':' :: (b' ++ (v ++ tail)))) ++ rest
        = sep ++ (k ++ (b ++ ':' :: (b' ++ (v ++ (tail ++ rest))))) := by simp
    rw [happend] at hread
    have hkey := nextKey_of_separator hsep hk (b ++ ':' :: (b' ++ (v ++ (tail ++ rest))))
    cases hmember : f.read m key (b ++ ':' :: (b' ++ (v ++ (tail ++ rest)))) with
    | error fault =>
      rw [readMembers_of_fault hkey hmember] at hread
      cases hread
    | ok pair =>
      obtain ⟨m₁, rest₁⟩ := pair
      -- What is behind the member is found where it would be if the member were skipped.
      have hskip := hf hmember
      rw [skipMember_append hb hb' hv (htail.ends rest)] at hskip
      obtain rfl := Except.ok.inj hskip
      rw [readMembers_of_member hkey hmember] at hread
      exact AcceptsAll.cons ⟨b, b', _, hb, hb', htail.ends rest, hmember⟩ (ih hread)

/-- So each of them was read at some place. -/
theorem AcceptsAll.exists_of_mem {f : MemberReader σ} {m m' : σ} {ms : List Member}
    (h : AcceptsAll f m ms m') {member : Member} (hmem : member ∈ ms) :
    ∃ m₁ m₂, f.Accepts m₁ member m₂ := by
  induction h with
  | nil => cases hmem
  | cons haccept _ ih =>
    rcases List.mem_cons.1 hmem with rfl | hmem
    · exact ⟨_, _, haccept⟩
    · exact ih hmem

/-! ## Dictionaries -/

namespace Reader

variable {value : Reader α}

/-- The members of a dictionary are inserted one after the other. -/
theorem takesAll_dict {IsOf : α → List Char → Prop}
    (hvalue : ∀ a v, IsOf a v → value.ReadsValue v a) {entries : List (String × α)}
    {ms : List Member} (h : List.Forall₂ (fun e m => e.1 = m.1 ∧ IsOf e.2 m.2) entries ms)
    (d : Dict α) : TakesAll (.dict value) d ms (d.insertAll entries) := by
  induction h generalizing d with
  | nil => exact TakesAll.nil
  | @cons e m entries ms hentry _ ih =>
    obtain ⟨key, a⟩ := e
    obtain ⟨key', v⟩ := m
    obtain ⟨rfl, hof⟩ := hentry
    exact TakesAll.cons (fun b b' hb hb' => takes_dict hb (hvalue a v hof b' hb')) (ih _)

/-- **A dictionary is read from an object with its members in any order.** -/
theorem readsValue_dict {IsOf : α → List Char → Prop} {d : Dict α} {cs : List Char}
    (hvalue : ∀ a v, IsOf a v → value.ReadsValue v a) (h : IsDict IsOf d cs) :
    (dict value).ReadsValue cs d := by
  obtain ⟨entries, ms, hentries, ⟨body, hbody, rfl⟩, hlast⟩ := h
  rw [hlast.eq_ofList]
  exact fun b hb => reads_dict hb
    (members_of_membersText hbody (takesAll_dict hvalue hentries Dict.empty))

/-- One refused member is enough to refuse a dictionary. -/
theorem refuses_dict (hvalue : value.Exact) {ms : List Member} {cs : List Char} (h : IsObject ms cs)
    {member : Member} (hmem : member ∈ ms) (hrefuses : value.Refuses member.2) :
    (dict value).Refuses cs := by
  obtain ⟨body, hbody, rfl⟩ := h
  intro b rest d rest' hb hrest hread
  simp only [dict, List.cons_append,
    skipBlanks_append hb (show isBlank '\x7b' = false from rfl)] at hread
  have haccepts := acceptsAll_of_readMembers (exact_dict_member hvalue) hbody hread
  obtain ⟨m₁, m₂, a, a', rest₁, ha, ha', hrest₁, hmember⟩ := haccepts.exists_of_mem hmem
  simp only [MemberReader.dict, readColon_append ha] at hmember
  split at hmember
  · cases hmember
  · next hvalue => exact hrefuses _ _ _ _ ha' hrest₁ hvalue

end Reader

end LibraryRegistry.Json
