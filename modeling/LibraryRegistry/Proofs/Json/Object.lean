import LibraryRegistry.Json.Shape
import LibraryRegistry.Proofs.Json.Text
import LibraryRegistry.Proofs.Text.Prefix

/-!
# Objects, member by member

An object is read one member after the other, so its text is cut at its members: each stands behind a
separator, its key is written in any way, and what follows the key does one step to the value read so
far. Blanks may stand in front of every token.

* `Reader.Reads`, `MemberReader.Takes` — texts of values, and texts of members behind their keys
* `Members` — the members of an object up to its end
* `readMembers_of_members` — they are read one after the other
* `reads_text`, `reads_dict`, `reads_object` — texts, dictionaries and values with named fields
* `parse_of_reads` — a whole text
-/

namespace LibraryRegistry.Json

/-! ## Blanks -/

/-- Nothing but blanks. -/
def IsBlanks (cs : List Char) : Prop := ∀ c ∈ cs, isBlank c = true

theorem isBlanks_nil : IsBlanks [] := fun _ hc => nomatch hc

theorem isBlanks_space : IsBlanks [' '] := by
  intro c hc
  rw [List.mem_singleton.1 hc]
  rfl

theorem skipBlanks_append {b : List Char} {c : Char} (hb : IsBlanks b) (hc : isBlank c = false)
    (rest : List Char) : skipBlanks (b ++ c :: rest) = c :: rest :=
  Text.dropWhile_of_stops hb (Text.stops_cons.2 hc)

theorem skipBlanks_of_isBlanks {b : List Char} (hb : IsBlanks b) : skipBlanks b = [] := by
  have h := Text.dropWhile_of_stops hb (Text.stops_nil (p := isBlank))
  rwa [List.append_nil] at h

/-- What may follow a value: nothing, or the beginning of another token. -/
def Ends (rest : List Char) : Prop :=
  ∀ c ∈ rest.head?, isBlank c = true ∨ c = ',' ∨ c = ']' ∨ c = '\x7d'

theorem ends_cons {c : Char} {rest : List Char}
    (h : isBlank c = true ∨ c = ',' ∨ c = ']' ∨ c = '\x7d') : Ends (c :: rest) := by
  intro d hd
  obtain rfl : c = d := Option.some.inj hd
  exact h

theorem ends_blanks_append {b rest : List Char} (hb : IsBlanks b) (h : Ends rest) :
    Ends (b ++ rest) := by
  cases b with
  | nil => exact h
  | cons c b => exact ends_cons (Or.inl (hb c List.mem_cons_self))

/-! ## Values and members -/

variable {α σ : Type}

/-- A value is read from a text, whatever follows it. -/
def Reader.Reads (r : Reader α) (cs : List Char) (a : α) : Prop :=
  ∀ rest, Ends rest → r.read (cs ++ rest) = .ok (a, rest)

/-- A member is read from its text behind the key, and leads from one value to the next. -/
def MemberReader.Takes (f : MemberReader σ) (m : σ) (key : String) (cs : List Char) (m' : σ) :
    Prop :=
  ∀ rest, Ends rest → f.read m key (cs ++ rest) = .ok (m', rest)

/-- What stands in front of the first member, or of a further one. -/
inductive Separator : (first : Bool) → List Char → Prop
  | first {b : List Char} : IsBlanks b → Separator true b
  | next {b b' : List Char} : IsBlanks b → IsBlanks b' → Separator false (b ++ ',' :: b')

/-- The text of an object from in front of a member up to its end; the members lead from one value
to another. -/
inductive Members (f : MemberReader σ) : (first : Bool) → σ → List Char → σ → Prop
  | done {first : Bool} {m : σ} {b : List Char} : IsBlanks b → Members f first m (b ++ ['\x7d']) m
  | member {first : Bool} {m m' m'' : σ} {sep k cs rest : List Char} {key : String} :
      Separator first sep → IsText key k → f.Takes m key cs m' → Members f false m' rest m'' →
      Members f first m (sep ++ (k ++ (cs ++ rest))) m''

/-! ## Members of an object -/

theorem readKey_of_isText {key : String} {k : List Char} (h : IsText key k) (rest : List Char) :
    readKey (k ++ rest) = .ok (key, rest) := by
  obtain ⟨body, hbody, rfl⟩ := h
  have happend : '"' :: (body ++ ['"']) ++ rest = '"' :: (body ++ '"' :: rest) := by simp
  rw [happend, readKey]
  exact readText_of_spells hbody rest

theorem nextKey_of_done {first : Bool} {b : List Char} (hb : IsBlanks b) (rest : List Char) :
    nextKey first (b ++ '\x7d' :: rest) = .ok (none, rest) := by
  simp only [nextKey, skipBlanks_append hb (show isBlank '\x7d' = false from rfl), if_true]

/-- A key is read behind its separator. -/
theorem nextKey_of_separator {first : Bool} {sep k : List Char} {key : String}
    (hsep : Separator first sep) (hk : IsText key k) (rest : List Char) :
    nextKey first (sep ++ (k ++ rest)) = .ok (some key, rest) := by
  have hread := readKey_of_isText hk rest
  -- A key begins with its quotation mark, which is neither a blank nor a comma.
  obtain ⟨body, -, rfl⟩ := hk
  rw [List.cons_append] at hread ⊢
  cases hsep with
  | first hb =>
    simp only [nextKey, skipBlanks_append hb (show isBlank '"' = false from rfl)]
    rw [if_neg (by decide), if_pos trivial, hread]
    rfl
  | next hb hb' =>
    rw [List.append_assoc, List.cons_append]
    simp only [nextKey, skipBlanks_append hb (show isBlank ',' = false from rfl),
      skipBlanks_append hb' (show isBlank '"' = false from rfl)]
    rw [if_neg (by decide), if_neg (by decide), if_pos trivial, hread]
    rfl

theorem readMembers_of_done {f : MemberReader σ} {first : Bool} {m : σ} {cs rest : List Char}
    (h : nextKey first cs = .ok (none, rest)) : readMembers f first m cs = .ok (m, rest) := by
  rw [readMembers]
  split
  · next hk =>
    rw [h] at hk
    cases hk
  · next hk =>
    rw [h] at hk
    cases hk
    rfl
  · next hk =>
    rw [h] at hk
    cases hk

theorem readMembers_of_member {f : MemberReader σ} {first : Bool} {m m' : σ} {key : String}
    {cs rest rest' : List Char} (h : nextKey first cs = .ok (some key, rest))
    (hf : f.read m key rest = .ok (m', rest')) :
    readMembers f first m cs = readMembers f false m' rest' := by
  rw [readMembers]
  split
  · next hk =>
    rw [h] at hk
    cases hk
  · next hk =>
    rw [h] at hk
    cases hk
  · next hk =>
    rw [h] at hk
    cases hk
    split
    · next he =>
      rw [hf] at he
      cases he
    · next he =>
      rw [hf] at he
      cases he
      rfl

theorem readMembers_of_fault {f : MemberReader σ} {first : Bool} {m : σ} {key : String}
    {cs rest : List Char} {fault : Fault} (h : nextKey first cs = .ok (some key, rest))
    (hf : f.read m key rest = .error fault) : readMembers f first m cs = .error fault := by
  rw [readMembers]
  split
  · next hk =>
    rw [h] at hk
    cases hk
  · next hk =>
    rw [h] at hk
    cases hk
  · next hk =>
    rw [h] at hk
    cases hk
    split
    · next he =>
      rw [hf] at he
      cases he
      rfl
    · next he =>
      rw [hf] at he
      cases he

/-- What comes behind a member ends it. -/
theorem Members.ends {f : MemberReader σ} {m m' : σ} {cs : List Char}
    (h : Members f false m cs m') (rest : List Char) : Ends (cs ++ rest) := by
  cases h with
  | done hb =>
    rw [List.append_assoc]
    exact ends_blanks_append hb (ends_cons (Or.inr (Or.inr (Or.inr rfl))))
  | member hsep _ _ _ =>
    cases hsep with
    | next hb _ =>
      rw [List.append_assoc, List.append_assoc]
      exact ends_blanks_append hb (ends_cons (Or.inr (Or.inl rfl)))

/-- **The members of an object are read one after the other.** -/
theorem readMembers_of_members {f : MemberReader σ} {first : Bool} {m m' : σ} {cs : List Char}
    (h : Members f first m cs m') (rest : List Char) :
    readMembers f first m (cs ++ rest) = .ok (m', rest) := by
  induction h with
  | done hb =>
    rw [List.append_assoc]
    exact readMembers_of_done (nextKey_of_done hb rest)
  | @member first m m' m'' sep k cs tail key hsep hk hf htail ih =>
    have happend : sep ++ (k ++ (cs ++ tail)) ++ rest = sep ++ (k ++ (cs ++ (tail ++ rest))) := by
      simp
    rw [happend, readMembers_of_member (nextKey_of_separator hsep hk _) (hf _ (htail.ends rest))]
    exact ih

/-! ## Readers -/

namespace Reader

theorem reads_text {s : String} {b cs : List Char} (hb : IsBlanks b) (h : IsText s cs) :
    text.Reads (b ++ cs) s := by
  intro rest _
  obtain ⟨body, hbody, rfl⟩ := h
  have happend : b ++ '"' :: (body ++ ['"']) ++ rest = b ++ '"' :: (body ++ '"' :: rest) := by simp
  rw [happend]
  simp only [text, skipBlanks_append hb (show isBlank '"' = false from rfl)]
  exact readText_of_spells hbody rest

theorem reads_map {r : Reader α} {f : α → σ} {cs : List Char} {a : α} (h : r.Reads cs a) :
    (r.map f).Reads cs (f a) := by
  intro rest hrest
  simp [map, h rest hrest]

/-- An object is read as a dictionary. -/
theorem reads_dict {value : Reader α} {b cs : List Char} {d : Dict α} (hb : IsBlanks b)
    (h : Members (.dict value) true .empty cs d) : (dict value).Reads (b ++ '\x7b' :: cs) d := by
  intro rest _
  rw [List.append_assoc, List.cons_append]
  simp only [dict, skipBlanks_append hb (show isBlank '\x7b' = false from rfl)]
  exact readMembers_of_members h rest

/-- A whole text may have blanks behind its value. -/
theorem parse_of_reads {r : Reader α} {s : String} {cs b : List Char} {a : α}
    (hs : s.toList = cs ++ b) (h : r.Reads cs a) (hb : IsBlanks b) : r.parse s = .ok a := by
  have hends : Ends b := by
    have happend := ends_blanks_append hb (show Ends [] from fun _ hc => nomatch hc)
    rwa [List.append_nil] at happend
  simp only [parse, hs, h b hends, skipBlanks_of_isBlanks hb]

end Reader

theorem readColon_append {b : List Char} (hb : IsBlanks b) (rest : List Char) :
    readColon (b ++ ':' :: rest) = .ok rest := by
  simp only [readColon, skipBlanks_append hb (show isBlank ':' = false from rfl)]

/-- A member of a dictionary is stored under its key. -/
theorem takes_dict {value : Reader α} {d : Dict α} {key : String} {b cs : List Char} {a : α}
    (hb : IsBlanks b) (h : value.Reads cs a) :
    (MemberReader.dict value).Takes d key (b ++ ':' :: cs) (d.insert key a) := by
  intro rest hrest
  rw [List.append_assoc, List.cons_append]
  simp [MemberReader.dict, readColon_append hb, h rest hrest]

namespace Shape

variable {s : Shape σ}

/-- An object is read as a value with named fields. -/
theorem reads_object {start m : σ} {names : List String} {b cs : List Char} (hb : IsBlanks b)
    (h : Members s.member true (start, []) cs (m, names)) :
    (s.reader start).Reads (b ++ '\x7b' :: cs) m := by
  intro rest _
  rw [List.append_assoc, List.cons_append]
  simp only [reader, skipBlanks_append hb (show isBlank '\x7b' = false from rfl),
    readMembers_of_members h rest]

/-- A member with the name of a field does what the field says. -/
theorem takes_member {field : Field σ} {m : σ} {names : List String} {key : String}
    {b cs : List Char} {update : σ → σ} (hfind : s.fields.find? (·.name == key) = some field)
    (hnew : key ∉ names) (hb : IsBlanks b) (h : field.value.Reads cs update) :
    s.member.Takes (m, names) key (b ++ ':' :: cs) (update m, key :: names) := by
  intro rest hrest
  rw [List.append_assoc, List.cons_append]
  simp [member, hfind, hnew, readField, readColon_append hb, h rest hrest]

end Shape

end LibraryRegistry.Json
