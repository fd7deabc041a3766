import LibraryRegistry.Dict

/-!
# Dictionaries from lists of entries

Entries stored one after the other: of a repeated key the last value counts, so entries with
different keys make the same dictionary in every order.

* `find?_insertAll`, `find?_insertAll_of_perm` — where a key leads after a list of insertions
* `find?_ofList_eq_some_iff`, `HasLast` — where a key leads, by the place of its last entry
* `ofList_of_perm` — a dictionary is made again from its entries in any order
* `HasExactly` — entries with different keys and no others
-/

namespace LibraryRegistry.Dict

variable {α : Type}

/-- Stores entries one after the other. -/
def insertAll (d : Dict α) (entries : List (String × α)) : Dict α :=
  entries.foldl (fun d e => d.insert e.1 e.2) d

theorem insertAll_cons (d : Dict α) (e : String × α) (entries : List (String × α)) :
    d.insertAll (e :: entries) = (d.insert e.1 e.2).insertAll entries := rfl

theorem ofList_eq_insertAll (entries : List (String × α)) : ofList entries = empty.insertAll entries :=
  rfl

theorem lookIn?_append (key : String) : ∀ a b : List (String × α),
    lookIn? key (a ++ b) = (lookIn? key a).or (lookIn? key b)
  | [], b => rfl
  | (k, v) :: a, b => by
    rw [List.cons_append, lookIn?, lookIn?]
    split
    · rfl
    · exact lookIn?_append key a b

/-- **The last value of a key counts**, and a key that is not among the entries leads where it did. -/
theorem find?_insertAll (key : String) : ∀ (entries : List (String × α)) (d : Dict α),
    (d.insertAll entries).find? key = (lookIn? key entries.reverse).or (d.find? key)
  | [], d => rfl
  | (k, v) :: entries, d => by
    -- The first entry is stored first and is the last to be looked at.
    rw [insertAll_cons, find?_insertAll key entries, find?_insert, List.reverse_cons,
      lookIn?_append, Option.or_assoc, lookIn?]
    by_cases h : k = key
    · rw [if_pos h, if_pos h]
      rfl
    · rw [if_neg h, if_neg h]
      rfl

theorem lookIn?_eq_none_of_ne {key : String} : ∀ {entries : List (String × α)},
    (∀ e ∈ entries, e.1 ≠ key) → lookIn? key entries = none
  | [], _ => rfl
  | (k, v) :: entries, h => by
    rw [lookIn?, if_neg (h (k, v) List.mem_cons_self)]
    exact lookIn?_eq_none_of_ne fun e he => h e (List.mem_cons_of_mem _ he)

/-- A key leads to the value of its first entry. -/
theorem lookIn?_eq_some_iff {key : String} {value : α} : ∀ {entries : List (String × α)},
    lookIn? key entries = some value ↔
      ∃ front back, entries = front ++ (key, value) :: back ∧ ∀ e ∈ front, e.1 ≠ key
  | [] => by simp [lookIn?]
  | (k, v) :: entries => by
    rw [lookIn?]
    by_cases h : k = key
    · subst h
      rw [if_pos rfl]
      constructor
      · intro hv
        cases hv
        refine ⟨[], entries, rfl, fun e he => ?_⟩
        cases he
      · rintro ⟨front, back, heq, hfront⟩
        cases front with
        | nil =>
          cases heq
          rfl
        | cons e front =>
          cases heq
          exact absurd rfl (hfront (k, v) List.mem_cons_self)
    · rw [if_neg h, lookIn?_eq_some_iff]
      constructor
      · rintro ⟨front, back, rfl, hfront⟩
        exact ⟨(k, v) :: front, back, rfl, List.forall_mem_cons.2 ⟨h, hfront⟩⟩
      · rintro ⟨front, back, heq, hfront⟩
        cases front with
        | nil =>
          cases heq
          exact absurd rfl h
        | cons e front =>
          cases heq
          exact ⟨front, back, rfl, fun e he => hfront e (List.mem_cons_of_mem _ he)⟩

/-- **A key leads to the value of its last entry.** -/
theorem find?_ofList_eq_some_iff {entries : List (String × α)} {key : String} {value : α} :
    (ofList entries).find? key = some value ↔
      ∃ front back, entries = front ++ (key, value) :: back ∧ ∀ e ∈ back, e.1 ≠ key := by
  rw [ofList_eq_insertAll, find?_insertAll, find?_empty, Option.or_none, lookIn?_eq_some_iff]
  constructor
  · rintro ⟨back, front, heq, hback⟩
    refine ⟨front.reverse, back.reverse, ?_, fun e he => hback e (List.mem_reverse.1 he)⟩
    rw [← List.reverse_reverse entries, heq]
    simp
  · rintro ⟨front, back, rfl, hback⟩
    exact ⟨back.reverse, front.reverse, by simp, fun e he => hback e (List.mem_reverse.1 he)⟩

/-- The dictionary leads from each key to the value of its last entry. -/
def HasLast (d : Dict α) (entries : List (String × α)) : Prop :=
  ∀ key value, d.find? key = some value ↔
    ∃ front back, entries = front ++ (key, value) :: back ∧ ∀ e ∈ back, e.1 ≠ key

theorem hasLast_ofList (entries : List (String × α)) : (ofList entries).HasLast entries :=
  fun _ _ => find?_ofList_eq_some_iff

theorem HasLast.eq_ofList {d : Dict α} {entries : List (String × α)} (h : d.HasLast entries) :
    d = ofList entries :=
  ext_find? fun key => Option.ext fun value => (h key value).trans find?_ofList_eq_some_iff.symm

/-- Entries kept by their keys lead from a kept key to where all entries do. -/
theorem lookIn?_filter (keep : String → Bool) (key : String) : ∀ entries : List (String × α),
    lookIn? key (entries.filter fun e => keep e.1)
      = if keep key then lookIn? key entries else none
  | [] => by simp [lookIn?]
  | (k, v) :: entries => by
    have ih := lookIn?_filter keep key entries
    rw [List.filter_cons, lookIn?]
    show lookIn? key (if keep k then (k, v) :: _ else _) = _
    by_cases h : k = key
    · subst h
      cases hk : keep k with
      | true => simp [lookIn?]
      | false => simpa [hk] using ih
    · rw [if_neg h, ← ih]
      cases keep k with
      | true => exact if_neg h
      | false => rfl

/-! ## Orders -/

theorem lookIn?_eq_some_iff_mem {key : String} {value : α} : ∀ {entries : List (String × α)},
    (entries.map (·.1)).Nodup → (lookIn? key entries = some value ↔ (key, value) ∈ entries)
  | [], _ => by simp [lookIn?]
  | (k, v) :: entries, h => by
    obtain ⟨hk, hrest⟩ := List.nodup_cons.1 h
    refine ⟨mem_of_lookIn?, fun hmem => ?_⟩
    rw [lookIn?]
    rcases List.mem_cons.1 hmem with he | hmem
    · cases he
      exact if_pos rfl
    · have hne : k ≠ key := by
        rintro rfl
        exact hk (List.mem_map.2 ⟨_, hmem, rfl⟩)
      rw [if_neg hne]
      exact (lookIn?_eq_some_iff_mem hrest).2 hmem

/-- With different keys, the order of entries does not matter to a look-up. -/
theorem lookIn?_of_perm {a b : List (String × α)} (hp : a.Perm b) (hb : (b.map (·.1)).Nodup)
    (key : String) : lookIn? key a = lookIn? key b := by
  have ha : (a.map (·.1)).Nodup := (hp.map (·.1)).nodup_iff.2 hb
  refine Option.ext fun value => ?_
  rw [lookIn?_eq_some_iff_mem ha, lookIn?_eq_some_iff_mem hb]
  exact hp.mem_iff

/-- No key comes twice. -/
theorem nodup_keys (d : Dict α) : (d.toList.map (·.1)).Nodup := by
  rw [List.Nodup, List.pairwise_map]
  refine d.ascending.imp fun hlt heq => ?_
  rw [heq] at hlt
  exact String.lt_irrefl _ hlt

/-- Where a key leads after all entries of another dictionary, in any order, have been stored. -/
theorem find?_insertAll_of_perm {d e : Dict α} {entries : List (String × α)}
    (h : entries.Perm e.toList) (key : String) :
    (d.insertAll entries).find? key = (e.find? key).or (d.find? key) := by
  rw [find?_insertAll, lookIn?_of_perm ((List.reverse_perm entries).trans h) e.nodup_keys key]
  rfl

/-- The order in which the entries of another dictionary are stored does not matter. -/
theorem insertAll_of_perm {d e : Dict α} {entries : List (String × α)}
    (h : entries.Perm e.toList) : d.insertAll entries = d.insertAll e.toList :=
  ext_find? fun key => by rw [find?_insertAll_of_perm h, find?_insertAll_of_perm (.refl _)]

/-- **A dictionary is made again from its entries in any order.** -/
theorem ofList_of_perm {d : Dict α} {entries : List (String × α)} (h : entries.Perm d.toList) :
    ofList entries = d := by
  -- Look-ups tell dictionaries apart, and a look-up does not see the order.
  refine ext_find? fun key => ?_
  rw [ofList_eq_insertAll, find?_insertAll_of_perm h, find?_empty, Option.or_none]

theorem nodup_keys_of_perm {d : Dict α} {entries : List (String × α)} (h : entries.Perm d.toList) :
    (entries.map (·.1)).Nodup :=
  (h.map (·.1)).nodup_iff.2 d.nodup_keys

/-- These are the entries of the dictionary. -/
def HasExactly (d : Dict α) (entries : List (String × α)) : Prop :=
  ∀ key value, d.find? key = some value ↔ (key, value) ∈ entries

theorem hasExactly_ofList {entries : List (String × α)} (h : (entries.map (·.1)).Nodup) :
    (ofList entries).HasExactly entries := by
  intro key value
  have hnodup : (entries.reverse.map (·.1)).Nodup :=
    ((List.reverse_perm entries).map (·.1)).nodup_iff.2 h
  rw [ofList_eq_insertAll, find?_insertAll, find?_empty, Option.or_none,
    lookIn?_eq_some_iff_mem hnodup, List.mem_reverse]

theorem HasExactly.eq_ofList {d : Dict α} {entries : List (String × α)} (hd : d.HasExactly entries)
    (h : (entries.map (·.1)).Nodup) : d = ofList entries :=
  ext_find? fun key => Option.ext fun value =>
    (hd key value).trans (hasExactly_ofList h key value).symm

/-- A dictionary made of some entries of another, chosen by their keys. -/
theorem find?_ofList_filter (keep : String → Bool) (d : Dict α) (key : String) :
    (ofList (d.toList.filter fun e => keep e.1)).find? key
      = if keep key then d.find? key else none := by
  have hsorted : Ascending (d.toList.filter fun e => keep e.1) := d.ascending.filter _
  have hsame : ofList (d.toList.filter fun e => keep e.1) = ⟨_, hsorted⟩ := ofList_of_perm (.refl _)
  rw [hsame]
  exact lookIn?_filter keep key d.toList

end LibraryRegistry.Dict
