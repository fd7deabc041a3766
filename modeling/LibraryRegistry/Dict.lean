/-!
# Dictionaries with text keys

A dictionary is the list of its entries in strictly ascending key order (keys are compared code
point by code point). The order is part of the type, so a dictionary has one form: two dictionaries
with the same look-ups are equal, whatever the order in which the entries came in.

`Dict.find?` is the view; `find?_insert` says what an insertion does to it and `ext_find?` that it
determines the dictionary.
-/

namespace LibraryRegistry

/-- Entries of a dictionary come in strictly ascending key order. -/
abbrev Ascending {α : Type} (entries : List (String × α)) : Prop :=
  entries.Pairwise fun a b => a.1 < b.1

/-- A finite map from texts to `α`. -/
@[ext]
structure Dict (α : Type) where
  entries : List (String × α)
  ascending : Ascending entries := by exact List.Pairwise.nil

namespace Dict

variable {α : Type}

instance [DecidableEq α] : DecidableEq (Dict α) := fun d e =>
  if h : d.entries = e.entries then isTrue (Dict.ext h)
  else isFalse fun he => h (he ▸ rfl)

/-- The dictionary without entries. -/
def empty : Dict α where
  entries := []

instance : Inhabited (Dict α) := ⟨empty⟩

instance : EmptyCollection (Dict α) := ⟨empty⟩

/-- The entries in ascending key order. -/
def toList (d : Dict α) : List (String × α) := d.entries

/-- The keys in ascending order. -/
def keys (d : Dict α) : List String := d.entries.map (·.1)

/-- The number of entries. -/
def size (d : Dict α) : Nat := d.entries.length

/-- Looks a key up in a list of entries; the first entry with the key counts. -/
def lookIn? (key : String) : List (String × α) → Option α
  | [] => none
  | (k, v) :: rest => if k = key then some v else lookIn? key rest

/-- The value stored under a key. -/
def find? (d : Dict α) (key : String) : Option α := lookIn? key d.entries

/-- Puts an entry at its place in an ascending list, over an entry with the same key. -/
def insertEntry (key : String) (value : α) : List (String × α) → List (String × α)
  | [] => [(key, value)]
  | (k, v) :: rest =>
    if key < k then (key, value) :: (k, v) :: rest
    else if key = k then (key, value) :: rest
    else (k, v) :: insertEntry key value rest

theorem mem_insertEntry {key : String} {value : α} {x : String × α} :
    ∀ {entries : List (String × α)}, x ∈ insertEntry key value entries →
      x = (key, value) ∨ x ∈ entries
  | [], h => by simpa [insertEntry] using h
  | (k, v) :: rest, h => by
    unfold insertEntry at h
    split at h
    · simpa using h
    · split at h
      · simp only [List.mem_cons] at h ⊢
        exact h.imp_right Or.inr
      · simp only [List.mem_cons] at h ⊢
        rcases h with h | h
        · exact Or.inr (Or.inl h)
        · exact (mem_insertEntry h).imp_right Or.inr

theorem ascending_insertEntry (key : String) (value : α) :
    ∀ {entries : List (String × α)}, Ascending entries → Ascending (insertEntry key value entries)
  | [], _ => by simp [insertEntry]
  | (k, v) :: rest, h => by
    obtain ⟨hk, hrest⟩ := List.pairwise_cons.1 h
    unfold insertEntry
    split
    · next hlt =>
      refine List.pairwise_cons.2 ⟨fun x hx => ?_, h⟩
      rcases List.mem_cons.1 hx with rfl | hx
      · exact hlt
      · exact String.lt_trans hlt (hk x hx)
    · split
      · next heq => subst heq; exact List.pairwise_cons.2 ⟨hk, hrest⟩
      · next hlt hne =>
        refine List.pairwise_cons.2 ⟨fun x hx => ?_, ascending_insertEntry key value hrest⟩
        rcases mem_insertEntry hx with rfl | hx
        · rcases Std.lt_trichotomy key k with h1 | h1 | h1
          · exact absurd h1 hlt
          · exact absurd h1 hne
          · exact h1
        · exact hk x hx

/-- Stores a value under a key, over what was stored there. -/
def insert (d : Dict α) (key : String) (value : α) : Dict α where
  entries := insertEntry key value d.entries
  ascending := ascending_insertEntry key value d.ascending

/-- Stores the entries of a list one after the other: the last value of a repeated key counts. -/
def ofList (entries : List (String × α)) : Dict α :=
  entries.foldl (fun d e => d.insert e.1 e.2) empty

theorem lookIn?_insertEntry (key other : String) (value : α) :
    ∀ entries : List (String × α), lookIn? other (insertEntry key value entries)
      = if key = other then some value else lookIn? other entries
  | [] => by simp [insertEntry, lookIn?]
  | (k, v) :: rest => by
    unfold insertEntry
    split
    · simp [lookIn?]
    · split
      · next heq => subst heq; by_cases h : key = other <;> simp [lookIn?, h]
      · next hne =>
        simp only [lookIn?, lookIn?_insertEntry key other value rest]
        by_cases h : k = other
        · subst h; simp [hne]
        · simp [h]

/-- After an insertion the key leads to the new value and every other key to what it did. -/
@[simp] theorem find?_insert (d : Dict α) (key other : String) (value : α) :
    (d.insert key value).find? other = if key = other then some value else d.find? other :=
  lookIn?_insertEntry key other value d.entries

@[simp] theorem find?_empty (key : String) : (empty : Dict α).find? key = none := rfl

theorem lookIn?_eq_none {key : String} :
    ∀ {entries : List (String × α)}, (∀ e ∈ entries, key < e.1) → lookIn? key entries = none
  | [], _ => rfl
  | (k, v) :: rest, h => by
    have hk : key < k := h (k, v) (by simp)
    have hne : k ≠ key := fun he => String.lt_irrefl k (he ▸ hk)
    simp only [lookIn?, hne, if_false]
    exact lookIn?_eq_none fun e he => h e (by simp [he])

theorem mem_of_lookIn? {key : String} {value : α} :
    ∀ {entries : List (String × α)}, lookIn? key entries = some value → (key, value) ∈ entries
  | (k, v) :: rest, h => by
    unfold lookIn? at h
    split at h
    · next heq => subst heq; cases h; simp
    · exact List.mem_cons_of_mem _ (mem_of_lookIn? h)

theorem lookIn?_of_mem {key : String} {value : α} :
    ∀ {entries : List (String × α)}, Ascending entries → (key, value) ∈ entries →
      lookIn? key entries = some value
  | (k, v) :: rest, hs, h => by
    obtain ⟨hk, hrest⟩ := List.pairwise_cons.1 hs
    rcases List.mem_cons.1 h with h | h
    · cases h; simp [lookIn?]
    · have hlt : k < key := hk _ h
      have hne : k ≠ key := fun he => String.lt_irrefl k (he ▸ hlt)
      simp [lookIn?, hne, lookIn?_of_mem hrest h]

/-- A key leads to a value exactly when the pair is an entry. -/
theorem find?_eq_some_iff {d : Dict α} {key : String} {value : α} :
    d.find? key = some value ↔ (key, value) ∈ d.toList :=
  ⟨mem_of_lookIn?, lookIn?_of_mem d.ascending⟩

theorem entries_ext : ∀ {a b : List (String × α)}, Ascending a → Ascending b →
    (∀ key, lookIn? key a = lookIn? key b) → a = b
  | [], [], _, _, _ => rfl
  | [], (k, v) :: _, _, _, h => by simpa [lookIn?] using h k
  | (k, v) :: _, [], _, _, h => by simpa [lookIn?] using h k
  | (k, v) :: a, (l, w) :: b, ha, hb, h => by
    obtain ⟨hka, ha'⟩ := List.pairwise_cons.1 ha
    obtain ⟨hlb, hb'⟩ := List.pairwise_cons.1 hb
    have hkl : k = l := by
      rcases Std.lt_trichotomy k l with hlt | heq | hlt
      · have hk : ∀ e ∈ (l, w) :: b, k < e.1 := by
          intro e he
          rcases List.mem_cons.1 he with rfl | he
          · exact hlt
          · exact String.lt_trans hlt (hlb e he)
        have h0 := h k
        rw [lookIn?_eq_none hk] at h0
        simp [lookIn?] at h0
      · exact heq
      · have hl : ∀ e ∈ (k, v) :: a, l < e.1 := by
          intro e he
          rcases List.mem_cons.1 he with rfl | he
          · exact hlt
          · exact String.lt_trans hlt (hka e he)
        have h0 := h l
        rw [lookIn?_eq_none hl] at h0
        simp [lookIn?] at h0
    subst hkl
    have hvw : v = w := by simpa [lookIn?] using h k
    subst hvw
    rw [entries_ext ha' hb' fun key => ?_]
    by_cases hk : k = key
    · subst hk
      rw [lookIn?_eq_none hka, lookIn?_eq_none hlb]
    · simpa [lookIn?, hk] using h key

/-- Two dictionaries with the same look-ups are the same. -/
theorem ext_find? {d e : Dict α} (h : ∀ key, d.find? key = e.find? key) : d = e :=
  Dict.ext (entries_ext d.ascending e.ascending h)

end Dict

end LibraryRegistry
