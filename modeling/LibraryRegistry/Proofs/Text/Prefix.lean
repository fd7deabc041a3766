/-!
# Longest prefixes

A scanner takes characters of one kind as far as they go. What it takes is settled once the rest
does not begin with another such character.

* `takeWhile_of_stops`, `dropWhile_of_stops` — what is taken and what is left
* `append_inj_of_stops` — there is one way only to cut a text so
* `exists_takeWhile_eq_iff`, `mem_takeWhile_iff`, `mem_tail_dropWhile_iff` — what is taken and left, by
  where it stands
-/

namespace LibraryRegistry.Text

/-- The text does not begin with a character of this kind. -/
def Stops (p : Char → Bool) (cs : List Char) : Prop := ∀ c ∈ cs.head?, p c = false

theorem stops_nil {p : Char → Bool} : Stops p [] := fun _ h => nomatch h

theorem stops_cons {p : Char → Bool} {c : Char} {cs : List Char} :
    Stops p (c :: cs) ↔ p c = false := by
  constructor
  · intro h
    exact h c rfl
  · rintro h d hd
    obtain rfl : c = d := Option.some.inj hd
    exact h

theorem takeWhile_of_stops {p : Char → Bool} {cs rest : List Char} (hcs : ∀ c ∈ cs, p c = true)
    (hrest : Stops p rest) : (cs ++ rest).takeWhile p = cs := by
  rw [List.takeWhile_append_of_pos hcs]
  cases rest with
  | nil => rw [List.takeWhile_nil, List.append_nil]
  | cons d rest =>
    have hd : p d = false := stops_cons.1 hrest
    rw [List.takeWhile_cons_of_neg (by rw [hd]; exact Bool.false_ne_true), List.append_nil]

theorem dropWhile_of_stops {p : Char → Bool} {cs rest : List Char} (hcs : ∀ c ∈ cs, p c = true)
    (hrest : Stops p rest) : (cs ++ rest).dropWhile p = rest := by
  rw [List.dropWhile_append_of_pos hcs]
  cases rest with
  | nil => rfl
  | cons d rest =>
    have hd : p d = false := stops_cons.1 hrest
    rw [List.dropWhile_cons_of_neg (by rw [hd]; exact Bool.false_ne_true)]

theorem stops_dropWhile (p : Char → Bool) (cs : List Char) : Stops p (cs.dropWhile p) := by
  intro c hc
  have h := List.head?_dropWhile_not p cs
  rw [Option.mem_def.1 hc] at h
  exact h

theorem of_mem_takeWhile {p : Char → Bool} {c : Char} {cs : List Char} (h : c ∈ cs.takeWhile p) :
    p c = true :=
  List.all_eq_true.1 List.all_takeWhile c h

/-- A text is cut in one way only where characters of a kind end. -/
theorem append_inj_of_stops {p : Char → Bool} {cs cs' rest rest' : List Char}
    (hcs : ∀ c ∈ cs, p c = true) (hcs' : ∀ c ∈ cs', p c = true) (hrest : Stops p rest)
    (hrest' : Stops p rest') (h : cs ++ rest = cs' ++ rest') : cs = cs' ∧ rest = rest' := by
  constructor
  · rw [← takeWhile_of_stops hcs hrest, h, takeWhile_of_stops hcs' hrest']
  · rw [← dropWhile_of_stops hcs hrest, h, dropWhile_of_stops hcs' hrest']

/-- A character is taken, where it stands, exactly if all characters up to it are of the kind. -/
theorem exists_takeWhile_eq_iff {p : Char → Bool} {before : List Char} {c : Char} {cs : List Char} :
    (∃ after, cs.takeWhile p = before ++ c :: after) ↔
      (∃ after, cs = before ++ c :: after) ∧ ∀ d ∈ before ++ [c], p d = true := by
  constructor
  · rintro ⟨after, h⟩
    have hcs := List.takeWhile_append_dropWhile (p := p) (l := cs)
    rw [h, List.append_assoc] at hcs
    refine ⟨⟨_, hcs.symm⟩, fun d hd => ?_⟩
    have htaken : d ∈ cs.takeWhile p := by
      rw [h, ← List.singleton_append, ← List.append_assoc]
      exact List.mem_append_left _ hd
    exact of_mem_takeWhile htaken
  · rintro ⟨⟨after, rfl⟩, hall⟩
    refine ⟨after.takeWhile p, ?_⟩
    rw [← List.singleton_append, ← List.append_assoc, List.takeWhile_append_of_pos hall,
      List.append_assoc]
    rfl

theorem mem_takeWhile_iff {p : Char → Bool} {c : Char} {cs : List Char} :
    c ∈ cs.takeWhile p ↔
      ∃ before after, cs = before ++ c :: after ∧ ∀ d ∈ before ++ [c], p d = true := by
  rw [List.mem_iff_append]
  constructor
  · rintro ⟨before, h⟩
    obtain ⟨⟨after, hcs⟩, hall⟩ := exists_takeWhile_eq_iff.1 h
    exact ⟨before, after, hcs, hall⟩
  · rintro ⟨before, after, hcs, hall⟩
    exact ⟨before, exists_takeWhile_eq_iff.2 ⟨⟨after, hcs⟩, hall⟩⟩

/-- A character stands behind the first one of another kind exactly if it stands behind one. -/
theorem mem_tail_dropWhile_iff {p : Char → Bool} {c : Char} : ∀ {cs : List Char},
    c ∈ (cs.dropWhile p).tail ↔
      ∃ before after, cs = before ++ c :: after ∧ ∃ d ∈ before, p d = false
  | [] => by simp
  | e :: cs => by
    cases he : p e with
    | true =>
      rw [List.dropWhile_cons_of_pos he, mem_tail_dropWhile_iff]
      constructor
      · rintro ⟨before, after, rfl, d, hd, hpd⟩
        exact ⟨e :: before, after, rfl, d, List.mem_cons_of_mem _ hd, hpd⟩
      · rintro ⟨before, after, hcs, d, hd, hpd⟩
        cases before with
        | nil => cases hd
        | cons e' before =>
          obtain ⟨rfl, hrest⟩ := List.cons.inj hcs
          rcases List.mem_cons.1 hd with rfl | hd
          · rw [he] at hpd
            cases hpd
          · exact ⟨before, after, hrest, d, hd, hpd⟩
    | false =>
      have hne : ¬ p e = true := by
        rw [he]
        exact Bool.false_ne_true
      rw [List.dropWhile_cons_of_neg hne, List.tail_cons]
      constructor
      · intro h
        obtain ⟨before, after, rfl⟩ := List.append_of_mem h
        exact ⟨e :: before, after, rfl, e, List.mem_cons_self, he⟩
      · rintro ⟨before, after, hcs, d, hd, -⟩
        cases before with
        | nil => cases hd
        | cons e' before =>
          obtain ⟨-, rfl⟩ := List.cons.inj hcs
          exact List.mem_append_right _ List.mem_cons_self

end LibraryRegistry.Text
