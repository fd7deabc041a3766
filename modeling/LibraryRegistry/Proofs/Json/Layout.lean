import LibraryRegistry.Json.Layout
import LibraryRegistry.Proofs.Dict
import LibraryRegistry.Proofs.Json.Object

/-!
# Reading what was laid out

An indented object is one of the texts of an object: its lines begin with blanks, and each member
stands behind its key, a colon and a space.

* `TakesEach` — what laid out members do one after the other
* `exists_members_object` — they are the members of the laid out object
* `readsLayout_text`, `readsLayout_entries`, `readsLayout_object` — texts, dictionaries and values with
  named fields are read from their layouts
-/

namespace LibraryRegistry.Json

open Layout

variable {α σ : Type}

/-- A value is read from its layout at every level, with blanks in front of it. -/
def Reader.ReadsLayout (r : Reader α) (l : Layout) (a : α) : Prop :=
  ∀ level b, IsBlanks b → r.Reads (b ++ l level) a

/-- Laid out members lead from one value to another. -/
inductive TakesEach (f : MemberReader σ) (level : Nat) : σ → List (String × Layout) → σ → Prop
  | nil {m : σ} : TakesEach f level m [] m
  | cons {m m' m'' : σ} {key : String} {value : Layout} {ms : List (String × Layout)} :
      f.Takes m key (':' :: ' ' :: value level) m' → TakesEach f level m' ms m'' →
      TakesEach f level m ((key, value) :: ms) m''

theorem isBlanks_newline (level : Nat) : IsBlanks (newline level) := by
  intro c hc
  rcases List.mem_cons.1 hc with rfl | hc
  · rfl
  · rw [List.eq_of_mem_replicate hc]
    rfl

/-- The first member of an object, behind its separator. -/
theorem members_member {f : MemberReader σ} {first : Bool} {level : Nat} {m m' m'' : σ}
    {key : String} {value : Layout} {sep rest : List Char}
    (hsep : Separator first (sep ++ newline level))
    (hf : f.Takes m key (':' :: ' ' :: value level) m') (hrest : Members f false m' rest m'') :
    Members f first m (sep ++ member level (key, value) ++ rest) m'' := by
  have htext : sep ++ member level (key, value) ++ rest
      = sep ++ newline level ++ (writeText key ++ (':' :: ' ' :: value level ++ rest)) := by
    simp [member]
  rw [htext]
  exact Members.member hsep (isText_writeText key) hf hrest

theorem members_moreMembers {f : MemberReader σ} {level : Nat} {m m' : σ}
    {ms : List (String × Layout)} {b : List Char} (h : TakesEach f level m ms m')
    (hb : IsBlanks b) : Members f false m (moreMembers level ms ++ (b ++ ['\x7d'])) m' := by
  induction h with
  | nil => exact Members.done hb
  | @cons m m' m'' key value ms hf _ ih =>
    have htext : moreMembers level ((key, value) :: ms) ++ (b ++ ['\x7d'])
        = [','] ++ member level (key, value) ++ (moreMembers level ms ++ (b ++ ['\x7d'])) := by
      simp [moreMembers]
    have hsep : Separator false ([] ++ ',' :: newline level) :=
      Separator.next isBlanks_nil (isBlanks_newline level)
    rw [htext]
    exact members_member hsep hf ih

/-- **Laid out members are the members of the laid out object.** -/
theorem exists_members_object {f : MemberReader σ} {level : Nat} {m m' : σ}
    {ms : List (String × Layout)} (h : TakesEach f (level + 1) m ms m') :
    ∃ cs, object ms level = '\x7b' :: cs ∧ Members f true m cs m' := by
  cases h with
  | nil => exact ⟨['\x7d'], rfl, Members.done isBlanks_nil⟩
  | @cons m m' m'' key value ms hf htail =>
    refine ⟨_, rfl, ?_⟩
    have hmore := members_moreMembers htail (isBlanks_newline level)
    have hsep : Separator true ([] ++ newline (level + 1)) :=
      Separator.first (isBlanks_newline (level + 1))
    have hmembers := members_member hsep hf hmore
    simpa using hmembers

namespace Reader

theorem readsLayout_text (s : String) : text.ReadsLayout (Layout.text s) s :=
  fun _ _ hb => reads_text hb (isText_writeText s)

theorem takesEach_dict {value : Reader α} {lay : String × α → Layout} {level : Nat} :
    ∀ (es : List (String × α)) (d : Dict α), (∀ e ∈ es, value.ReadsLayout (lay e) e.2) →
      TakesEach (.dict value) level d (es.map fun e => (e.1, lay e)) (d.insertAll es)
  | [], _, _ => TakesEach.nil
  | e :: es, d, h => by
    have hvalue : value.Reads (' ' :: lay e level) e.2 :=
      h e List.mem_cons_self level [' '] isBlanks_space
    exact TakesEach.cons (takes_dict isBlanks_nil hvalue)
      (takesEach_dict es _ fun e he => h e (List.mem_cons_of_mem _ he))

/-- A dictionary is read from its entries in the order in which they were laid out. -/
theorem readsLayout_entries {value : Reader α} {lay : String × α → Layout}
    {es : List (String × α)} (h : ∀ e ∈ es, value.ReadsLayout (lay e) e.2) :
    (dict value).ReadsLayout (object (es.map fun e => (e.1, lay e))) (.ofList es) := by
  intro level b hb
  have heach : TakesEach (.dict value) (level + 1) .empty (es.map fun e => (e.1, lay e))
      (.ofList es) := takesEach_dict es .empty h
  obtain ⟨cs, htext, hmembers⟩ := exists_members_object heach
  rw [htext]
  exact reads_dict hb hmembers

end Reader

namespace Shape

variable {s : Shape σ}

/-- A laid out field that was not there before is stored. -/
theorem takes_storing {value : Reader α} {store : σ → α → σ} {m : σ} {names : List String}
    {key : String} {l : Layout} {a : α} {level : Nat}
    (hfind : s.fields.find? (·.name == key) = some (.storing key value store))
    (hnew : key ∉ names) (h : value.ReadsLayout l a) :
    s.member.Takes (m, names) key (':' :: ' ' :: l level) (store m a, key :: names) := by
  have hvalue : value.Reads (' ' :: l level) a := h level [' '] isBlanks_space
  exact takes_member hfind hnew isBlanks_nil (Reader.reads_map hvalue)

/-- A value with named fields is read from its layout. -/
theorem readsLayout_object {start m : σ} {ms : List (String × Layout)}
    (h : ∀ level, ∃ names, TakesEach s.member level (start, []) ms (m, names)) :
    (s.reader start).ReadsLayout (object ms) m := by
  intro level b hb
  obtain ⟨names, heach⟩ := h (level + 1)
  obtain ⟨cs, htext, hmembers⟩ := exists_members_object heach
  rw [htext]
  exact reads_object hb hmembers

end Shape

end LibraryRegistry.Json
