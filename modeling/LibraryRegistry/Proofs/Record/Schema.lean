import LibraryRegistry.Proofs.Record.Table
import LibraryRegistry.Proofs.Wire.CutOff
import LibraryRegistry.Record.Binary

/-!
# The registry's schema

What look-ups, releases and records declare, as trees, and that their readers go by them: they look
no further than a field goes (`local_fields`), drop the fields that are not declared
(`drops_fields`), do not depend on the levels left to them while groups are not nested too deep
(`agree_fields`), and keep to the ends of fields at all levels (`keeps_fields`).
-/

namespace LibraryRegistry

open Wire FieldReader

/-! ## Map entries -/

/-- What is declared in a map entry whose value is declared like this. -/
def entryDeclared (value : Declared) : Nat → Declared
  | 1 => .text
  | 2 => value
  | _ => .nothing

section Entry

variable {β : Type} {limit depth depth' : Nat} {declared : Declared}
  {value value' : FieldReader (String × β)}

theorem entryDeclared_of_ne {number : Nat} (h1 : number ≠ 1) (h2 : number ≠ 2) :
    entryDeclared declared number = .nothing := by
  unfold entryDeclared
  split <;> first | contradiction | rfl

/-- Two readers of an entry agree wherever their readers of the value do. -/
theorem agree_entryFields
    (hv : ∀ key : Key, key.number = 2 → AgreeAt limit (entryDeclared declared) key value value')
    (hd : limit < depth') (key : Key) :
    AgreeAt limit (entryDeclared declared) key (entryFields depth value)
      (entryFields depth' value') := by
  refine agreeAt_onField (fun h1 => agreeAt_text (by rw [h1]; rfl)) fun h1 => ?_
  refine agreeAt_onField (hv key) fun h2 => ?_
  exact agreeAt_skipping (entryDeclared_of_ne h1 h2) hd

/-- A reader of an entry keeps to the ends of fields if its reader of the value does. -/
theorem keeps_entryFields
    (hv : ∀ key : Key, key.number = 2 → KeepsAt (entryDeclared declared) key value) (key : Key) :
    KeepsAt (entryDeclared declared) key (entryFields depth value) := by
  refine keepsAt_onField (fun h1 => keepsAt_text (by rw [h1]; rfl)) fun h1 => ?_
  refine keepsAt_onField (hv key) fun h2 => ?_
  exact keepsAt_skipping (entryDeclared_of_ne h1 h2)

end Entry

/-! ## Messages with two texts and a map -/

/-- What is declared in a message with two texts and a map with such entries. -/
def tableDeclared (entry : Nat → Declared) : Nat → Declared
  | 1 => .text
  | 2 => .text
  | 3 => .message entry
  | _ => .nothing

section Table

variable {σ β : Type} {limit depth depth' : Nat} {entry : Nat → Declared}
  {name₁ name₂ name₃ : FieldName} {store₁ store₂ : σ → String → σ} {start : String × β}
  {add : σ → String → β → σ} {entries entries' : FieldReader (String × β)}

theorem tableDeclared_of_ne {number : Nat} (h1 : number ≠ 1) (h2 : number ≠ 2) (h3 : number ≠ 3) :
    tableDeclared entry number = .nothing := by
  unfold tableDeclared
  split <;> first | contradiction | rfl

/-- The reader looks no further than a field goes. -/
theorem local_tableFields (he : entries.Local) :
    (tableFields name₁ name₂ name₃ store₁ store₂ start add entries depth).Local :=
  local_onField (local_named (local_text _)) <|
  local_onField (local_named (local_text _)) <|
  local_onField (local_named (local_entry he _ _)) <|
  local_skipping depth

/-- All fields but the first three are dropped. -/
theorem drops_tableFields :
    (tableFields name₁ name₂ name₃ store₁ store₂ start add entries depth).Drops
      (tableDeclared entry) depth :=
  drops_onField (by simp [tableDeclared]) <|
  drops_onField (by simp [tableDeclared]) <|
  drops_onField (by simp [tableDeclared]) <| drops_skipping

/-- **How many levels are left makes no difference**, as long as there are more of them than groups
are nested. -/
theorem agree_tableFields (he : entries.Local) (he' : entries'.Local)
    (hagree : ∀ key, AgreeAt limit entry key entries entries') (hd : limit < depth') (key : Key) :
    AgreeAt limit (tableDeclared entry) key
      (tableFields name₁ name₂ name₃ store₁ store₂ start add entries depth)
      (tableFields name₁ name₂ name₃ store₁ store₂ start add entries' depth') := by
  refine agreeAt_textField rfl fun h1 => ?_
  refine agreeAt_textField rfl fun h2 => ?_
  refine agreeAt_onField (fun h3 => agreeAt_named ?_) fun h3 => ?_
  · exact agreeAt_entry he he' hagree (by rw [h3]; rfl) (by omega)
  · exact agreeAt_skipping (tableDeclared_of_ne h1 h2 h3) hd

/-- **Whatever is read as a field is one**, down to the entries. -/
theorem keeps_tableFields (he : entries.Local) (hkeeps : ∀ key, KeepsAt entry key entries)
    (key : Key) :
    KeepsAt (tableDeclared entry) key
      (tableFields name₁ name₂ name₃ store₁ store₂ start add entries depth) := by
  refine keepsAt_textField rfl fun h1 => ?_
  refine keepsAt_textField rfl fun h2 => ?_
  refine keepsAt_onField (fun h3 => keepsAt_named ?_) fun h3 => ?_
  · exact keepsAt_entry he hkeeps (by rw [h3]; rfl)
  · exact keepsAt_skipping (tableDeclared_of_ne h1 h2 h3)

end Table

/-! ## Look-ups -/

namespace Lookup

/-- What is declared in a look-up. -/
def declared : Nat → Declared
  | 1 => .text
  | _ => .nothing

theorem declared_of_ne {number : Nat} (h1 : number ≠ 1) : declared number = .nothing := by
  unfold declared
  split <;> first | contradiction | rfl

theorem local_fields (depth : Nat) : (fields depth).Local :=
  local_onField (local_named (local_text _)) <| local_skipping depth

/-- All fields of a look-up but its library are dropped. -/
theorem drops_fields (depth : Nat) : (fields depth).Drops declared depth :=
  drops_onField (by simp [declared]) <| drops_skipping

/-- Only the groups among the dropped fields of a look-up need levels. -/
theorem agree_fields {limit depth depth' : Nat} (hd : limit < depth') (key : Key) :
    AgreeAt limit declared key (fields depth) (fields depth') := by
  refine agreeAt_textField rfl fun h1 => ?_
  exact agreeAt_skipping (declared_of_ne h1) hd

theorem keeps_fields {depth : Nat} (key : Key) : KeepsAt declared key (fields depth) := by
  refine keepsAt_textField rfl fun h1 => ?_
  exact keepsAt_skipping (declared_of_ne h1)

end Lookup

/-! ## Releases -/

namespace Release

/-- What is declared in a release. -/
def declared : Nat → Declared := tableDeclared (entryDeclared .text)

/-- The entry of a dependency is read no further than its length goes. -/
theorem local_dependency (depth : Nat) : (entryFields (depth - 1) <|
    text fun (e : String × String) s => (e.1, s)).Local :=
  local_entryFields (local_text _)

theorem local_fields (depth : Nat) : (fields depth).Local :=
  local_tableFields (local_dependency depth)

theorem drops_fields (depth : Nat) : (fields depth).Drops declared depth :=
  drops_tableFields

/-- A release needs one level more than what is dropped from it: that of its entries. -/
theorem agree_fields {limit depth depth' : Nat} (hd : limit + 1 < depth') (key : Key) :
    AgreeAt limit declared key (fields depth) (fields depth') := by
  refine agree_tableFields (local_dependency depth) (local_dependency depth') ?_ (by omega) key
  exact agree_entryFields (fun key h2 => agreeAt_text (by rw [h2]; rfl)) (by omega)

theorem keeps_fields {depth : Nat} (key : Key) : KeepsAt declared key (fields depth) := by
  refine keeps_tableFields (local_dependency depth) ?_ key
  exact keeps_entryFields fun key h2 => keepsAt_text (by rw [h2]; rfl)

end Release

/-! ## Records -/

namespace Record

/-- What is declared in a record. -/
def declared : Nat → Declared := tableDeclared (entryDeclared (.message Release.declared))

/-- The entry of a release is read no further than its length goes. -/
theorem local_release (depth : Nat) : (entryFields (depth - 1) <|
    nested (depth - 1) (Release.fields (depth - 2)) (·.2)
      fun (e : String × Release) release => (e.1, release)).Local :=
  local_entryFields (local_nested (Release.local_fields _) _ _)

theorem local_fields (depth : Nat) : (fields depth).Local :=
  local_tableFields (local_release depth)

theorem drops_fields (depth : Nat) : (fields depth).Drops declared depth :=
  drops_tableFields

/-- A record needs three levels more than what is dropped from it: those of its entries, of the
releases in them, and of their entries. -/
theorem agree_fields {limit depth depth' : Nat} (hd : limit + 3 < depth') (key : Key) :
    AgreeAt limit declared key (fields depth) (fields depth') := by
  refine agree_tableFields (local_release depth) (local_release depth') ?_ (by omega) key
  refine agree_entryFields (fun key h2 => ?_) (by omega)
  exact agreeAt_nested (Release.local_fields _) (Release.local_fields _)
    (Release.agree_fields (by omega)) (by rw [h2]; rfl) (by omega)

/-- Fields are kept to at all levels: in a record, in its releases and in their dependencies. -/
theorem keeps_fields {depth : Nat} (key : Key) : KeepsAt declared key (fields depth) := by
  refine keeps_tableFields (local_release depth) ?_ key
  refine keeps_entryFields fun key h2 => ?_
  exact keepsAt_nested (Release.local_fields _) Release.keeps_fields (by rw [h2]; rfl)

end Record

end LibraryRegistry
