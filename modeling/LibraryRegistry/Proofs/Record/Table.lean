import LibraryRegistry.Proofs.Dict
import LibraryRegistry.Proofs.Wire.Message

/-!
# Messages with two texts and a map

Releases and records have one shape: two texts, and a map whose entries come behind them. What is true
of them for that reason is stated here, whatever the values of the map are.

* `tableFields`, `encodeTable` — how such messages are read and written
* `takes_encodeTable` — what the written fields do to a message
* `length_encodeTable` — the computed size is that of what was written
-/

namespace LibraryRegistry

open Wire

/-- Sizes add up to the length of what is written, whatever is written first. -/
theorem foldr_size_eq_length_flatMap {α : Type} {order all : List α} (hperm : order.Perm all)
    {size : α → Nat} {write : α → List UInt8} (h : ∀ e ∈ order, size e = (write e).length) :
    (all.map size).foldr (· + ·) 0 = (order.flatMap write).length := by
  have hsizes : (order.map size).sum = (all.map size).sum := (hperm.map size).sum_nat
  rw [List.length_flatMap, ← List.map_congr_left h]
  exact hsizes.symm

/-- Written entries are taken in one by one: `put` makes a message from the entries so far. -/
theorem takes_entries {σ α : Type} {f : FieldReader σ} {write : String × α → List UInt8}
    (put : Dict α → σ) : ∀ (order : List (String × α)) (d : Dict α),
    (order.flatMap write).length < 2 ^ 64 →
    (∀ e ∈ order, ∀ d, (write e).length < 2 ^ 64 →
      f.Takes (put d) (write e) (put (d.insert e.1 e.2))) →
    f.Takes (put d) (order.flatMap write) (put (d.insertAll order))
  | [], _, _, _ => FieldReader.Takes.nil
  | e :: order, d, hlen, h => by
    rw [List.flatMap_cons, List.length_append] at hlen
    have hhead : f.Takes (put d) (write e) (put (d.insert e.1 e.2)) :=
      h e List.mem_cons_self d (by omega)
    have htail : f.Takes (put (d.insert e.1 e.2)) (order.flatMap write)
        (put ((d.insert e.1 e.2).insertAll order)) :=
      takes_entries put order _ (by omega) fun e he => h e (List.mem_cons_of_mem _ he)
    rw [List.flatMap_cons]
    exact hhead.append htail

/-- The text of a field that comes later; an empty one is left out and changes nothing. -/
def laterText (old new : String) : String := if new = "" then old else new

theorem laterText_of_eq {s : String} (h : s = "") (old : String) : laterText old s = old :=
  if_pos h

theorem laterText_of_ne {s : String} (h : s ≠ "") (old : String) : laterText old s = s :=
  if_neg h

theorem laterText_empty_left (s : String) : laterText "" s = s := by
  unfold laterText
  split
  · next h => exact h.symm
  · rfl

/-- A written text is laid over the one that is there: `put` makes a message from the text. -/
theorem takes_laterText {σ : Type} {f : FieldReader σ} {number : Nat} (hpos : number ≠ 0)
    (hlt : number < 2 ^ 29) (put : String → σ) {s old : String}
    (h : ∀ rest, f.read (put old) ⟨number, .lengthDelimited⟩ (encodeDelimited (Text.utf8 s) ++ rest)
      = .ok (put s, rest)) :
    f.Takes (put old) (encodeText number s) (put (laterText old s)) := by
  refine FieldReader.takes_encodeText hpos hlt (fun hs => ?_) fun hs rest => ?_
  · rw [laterText_of_eq hs]
  · rw [laterText_of_ne hs]
    exact h rest

/-! ## Tables -/

/-- Writes two texts and, behind them, the entries of a map in the given order. -/
def encodeTable {β : Type} (s₁ s₂ : String) (order : List (String × β))
    (write : String × β → List UInt8) : List UInt8 :=
  encodeText 1 s₁ ++ encodeText 2 s₂ ++ order.flatMap fun e => encodeEntry 3 e.1 (write e)

/-- The reader of a message with two texts and a map. -/
def tableFields {σ β : Type} (name₁ name₂ name₃ : FieldName) (store₁ store₂ : σ → String → σ)
    (start : String × β) (add : σ → String → β → σ) (entries : FieldReader (String × β))
    (depth : Nat) : FieldReader σ :=
  .onField 1 (.named name₁ <| .text store₁)
  <| .onField 2 (.named name₂ <| .text store₂)
  <| .onField 3 (.named name₃ <| .entry depth start entries add)
  <| .skipping depth

/-- A message is made of two texts and a map, and what is read is stored in one of them. -/
structure MadeOf {σ β : Type} (make : String → String → Dict β → σ) (store₁ store₂ : σ → String → σ)
    (add : σ → String → β → σ) : Prop where
  first : ∀ s₁ s₂ d s, store₁ (make s₁ s₂ d) s = make s s₂ d
  second : ∀ s₁ s₂ d s, store₂ (make s₁ s₂ d) s = make s₁ s d
  entry : ∀ s₁ s₂ d k v, add (make s₁ s₂ d) k v = make s₁ s₂ (d.insert k v)

section Table

variable {σ β : Type} {s₁ s₂ : String} {order : List (String × β)}
  {write : String × β → List UInt8}

/-- Without a second text and entries only the first text is written. -/
theorem encodeTable_nil (s : String) (write : String × β → List UInt8) :
    encodeTable s "" [] write = encodeText 1 s := by
  rw [encodeTable, encodeText, encodeText, if_pos rfl, List.append_nil, List.flatMap_nil,
    List.append_nil]

theorem length_entryBody_lt (hlen : (encodeTable s₁ s₂ order write).length < 2 ^ 64)
    {e : String × β} (he : e ∈ order) : (entryBody e.1 (write e)).length < 2 ^ 64 := by
  have hle := length_le_length_flatMap (fun e : String × β => encodeEntry 3 e.1 (write e)) he
  have hb := length_entryBody_le 3 e.1 (write e)
  rw [encodeTable, List.length_append] at hlen
  omega

section Reader

variable {depth : Nat} {name₁ name₂ name₃ : FieldName} {store₁ store₂ : σ → String → σ}
  {start : String × β} {add : σ → String → β → σ} {entries : FieldReader (String × β)}
  {make : String → String → Dict β → σ} (hmake : MadeOf make store₁ store₂ add) (hd : depth ≠ 0)

include hmake hd

/-- A written entry is inserted if what stands behind its length is read. -/
theorem takes_tableEntry {e : String × β} {value : List UInt8}
    (hlen : (entryBody e.1 value).length < 2 ^ 64)
    (hentry : entries.Takes start (entryBody e.1 value) e) (t₁ t₂ : String) (d : Dict β) :
    (tableFields name₁ name₂ name₃ store₁ store₂ start add entries depth).Takes (make t₁ t₂ d)
      (encodeEntry 3 e.1 value) (make t₁ t₂ (d.insert e.1 e.2)) := by
  rw [encodeEntry_eq]
  refine FieldReader.takes_field (by decide) (by decide) fun rest => ?_
  rw [← hmake.entry]
  refine (FieldReader.read_onField_of_ne (by decide)).trans <|
    (FieldReader.read_onField_of_ne (by decide)).trans <|
    FieldReader.read_onField_self.trans <| FieldReader.read_named_eq_ok_iff.2 ?_
  exact FieldReader.read_entry hd hentry hlen rest

/-- **The written fields lay two texts and entries over a message**: texts where they are not empty,
entries one by one. -/
theorem takes_encodeTable (hentries : ∀ e ∈ order, (entryBody e.1 (write e)).length < 2 ^ 64 →
      entries.Takes start (entryBody e.1 (write e)) e)
    (hlen : (encodeTable s₁ s₂ order write).length < 2 ^ 64) (t₁ t₂ : String) (d : Dict β) :
    (tableFields name₁ name₂ name₃ store₁ store₂ start add entries depth).Takes (make t₁ t₂ d)
      (encodeTable s₁ s₂ order write)
      (make (laterText t₁ s₁) (laterText t₂ s₂) (d.insertAll order)) := by
  have hs₁ := length_utf8_le_length_encodeText 1 s₁
  have hs₂ := length_utf8_le_length_encodeText 2 s₂
  have hbody := fun e => length_entryBody_lt (e := e) hlen
  unfold encodeTable at hlen ⊢
  rw [List.length_append, List.length_append] at hlen
  have hfirst : (tableFields name₁ name₂ name₃ store₁ store₂ start add entries depth).Takes
      (make t₁ t₂ d) (encodeText 1 s₁) (make (laterText t₁ s₁) t₂ d) := by
    refine takes_laterText (by decide) (by decide) (fun t => make t t₂ d) fun rest => ?_
    rw [← hmake.first t₁ t₂ d s₁]
    exact FieldReader.read_textField (by omega) rest
  have hsecond : (tableFields name₁ name₂ name₃ store₁ store₂ start add entries depth).Takes
      (make (laterText t₁ s₁) t₂ d) (encodeText 2 s₂)
      (make (laterText t₁ s₁) (laterText t₂ s₂) d) := by
    refine takes_laterText (by decide) (by decide) (make (laterText t₁ s₁) · d) fun rest => ?_
    rw [← hmake.second (laterText t₁ s₁) t₂ d s₂]
    exact (FieldReader.read_onField_of_ne (by decide)).trans
      (FieldReader.read_textField (by omega) rest)
  refine (hfirst.append hsecond).append ?_
  refine takes_entries (make (laterText t₁ s₁) (laterText t₂ s₂)) order d (by omega) ?_
  intro e he d' _
  exact takes_tableEntry hmake hd (hbody e he) (hentries e he (hbody e he)) _ _ d'

end Reader

/-- **The computed size is the number of bytes written**, in whichever order the entries come. -/
theorem length_encodeTable {all : List (String × β)} (hperm : order.Perm all) {size : β → Nat}
    (hlen : (encodeTable s₁ s₂ order write).length < 2 ^ 64)
    (hsize : ∀ e ∈ order, (write e).length < 2 ^ 64 → size e.2 = (write e).length) :
    sizeText 1 s₁ + sizeText 2 s₂
        + (all.map fun e => sizeEntry 3 e.1 (size e.2)).foldr (· + ·) 0
      = (encodeTable s₁ s₂ order write).length := by
  have hs₁ := length_utf8_le_length_encodeText 1 s₁
  have hs₂ := length_utf8_le_length_encodeText 2 s₂
  have hbody := fun e => length_entryBody_lt (e := e) hlen
  rw [encodeTable, List.length_append, List.length_append] at hlen ⊢
  rw [length_encodeText (by decide) (by omega), length_encodeText (by decide) (by omega)]
  refine congrArg (_ + ·) (foldr_size_eq_length_flatMap hperm fun e he => ?_)
  have hvalue := length_value_le_length_entryBody e.1 (write e)
  rw [length_encodeEntry (by decide) (hbody e he),
    hsize e he (Nat.lt_of_le_of_lt hvalue (hbody e he))]

end Table

end LibraryRegistry
