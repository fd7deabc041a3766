import LibraryRegistry.Proofs.Json.Fields
import LibraryRegistry.Proofs.Options

/-!
# Texts of options

Options may be written in many ways: in any order, with `null` for what is not set or without it,
with blanks and escapes anywhere, or as a list. All of them are read as the same options. Numbers of
any size may be written; options are read only if all of them fit.

* `Draft` — what is written down, with numbers of any size
* `ofJson_of_written`, `ofJson_of_misfit` — what comes of a draft
* `ofJson_of_spoiled` — members that may not stand in options
* `texts_read_back` — all texts of options are read back
-/

namespace LibraryRegistry

open Json

/-! ## Values that may be missing -/

namespace Json

variable {α : Type}

/-- The texts of a value that may be `null`. -/
inductive IsNullable (IsOf : α → List Char → Prop) : Option α → List Char → Prop
  | null : IsNullable IsOf none ['n', 'u', 'l', 'l']
  | value {a : α} {v : List Char} : IsOf a v → IsNullable IsOf (some a) v

/-- The digits of a whole number, with its sign. -/
def IsDecimal (n : Int) (v : List Char) : Prop := v = (toString n).toList

/-- No text of a value begins with a blank or as `null` does. -/
def Distinct (IsOf : α → List Char → Prop) : Prop :=
  ∀ a v, IsOf a v → ∃ c cs, v = c :: cs ∧ isBlank c = false ∧ c ≠ 'n'

theorem distinct_isText : Distinct IsText := by
  rintro s v ⟨body, -, rfl⟩
  exact ⟨'"', _, rfl, rfl, by decide⟩

/-- A number begins with a digit or a sign. -/
theorem distinct_isDecimal : Distinct IsDecimal := by
  rintro n v rfl
  obtain ⟨c, cs, hcs, hc⟩ := Text.exists_cons_toString n
  obtain ⟨hblank, hword, -⟩ := number_head hc
  exact ⟨c, cs, hcs, hblank, hword⟩

namespace Reader

variable {β : Type}

/-- A value that may be missing is read from `null` or from its own text. The text may be of
something that the value is mapped to, as numbers are to integers. -/
theorem readsValue_nullable {r : Reader α} {IsOf : β → List Char → Prop} (hbegins : Distinct IsOf)
    {f : α → β} (h : ∀ a v, IsOf (f a) v → r.ReadsValue v a) {o : Option α} {o' : Option β}
    (ho : o' = o.map f) {v : List Char} (hv : IsNullable IsOf o' v) :
    (optional r).ReadsValue v o := by
  intro b hb
  cases o with
  | none =>
    subst ho
    cases hv with
    | null => exact reads_null hb
  | some a =>
    subst ho
    cases hv with
    | value hof =>
      have hread := h a v hof [] isBlanks_nil
      obtain ⟨c, cs, rfl, hblank, hword⟩ := hbegins (f a) v hof
      exact reads_optional hb hblank hword hread

/-- What is refused by itself is refused where `null` might stand as well. -/
theorem refuses_nullable {r : Reader α} {IsOf : β → List Char → Prop} (hbegins : Distinct IsOf)
    {a : β} (h : ∀ v, IsOf a v → r.Refuses v) {v : List Char} (hv : IsNullable IsOf (some a) v) :
    (optional r).Refuses v := by
  cases hv with
  | value hof =>
    have hrefuses : r.Refuses v := h v hof
    obtain ⟨c, cs, rfl, hblank, hword⟩ := hbegins a v hof
    exact refuses_optional hblank hword hrefuses

end Reader

end Json

namespace Options

/-! ## Drafts -/

/-- Options as they are written down, with numbers of any size. -/
structure Draft where
  host : Option String := none
  port : Option Int := none
  timeout : Option Int := none
  connectTimeout : Option Int := none
  deriving DecidableEq

/-- The parts of the text of a draft. -/
def Draft.parts (d : Draft) : List TextPart := [
  ⟨"host", IsNullable IsText d.host, d.host = none⟩,
  ⟨"port", IsNullable IsDecimal d.port, d.port = none⟩,
  ⟨"timeout_ms", IsNullable IsDecimal d.timeout, d.timeout = none⟩,
  ⟨"connect_timeout_ms", IsNullable IsDecimal d.connectTimeout, d.connectTimeout = none⟩]

/-- The draft of given options. -/
def draft (o : Options) : Draft where
  host := o.host
  port := o.port.map Int64.toInt
  timeout := o.timeout.map fun ms => (ms.toNat : Int)
  connectTimeout := o.connectTimeout.map fun ms => (ms.toNat : Int)

/-- The name of an option in a text. -/
def Name.key : Name → String
  | host => "host"
  | port => "port"
  | timeout => "timeout_ms"
  | connectTimeout => "connect_timeout_ms"

/-- Every option is read up to where its value ends, whether it fits or not. -/
theorem exact_fields : ∀ field ∈ shape.fields, field.value.Exact := by
  intro field hmem
  simp only [shape, List.mem_cons, List.not_mem_nil, or_false] at hmem
  rcases hmem with rfl | rfl | rfl | rfl
  · exact Reader.exact_map (Reader.exact_optional Reader.exact_text)
  · exact Reader.exact_map (Reader.exact_optional (Reader.exact_map Reader.exact_number))
  · exact Reader.exact_map (Reader.exact_optional (Reader.exact_map Reader.exact_number))
  · exact Reader.exact_map (Reader.exact_optional (Reader.exact_map Reader.exact_number))

/-! ## Drafts that fit -/

theorem readsValue_int64 (n : Int64) (v : List Char) (hv : IsDecimal n.toInt v) :
    Reader.int64.ReadsValue v n := by
  intro b hb
  rw [hv]
  exact Reader.reads_int64 n hb

theorem readsValue_uint64 (n : UInt64) (v : List Char) (hv : IsDecimal n.toNat v) :
    Reader.uint64.ReadsValue v n := by
  intro b hb
  rw [hv]
  exact Reader.reads_uint64 n hb

/-- The options that are there once the members with the given names have been read. -/
def keepNamed (o : Options) (names : List String) : Options :=
  o.keep fun name => names.contains name.key

/-- Each option is read from its own member, and nothing else is. -/
theorem gathers (o : Options) :
    List.Forall₂ (Field.Gathers o.keepNamed) shape.fields o.draft.parts := by
  have hhost (v : List Char) (hv : IsNullable IsText o.host v) :
      (Reader.optional .text).ReadsValue v o.host :=
    Reader.readsValue_nullable distinct_isText (f := id) Reader.readsValue_text
      Option.map_id_apply.symm hv
  have hport (v : List Char) (hv : IsNullable IsDecimal (o.port.map Int64.toInt) v) :
      (Reader.optional .int64).ReadsValue v o.port :=
    Reader.readsValue_nullable distinct_isDecimal readsValue_int64 rfl hv
  have hmillis (ms : Option UInt64) (v : List Char)
      (hv : IsNullable IsDecimal (ms.map fun ms => (ms.toNat : Int)) v) :
      (Reader.optional .uint64).ReadsValue v ms :=
    Reader.readsValue_nullable distinct_isDecimal readsValue_uint64 rfl hv
  refine .cons (gathers_storing hhost fun names => ?_) ?_
  · ext1 <;> simp [keepNamed, keep, Name.key]
  refine .cons (gathers_storing hport fun names => ?_) ?_
  · ext1 <;> simp [keepNamed, keep, Name.key]
  refine .cons (gathers_storing (hmillis o.timeout) fun names => ?_) ?_
  · ext1 <;> simp [keepNamed, keep, Name.key]
  refine .cons (gathers_storing (hmillis o.connectTimeout) fun names => ?_) .nil
  ext1 <;> simp [keepNamed, keep, Name.key]

/-- Only what is not set may be left out. -/
theorem keepNamed_eq_self {o : Options} {names : List String}
    (h : ∀ part ∈ o.draft.parts, part.name ∉ names → part.Missable) : o.keepNamed names = o := by
  simp only [draft, Draft.parts, List.forall_mem_cons, Option.map_eq_none_iff] at h
  obtain ⟨hhost, hport, htimeout, hconnect, -⟩ := h
  ext1
  · exact ite_contains_eq hhost
  · exact ite_contains_eq hport
  · exact ite_contains_eq htimeout
  · exact ite_contains_eq hconnect

/-- The members of a text fill in the options one by one. -/
theorem collects (o : Options) : shape.Collects {} o.draft.parts o o.keepNamed where
  fields := o.gathers
  nothing := rfl
  everything _ := keepNamed_eq_self

theorem ofJson_of_parse {text : String} {o : Options} (h : (shape.reader {}).parse text = .ok o) :
    ofJson text = .ok o := by
  rw [ofJson, h]

/-- What the reader refuses is reported as invalid. -/
theorem ofJson_of_refuses {text : String} {IsOf : List Char → Prop} (h : Holds text IsOf)
    (hr : ∀ v, IsOf v → (shape.reader {}).Refuses v) :
    ∃ e, ofJson text = .error (.invalidOptions e) := by
  obtain ⟨e, he⟩ := Reader.parse_of_refuses h hr
  refine ⟨e, ?_⟩
  rw [ofJson, he]

/-- **Written options are read as they are.** -/
theorem ofJson_of_written {o : Options} {text : String}
    (h : Holds text (Written true o.draft.parts)) : ofJson text = .ok o :=
  ofJson_of_parse (Reader.parse_of_readsValue h fun _ hv => Shape.reads_of_written o.collects hv)

/-! ## Drafts that do not fit -/

/-- A number of a draft is none of 64 bits, or a deadline is negative. -/
inductive Draft.Misfit (d : Draft) : Prop
  | port {n : Int} : d.port = some n → ¬ (-2 ^ 63 ≤ n ∧ n ≤ 2 ^ 63 - 1) → d.Misfit
  | timeout {n : Int} : d.timeout = some n → ¬ (0 ≤ n ∧ n ≤ 2 ^ 64 - 1) → d.Misfit
  | connectTimeout {n : Int} : d.connectTimeout = some n → ¬ (0 ≤ n ∧ n ≤ 2 ^ 64 - 1) → d.Misfit

theorem refuses_int64 {n : Int} (hn : ¬ (-2 ^ 63 ≤ n ∧ n ≤ 2 ^ 63 - 1)) (v : List Char)
    (hv : IsDecimal n v) : Reader.int64.Refuses v := by
  rw [hv]
  exact Reader.refuses_map (Reader.refuses_integer hn)

theorem refuses_uint64 {n : Int} (hn : ¬ (0 ≤ n ∧ n ≤ 2 ^ 64 - 1)) (v : List Char)
    (hv : IsDecimal n v) : Reader.uint64.Refuses v := by
  rw [hv]
  exact Reader.refuses_map (Reader.refuses_integer hn)

/-- A number that its reader refuses makes the options unreadable. -/
theorem Draft.refuses_number {d : Draft} {α : Type} {r : Reader α} {name : String}
    {store : Options → Option α → Options} {value : Option Int} {n : Int}
    (hmem : (Field.storing name (.optional r) store,
      (⟨name, IsNullable IsDecimal value, value = none⟩ : TextPart)) ∈ shape.fields.zip d.parts)
    (hfind : shape.fields.find? (·.name == name) = some (.storing name (.optional r) store))
    (hvalue : value = some n) (hr : ∀ v, IsDecimal n v → r.Refuses v) {cs : List Char}
    (h : Written true d.parts cs) : (shape.reader {}).Refuses cs := by
  refine Shape.refuses_of_written exact_fields hmem hfind ?_ (fun v hv => ?_) h
  · rw [hvalue]
    exact Option.some_ne_none n
  · rw [hvalue] at hv
    exact Reader.refuses_map (Reader.refuses_nullable distinct_isDecimal hr hv)

/-- A text with a number that does not fit is refused, wherever the number stands. -/
theorem Draft.Misfit.refuses {d : Draft} (hd : d.Misfit) {cs : List Char}
    (h : Written true d.parts cs) : (shape.reader {}).Refuses cs := by
  cases hd with
  | port hport hn =>
    exact d.refuses_number (.tail _ (.head _)) rfl hport (refuses_int64 hn) h
  | timeout htimeout hn =>
    exact d.refuses_number (.tail _ (.tail _ (.head _))) rfl htimeout (refuses_uint64 hn) h
  | connectTimeout hconnect hn =>
    exact d.refuses_number (.tail _ (.tail _ (.tail _ (.head _)))) rfl hconnect
      (refuses_uint64 hn) h

/-- **Nothing is read if a number does not fit.** -/
theorem ofJson_of_misfit {d : Draft} (hd : d.Misfit) {text : String}
    (h : Holds text (Written true d.parts)) : ∃ e, ofJson text = .error (.invalidOptions e) :=
  ofJson_of_refuses h fun _ hv => hd.refuses hv

/-! ## Members that may not stand in options -/

/-- The names of the options in a text. -/
def keys : List String := ["host", "port", "timeout_ms", "connect_timeout_ms"]

/-- **A member that is no option, or a second one of the same option, makes the options
unreadable.** -/
theorem ofJson_of_spoiled {front back : List Member} {key : String} {v : List Char} {text : String}
    (h : Holds text (IsObject (front ++ (key, v) :: back)))
    (hkey : key ∉ keys ∨ key ∈ (front ++ back).map (·.1)) :
    ∃ e, ofJson text = .error (.invalidOptions e) := by
  refine ofJson_of_refuses h fun cs hcs => ?_
  by_cases hname : key ∈ keys
  · have htwice := List.count_pos_iff.2 (hkey.resolve_left fun hno => hno hname)
    rw [List.map_append, List.count_append] at htwice
    refine Shape.refuses_repeated exact_fields hcs hname ?_
    rw [List.map_append, List.map_cons, List.count_append, List.count_cons_self]
    omega
  · exact Shape.refuses_undeclared exact_fields hcs rfl
      (List.mem_append_right _ List.mem_cons_self) hname

/-- **Options are read back from all their texts**: as an object with its members in any order, with
`null` for what is not set or without it, or as a list; blanks and escapes may stand anywhere. A
member that is no option, or a second one of the same option, makes the text invalid, wherever it
stands and whatever its value is. -/
theorem texts_read_back :
    (∀ (o : Options) (text : String), Holds text (Written true o.draft.parts) →
      ofJson text = .ok o) ∧
    (∀ (front back : List Member) (key : String) (v : List Char) (text : String),
      Holds text (IsObject (front ++ (key, v) :: back)) →
      key ∉ keys ∨ key ∈ (front ++ back).map (·.1) →
      ∃ e, ofJson text = .error (.invalidOptions e)) :=
  ⟨fun _ _ h => ofJson_of_written h, fun _ _ _ _ _ h hkey => ofJson_of_spoiled h hkey⟩

/-- A port that cannot be one, a host that needs escapes, and no deadlines. -/
def portAndHost : Options := { host := some "😀\n", port := some (-1) }

/-- The port comes first, with a code in its name; one of the deadlines is written as `null`. -/
def portAndHostText : String :=
  " \x7b \"p\\u006Frt\" : -1,\"timeout_ms\":null,\t\"host\":\"\\ud83d\\uDE00\\n\"\x7d"

/-- A key may be spelled with codes of its characters. -/
theorem isText_port : IsText "port" ['"', 'p', '\\', 'u', '0', '0', '6', 'F', 'r', 't', '"'] := by
  have hplain (c : Char) (hquote : c ≠ '"') (hslash : c ≠ '\\') (hcontrol : isControl c = false) :
      SpellsChar c [c] := .plain hquote hslash hcontrol
  have ho : SpellsChar 'o' ['\\', 'u', '0', '0', '6', 'F'] := .code ⟨rfl, by decide⟩
  refine ⟨['p', '\\', 'u', '0', '0', '6', 'F', 'r', 't'], ?_, rfl⟩
  refine .cons (hplain 'p' (by decide) (by decide) rfl) (.cons ho ?_)
  exact .cons (hplain 'r' (by decide) (by decide) rfl)
    (.cons (hplain 't' (by decide) (by decide) rfl) .nil)

/-- A character beyond sixteen bits is spelled as a pair of codes, in digits of either case. -/
theorem isText_smiley : IsText "😀\n"
    ['"', '\\', 'u', 'd', '8', '3', 'd', '\\', 'u', 'D', 'E', '0', '0', '\\', 'n', '"'] := by
  have hpair : SpellsChar '😀' ['\\', 'u', 'd', '8', '3', 'd', '\\', 'u', 'D', 'E', '0', '0'] :=
    @SpellsChar.pair _ 0xD83D 0xDE00 ['d', '8', '3', 'd'] _ rfl rfl rfl ⟨rfl, by decide⟩
      ⟨rfl, by decide⟩
  exact ⟨_, .cons hpair (.cons (.short rfl) .nil), rfl⟩

theorem written_portAndHost : Holds portAndHostText (Written true portAndHost.draft.parts) := by
  have htab : IsBlanks ['\t'] := by
    intro c hc
    rw [List.mem_singleton.1 hc]
    rfl
  have hhost := MembersText.member (.next isBlanks_nil htab) (isText_writeText "host") isBlanks_nil
    isBlanks_nil (.scalar (.text (isRawText_of_isText isText_smiley))) (.done isBlanks_nil)
  have htimeout := MembersText.member (.next isBlanks_nil isBlanks_nil)
    (isText_writeText "timeout_ms") isBlanks_nil isBlanks_nil (.scalar .null) hhost
  have hport := MembersText.member (.first isBlanks_space) isText_port isBlanks_space isBlanks_space
    (.scalar (.number (isNumber_toString (-1)))) htimeout
  refine ⟨[' '], _, [], isBlanks_space, isBlanks_nil, .object ⟨_, hport, rfl⟩ ?_ ?_ ?_ ?_,
    by decide +kernel⟩
  · intro part hpart v hmem
    simp only [Draft.parts, List.mem_cons, List.not_mem_nil, or_false] at hpart
    rcases hpart with rfl | rfl | rfl | rfl
    · obtain rfl : v = _ := by simpa using hmem
      exact .value isText_smiley
    · obtain rfl : v = _ := by simpa using hmem
      exact .value rfl
    · obtain rfl : v = _ := by simpa using hmem
      exact .null
    · exact absurd hmem (by simp)
  · decide
  · simp [Draft.parts, draft, portAndHost]
  · decide

theorem texts_read_back_sample :
    ofJson portAndHostText = .ok portAndHost ∧
    ∃ e, ofJson "\x7b\"host\":null,\"host\":null\x7d" = .error (.invalidOptions e) := by
  obtain ⟨hread, hspoiled⟩ := texts_read_back
  refine ⟨hread _ _ written_portAndHost, hspoiled [("host", ['n', 'u', 'l', 'l'])] [] "host"
    ['n', 'u', 'l', 'l'] _ ?_ (Or.inr (by decide))⟩
  have hvalues : ∀ member ∈ [("host", ['n', 'u', 'l', 'l']), ("host", ['n', 'u', 'l', 'l'])],
      IsValue (Prod.snd member) := by
    intro member hmem
    simp only [List.mem_cons, List.not_mem_nil, or_false] at hmem
    rcases hmem with rfl | rfl <;> exact isValue_null
  exact ⟨[], _, [], isBlanks_nil, isBlanks_nil, isObject_compactObject hvalues, by decide +kernel⟩

end Options

end LibraryRegistry
