import LibraryRegistry.Program.LookUp
import LibraryRegistry.Proofs.CommandLine.Reader
import LibraryRegistry.Proofs.CommandLine.Values
import LibraryRegistry.Proofs.Text.Blank

/-!
# Command lines of the look-up program

`Item` is what one option or the library says, and `Line items arguments` lists the ways to write
items as arguments: names and values in one argument or in two, short names, flags behind one dash,
blanks around the parts of a header, zeros and signs in front of numbers.

A line is read item by item, each change on top of those before it (`Line.reads`). No option that may
be given once is there twice (`Fits`). Up to two dashes, lines may follow each other (`Line.append`).
-/

namespace LibraryRegistry.Program.LookUp

open CommandLine CommandLine.Progress

/-! ## Items -/

/-- An option without a value. -/
inductive Flag
  | verbose
  | quiet
  deriving DecidableEq

namespace Flag

/-- Its long name. -/
def name : Flag → String
  | verbose => "verbose"
  | quiet => "quiet"

/-- Its short name. -/
def letter : Flag → Char
  | verbose => 'v'
  | quiet => 'q'

end Flag

/-- What an option or the library on the command line says. -/
inductive Item
  | library (name : String)
  | host (name : String)
  | port (number : Int64)
  | config (path : String)
  | timeout (millis : UInt64)
  | connectTimeout (millis : UInt64)
  | header (h : Header)
  | flag (f : Flag)
  deriving DecidableEq

namespace Item

/-- The name of the option. -/
def name : Item → String
  | library _ => "library"
  | host _ => "host"
  | port _ => "port"
  | config _ => "config"
  | timeout _ => "timeout-ms"
  | connectTimeout _ => "connect-timeout-ms"
  | header _ => "header"
  | flag f => f.name

/-- Whether the option may be given more than once. -/
def isRepeatable : Item → Bool
  | header _ => true
  | flag .verbose => true
  | _ => false

/-- The header that is given. -/
def header? : Item → Option Header
  | header h => some h
  | _ => none

/-- A text for a header: blanks may stand around its key and its value. -/
structure IsHeaderText (h : Header) (s : String) : Prop where
  colon_not_mem : ':' ∉ h.1.toList
  trimmed_key : Text.trim h.1.toList = h.1.toList
  trimmed_value : Text.trim h.2.toList = h.2.toList
  padded : ∃ a b c d : List Char, Text.IsBlanks a ∧ Text.IsBlanks b ∧ Text.IsBlanks c ∧
    Text.IsBlanks d ∧ s.toList = (a ++ h.1.toList ++ b) ++ ':' :: (c ++ h.2.toList ++ d)

/-- The texts that an option takes as its value to say this. -/
inductive Says : Item → String → Prop
  | host (name : String) : Says (.host name) name
  | port {number : Int64} {s : String} (h : Text.IsInteger number.toInt s.toList) :
      Says (.port number) s
  | config {path : String} (h : path ≠ "") : Says (.config path) path
  | timeout {millis : UInt64} {s : String} (h : Text.IsNatural millis.toNat s.toList) :
      Says (.timeout millis) s
  | connectTimeout {millis : UInt64} {s : String} (h : Text.IsNatural millis.toNat s.toList) :
      Says (.connectTimeout millis) s
  | header {h : Header} {s : String} (text : IsHeaderText h s) : Says (.header h) s

end Item

/-- The ways to write items as arguments, in the order in which they are read. -/
inductive Line : List Item → List String → Prop
  | nil : Line [] []
  /-- `--name=value` -/
  | attached {i : Item} {s : String} {items : List Item} {arguments : List String} (text : i.Says s)
      (rest : Line items arguments) : Line (i :: items) (("--" ++ i.name ++ "=" ++ s) :: arguments)
  /-- `--name value` -/
  | apart {i : Item} {s : String} {items : List Item} {arguments : List String} (text : i.Says s)
      (plain : IsPlain s) (rest : Line items arguments) :
      Line (i :: items) (("--" ++ i.name) :: s :: arguments)
  /-- `-H=value` -/
  | shortAttached {h : Header} {s : String} {items : List Item} {arguments : List String}
      (text : Item.IsHeaderText h s) (rest : Line items arguments) :
      Line (.header h :: items) (("-H=" ++ s) :: arguments)
  /-- `-H value` -/
  | shortApart {h : Header} {s : String} {items : List Item} {arguments : List String}
      (text : Item.IsHeaderText h s) (plain : IsPlain s) (rest : Line items arguments) :
      Line (.header h :: items) ("-H" :: s :: arguments)
  /-- `--verbose`, `--quiet` -/
  | flag {f : Flag} {items : List Item} {arguments : List String} (rest : Line items arguments) :
      Line (.flag f :: items) (("--" ++ f.name) :: arguments)
  /-- `-v`, `-q` and several of them behind one dash -/
  | cluster {flags : List Flag} {items : List Item} {arguments : List String} (ne : flags ≠ [])
      (rest : Line items arguments) :
      Line (flags.map .flag ++ items) (("-" ++ String.ofList (flags.map Flag.letter)) :: arguments)
  | library {s : String} {items : List Item} {arguments : List String} (plain : IsPlain s)
      (rest : Line items arguments) : Line (.library s :: items) (s :: arguments)
  /-- Behind two dashes the library may be any text. -/
  | escaped (s : String) : Line [.library s] ["--", s]

/-- One more item changes the arguments. -/
def Arguments.apply (a : Arguments) : Item → Arguments
  | .library name => { a with library := name }
  | .host name => { a with host := some name }
  | .port number => { a with port := some number }
  | .config path => { a with config := some path }
  | .timeout millis => { a with timeout := some millis }
  | .connectTimeout millis => { a with connectTimeout := some millis }
  | .header h => { a with headers := a.headers ++ [h] }
  | .flag .verbose => { a with verbosity := countUp a.verbosity }
  | .flag .quiet => { a with quiet := true }

/-! ## Reading one item -/

/-- The header of a text with blanks around its parts. -/
theorem header_of_isHeaderText {h : Header} {s : String} (hs : Item.IsHeaderText h s) :
    header s = .ok h := by
  obtain ⟨a, b, c, d, ha, hb, hc, hd, htext⟩ := hs.padded
  have hblank : ∀ {cs}, Text.IsBlanks cs → ':' ∉ cs := by
    intro cs hcs hmem
    exact absurd (hcs ':' hmem) (by decide)
  have hkey : ':' ∉ a ++ h.1.toList ++ b := by
    simp [hblank ha, hblank hb, hs.colon_not_mem]
  rw [header, htext, splitAtFirst_append hkey]
  simp only [Text.trim_padded ha hb, Text.trim_padded hc hd, hs.trimmed_key, hs.trimmed_value,
    String.ofList_toList]

/-- What has been read, with one more item on top. -/
def advance (q : Progress Arguments) (i : Item) : Progress Arguments :=
  q.change i.name (q.settings.apply i)

/-- The item may come when these have been given. -/
def Item.IsNew (given : List String) (i : Item) : Prop := i.isRepeatable = true ∨ i.name ∉ given

theorem Item.IsNew.not_mem {given : List String} {i : Item} (h : i.IsNew given)
    (hi : i.isRepeatable = false) : i.name ∉ given := by
  rcases h with h | h
  · rw [hi] at h
    cases h
  · exact h

theorem command_wellNamed : command.WellNamed where
  nodup := by decide
  equals_not_mem := by decide
  ne_empty := by decide

theorem command_positional :
    command.positional = some ⟨"library", fun a library => { a with library }⟩ := rfl

/-- The option of this name that takes a value does what the item says. -/
structure Item.IsOf (i : Item) (s : String) (o : Parameter Arguments) : Prop where
  has : command.HasLong i.name o
  takesValue : o.action.takesValue = true
  occurs : ∀ q : Progress Arguments, i.IsNew q.given → q.occur o (some s) = .ok (advance q i)

section

variable {α : Type} {i : Item} {s : String} {o : Parameter Arguments} {value : α}
  {read : String → Except ValueFault α} {set : Arguments → α → Arguments}

theorem isOf_store (ho : o ∈ command.parameters) (hname : o.long = i.name)
    (haction : o.action = .store (storing read set)) (hi : i.isRepeatable = false)
    (hread : read s = .ok value) (hset : ∀ a, set a value = a.apply i) : i.IsOf s o := by
  refine ⟨hname ▸ command_wellNamed.hasLong ho, by rw [haction]; rfl, fun q hq => ?_⟩
  rw [advance, ← hset, ← hname]
  exact occur_store haction hread (by rw [hname]; exact hq.not_mem hi)

theorem isOf_append (ho : o ∈ command.parameters) (hname : o.long = i.name)
    (haction : o.action = .append (storing read set)) (hread : read s = .ok value)
    (hset : ∀ a, set a value = a.apply i) : i.IsOf s o := by
  refine ⟨hname ▸ command_wellNamed.hasLong ho, by rw [haction]; rfl, fun q _ => ?_⟩
  rw [advance, ← hset, ← hname]
  exact occur_append haction hread

end

/-- The option for headers, which has a short name too. -/
theorem exists_isOf_header {h : Header} {s : String} (hs : Item.IsHeaderText h s) :
    ∃ o, (Item.header h).IsOf s o ∧ command.HasShort 'H' o :=
  ⟨command.parameters[5], isOf_append (List.getElem_mem _) rfl rfl (header_of_isHeaderText hs)
    fun _ => rfl, rfl, by decide⟩

/-- A text that says an item is a value of the option of that item. -/
theorem Item.Says.exists_isOf {i : Item} {s : String} (h : i.Says s) : ∃ o, i.IsOf s o := by
  -- The options by their places in the list of the command.
  cases h with
  | host =>
    exact ⟨command.parameters[0], isOf_store (List.getElem_mem _) rfl rfl rfl rfl fun _ => rfl⟩
  | port h =>
    exact ⟨command.parameters[1], isOf_store (List.getElem_mem _) rfl rfl rfl
      (int64_of_isInteger h) fun _ => rfl⟩
  | config h =>
    exact ⟨command.parameters[2], isOf_store (List.getElem_mem _) rfl rfl rfl
      (path_of_ne_empty h) fun _ => rfl⟩
  | timeout h =>
    exact ⟨command.parameters[3], isOf_store (List.getElem_mem _) rfl rfl rfl
      (uint64_of_isNatural h) fun _ => rfl⟩
  | connectTimeout h =>
    exact ⟨command.parameters[4], isOf_store (List.getElem_mem _) rfl rfl rfl
      (uint64_of_isNatural h) fun _ => rfl⟩
  | header text =>
    obtain ⟨o, ho, -⟩ := exists_isOf_header text
    exact ⟨o, ho⟩

theorem Flag.exists_occur (f : Flag) :
    ∃ o, command.HasLong f.name o ∧ command.HasShort f.letter o ∧ o.action.takesValue = false ∧
      ∀ q : Progress Arguments, (Item.flag f).IsNew q.given →
        q.occur o none = .ok (advance q (.flag f)) := by
  cases f with
  | verbose =>
    have ho : command.parameters[6] ∈ command.parameters := List.getElem_mem _
    exact ⟨_, command_wellNamed.hasLong ho, ⟨rfl, by decide⟩, rfl, fun q _ =>
      (occur_count rfl).trans rfl⟩
  | quiet =>
    have ho : command.parameters[7] ∈ command.parameters := List.getElem_mem _
    exact ⟨_, command_wellNamed.hasLong ho, ⟨rfl, by decide⟩, rfl, fun q hq =>
      (occur_switch rfl (hq.not_mem rfl)).trans rfl⟩

/-! ## Reading a line -/

/-- No option that may be given once is there twice, nor was it given before. -/
def Fits : List String → List Item → Prop
  | _, [] => True
  | given, i :: items => i.IsNew given ∧ Fits (i.name :: given) items

/-- Flags behind one dash. -/
theorem cluster_of_fits {items : List Item} : ∀ (flags : List Flag) (q : Progress Arguments),
    Fits q.given (flags.map .flag ++ items) →
      Cluster command q (flags.map Flag.letter) ((flags.map .flag).foldl advance q) ∧
        Fits ((flags.map .flag).foldl advance q).given items
  | [], q, hfits => ⟨.nil q, hfits⟩
  | f :: flags, q, hfits => by
    obtain ⟨o, -, hshort, hno, hoccur⟩ := f.exists_occur
    obtain ⟨hcluster, hrest⟩ := cluster_of_fits flags (advance q (.flag f)) hfits.2
    exact ⟨.cons hshort hno (hoccur q hfits.1) hcluster, hrest⟩

/-- What has been read behind a line; its end may stand behind two dashes. -/
def Reads (q : Progress Arguments) (arguments : List String) (q' : Progress Arguments) : Prop :=
  Takes command q arguments q' ∨
    "--" ∈ arguments ∧ Ends command q arguments { q' with escaped := true }

/-- What follows a group of arguments goes on from where that group leads. -/
theorem reads_append {q q' q'' : Progress Arguments} {first rest : List String}
    (hfirst : Takes command q first q') (hrest : Reads q' rest q'') : Reads q (first ++ rest) q'' := by
  rcases hrest with htakes | ⟨hmem, hends⟩
  · exact .inl (hfirst.trans htakes)
  · exact .inr ⟨List.mem_append_right first hmem, hfirst.append hends⟩

/-- A line is read item by item. -/
theorem Line.reads {items : List Item} {arguments : List String} (h : Line items arguments) :
    ∀ q : Progress Arguments, Fits q.given items → Reads q arguments (items.foldl advance q) := by
  -- Each group of arguments takes what has been read to where the rest of the line starts.
  induction h with
  | nil =>
    intro q _
    exact .inl takes_nil
  | attached text _ ih =>
    intro q hfits
    obtain ⟨o, ho⟩ := text.exists_isOf
    have htakes := takes_attached ho.has ho.takesValue (ho.occurs q hfits.1)
    exact reads_append htakes (ih _ hfits.2)
  | apart text plain _ ih =>
    intro q hfits
    obtain ⟨o, ho⟩ := text.exists_isOf
    have htakes := takes_apart ho.has ho.takesValue plain (ho.occurs q hfits.1)
    exact reads_append htakes (ih _ hfits.2)
  | shortAttached text _ ih =>
    intro q hfits
    obtain ⟨o, ho, hshort⟩ := exists_isOf_header text
    have htakes := takes_short_attached hshort ho.takesValue (ho.occurs q hfits.1)
    exact reads_append htakes (ih _ hfits.2)
  | shortApart text plain _ ih =>
    intro q hfits
    obtain ⟨o, ho, hshort⟩ := exists_isOf_header text
    have htakes := takes_short_apart hshort ho.takesValue plain (ho.occurs q hfits.1)
    exact reads_append htakes (ih _ hfits.2)
  | @flag f _ _ _ ih =>
    intro q hfits
    obtain ⟨o, hlong, -, hno, hoccur⟩ := f.exists_occur
    have htakes := takes_flag hlong hno (hoccur q hfits.1)
    exact reads_append htakes (ih _ hfits.2)
  | @cluster flags items _ ne _ ih =>
    intro q hfits
    obtain ⟨hcluster, hfits'⟩ := cluster_of_fits flags q hfits
    rw [List.foldl_append]
    exact reads_append (takes_cluster hcluster (by simpa using ne)) (ih _ hfits')
  | @library s _ _ plain _ ih =>
    intro q hfits
    have hnew : "library" ∉ q.given := hfits.1.not_mem rfl
    have htakes : Takes command q [s] (advance q (.library s)) :=
      takes_positional command_positional hnew plain
    exact reads_append htakes (ih _ hfits.2)
  | escaped s =>
    intro q hfits
    have hnew : "library" ∉ q.given := hfits.1.not_mem rfl
    have hends : Ends command q ["--", s] { advance q (.library s) with escaped := true } :=
      ends_escaped command_positional hnew s
    exact .inr ⟨List.mem_cons_self, hends⟩

/-- What is left at the end of a line may be behind two dashes. -/
theorem Line.ends {items : List Item} {arguments : List String} (h : Line items arguments)
    (q : Progress Arguments) (hfits : Fits q.given items) :
    ∃ e, Ends command q arguments { items.foldl advance q with escaped := e } := by
  rcases h.reads q hfits with htakes | ⟨-, hends⟩
  · exact ⟨_, htakes.ends⟩
  · exact ⟨true, hends⟩

/-- Without two dashes more may follow a line. -/
theorem Line.takes {items : List Item} {arguments : List String} (h : Line items arguments)
    (hno : "--" ∉ arguments) {q : Progress Arguments} (hfits : Fits q.given items) :
    Takes command q arguments (items.foldl advance q) :=
  (h.reads q hfits).resolve_right fun hdashes => hno hdashes.1

theorem Line.append {items items' : List Item} {arguments arguments' : List String}
    (h : Line items arguments) (hno : "--" ∉ arguments) (h' : Line items' arguments') :
    Line (items ++ items') (arguments ++ arguments') := by
  induction h with
  | nil => exact h'
  | attached text _ ih => exact .attached text (ih fun hmem => hno (.tail _ hmem))
  | apart text plain _ ih =>
    exact .apart text plain (ih fun hmem => hno (.tail _ (.tail _ hmem)))
  | shortAttached text _ ih => exact .shortAttached text (ih fun hmem => hno (.tail _ hmem))
  | shortApart text plain _ ih =>
    exact .shortApart text plain (ih fun hmem => hno (.tail _ (.tail _ hmem)))
  | flag _ ih => exact .flag (ih fun hmem => hno (.tail _ hmem))
  | cluster ne _ ih =>
    rw [List.append_assoc]
    exact .cluster ne (ih fun hmem => hno (.tail _ hmem))
  | library plain _ ih => exact .library plain (ih fun hmem => hno (.tail _ hmem))
  | escaped => exact absurd List.mem_cons_self hno

theorem settings_foldl_advance (items : List Item) : ∀ q : Progress Arguments,
    (items.foldl advance q).settings = items.foldl Arguments.apply q.settings := by
  induction items with
  | nil => exact fun _ => rfl
  | cons i items ih => exact fun q => ih (advance q i)

theorem given_foldl_advance (items : List Item) : ∀ q : Progress Arguments,
    (items.foldl advance q).given = (items.map Item.name).reverse ++ q.given := by
  induction items with
  | nil => exact fun _ => rfl
  | cons i items ih =>
    intro q
    rw [List.foldl_cons, ih, List.map_cons, List.reverse_cons, List.append_assoc]
    rfl

theorem mem_given_foldl_advance {i : Item} {items : List Item} (q : Progress Arguments)
    (h : i ∈ items ∨ i.name ∈ q.given) : i.name ∈ (items.foldl advance q).given := by
  rw [given_foldl_advance, List.mem_append, List.mem_reverse]
  exact h.imp_left List.mem_map_of_mem

end LibraryRegistry.Program.LookUp
