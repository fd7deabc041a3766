import LibraryRegistry.Proofs.Changes
import LibraryRegistry.Proofs.Checks
import LibraryRegistry.Proofs.OptionsText
import LibraryRegistry.Proofs.Program.Arguments
import LibraryRegistry.Proofs.Program.Sources

/-!
# Numbers among the options

The port and the deadlines are whole numbers, which may be written with any number of digits, in
the text of options or on the command line. Both places take a number for what it is: one in its
range is that of the configuration, one out of range is named by the fault, and one for which there
is no room is refused when it is read. No number turns into another one.

* `Quantity`, `Gives` — the numbers, and options with such a number
* `Yields` — what a number comes to
* `yields_of_gives` — the checks of a number that has been read
* `read_of_sets`, `exists_read_of_no_room` — the number among the other arguments
* `number_in_text_and_on_line` — the two places agree
-/

namespace LibraryRegistry.Program.LookUp

open CommandLine CommandLine.Progress Config Check
open Json (Holds Written)

/-- A number among the options. -/
inductive Quantity
  | port
  | deadline (k : Deadline)
  deriving DecidableEq, Repr

namespace Quantity

/-- Its name on the command line. -/
def long : Quantity → String
  | port => "port"
  | deadline .call => "timeout-ms"
  | deadline .connection => "connect-timeout-ms"

/-- How messages about the command line name it. -/
def label : Quantity → String
  | port => "--port <PORT>"
  | deadline .call => "--timeout-ms <TIMEOUT_MS>"
  | deadline .connection => "--connect-timeout-ms <CONNECT_TIMEOUT_MS>"

/-- Its option on the command line. -/
def parameter : Quantity → Parameter Arguments
  | port => command.parameters[1]
  | deadline .call => command.parameters[3]
  | deadline .connection => command.parameters[4]

/-- A draft of options with this number in it. -/
def write (q : Quantity) (n : Int) (d : Options.Draft) : Options.Draft :=
  match q with
  | port => { d with port := some n }
  | deadline .call => { d with timeout := some n }
  | deadline .connection => { d with connectTimeout := some n }

/-- The numbers for which there is room: those of 64 bits, and for a deadline none below zero. -/
def HasRoom : Quantity → Int → Prop
  | port, n => -2 ^ 63 ≤ n ∧ n ≤ 2 ^ 63 - 1
  | deadline _, n => 0 ≤ n ∧ n ≤ 2 ^ 64 - 1

/-- The checks that look at nothing but this number. -/
def checks : Quantity → List Check
  | port => [.port, .portRange, .zeroPort]
  | deadline .call => [.timeout]
  | deadline .connection => [.connectTimeout]

/-- These arguments leave the number out. -/
def IsUnset : Quantity → Arguments → Prop
  | port, a => a.port = none
  | deadline .call, a => a.timeout = none
  | deadline .connection, a => a.connectTimeout = none

end Quantity

/-- The options with this number in place of theirs. -/
inductive Gives (o : Options) : Quantity → Int → Options → Prop
  | port (n : Int64) : Gives o .port n.toInt { o with port := some n }
  | timeout (ms : UInt64) : Gives o (.deadline .call) ms.toNat { o with timeout := some ms }
  | connectTimeout (ms : UInt64) :
      Gives o (.deadline .connection) ms.toNat { o with connectTimeout := some ms }

variable {q : Quantity} {n : Int} {o o' : Options} {a : Arguments} {files : Files} {file : Options}
  {headers : List Header} {before after : List String}

theorem exists_gives (h : q.HasRoom n) (o : Options) : ∃ o', Gives o q n o' := by
  have hdeadline (h : 0 ≤ n ∧ n ≤ 2 ^ 64 - 1) : n = (UInt64.ofNat n.toNat).toNat := by
    rw [UInt64.toNat_ofNat', Nat.mod_eq_of_lt (by omega)]
    omega
  cases q with
  | port =>
    have hn : n = (Int64.ofInt n).toInt :=
      (Int64.toInt_ofInt_of_le h.1 (Int.lt_of_le_sub_one h.2)).symm
    rw [hn]
    exact ⟨_, .port _⟩
  | deadline k =>
    rw [hdeadline h]
    cases k with
    | call => exact ⟨_, .timeout _⟩
    | connection => exact ⟨_, .connectTimeout _⟩

/-! ## What a number comes to -/

/-- A place where numbers are given. -/
structure Place (ρ : Type) where
  /-- How it hands on what becomes of the options. -/
  answer : Except ConfigFault Config → ρ
  /-- What it hands on if there is no room for a number. -/
  IsRefusal : ρ → Prop

/-- The text of options. -/
def optionsText : Place (Except ConfigFault Config) where
  answer result := result
  IsRefusal result := ∃ e, result = .error (.invalidOptions e)

/-- The command line, where the name of the option is in the refusal. -/
def commandLine (q : Quantity) : Place (Except Fault (Except ConfigFault Config)) where
  answer := .ok
  IsRefusal result := ∃ complaint, result = .error (.invalidValue q.label complaint)

/-- What a place hands on if a number is given in it, next to these options and headers. -/
inductive Yields {ρ : Type} (p : Place ρ) (o : Options) (headers : List Header) :
    Quantity → Int → ρ → Prop
  | port {n : Int} {o' : Options} {c : Config} : 1 ≤ n → n ≤ 65535 → Gives o .port n o' →
      c.HasValues o' → (c.endpoint.port.toNat : Int) = n → c.headers = headers →
      Yields p o headers .port n (p.answer (.ok c))
  | invalidPort {n : Int} : Quantity.port.HasRoom n → ¬ (1 ≤ n ∧ n ≤ 65535) →
      Yields p o headers .port n (p.answer (.error (.invalidPort n)))
  | deadline {k : Deadline} {n : Int} {o' : Options} {c : Config} : 1 ≤ n → n ≤ 2 ^ 64 - 1 →
      Gives o (.deadline k) n o' → c.HasValues o' → ((c.deadline k).nanos : Int) = n * 10 ^ 6 →
      c.headers = headers → Yields p o headers (.deadline k) n (p.answer (.ok c))
  | zeroDeadline {k : Deadline} :
      Yields p o headers (.deadline k) 0 (p.answer (.error (.zeroDeadline k)))
  | noRoom {q : Quantity} {n : Int} {r : ρ} : ¬ q.HasRoom n → p.IsRefusal r →
      Yields p o headers q n r

/-! ## Numbers that have been read -/

theorem hasRoom_of_gives (h : Gives o q n o') : q.HasRoom n := by
  have hmillis (ms : UInt64) : (0 : Int) ≤ ms.toNat ∧ (ms.toNat : Int) ≤ 2 ^ 64 - 1 := by
    have hlt : ms.toNat < 2 ^ 64 := ms.toNat_lt
    omega
  cases h with
  | port m => exact ⟨m.le_toInt, Int.le_sub_one_of_lt m.toInt_lt⟩
  | timeout ms => exact hmillis ms
  | connectTimeout ms => exact hmillis ms

section Checked

variable {ρ : Type} {p : Place ρ} {fault : ConfigFault} {check : Check} {k : Deadline}

/-- What is wrong with the number is found first, if nothing else is wrong. -/
theorem findsFirst_of_own (hfinds : Finds o' check fault)
    (hothers : ∀ other ∉ q.checks, Clear o' other)
    (hown : ∀ earlier ∈ q.checks, earlier.Before check → Clear o' earlier) :
    FindsFirst o' fault := by
  refine ⟨check, hfinds, fun earlier hbefore => ?_⟩
  by_cases hmem : earlier ∈ q.checks
  · exact hown earlier hmem hbefore
  · exact hothers earlier hmem

theorem map_ofOptions_of_first (h : FindsFirst o' fault) (f : Config → Config) :
    (ofOptions o').map f = .error fault := by
  rw [ofOptions_of_first h]
  rfl

/-- Without anything wrong there is a configuration with these values. -/
theorem exists_config_of_own (hothers : ∀ other ∉ q.checks, Clear o' other)
    (hown : ∀ check ∈ q.checks, Clear o' check) (headers : List Header) :
    ∃ c : Config, (ofOptions o').map (fun c => { c with headers }) = .ok c ∧ c.HasValues o' ∧
      c.headers = headers := by
  obtain ⟨c, hc, hvalues, -⟩ := exists_config_of_clear fun check =>
    if hmem : check ∈ q.checks then hown check hmem else hothers check hmem
  refine ⟨{ c with headers }, ?_, ⟨hvalues.host, hvalues.port, hvalues.timeout,
    hvalues.connectTimeout⟩, rfl⟩
  rw [hc]
  rfl

/-! ### Ports -/

theorem clear_port (hport : o'.port.isSome) : Clear o' .port := by
  intro fault h
  cases h with
  | port hnone =>
    rw [hnone] at hport
    cases hport

theorem clear_portRange {m : Int64} (hm : o'.port = some m)
    (hrange : 0 ≤ m.toInt ∧ m.toInt ≤ 65535) : Clear o' .portRange := by
  intro fault h
  cases h with
  | portRange hm' hout =>
    rw [hm] at hm'
    cases hm'
    exact hout hrange

/-- **A port that has been read.** -/
theorem yields_port {m : Int64} (hm : o'.port = some m) (hgives : Gives o .port m.toInt o')
    (hothers : ∀ check ∉ Quantity.port.checks, Clear o' check) :
    Yields p o headers .port m.toInt
      (p.answer ((ofOptions o').map fun c => { c with headers })) := by
  have hroom : Quantity.port.HasRoom m.toInt := hasRoom_of_gives hgives
  -- A port has to be there, to be one of sixteen bits, and not to be zero, in this order.
  have hthere : Clear o' .port := clear_port (hm ▸ rfl)
  by_cases hrange : 0 ≤ m.toInt ∧ m.toInt ≤ 65535
  · have hinside : Clear o' .portRange := clear_portRange hm hrange
    by_cases hzero : m = 0
    · subst hzero
      have hfirst : FindsFirst o' (.invalidPort 0) := by
        refine findsFirst_of_own (.zeroPort hm) hothers ?_
        simp only [Quantity.checks, List.forall_mem_cons]
        exact ⟨fun _ => hthere, fun _ => hinside, fun h => absurd h (by decide),
          List.forall_mem_nil _⟩
      rw [map_ofOptions_of_first hfirst]
      exact .invalidPort hroom (by decide)
    · have hne : m.toInt ≠ 0 := fun heq => hzero (Int64.toInt_inj.1 heq)
      have hpositive : Clear o' .zeroPort := by
        intro fault h
        cases h with
        | zeroPort h0 => exact hzero (Option.some.inj (hm.symm.trans h0))
      have hown : ∀ check ∈ Quantity.port.checks, Clear o' check := by
        simp only [Quantity.checks, List.forall_mem_cons]
        exact ⟨hthere, hinside, hpositive, List.forall_mem_nil _⟩
      obtain ⟨c, hc, hvalues, hheaders⟩ := exists_config_of_own hothers hown headers
      obtain ⟨m', hm', hport⟩ := hvalues.port
      obtain rfl := Option.some.inj (hm.symm.trans hm')
      rw [hc]
      exact .port (by omega) hrange.2 hgives hvalues hport.symm hheaders
  · have hfirst : FindsFirst o' (.invalidPort m.toInt) := by
      refine findsFirst_of_own (.portRange hm hrange) hothers ?_
      simp only [Quantity.checks, List.forall_mem_cons]
      exact ⟨fun _ => hthere, fun h => absurd h (by decide), fun h => absurd h (by decide),
        List.forall_mem_nil _⟩
    rw [map_ofOptions_of_first hfirst]
    exact .invalidPort hroom (by omega)

/-! ### Deadlines -/

theorem findsFirst_zeroDeadline (hgives : Gives o (.deadline k) n o') (hn : n = 0)
    (hothers : ∀ check ∉ (Quantity.deadline k).checks, Clear o' check) :
    FindsFirst o' (.zeroDeadline k) := by
  have hzero {ms : UInt64} (h : (ms.toNat : Int) = 0) : ms = 0 :=
    UInt64.toNat_inj.1 (Int.ofNat.inj h)
  cases hgives with
  | timeout ms =>
    refine findsFirst_of_own (.timeout (congrArg some (hzero hn))) hothers ?_
    simp only [Quantity.checks, List.forall_mem_cons]
    exact ⟨fun h => absurd h (by decide), List.forall_mem_nil _⟩
  | connectTimeout ms =>
    refine findsFirst_of_own (.connectTimeout (congrArg some (hzero hn))) hothers ?_
    simp only [Quantity.checks, List.forall_mem_cons]
    exact ⟨fun h => absurd h (by decide), List.forall_mem_nil _⟩

theorem clear_deadline (hgives : Gives o (.deadline k) n o') (hn : n ≠ 0) :
    ∀ check ∈ (Quantity.deadline k).checks, Clear o' check := by
  have hzero {ms : UInt64} (h : some ms = some 0) : (ms.toNat : Int) = 0 := by
    rw [Option.some.inj h]
    rfl
  cases hgives with
  | timeout ms =>
    simp only [Quantity.checks, List.forall_mem_cons]
    refine ⟨fun fault h => ?_, List.forall_mem_nil _⟩
    cases h with
    | timeout h0 => exact hn (hzero h0)
  | connectTimeout ms =>
    simp only [Quantity.checks, List.forall_mem_cons]
    refine ⟨fun fault h => ?_, List.forall_mem_nil _⟩
    cases h with
    | connectTimeout h0 => exact hn (hzero h0)

/-- A deadline is exactly as many milliseconds as the options say. -/
theorem nanos_deadline {c : Config} (hgives : Gives o (.deadline k) n o') (h : c.HasValues o') :
    ((c.deadline k).nanos : Int) = n * 10 ^ 6 := by
  have hmillis {d : Duration} {ms : UInt64} (hd : d = .ofMillis ms.toNat) :
      (d.nanos : Int) = (ms.toNat : Int) * 10 ^ 6 := by
    rw [hd]
    rfl
  cases hgives with
  | timeout ms => exact hmillis h.timeout
  | connectTimeout ms => exact hmillis h.connectTimeout

/-- **A deadline that has been read.** -/
theorem yields_deadline (hgives : Gives o (.deadline k) n o')
    (hothers : ∀ check ∉ (Quantity.deadline k).checks, Clear o' check) :
    Yields p o headers (.deadline k) n
      (p.answer ((ofOptions o').map fun c => { c with headers })) := by
  obtain ⟨hnonneg, hle⟩ : 0 ≤ n ∧ n ≤ 2 ^ 64 - 1 := hasRoom_of_gives hgives
  by_cases hn : n = 0
  · rw [map_ofOptions_of_first (findsFirst_zeroDeadline hgives hn hothers), hn]
    exact .zeroDeadline
  · obtain ⟨c, hc, hvalues, hheaders⟩ :=
      exists_config_of_own hothers (clear_deadline hgives hn) headers
    rw [hc]
    exact .deadline (by omega) hle hgives hvalues (nanos_deadline hgives hvalues) hheaders

/-- **A number that has been read.** -/
theorem yields_of_gives (hgives : Gives o q n o') (hothers : ∀ check ∉ q.checks, Clear o' check) :
    Yields p o headers q n (p.answer ((ofOptions o').map fun c => { c with headers })) := by
  cases q with
  | port =>
    cases hgives with
    | port m => exact yields_port rfl (.port m) hothers
  | deadline k => exact yields_deadline hgives hothers

end Checked

/-! ## The text of options -/

theorem map_headers_nil (o : Options) :
    (ofOptions o).map (fun c => { c with headers := [] }) = ofOptions o := by
  cases h : ofOptions o with
  | error fault => rfl
  | ok c =>
    have hnone : c.headers = [] := headers_ofOptions h
    exact congrArg Except.ok (by rw [← hnone])

theorem draft_of_gives (hgives : Gives o q n o') : q.write n o.draft = o'.draft := by
  cases hgives <;> rfl

theorem misfit_of_no_room (h : ¬ q.HasRoom n) (d : Options.Draft) : (q.write n d).Misfit := by
  cases q with
  | port => exact .port rfl h
  | deadline k =>
    cases k with
    | call => exact .timeout rfl h
    | connection => exact .connectTimeout rfl h

/-- **A number in the text of options.** -/
theorem yields_in_text (hothers : ∀ o', Gives o q n o' → ∀ check ∉ q.checks, Clear o' check)
    {text : String} (h : Holds text (Written true (q.write n o.draft).parts)) :
    Yields optionsText o [] q n (Config.ofJson text) := by
  by_cases hroom : q.HasRoom n
  · obtain ⟨o', hgives⟩ := exists_gives hroom o
    rw [draft_of_gives hgives] at h
    have hconfig : Config.ofJson text = (ofOptions o').map fun c => { c with headers := [] } := by
      rw [Config.ofJson, Options.ofJson_of_written h, map_headers_nil]
      rfl
    rw [hconfig]
    exact yields_of_gives (p := optionsText) hgives (hothers o' hgives)
  · obtain ⟨e, he⟩ := Options.ofJson_of_misfit (misfit_of_no_room hroom o.draft) h
    rw [Config.ofJson, he]
    exact .noRoom hroom ⟨e, rfl⟩

/-! ## The command line -/

/-- The arguments are written in front of a place on the command line and behind it. -/
def Arguments.Surround (a : Arguments) (before after : List String) : Prop :=
  ∃ items items', Line items before ∧ "--" ∉ before ∧ Line items' after ∧
    (items ++ items').Perm a.items ∧ (items ++ items').filterMap Item.header? = a.headers

/-- The item sets the number in arguments that leave it out. -/
structure Item.Sets (i : Item) (q : Quantity) (n : Int) (a : Arguments) : Prop where
  text : i.Says (toString n)
  name : i.name = q.long
  header : i.header? = none
  items : (a.apply i).items.Perm (i :: a.items)
  headers : (a.apply i).headers = a.headers
  config : (a.apply i).config = a.config

/-- An item may be moved in front of others. -/
theorem perm_cons_append {i : Item} {items items' : List Item} (h : items.Perm (i :: items'))
    (front : List Item) : (front ++ items).Perm (i :: (front ++ items')) :=
  (h.append_left front).trans List.perm_middle

theorem exists_item (hunset : q.IsUnset a) (hgives : Gives (file.merge a.options) q n o') :
    ∃ i : Item, i.Sets q n a ∧ file.merge (a.apply i).options = o' := by
  cases hgives with
  | port m =>
    have hport : a.port = none := hunset
    refine ⟨.port m, ⟨.port (Text.isInteger_toString _), rfl, rfl, ?_, rfl, rfl⟩, rfl⟩
    simp only [Arguments.items, Arguments.given, Arguments.apply, hport, List.append_assoc]
    exact perm_cons_append (.refl _) _
  | timeout ms =>
    have htimeout : a.timeout = none := hunset
    refine ⟨.timeout ms, ⟨.timeout (.unsigned (Text.isDigits_toString _)), rfl, rfl, ?_, rfl, rfl⟩,
      rfl⟩
    simp only [Arguments.items, Arguments.given, Arguments.apply, htimeout, List.append_assoc]
    exact perm_cons_append (perm_cons_append (perm_cons_append (.refl _) _) _) _
  | connectTimeout ms =>
    have hconnect : a.connectTimeout = none := hunset
    refine ⟨.connectTimeout ms, ⟨.connectTimeout (.unsigned (Text.isDigits_toString _)), rfl, rfl,
      ?_, rfl, rfl⟩, rfl⟩
    simp only [Arguments.items, Arguments.given, Arguments.apply, hconnect, List.append_assoc]
    exact perm_cons_append (perm_cons_append (perm_cons_append (perm_cons_append (.refl _) _) _)
      _) _

theorem Quantity.hasLong (q : Quantity) : command.HasLong q.long q.parameter := by
  rcases q with _ | _ | _
  · exact command_wellNamed.hasLong (List.getElem_mem (l := command.parameters) (n := 1) _)
  · exact command_wellNamed.hasLong (List.getElem_mem (l := command.parameters) (n := 3) _)
  · exact command_wellNamed.hasLong (List.getElem_mem (l := command.parameters) (n := 4) _)

theorem Quantity.takesValue (q : Quantity) : q.parameter.action.takesValue = true := by
  rcases q with _ | _ | _ <;> rfl

/-- Arguments that leave the number out have no item of its name. -/
theorem Item.Sets.not_mem_names {i : Item} (h : i.Sets q n a) : q.long ∉ a.items.map Item.name := by
  intro hmem
  obtain ⟨j, hj, hname⟩ := List.mem_map.1 hmem
  have hdistinct : Distinct (i :: a.items) := (a.apply i).distinct_items.perm h.items
  have honce {k : Item} (hk : k.name = q.long) : k.isRepeatable = false := by
    rw [Bool.eq_false_iff, Ne, k.isRepeatable_iff, hk]
    rcases q with _ | _ | _ <;> decide
  exact (List.pairwise_cons.1 hdistinct).1 j hj (honce h.name) (honce hname)
    (h.name.trans hname.symm)

theorem not_mem_names (hunset : q.IsUnset a) : q.long ∉ a.items.map Item.name := by
  -- Some item of this name could still be added, so there is none yet.
  have hroom : q.HasRoom 0 := by
    cases q <;> exact ⟨by decide, by decide⟩
  obtain ⟨o', hgives⟩ := exists_gives hroom (({} : Options).merge a.options)
  obtain ⟨i, hi, -⟩ := exists_item hunset hgives
  exact hi.not_mem_names

/-- A number for which there is no room is refused when its option comes. -/
theorem exists_occur_rejected (h : ¬ q.HasRoom n) :
    ∃ complaint, ∀ p : Progress Arguments, q.long ∉ p.given →
      p.occur q.parameter (some (toString n)) = .error (.invalidValue q.label complaint) := by
  cases q with
  | port =>
    obtain ⟨complaint, hread⟩ := exists_int64_rejected (Text.isInteger_toString n) h
    exact ⟨complaint, fun p hnew => occur_store_rejected rfl hread hnew⟩
  | deadline k =>
    obtain ⟨complaint, hread⟩ := exists_uint64_rejected h
    cases k with
    | call => exact ⟨complaint, fun p hnew => occur_store_rejected rfl hread hnew⟩
    | connection => exact ⟨complaint, fun p hnew => occur_store_rejected rfl hread hnew⟩

theorem read_of_sets {i : Item} (hi : i.Sets q n a) (h : a.Surround before after) :
    Arguments.read (before ++ ("--" ++ q.long ++ "=" ++ toString n) :: after) =
      .ok { a.apply i with verbosity := min (a.apply i).verbosity 255 } := by
  obtain ⟨items, items', hbefore, hno, hafter, hperm, hheaders⟩ := h
  rw [← hi.name]
  refine Arguments.read_of_written ⟨items ++ i :: items', ?_, ?_, ?_⟩
  · exact hbefore.append hno (.attached hi.text hafter)
  · exact List.perm_middle.trans ((hperm.cons i).trans hi.items.symm)
  · rw [List.filterMap_append, List.filterMap_cons_none hi.header, ← List.filterMap_append,
      hheaders, hi.headers]

theorem exists_read_of_no_room (hroom : ¬ q.HasRoom n) (hnames : q.long ∉ a.items.map Item.name)
    (h : a.Surround before after) :
    ∃ complaint, Arguments.read (before ++ ("--" ++ q.long ++ "=" ++ toString n) :: after) =
      .error (.invalidValue q.label complaint) := by
  obtain ⟨items, items', hbefore, hno, -, hperm, -⟩ := h
  have hdistinct : Distinct (items ++ items') := a.distinct_items.perm hperm.symm
  have hfits : Fits [] items :=
    fits_of_distinct (hdistinct.sublist (List.sublist_append_left items items'))
      fun _ _ => .inr List.not_mem_nil
  obtain ⟨complaint, hrejected⟩ := exists_occur_rejected hroom
  refine ⟨complaint, read_of_fault (hbefore.takes hno hfits) (fun p hp => ?_) after⟩
  rw [take_attached q.hasLong q.takesValue hp]
  refine hrejected _ fun hmem => hnames ((hperm.map Item.name).mem_iff.1 ?_)
  rw [given_foldl_advance, List.append_nil, List.mem_reverse] at hmem
  rw [List.map_append]
  exact List.mem_append_left _ hmem

/-- **A number on the command line.** -/
theorem yields_on_line (hothers : ∀ o', Gives o q n o' → ∀ check ∉ q.checks, Clear o' check)
    (hunset : q.IsUnset a) (hsaid : Says files a.config (.ok file)) (ho : o = file.merge a.options)
    (h : a.Surround before after) :
    Yields (commandLine q) o a.headers q n
      ((Arguments.read (before ++ ("--" ++ q.long ++ "=" ++ toString n) :: after)).map
        fun a => a.clientConfig files) := by
  by_cases hroom : q.HasRoom n
  · obtain ⟨o', hgives⟩ := exists_gives hroom o
    obtain ⟨i, hi, ho'⟩ := exists_item hunset (ho ▸ hgives)
    have hsaid' : Says files (a.apply i).config (.ok file) := hi.config ▸ hsaid
    have hconfig : (a.apply i).clientConfig files
        = (ofOptions o').map fun c => { c with headers := a.headers } := by
      rw [Arguments.clientConfig_of_ok hsaid', ho', hi.headers]
    rw [read_of_sets hi h]
    show Yields _ _ _ _ _ (Except.ok ((a.apply i).clientConfig files))
    rw [hconfig]
    exact yields_of_gives (p := commandLine q) hgives (hothers o' hgives)
  · obtain ⟨complaint, hread⟩ := exists_read_of_no_room hroom (not_mem_names hunset) h
    rw [hread]
    exact .noRoom hroom ⟨complaint, rfl⟩

/-- **The two places agree.** A number that is given next to options that are valid otherwise comes
to the same in the text of options and on the command line: a configuration with exactly this
number, a fault that names it, or a refusal to read it. -/
theorem number_in_text_and_on_line (q : Quantity) (n : Int) (o : Options)
    (hothers : ∀ o', Gives o q n o' → ∀ check ∉ q.checks, Clear o' check) :
    (∀ text, Holds text (Written true (q.write n o.draft).parts) →
      Yields optionsText o [] q n (Config.ofJson text)) ∧
    (∀ (a : Arguments) (files : Files) (file : Options) (before after : List String),
      q.IsUnset a → Says files a.config (.ok file) → o = file.merge a.options →
      a.Surround before after →
      Yields (commandLine q) o a.headers q n
        ((Arguments.read (before ++ ("--" ++ q.long ++ "=" ++ toString n) :: after)).map
          fun a => a.clientConfig files)) :=
  ⟨fun _ h => yields_in_text hothers h,
    fun _ _ _ _ _ hunset hsaid ho h => yields_on_line hothers hunset hsaid ho h⟩

/-- Options without a port. -/
def hostOnly : Options := { host := some "a" }

/-- The command line that says the same. -/
def hostOnlyArguments : Arguments := { library := "x", host := some "a" }

theorem clear_hostOnly (hn : 65535 < n) (o' : Options) (h : Gives hostOnly .port n o') :
    ∀ check ∉ Quantity.port.checks, Clear o' check := by
  cases h with
  | port m =>
    intro check hno fault hfinds
    cases hfinds with
    | host hnone => cases hnone
    | blankHost hhost hblank =>
      cases hhost
      exact absurd (hblank 'a' (by decide)) (by decide)
    | @address _ _ port _ hm hport _ =>
      cases hm
      have hlt : port.toNat < 65536 := port.toNat_lt
      omega
    | timeout hnone => cases hnone
    | connectTimeout hnone => cases hnone
    | _ => exact absurd (by decide) hno

theorem written_hostOnly : Holds "[\"a\",70000,null,null]"
    (Written true (Quantity.port.write 70000 hostOnly.draft).parts) := by
  have hvalues : ∀ v ∈ [Json.writeText "a", (toString (70000 : Int)).toList, ['n', 'u', 'l', 'l'],
      ['n', 'u', 'l', 'l']], Json.IsValue v := by
    simp only [List.forall_mem_cons]
    exact ⟨Json.isValue_writeText "a", .scalar (.number (Json.isNumber_toString 70000)),
      Json.isValue_null, Json.isValue_null, List.forall_mem_nil _⟩
  have hparts : List.Forall₂ (fun (part : Json.TextPart) v => part.IsOf v)
      (Quantity.port.write 70000 hostOnly.draft).parts
      [Json.writeText "a", (toString (70000 : Int)).toList, ['n', 'u', 'l', 'l'],
        ['n', 'u', 'l', 'l']] :=
    .cons (.value (Json.isText_writeText "a")) (.cons (.value rfl) (.cons .null (.cons .null .nil)))
  exact ⟨[], _, [], Json.isBlanks_nil, Json.isBlanks_nil,
    .list (Json.isList_compactList hvalues) (List.append_nil _).symm hparts
      (List.forall_mem_nil _) fun _ => rfl, by decide +kernel⟩

theorem surround_hostOnly : hostOnlyArguments.Surround ["--host", "a"] ["x"] :=
  ⟨[.host "a"], [.library "x"], .apart (.host "a") (by decide) .nil, by decide,
    .library (by decide) .nil, .refl _, rfl⟩

theorem number_in_text_and_on_line_too_large :
    Config.ofJson "[\"a\",70000,null,null]" = .error (.invalidPort 70000) ∧
    (Arguments.read ["--host", "a", "--port=70000", "x"]).map
        (fun a => a.clientConfig fun _ => .error .missing)
      = .ok (.error (.invalidPort 70000)) := by
  have hfault {ρ : Type} {p : Place ρ} {r : ρ} (h : Yields p hostOnly [] .port 70000 r) :
      r = p.answer (.error (.invalidPort 70000)) := by
    cases h with
    | port _ hle => exact absurd hle (by decide)
    | invalidPort => rfl
    | noRoom hno => exact absurd ⟨by decide, by decide⟩ hno
  obtain ⟨htext, hline⟩ :=
    number_in_text_and_on_line .port 70000 hostOnly (clear_hostOnly (by decide))
  exact ⟨hfault (htext _ written_hostOnly),
    hfault (hline hostOnlyArguments _ {} _ _ rfl .unnamed rfl surround_hostOnly)⟩

end LibraryRegistry.Program.LookUp
