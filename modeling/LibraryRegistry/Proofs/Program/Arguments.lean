import LibraryRegistry.Proofs.Program.Line

/-!
# Arguments of the look-up program, in any spelling and order

A command line with the items of some arguments, in any order but that of the headers, is read as
these arguments. Changes by different options commute, and so does counting. Headers do not, so they
are first moved behind everything else (`foldl_apply_eq_headers_last`).

* `foldl_apply_of_perm` — the order of items
* `read_of_written` — the main result
* `exists_written` — there is a way to write all arguments that can come out of texts
-/

namespace LibraryRegistry.Program.LookUp

open CommandLine CommandLine.Progress

namespace Arguments

/-- The options that have to be given to get these arguments. -/
def given (a : Arguments) : List Item :=
  a.host.toList.map .host ++ a.port.toList.map .port ++ a.config.toList.map .config
    ++ a.timeout.toList.map .timeout ++ a.connectTimeout.toList.map .connectTimeout
    ++ a.headers.map .header ++ List.replicate a.verbosity (.flag .verbose)
    ++ if a.quiet then [.flag .quiet] else []

/-- All that has to be said to get these arguments. -/
def items (a : Arguments) : List Item := a.given ++ [.library a.library]

/-- The arguments are written so: in any order but that of the headers. -/
def Written (a : Arguments) (arguments : List String) : Prop :=
  ∃ items, Line items arguments ∧ items.Perm a.items ∧ items.filterMap Item.header? = a.headers

end Arguments

/-! ## The order of items -/

theorem Item.isRepeatable_iff (i : Item) :
    i.isRepeatable = true ↔ i.name = "header" ∨ i.name = "verbose" := by
  cases i with
  | flag f => cases f <;> simp [isRepeatable, name, Flag.name]
  | _ => simp [isRepeatable, name]

/-- Options that may be given once are told apart by their names. -/
def Distinct (items : List Item) : Prop :=
  items.Pairwise fun i j => i.isRepeatable = false → j.isRepeatable = false → i.name ≠ j.name

theorem Distinct.perm {items items' : List Item} (h : Distinct items) (hperm : items.Perm items') :
    Distinct items' :=
  List.Pairwise.perm h hperm fun hne hi hj => (hne hj hi).symm

/-- Each item of such a list may come when those before it have been given. -/
theorem fits_of_distinct : ∀ {items : List Item} {given : List String}, Distinct items →
    (∀ i ∈ items, i.IsNew given) → Fits given items
  | [], _, _, _ => trivial
  | i :: items, given, hdistinct, hnew => by
    obtain ⟨hi, hitems⟩ := List.pairwise_cons.1 hdistinct
    refine ⟨hnew i List.mem_cons_self, fits_of_distinct hitems fun j hj => ?_⟩
    cases hrepeat : j.isRepeatable with
    | true => exact .inl hrepeat
    | false =>
      have hgiven : j.name ∉ given := (hnew j (List.mem_cons_of_mem _ hj)).not_mem hrepeat
      have hne : i.name ≠ j.name := by
        intro hname
        cases hfirst : i.isRepeatable with
        | true =>
          rw [i.isRepeatable_iff, hname, ← j.isRepeatable_iff, hrepeat] at hfirst
          cases hfirst
        | false => exact hi j hj hfirst hrepeat hname
      exact .inr (by simp [hgiven, hne.symm])

/-- Two items that can be read in either order. -/
def Commute (i j : Item) : Prop := ∀ a : Arguments, (a.apply i).apply j = (a.apply j).apply i

theorem Commute.symm {i j : Item} (h : Commute i j) : Commute j i := fun a => (h a).symm

/-- Different options change different settings. -/
theorem commute_of_ne {i j : Item} (hi : i.header? = none) (hj : j.header? = none)
    (h : i.isRepeatable = false → j.isRepeatable = false → i.name ≠ j.name) : Commute i j := by
  intro a
  rcases i with _ | _ | _ | _ | _ | _ | _ | (_ | _) <;>
    rcases j with _ | _ | _ | _ | _ | _ | _ | (_ | _) <;>
    first
    | rfl
    | exact absurd rfl (h rfl rfl)
    | cases hi

theorem commute_header {h : Header} {i : Item} (hi : i.header? = none) : Commute (.header h) i := by
  intro a
  rcases i with _ | _ | _ | _ | _ | _ | _ | (_ | _) <;>
    first
    | rfl
    | cases hi

theorem Distinct.commute {items : List Item} (h : Distinct items) {i j : Item} (hi : i ∈ items)
    (hj : j ∈ items) (hi' : i.header? = none) (hj' : j.header? = none) : Commute i j := by
  -- An item commutes with itself, and with each other item in both orders.
  have hself : ∀ k ∈ items, k.header? = none → k.header? = none → Commute k k :=
    fun _ _ _ _ _ => rfl
  have hpairs : items.Pairwise fun i j => i.header? = none → j.header? = none → Commute i j :=
    h.imp fun hne hi hj => commute_of_ne hi hj hne
  have hflip := hpairs.imp (S := flip fun i j => i.header? = none → j.header? = none → Commute i j)
    fun hcommute hj hi => (hcommute hi hj).symm
  exact hpairs.forall_of_forall_of_flip hself hflip hi hj hi' hj'

theorem foldl_apply_header (h : Header) : ∀ (items : List Item) (a : Arguments),
    (∀ i ∈ items, i.header? = none) →
      items.foldl Arguments.apply (a.apply (.header h)) =
        (items.foldl Arguments.apply a).apply (.header h)
  | [], _, _ => rfl
  | i :: items, a, hnone => by
    have hi : i.header? = none := hnone i List.mem_cons_self
    rw [List.foldl_cons, List.foldl_cons, commute_header hi a]
    exact foldl_apply_header h items (a.apply i) fun j hj => hnone j (List.mem_cons_of_mem _ hj)

theorem eq_header_of_header? {i : Item} {h : Header} (hi : i.header? = some h) : i = .header h := by
  cases i with
  | header h' =>
    cases hi
    rfl
  | _ => cases hi

/-- Headers may be moved behind everything else. -/
theorem foldl_apply_eq_headers_last : ∀ (items : List Item) (a : Arguments),
    items.foldl Arguments.apply a =
      ((items.filterMap Item.header?).map Item.header).foldl Arguments.apply
        ((items.filter (·.header?.isNone)).foldl Arguments.apply a)
  | [], _ => rfl
  | i :: items, a => by
    rw [List.foldl_cons, foldl_apply_eq_headers_last items (a.apply i)]
    cases hi : i.header? with
    | none =>
      rw [List.filterMap_cons_none hi, List.filter_cons_of_pos (by simp [hi]), List.foldl_cons]
    | some h =>
      obtain rfl := eq_header_of_header? hi
      have hnone : ∀ j ∈ items.filter (·.header?.isNone), j.header? = none := by
        intro j hj
        simpa using (List.mem_filter.1 hj).2
      rw [List.filterMap_cons_some hi, List.filter_cons_of_neg (by simp [hi]),
        foldl_apply_header h _ a hnone, List.map_cons, List.foldl_cons]

/-- **The order of items does not matter, but for that of the headers.** -/
theorem foldl_apply_of_perm {items items' : List Item} (hperm : items.Perm items')
    (hdistinct : Distinct items)
    (hheaders : items.filterMap Item.header? = items'.filterMap Item.header?) (a : Arguments) :
    items.foldl Arguments.apply a = items'.foldl Arguments.apply a := by
  rw [foldl_apply_eq_headers_last items, foldl_apply_eq_headers_last items', hheaders]
  congr 1
  refine (hperm.filter _).foldl_eq' (fun i hi j hj b => ?_) a
  simp only [List.mem_filter, Option.isNone_iff_eq_none] at hi hj
  exact hdistinct.commute hi.1 hj.1 hi.2 hj.2 b

/-! ## The items of arguments -/

theorem distinct_of_nodup {items : List Item}
    (h : ((items.filter fun i => !i.isRepeatable).map Item.name).Nodup) : Distinct items := by
  rw [List.Nodup, List.pairwise_map, List.pairwise_filter] at h
  exact h.imp fun hne hi hj => hne (by simp [hi]) (by simp [hj])

namespace Arguments

theorem filterMap_header?_items (a : Arguments) : a.items.filterMap Item.header? = a.headers := by
  have hoption : ∀ {α : Type} (item : α → Item) (o : Option α), (∀ x, (item x).header? = none) →
      (o.toList.map item).filterMap Item.header? = [] := by
    intro α item o hnone
    cases o <;> simp [hnone]
  have hheaders : (a.headers.map Item.header).filterMap Item.header? = a.headers := by
    rw [List.filterMap_map]
    exact List.filterMap_some
  have hverbose : (List.replicate a.verbosity (Item.flag .verbose)).filterMap Item.header? = [] :=
    List.filterMap_replicate_of_none rfl
  have hquiet : (if a.quiet then [Item.flag .quiet] else []).filterMap Item.header? = [] := by
    cases a.quiet <;> rfl
  have hlibrary : [Item.library a.library].filterMap Item.header? = [] := rfl
  unfold items given
  simp only [List.filterMap_append, hheaders, hverbose, hquiet, hlibrary, List.append_nil]
  rw [hoption Item.host _ fun _ => rfl, hoption Item.port _ fun _ => rfl,
    hoption Item.config _ fun _ => rfl, hoption Item.timeout _ fun _ => rfl,
    hoption Item.connectTimeout _ fun _ => rfl]
  rfl

/-- The names of the items that are there at most once. -/
theorem sublist_names (a : Arguments) :
    ((a.items.filter fun i => !i.isRepeatable).map Item.name).Sublist
      ["host", "port", "config", "timeout-ms", "connect-timeout-ms", "quiet", "library"] := by
  have hoption : ∀ {α : Type} (item : α → Item) (o : Option α) (name : String),
      (∀ x, (item x).name = name) →
        (((o.toList.map item).filter fun i => !i.isRepeatable).map Item.name).Sublist [name] := by
    intro α item o name hname
    cases o with
    | none => exact List.nil_sublist _
    | some x =>
      rw [← hname x]
      exact List.filter_sublist.map Item.name
  have hheaders : ((a.headers.map Item.header).filter fun i => !i.isRepeatable) = [] := by
    simp [List.filter_map, Function.comp_def, Item.isRepeatable]
  have hverbose : ((List.replicate a.verbosity (Item.flag .verbose)).filter
      fun i => !i.isRepeatable) = [] := by
    simp [Item.isRepeatable]
  have hquiet : (((if a.quiet then [Item.flag .quiet] else []).filter
      fun i => !i.isRepeatable).map Item.name).Sublist ["quiet"] := by
    cases a.quiet
    · exact List.nil_sublist _
    · exact List.Sublist.refl _
  unfold items given
  simp only [List.filter_append, List.map_append, hheaders, hverbose, List.append_nil]
  exact (hoption Item.host a.host "host" fun _ => rfl)
    |>.append (hoption Item.port a.port "port" fun _ => rfl)
    |>.append (hoption Item.config a.config "config" fun _ => rfl)
    |>.append (hoption Item.timeout a.timeout "timeout-ms" fun _ => rfl)
    |>.append (hoption Item.connectTimeout a.connectTimeout "connect-timeout-ms" fun _ => rfl)
    |>.append hquiet |>.append (List.Sublist.refl ["library"])

theorem distinct_items (a : Arguments) : Distinct a.items :=
  distinct_of_nodup (a.sublist_names.nodup (by decide))

/-- A setting that is there is made by its item. -/
theorem foldl_apply_toList {α : Type} (item : α → Item) (set : Arguments → Option α → Arguments)
    {a : Arguments} (hnone : set a none = a) (hsome : ∀ x, a.apply (item x) = set a (some x))
    (o : Option α) : (o.toList.map item).foldl apply a = set a o := by
  cases o with
  | none => exact hnone.symm
  | some x => exact hsome x

theorem foldl_apply_headers : ∀ (hs : List Header) (a : Arguments),
    (hs.map Item.header).foldl apply a = { a with headers := a.headers ++ hs }
  | [], a => by simp
  | h :: hs, a => by
    rw [List.map_cons, List.foldl_cons, foldl_apply_headers hs]
    simp [apply]

theorem foldl_apply_verbose {a : Arguments} (ha : a.verbosity = 0) : ∀ n : Nat,
    (List.replicate n (Item.flag .verbose)).foldl apply a =
      { a with verbosity := min n maxCount }
  | 0 => by
    have hzero : { a with verbosity := 0 } = a := by rw [← ha]
    exact hzero.symm
  | n + 1 => by
    rw [List.replicate_succ', List.foldl_append, foldl_apply_verbose ha n]
    simp [apply, countUp_min]

/-- Items in their usual order, from nothing on. -/
theorem foldl_apply_items (a : Arguments) :
    a.items.foldl apply {} = { a with verbosity := min a.verbosity maxCount } := by
  unfold items given
  simp only [List.foldl_append]
  rw [foldl_apply_toList Item.host (fun a host => { a with host }) rfl fun _ => rfl,
    foldl_apply_toList Item.port (fun a port => { a with port }) rfl fun _ => rfl,
    foldl_apply_toList Item.config (fun a config => { a with config }) rfl fun _ => rfl,
    foldl_apply_toList Item.timeout (fun a timeout => { a with timeout }) rfl fun _ => rfl,
    foldl_apply_toList Item.connectTimeout (fun a connectTimeout => { a with connectTimeout }) rfl
      fun _ => rfl,
    foldl_apply_headers, foldl_apply_verbose rfl]
  obtain ⟨library, host, port, config, timeout, connectTimeout, headers, verbosity, quiet⟩ := a
  cases quiet <;> rfl

/-! ## Reading -/

/-- **Arguments are read as what they say, in every spelling and order.** Of the count no more than
255 is kept. -/
theorem read_of_written {a : Arguments} {arguments : List String} (h : a.Written arguments) :
    read arguments = .ok { a with verbosity := min a.verbosity 255 } := by
  obtain ⟨items, hline, hperm, hheaders⟩ := h
  have hdistinct : Distinct items :=
    List.Pairwise.perm a.distinct_items hperm.symm fun hne hi hj => (hne hj hi).symm
  have hfits : Fits [] items := fits_of_distinct hdistinct fun _ _ => .inr List.not_mem_nil
  obtain ⟨e, hends⟩ := hline.ends { settings := {} } hfits
  have hlibrary : Item.library a.library ∈ items := hperm.mem_iff.2 (by simp [Arguments.items])
  have hread := read_of_ends hends fun name hname => by
    obtain rfl : name = "library" := by simpa [command] using hname
    exact mem_given_foldl_advance _ (.inl hlibrary)
  have hsettings : items.foldl apply {} = { a with verbosity := min a.verbosity 255 } := by
    rw [foldl_apply_of_perm hperm hdistinct (by rw [hheaders, a.filterMap_header?_items])]
    exact a.foldl_apply_items
  rw [read, hread, ← hsettings]
  exact congrArg Except.ok (settings_foldl_advance items _)

/-- Settings with a library and a port that begin with a dash, and a header with a blank in it. -/
def sample : Arguments where
  library := "-x"
  host := some "h"
  port := some (-5)
  headers := [("k", "1 2")]
  verbosity := 2
  quiet := true

theorem written_sample :
    sample.Written ["-vqv", "--port=-05", "-H", " k : 1 2", "--host", "h", "--", "-x"] := by
  have hdigits : Text.IsDigits 5 ['0', '5'] := ⟨by simp, by simp, by decide⟩
  have hport : (Item.port (-5)).Says "-05" := .port (.minus hdigits)
  have hheader : Item.IsHeaderText ("k", "1 2") " k : 1 2" :=
    { colon_not_mem := by decide
      trimmed_key := by decide
      trimmed_value := by decide
      padded := ⟨[' '], [' '], [' '], [], by simp [Text.IsBlanks, Text.isBlank]⟩ }
  have hlast : Line [.host "h", .library "-x"] ["--host", "h", "--", "-x"] :=
    .apart (.host "h") (by decide) (.escaped "-x")
  have hrest : Line [.port (-5), .header ("k", "1 2"), .host "h", .library "-x"]
      ["--port=-05", "-H", " k : 1 2", "--host", "h", "--", "-x"] :=
    .attached hport (.shortApart hheader (by decide) hlast)
  have hline := @Line.cluster [.verbose, .quiet, .verbose] _ _ (by decide) hrest
  exact ⟨_, hline, by decide, rfl⟩

theorem read_of_written_sample :
    sample.Written ["-vqv", "--port=-05", "-H", " k : 1 2", "--host", "h", "--", "-x"] ∧
      read ["-vqv", "--port=-05", "-H", " k : 1 2", "--host", "h", "--", "-x"] = .ok sample :=
  ⟨written_sample, read_of_written written_sample⟩

/-- All but an empty path, and headers whose parts do not come out of a text. -/
structure Writable (a : Arguments) : Prop where
  config : a.config ≠ some ""
  colon_not_mem : ∀ h ∈ a.headers, ':' ∉ h.1.toList
  trimmed_key : ∀ h ∈ a.headers, Text.trim h.1.toList = h.1.toList
  trimmed_value : ∀ h ∈ a.headers, Text.trim h.2.toList = h.2.toList

/-- Each option can be given by itself. -/
theorem Writable.exists_line {a : Arguments} (h : a.Writable) {i : Item} (hi : i ∈ a.given) :
    ∃ s, ∀ items arguments, Line items arguments → Line (i :: items) (s :: arguments) := by
  have hsays : ∀ {s}, i.Says s →
      ∃ s, ∀ items arguments, Line items arguments → Line (i :: items) (s :: arguments) :=
    fun htext => ⟨_, fun _ _ hline => .attached htext hline⟩
  simp only [given, List.mem_append, List.mem_map, Option.mem_toList, List.mem_replicate] at hi
  rcases hi with ((((((⟨s, hs, rfl⟩ | ⟨n, hn, rfl⟩) | ⟨s, hs, rfl⟩) | ⟨n, hn, rfl⟩) |
    ⟨n, hn, rfl⟩) | ⟨header, hheader, rfl⟩) | ⟨-, rfl⟩) | hquiet
  · exact hsays (.host s)
  · exact hsays (.port (Text.isInteger_toString _))
  · exact hsays (.config fun hempty => h.config (hempty ▸ hs))
  · exact hsays (.timeout (.unsigned (Text.isDigits_toString _)))
  · exact hsays (.connectTimeout (.unsigned (Text.isDigits_toString _)))
  · have htext : Item.IsHeaderText header (header.1 ++ ":" ++ header.2) :=
      { colon_not_mem := h.colon_not_mem header hheader
        trimmed_key := h.trimmed_key header hheader
        trimmed_value := h.trimmed_value header hheader
        padded := ⟨[], [], [], [], by simp [Text.IsBlanks]⟩ }
    exact hsays (.header htext)
  · exact ⟨_, fun _ _ hline => .flag hline⟩
  · obtain rfl : i = .flag .quiet := by
      revert hquiet
      cases a.quiet <;> simp
    exact ⟨_, fun _ _ hline => .flag hline⟩

/-- There is a way to write them. -/
theorem exists_written {a : Arguments} (h : a.Writable) : ∃ arguments, a.Written arguments := by
  have hline : ∀ items : List Item, (∀ i ∈ items, i ∈ a.given) →
      ∃ arguments, Line (items ++ [.library a.library]) arguments := by
    intro items hitems
    induction items with
    | nil => exact ⟨_, .escaped a.library⟩
    | cons i items ih =>
      obtain ⟨arguments, hrest⟩ := ih fun j hj => hitems j (List.mem_cons_of_mem _ hj)
      obtain ⟨s, hi⟩ := h.exists_line (hitems i List.mem_cons_self)
      exact ⟨s :: arguments, hi _ _ hrest⟩
  obtain ⟨arguments, harguments⟩ := hline a.given fun _ hi => hi
  exact ⟨arguments, a.items, harguments, List.Perm.refl _, a.filterMap_header?_items⟩

end Arguments

end LibraryRegistry.Program.LookUp
