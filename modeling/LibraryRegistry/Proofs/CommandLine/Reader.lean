import LibraryRegistry.CommandLine.Reader
import LibraryRegistry.Proofs.Text.Prefix

/-!
# Reading groups of arguments

An option with its value is looked at when the next argument has its turn, so what has been taken in
lags behind what has come. `Ready p q` says that `q` is what `p` comes to once the pending option
has been looked at; `Takes c q arguments q'` says what a group of arguments does between two such
points, whatever was pending before it. Groups follow each other (`Takes.append`), so arguments are
read group by group.

There is one law for each way to write an option or argument:

* `takes_attached`, `takes_apart` — `--name=value` and `--name value`
* `takes_short_attached`, `takes_short_apart` — `-n=value` and `-n value`
* `takes_flag`, `takes_cluster` — `--name` and `-nnn` without values
* `takes_positional`, `ends_escaped` — an argument without a name, and one behind `--`
* `read_of_ends`, `read_of_fault` — the whole command
-/

namespace LibraryRegistry.CommandLine

variable {σ : Type} {c : Command σ}

/-! ## Forms of arguments -/

theorem splitAtFirst_append {d : Char} {cs rest : List Char} (h : d ∉ cs) :
    splitAtFirst d (cs ++ d :: rest) = (cs, some rest) := by
  have hcs : ∀ e ∈ cs, decide (e ≠ d) = true := by
    intro e he
    simpa using fun heq : e = d => h (heq ▸ he)
  have hstop : Text.Stops (fun e => decide (e ≠ d)) (d :: rest) := Text.stops_cons.2 (by simp)
  unfold splitAtFirst
  rw [Text.dropWhile_of_stops hcs hstop, Text.takeWhile_of_stops hcs hstop]

theorem splitAtFirst_of_not_mem {d : Char} {cs : List Char} (h : d ∉ cs) :
    splitAtFirst d cs = (cs, none) := by
  have hcs : ∀ e ∈ cs, decide (e ≠ d) = true := by
    intro e he
    simpa using fun heq : e = d => h (heq ▸ he)
  have hdrop : cs.dropWhile (fun e => decide (e ≠ d)) = [] := by
    have := Text.dropWhile_of_stops hcs Text.stops_nil
    rwa [List.append_nil] at this
  unfold splitAtFirst
  rw [hdrop]

/-- A text that is no option: it does not begin with a dash. -/
def IsPlain (a : String) : Prop := a.toList.head? ≠ some '-'

instance (a : String) : Decidable (IsPlain a) := inferInstanceAs (Decidable (_ ≠ _))

theorem Form.ofArgument_of_isPlain {a : String} (h : IsPlain a) :
    Form.ofArgument a.toList = .plain := by
  unfold IsPlain at h
  unfold Form.ofArgument
  split
  · next heq => simp [heq] at h
  · next heq => simp [heq] at h
  · rfl

/-- The command has this option under a long name. -/
structure Command.HasLong (c : Command σ) (name : String) (o : Parameter σ) : Prop where
  find : c.parameters.find? (·.long.toList == name.toList) = some o
  equals_not_mem : '=' ∉ name.toList
  ne_empty : name ≠ ""

/-- Options are told apart by their long names, and none of these is empty or has an equals sign in
it. -/
structure Command.WellNamed (c : Command σ) : Prop where
  nodup : (c.parameters.map (·.long)).Nodup
  equals_not_mem : ∀ o ∈ c.parameters, '=' ∉ o.long.toList
  ne_empty : ∀ o ∈ c.parameters, o.long ≠ ""

theorem Command.WellNamed.hasLong (h : c.WellNamed) {o : Parameter σ} (ho : o ∈ c.parameters) :
    c.HasLong o.long o := by
  refine ⟨?_, h.equals_not_mem o ho, h.ne_empty o ho⟩
  obtain ⟨front, back, hsplit⟩ := List.append_of_mem ho
  have hnodup := h.nodup
  rw [hsplit, List.map_append, List.map_cons, List.nodup_append] at hnodup
  obtain ⟨-, -, hne⟩ := hnodup
  rw [hsplit, List.find?_append, List.find?_eq_none.2]
  · simp
  · intro o' ho' heq
    have hlong : o'.long = o.long := by simpa [String.toList_inj] using heq
    exact hne o'.long (List.mem_map_of_mem ho') o.long List.mem_cons_self hlong

/-- The command has this option under a short name. -/
structure Command.HasShort (c : Command σ) (name : Char) (o : Parameter σ) : Prop where
  find : c.parameters.find? (·.short == some name) = some o
  ne_dash : name ≠ '-'

namespace Progress

variable {p q q' q'' : Progress σ} {o : Parameter σ} {arguments arguments' : List String}
  {a v name : String} {n : Char}

/-! ## What is pending -/

/-- Nothing is left to be looked at, and options may follow. -/
structure Settled (q : Progress σ) : Prop where
  pending : q.pending = none
  escaped : q.escaped = false

/-- With the pending option looked at it is `q`, and that option does not wait for a value. -/
structure Ready (p q : Progress σ) : Prop where
  settle : p.settle = .ok q
  not_waiting : ∀ o, p.pending ≠ some (o, none)
  escaped : p.escaped = false

theorem exists_change_of_changeBy {f : σ → String → Except ValueFault σ} {value : Option String}
    (h : q.changeBy o f value = .ok q') : ∃ settings, q' = q.change o.long settings := by
  unfold changeBy at h
  split at h
  · cases h
  · split at h
    · next settings _ =>
      cases h
      exact ⟨settings, rfl⟩
    · cases h
    · cases h

/-- An option changes the settings, and its name is noted. -/
theorem exists_change_of_occur {value : Option String} (h : q.occur o value = .ok q') :
    ∃ settings, q' = q.change o.long settings := by
  unfold occur at h
  cases haction : o.action with
  | help =>
    simp only [haction] at h
    cases h
  | version =>
    simp only [haction] at h
    cases h
  | count f =>
    simp only [haction] at h
    cases h
    exact ⟨_, rfl⟩
  | switch f =>
    simp only [haction] at h
    split at h
    · cases h
    · cases h
      exact ⟨_, rfl⟩
  | store f =>
    simp only [haction] at h
    split at h
    · cases h
    · exact exists_change_of_changeBy h
  | append f =>
    simp only [haction] at h
    exact exists_change_of_changeBy h

theorem Settled.change (h : q.Settled) (name : String) (settings : σ) :
    (q.change name settings).Settled :=
  ⟨h.pending, h.escaped⟩

theorem Settled.occur (h : q.Settled) {value : Option String} (ho : q.occur o value = .ok q') :
    q'.Settled := by
  obtain ⟨settings, rfl⟩ := exists_change_of_occur ho
  exact h.change _ _

/-- Where no option waits for its value, the next argument may be anything. -/
theorem Settled.ready (h : q.Settled) : q.Ready q where
  settle := by rw [settle, h.pending]
  not_waiting := by simp [h.pending]
  escaped := h.escaped

theorem Ready.settled (h : p.Ready q) : q.Settled := by
  have hsettle := h.settle
  unfold Progress.settle at hsettle
  split at hsettle
  · next hpending =>
    cases hsettle
    exact ⟨hpending, h.escaped⟩
  · have hnone : ({ p with pending := none } : Progress σ).Settled := ⟨rfl, h.escaped⟩
    exact hnone.occur hsettle

/-- Names that have been noted stay. -/
theorem mem_given_of_settle (h : p.settle = .ok q) {name : String} (hname : name ∈ p.given) :
    name ∈ q.given := by
  unfold settle at h
  split at h
  · cases h
    exact hname
  · obtain ⟨settings, rfl⟩ := exists_change_of_occur h
    exact List.mem_cons_of_mem _ hname

theorem Ready.next (h : p.Ready q) (o : Parameter σ) (value : Option String) :
    p.next o value = q.occur o value := by
  rw [Progress.next, h.settle]
  rfl

theorem Ready.await (h : p.Ready q) (o : Parameter σ) :
    p.await o = .ok { q with pending := some (o, none) } := by
  rw [Progress.await, h.settle]
  rfl

/-- An option that has come with its value is looked at as if nothing had been pending. -/
theorem Settled.ready_pending (h : q.Settled) (ho : q.occur o (some v) = .ok q') :
    ({ q with pending := some (o, some v) } : Progress σ).Ready q' where
  settle := by
    have hq : { q with pending := none } = q := by rw [← h.pending]
    rw [Progress.settle]
    show ({ q with pending := none } : Progress σ).occur o (some v) = .ok q'
    rw [hq, ho]
  not_waiting := by simp
  escaped := h.escaped

/-! ## Single arguments -/

/-- Two dashes alone are no option: a name follows them. -/
theorem take_long {s : String} (h : p.Ready q) (hs : s ≠ "") :
    p.take c ("--" ++ s) =
      p.takeLong c (splitAtFirst '=' s.toList).1 (splitAtFirst '=' s.toList).2 := by
  have hne : "--" ++ s ≠ "--" := by
    intro heq
    have hlist := congrArg String.toList heq
    rw [String.toList_append] at hlist
    exact hs (String.toList_eq_nil_iff.1 (List.append_right_eq_self.1 hlist))
  have hform : Form.ofArgument ("--" ++ s).toList =
      .long (splitAtFirst '=' s.toList).1 (splitAtFirst '=' s.toList).2 := by
    rw [String.toList_append]
    rfl
  rw [take, if_neg (by rw [h.escaped]; exact Bool.false_ne_true), if_neg hne, hform]

theorem take_short {names : List Char} (h : p.Ready q) (hn : n ≠ '-') :
    p.take c ("-" ++ String.ofList (n :: names)) = p.takeShort c (n :: names) := by
  have hlist : ("-" ++ String.ofList (n :: names)).toList = '-' :: n :: names := by
    simp [String.toList_append]
  have hne : "-" ++ String.ofList (n :: names) ≠ "--" := by
    intro heq
    have hcons := congrArg String.toList heq
    rw [hlist] at hcons
    exact hn (List.cons.inj (List.cons.inj hcons).2).1
  have hform : Form.ofArgument ('-' :: n :: names) = .short (n :: names) := by
    unfold Form.ofArgument
    split
    · next heq => exact absurd (List.cons.inj (List.cons.inj heq).2).1 hn
    · next heq => rw [(List.cons.inj heq).2]
    · next hlast => exact absurd rfl (hlast n names)
  rw [take, if_neg (by rw [h.escaped]; exact Bool.false_ne_true), if_neg hne, hlist, hform]

theorem take_plain (hescaped : p.escaped = false) (ha : IsPlain a) :
    p.take c a = p.takePlain c a := by
  have hne : a ≠ "--" := by
    rintro rfl
    exact ha (by decide)
  rw [take, if_neg (by rw [hescaped]; exact Bool.false_ne_true), if_neg hne,
    Form.ofArgument_of_isPlain ha]

/-! ## Groups of arguments -/

/-- What these arguments come to from `q` on is `q'`. -/
def Takes (c : Command σ) (q : Progress σ) (arguments : List String) (q' : Progress σ) : Prop :=
  ∀ p : Progress σ, p.Ready q → ∃ p', arguments.foldlM (take c) p = .ok p' ∧ p'.Ready q'

/-- What these arguments come to from `q` on is `q'`, and nothing follows them. -/
def Ends (c : Command σ) (q : Progress σ) (arguments : List String) (q' : Progress σ) : Prop :=
  ∀ p : Progress σ, p.Ready q → ∃ p', arguments.foldlM (take c) p = .ok p' ∧ p'.settle = .ok q'

theorem takes_nil : Takes c q [] q := fun p hp => ⟨p, rfl, hp⟩

theorem Takes.ends (h : Takes c q arguments q') : Ends c q arguments q' := by
  intro p hp
  obtain ⟨p', hfold, hp'⟩ := h p hp
  exact ⟨p', hfold, hp'.settle⟩

theorem Takes.append (h : Takes c q arguments q') (h' : Ends c q' arguments' q'') :
    Ends c q (arguments ++ arguments') q'' := by
  intro p hp
  obtain ⟨p', hfold, hp'⟩ := h p hp
  obtain ⟨p'', hfold', hp''⟩ := h' p' hp'
  refine ⟨p'', ?_, hp''⟩
  rw [List.foldlM_append, hfold]
  exact hfold'

/-- Groups of arguments may be taken one behind the other. -/
theorem Takes.trans (h : Takes c q arguments q') (h' : Takes c q' arguments' q'') :
    Takes c q (arguments ++ arguments') q'' := by
  intro p hp
  obtain ⟨p', hfold, hp'⟩ := h p hp
  obtain ⟨p'', hfold', hp''⟩ := h' p' hp'
  refine ⟨p'', ?_, hp''⟩
  rw [List.foldlM_append, hfold]
  exact hfold'

/-- One argument that leaves nothing to be looked at. -/
theorem takes_singleton (h : ∀ p : Progress σ, p.Ready q → p.take c a = .ok q')
    (hq' : q.Settled → q'.Settled) : Takes c q [a] q' := by
  intro p hp
  refine ⟨q', ?_, (hq' hp.settled).ready⟩
  rw [List.foldlM_cons, h p hp]
  rfl

/-- One argument that leaves an option waiting, and the value of that option. -/
theorem takes_value (h : ∀ p : Progress σ, p.Ready q →
      p.take c a = .ok { q with pending := some (o, none) })
    (hv : IsPlain v) (ho : q.occur o (some v) = .ok q') : Takes c q [a, v] q' := by
  intro p hp
  have hq : q.Settled := hp.settled
  have hvalue : take c { q with pending := some (o, none) } v =
      .ok { q with pending := some (o, some v) } := take_plain hq.escaped hv
  refine ⟨_, ?_, hq.ready_pending ho⟩
  rw [List.foldlM_cons, h p hp]
  show [v].foldlM (take c) { q with pending := some (o, none) } = _
  rw [List.foldlM_cons, hvalue]
  rfl

/-! ### Options with values -/

/-- A value that is attached to its option is looked at at once. -/
theorem take_attached (hc : c.HasLong name o) (htakes : o.action.takesValue = true) (hp : p.Ready q)
    (v : String) : p.take c ("--" ++ name ++ "=" ++ v) = q.occur o (some v) := by
  have hlist : (name ++ "=" ++ v).toList = name.toList ++ '=' :: v.toList := by
    simp [String.toList_append]
  have hne : name ++ "=" ++ v ≠ "" := by
    intro heq
    have hnil := congrArg String.toList heq
    rw [hlist] at hnil
    simp at hnil
  have htext : "--" ++ name ++ "=" ++ v = "--" ++ (name ++ "=" ++ v) := by
    simp only [String.append_assoc]
  rw [htext, take_long hp hne, hlist, splitAtFirst_append hc.equals_not_mem, takeLong, hc.find]
  simp only [htakes, if_true]
  rw [attach, hp.next, String.ofList_toList]

theorem takes_attached (hc : c.HasLong name o) (htakes : o.action.takesValue = true)
    (ho : q.occur o (some v) = .ok q') : Takes c q ["--" ++ name ++ "=" ++ v] q' :=
  takes_singleton (fun _ hp => (take_attached hc htakes hp v).trans ho) fun hq => hq.occur ho

theorem takes_apart (hc : c.HasLong name o) (htakes : o.action.takesValue = true) (hv : IsPlain v)
    (ho : q.occur o (some v) = .ok q') : Takes c q ["--" ++ name, v] q' := by
  refine takes_value (fun p hp => ?_) hv ho
  rw [take_long hp hc.ne_empty, splitAtFirst_of_not_mem hc.equals_not_mem, takeLong, hc.find]
  simp only [htakes, if_true]
  rw [attach, hp.await]

theorem takes_short_attached (hc : c.HasShort n o) (htakes : o.action.takesValue = true)
    (ho : q.occur o (some v) = .ok q') :
    Takes c q ["-" ++ String.ofList [n] ++ "=" ++ v] q' := by
  refine takes_singleton (fun p hp => ?_) fun hq => hq.occur ho
  have htext : "-" ++ String.ofList [n] ++ "=" ++ v =
      "-" ++ String.ofList (n :: '=' :: v.toList) := by
    rw [← String.toList_inj]
    simp
  rw [htext, take_short hp hc.ne_dash, takeShort, hc.find]
  simp only [htakes, if_true]
  rw [attachedValue, attach, hp.next, String.ofList_toList, ho]

theorem takes_short_apart (hc : c.HasShort n o) (htakes : o.action.takesValue = true)
    (hv : IsPlain v) (ho : q.occur o (some v) = .ok q') :
    Takes c q ["-" ++ String.ofList [n], v] q' := by
  refine takes_value (fun p hp => ?_) hv ho
  rw [take_short hp hc.ne_dash, takeShort, hc.find]
  simp only [htakes, if_true]
  rw [attachedValue, attach, hp.await]

/-! ### Options without values -/

theorem takes_flag (hc : c.HasLong name o) (htakes : o.action.takesValue = false)
    (ho : q.occur o none = .ok q') : Takes c q ["--" ++ name] q' := by
  refine takes_singleton (fun p hp => ?_) fun hq => hq.occur ho
  rw [take_long hp hc.ne_empty, splitAtFirst_of_not_mem hc.equals_not_mem, takeLong, hc.find]
  simp only [htakes, Bool.false_eq_true, if_false, Option.isSome_none]
  rw [hp.next, ho]

/-- Short names of options without values, one behind the other. -/
inductive Cluster (c : Command σ) : Progress σ → List Char → Progress σ → Prop
  | nil (q : Progress σ) : Cluster c q [] q
  | cons {q q' q'' : Progress σ} {n : Char} {o : Parameter σ} {names : List Char}
      (has : c.HasShort n o) (alone : o.action.takesValue = false)
      (occurs : q.occur o none = .ok q') (rest : Cluster c q' names q'') :
      Cluster c q (n :: names) q''

theorem Cluster.settled {names : List Char} (h : Cluster c q names q') (hq : q.Settled) :
    q'.Settled := by
  induction h with
  | nil => exact hq
  | cons _ _ occurs _ ih => exact ih (hq.occur occurs)

/-- Only what was pending before the cluster is looked at late. -/
theorem Cluster.takeShort {names : List Char} (h : Cluster c q names q') (hne : names ≠ [])
    (hp : p.Ready q) : p.takeShort c names = .ok q' := by
  induction h generalizing p with
  | nil => exact absurd rfl hne
  | @cons q q' q'' n o names has alone occurs rest ih =>
    rw [Progress.takeShort, has.find]
    simp only [alone, Bool.false_eq_true, if_false]
    rw [hp.next, occurs]
    cases rest with
    | nil => rfl
    | cons => exact ih (List.cons_ne_nil _ _) (hp.settled.occur occurs).ready

/-- Short options without values may stand behind one dash. -/
theorem takes_cluster {names : List Char} (h : Cluster c q names q') (hne : names ≠ []) :
    Takes c q ["-" ++ String.ofList names] q' := by
  refine takes_singleton (fun p hp => ?_) h.settled
  rw [← h.takeShort hne hp]
  cases h with
  | nil => exact absurd rfl hne
  | cons has => exact take_short hp has.ne_dash

/-! ### Arguments without names -/

theorem takePositional_of_settle {positional : Positional σ} (h : p.settle = .ok q)
    (hc : c.positional = some positional) (hnew : positional.name ∉ q.given) (a : String) :
    p.takePositional c a =
      .ok (q.change positional.name (positional.change q.settings a)) := by
  have hfree : p.given.contains positional.name = false := by
    simpa using fun hmem => hnew (mem_given_of_settle h hmem)
  rw [takePositional, hc]
  simp only [hfree, Bool.false_eq_true, if_false]
  rw [h]
  rfl

/-- The argument without a name may stand anywhere between options, once. -/
theorem takes_positional {positional : Positional σ} (hc : c.positional = some positional)
    (hnew : positional.name ∉ q.given) (ha : IsPlain a) :
    Takes c q [a] (q.change positional.name (positional.change q.settings a)) := by
  refine takes_singleton (fun p hp => ?_) fun hq => hq.change _ _
  rw [take_plain hp.escaped ha, ← takePositional_of_settle hp.settle hc hnew a]
  unfold takePlain
  split
  · next o hpending => exact absurd hpending (hp.not_waiting o)
  · rfl

theorem changeBy_escaped (q : Progress σ) (o : Parameter σ) (f : σ → String → Except ValueFault σ)
    (value : Option String) (e : Bool) :
    ({ q with escaped := e } : Progress σ).changeBy o f value =
      (q.changeBy o f value).map fun r => { r with escaped := e } := by
  cases value with
  | none => rfl
  | some v =>
    cases hf : f q.settings v with
    | ok settings => simp only [changeBy, hf, change, Except.map]
    | error fault => cases fault <;> simp only [changeBy, hf, Except.map]

/-- Options do the same in front of two dashes and behind them. -/
theorem occur_escaped (q : Progress σ) (o : Parameter σ) (value : Option String) (e : Bool) :
    ({ q with escaped := e } : Progress σ).occur o value =
      (q.occur o value).map fun r => { r with escaped := e } := by
  unfold occur
  cases o.action with
  | help => rfl
  | version => rfl
  | count f => rfl
  | switch f =>
    simp only []
    split <;> rfl
  | store f =>
    simp only []
    split
    · rfl
    · exact changeBy_escaped q o f value e
  | append f => exact changeBy_escaped q o f value e

theorem settle_escaped (h : p.settle = .ok q) (e : Bool) :
    ({ p with escaped := e } : Progress σ).settle = .ok { q with escaped := e } := by
  unfold settle at h ⊢
  split at h
  · next hpending =>
    cases h
    simp only [hpending]
  · next o value hpending =>
    simp only [hpending]
    rw [occur_escaped { p with pending := none }, h]
    rfl

/-- Behind two dashes every text is an argument. -/
theorem ends_escaped {positional : Positional σ} (hc : c.positional = some positional)
    (hnew : positional.name ∉ q.given) (a : String) :
    Ends c q ["--", a]
      { q.change positional.name (positional.change q.settings a) with escaped := true } := by
  intro p hp
  have hdashes : p.take c "--" = .ok { p with escaped := true } := by
    rw [take, if_neg (by rw [hp.escaped]; exact Bool.false_ne_true), if_pos rfl]
  have hlast : ({ p with escaped := true } : Progress σ).take c a =
      .ok { q.change positional.name (positional.change q.settings a) with escaped := true } := by
    rw [take, if_pos rfl, takePositional_of_settle (settle_escaped hp.settle true) hc hnew]
    rfl
  refine ⟨_, ?_, settle_escaped (hp.settled.change _ _).ready.settle true⟩
  rw [List.foldlM_cons, hdashes]
  show [a].foldlM (take c) { p with escaped := true } = _
  rw [List.foldlM_cons, hlast]
  rfl

/-! ## The command -/

/-- What the groups of arguments come to is what the command reads. -/
theorem read_of_ends {settings : σ} (h : Ends c { settings } arguments q)
    (hrequired : ∀ name ∈ c.required, name ∈ q.given) :
    c.read settings arguments = .ok q.settings := by
  have hstart : ({ settings } : Progress σ).Settled := ⟨rfl, rfl⟩
  obtain ⟨p, hfold, hsettle⟩ := h _ hstart.ready
  have hall : c.required.all q.given.contains = true := by
    simpa using hrequired
  rw [Command.read, hfold]
  show (p.settle >>= fun p => if c.required.all p.given.contains then .ok p.settings
    else .error .missingArgument) = _
  rw [hsettle]
  exact if_pos hall

/-- A fault of an argument is all that comes of the command, whatever follows that argument. -/
theorem read_of_fault {settings : σ} {fault : Fault} (h : Takes c { settings } arguments q)
    (ha : ∀ p : Progress σ, p.Ready q → p.take c a = .error fault) (arguments' : List String) :
    c.read settings (arguments ++ a :: arguments') = .error fault := by
  have hstart : ({ settings } : Progress σ).Settled := ⟨rfl, rfl⟩
  obtain ⟨p, hfold, hp⟩ := h _ hstart.ready
  rw [Command.read, List.foldlM_append, hfold]
  show ((a :: arguments').foldlM (take c) p >>= _) = _
  rw [List.foldlM_cons, ha p hp]
  rfl

end Progress

end LibraryRegistry.CommandLine
