import Mathlib.Data.List.Induction
import LibraryRegistry.Proofs.Checks
import LibraryRegistry.Proofs.Options

/-!
# Options in layers

Options texts are laid over each other; those that cannot be read are passed over. Of the others the
last one that sets an option counts, for each option by itself, so it does not matter in which groups
they are merged.

* `merge_assoc`, `empty_merge` — merging is associative, and empty options change nothing
* `Merges` — options merged in groups of any kind
* `layered_options` — what layers come to, and what configuration is made of it
-/

namespace LibraryRegistry.Options

variable {o o' o'' : Options} {os os' : List Options}

/-! ## Merging -/

/-- Merging may be grouped in any way. -/
theorem merge_assoc (o o' o'' : Options) : (o.merge o').merge o'' = o.merge (o'.merge o'') := by
  have horElse {α : Type} (a b c : Option α) : (c <|> b <|> a) = ((c <|> b) <|> a) := by
    cases c <;> rfl
  ext1
  · exact horElse _ _ _
  · exact horElse _ _ _
  · exact horElse _ _ _
  · exact horElse _ _ _

theorem empty_merge (o : Options) : ({} : Options).merge o = o := by
  have hnone {α : Type} (a : Option α) : (a <|> none) = a := by
    cases a <;> rfl
  ext1
  · exact hnone _
  · exact hnone _
  · exact hnone _
  · exact hnone _

theorem merge_empty (o : Options) : o.merge {} = o := rfl

/-- Options may be merged with those behind them one by one or all at once. -/
theorem merge_foldl (o o' : Options) : ∀ os : List Options,
    o.merge (os.foldl merge o') = os.foldl merge (o.merge o')
  | [] => rfl
  | o'' :: os => by rw [List.foldl_cons, List.foldl_cons, merge_foldl, merge_assoc]

/-- Options in their order, merged in groups of any kind. -/
inductive Merges : List Options → Options → Prop
  | single {o : Options} : Merges [o] o
  | group {os os' : List Options} {o o' : Options} : Merges os o → Merges os' o' →
      Merges (os ++ os') (o.merge o')

/-- **All groupings come to the same options**, those merged from the left. -/
theorem Merges.eq_foldl (h : Merges os o) : o = os.foldl merge {} := by
  induction h with
  | single => exact (empty_merge _).symm
  | @group os os' o o' _ _ ih ih' =>
    rw [List.foldl_append, ← ih, ih', merge_foldl, merge_empty]

/-! ## Single options -/

/-- The last of the values that are set. -/
def lastSet {α : Type} (value : Options → Option α) (os : List Options) : Option α :=
  (os.filterMap value).getLast?

/-- An option for which merged options have the value of those laid over, if they have one. -/
def Overridden {α : Type} (value : Options → Option α) : Prop :=
  value {} = none ∧ ∀ o other : Options, value (o.merge other) = (value other <|> value o)

theorem overridden_host : Overridden host := ⟨rfl, fun _ _ => rfl⟩

theorem overridden_port : Overridden port := ⟨rfl, fun _ _ => rfl⟩

theorem overridden_timeout : Overridden timeout := ⟨rfl, fun _ _ => rfl⟩

theorem overridden_connectTimeout : Overridden connectTimeout := ⟨rfl, fun _ _ => rfl⟩

/-- **The last options that set an option decide on it.** -/
theorem value_foldl_merge {α : Type} {value : Options → Option α} (h : Overridden value)
    (os : List Options) : value (os.foldl merge {}) = lastSet value os := by
  induction os using List.reverseRecOn with
  | nil => exact h.1
  | append_singleton os o ih =>
    rw [List.foldl_append, List.foldl_cons, List.foldl_nil, h.2, ih, lastSet, lastSet,
      List.filterMap_append]
    cases ho : value o with
    | none => simp [ho]
    | some a => simp [ho]

/-! ## Layers -/

/-- The layers that can be read. -/
def readable (texts : List String) : List Options :=
  texts.filterMap fun text => (ofJson text).toOption

/-- Layers that cannot be read are passed over. -/
theorem layerAll_eq (texts : List String) (o : Options) :
    o.layerAll texts = (readable texts).foldl merge o := by
  induction texts generalizing o with
  | nil => rfl
  | cons text texts ih =>
    show (o.layer text).layerAll texts = _
    rw [ih, layer, readable, readable, List.filterMap_cons]
    cases ofJson text <;> rfl

open Config Check

/-- **Options in layers.** For each option the last layer counts that can be read and sets it, and the
layers may be merged in groups of any kind. What configuration is made of options is decided by eight
checks: the first that finds something names the fault, and if none does, the configuration has the
values of the options, or the usual deadlines. -/
theorem layered_options :
    (∀ texts : List String,
      (({} : Options).layerAll texts).host = lastSet host (readable texts) ∧
      (({} : Options).layerAll texts).port = lastSet port (readable texts) ∧
      (({} : Options).layerAll texts).timeout = lastSet timeout (readable texts) ∧
      (({} : Options).layerAll texts).connectTimeout = lastSet connectTimeout (readable texts) ∧
      ∀ o, Merges ({} :: readable texts) o → o = ({} : Options).layerAll texts) ∧
    (∀ (o : Options) (fault : ConfigFault), ofOptions o = .error fault ↔ FindsFirst o fault) ∧
    (∀ o : Options, (∀ check, Clear o check) →
      ∃ c, ofOptions o = .ok c ∧ c.HasValues o ∧ c.headers = []) := by
  refine ⟨fun texts => ?_, fun o fault => ofOptions_eq_error_iff,
    fun o h => exists_config_of_clear h⟩
  rw [layerAll_eq]
  refine ⟨value_foldl_merge overridden_host _, value_foldl_merge overridden_port _,
    value_foldl_merge overridden_timeout _, value_foldl_merge overridden_connectTimeout _, ?_⟩
  intro o h
  rw [h.eq_foldl, List.foldl_cons, empty_merge]

/-- Options with a port that cannot be one. -/
def lowerLayer : Options := { host := some "a", port := some 0, timeout := some 7 }

/-- Options that set the port alone. -/
def upperLayer : Options := { port := some 8080 }

/-- What comes of them. -/
def bothLayers : Options := { host := some "a", port := some 8080, timeout := some 7 }

theorem readable_cons_text (o : Options) (texts : List String) :
    readable (o.text :: texts) = o :: readable texts :=
  List.filterMap_cons_some (by rw [ofJson, parse_text]; rfl)

/-- What is wrong with the lower layer is overridden by the upper one. -/
theorem clear_bothLayers (check : Check) : Clear bothLayers check := by
  intro fault h
  cases h with
  | host hnone => cases hnone
  | port hnone => cases hnone
  | portRange hn hrange =>
    cases hn
    exact hrange (by decide)
  | blankHost hhost hblank =>
    cases hhost
    exact absurd (hblank 'a' (by decide)) (by decide)
  | zeroPort hzero => exact absurd hzero (by decide)
  | @address _ _ port hhost hn hp hno =>
    cases hhost
    cases hn
    have hport : port.toNat = 8080 := (Int.ofNat.inj hp).symm
    obtain rfl : port = 8080 := UInt16.toNat_inj.1 hport
    exact hno (isAddress_iff.1 (by decide +kernel))
  | timeout hzero => exact absurd hzero (by decide)
  | connectTimeout hnone => cases hnone

theorem layered_options_sample :
    Merges [{}, lowerLayer, upperLayer] (({} : Options).merge (lowerLayer.merge upperLayer)) ∧
    ({} : Options).merge (lowerLayer.merge upperLayer) =
      ({} : Options).layerAll [lowerLayer.text, "", upperLayer.text] ∧
    (({} : Options).layerAll [lowerLayer.text, "", upperLayer.text]).port = some 8080 ∧
    ofOptions upperLayer = .error .missingHost ∧
    ∃ c, ofOptions bothLayers = .ok c ∧ c.HasValues bothLayers ∧ c.headers = [] := by
  have hreadable : readable [lowerLayer.text, "", upperLayer.text] = [lowerLayer, upperLayer] := by
    rw [readable_cons_text]
    exact congrArg _ (readable_cons_text upperLayer [])
  have hmerges : Merges [{}, lowerLayer, upperLayer]
      (({} : Options).merge (lowerLayer.merge upperLayer)) :=
    .group .single (.group .single .single)
  have hfirst : FindsFirst upperLayer .missingHost :=
    ⟨.host, .host rfl, fun earlier hbefore => absurd hbefore (by cases earlier <;> decide)⟩
  obtain ⟨hlayers, hfault, hconfig⟩ := layered_options
  obtain ⟨-, hport, -, -, hgrouped⟩ := hlayers [lowerLayer.text, "", upperLayer.text]
  refine ⟨hmerges, hgrouped _ (hreadable ▸ hmerges), ?_, (hfault _ _).2 hfirst,
    hconfig _ clear_bothLayers⟩
  rw [hport, hreadable]
  rfl

end LibraryRegistry.Options
