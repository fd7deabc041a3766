import LibraryRegistry.Options
import LibraryRegistry.Proofs.Json.Layout
import LibraryRegistry.Proofs.Json.Number

/-!
# Laws of options

What other options set counts, option by option, so it does not matter which of two sources says a
thing, as long as the one that counts says it. All options can be written down.

* `merge_keep_keep` — options may move from the source that counts more to the one that counts less
* `keep_merge` — what is set over is not looked at
* `parse_text` — written options are read back
-/

namespace LibraryRegistry.Options

/-! ## Choices of options -/

/-- The four options. -/
inductive Name
  | host
  | port
  | timeout
  | connectTimeout
  deriving DecidableEq, Repr

/-- The option is set. -/
def Sets (o : Options) : Name → Prop
  | .host => o.host.isSome
  | .port => o.port.isSome
  | .timeout => o.timeout.isSome
  | .connectTimeout => o.connectTimeout.isSome

/-- The chosen options, without the others. -/
def keep (chosen : Name → Bool) (o : Options) : Options where
  host := if chosen .host then o.host else none
  port := if chosen .port then o.port else none
  timeout := if chosen .timeout then o.timeout else none
  connectTimeout := if chosen .connectTimeout then o.connectTimeout else none

section Merge

variable {α : Type}

/-- A value may move to the source that is laid under it. -/
theorem orElse_keep_keep (chosen : Bool) (upper lower : Option α) :
    ((if !chosen then upper else none) <|> ((if chosen then upper else none) <|> lower))
      = (upper <|> lower) := by
  cases chosen with
  | false => rfl
  | true => cases upper <;> rfl

/-- A value that is laid over does not matter. -/
theorem orElse_keep {kept : Bool} {upper lower : Option α} (h : kept = false → upper.isSome) :
    (upper <|> if kept then lower else none) = (upper <|> lower) := by
  cases kept with
  | true => rfl
  | false =>
    obtain ⟨value, rfl⟩ := Option.isSome_iff_exists.1 (h rfl)
    rfl

variable {o other : Options}

/-- **Options may move to the source that counts less.** -/
theorem merge_keep_keep (chosen : Name → Bool) (o other : Options) :
    (o.merge (other.keep chosen)).merge (other.keep fun name => !chosen name) = o.merge other := by
  ext1
  · exact orElse_keep_keep (chosen .host) other.host o.host
  · exact orElse_keep_keep (chosen .port) other.port o.port
  · exact orElse_keep_keep (chosen .timeout) other.timeout o.timeout
  · exact orElse_keep_keep (chosen .connectTimeout) other.connectTimeout o.connectTimeout

/-- **Options that are set over may go.** -/
theorem keep_merge {kept : Name → Bool} (h : ∀ name, kept name = false → other.Sets name) :
    (o.keep kept).merge other = o.merge other := by
  ext1
  · exact orElse_keep (h .host)
  · exact orElse_keep (h .port)
  · exact orElse_keep (h .timeout)
  · exact orElse_keep (h .connectTimeout)

end Merge

/-! ## Written options -/

open Json

section Nullable

variable {α : Type}

/-- A value, or `null`. -/
def nullable (lay : α → Layout) : Option α → Layout
  | none => fun _ => ['n', 'u', 'l', 'l']
  | some a => lay a

/-- The layout begins with neither a blank nor the beginning of `null`. -/
def Begins (l : Layout) : Prop :=
  ∀ level, ∃ c cs, l level = c :: cs ∧ isBlank c = false ∧ c ≠ 'n'

theorem readsLayout_nullable {r : Reader α} {lay : α → Layout} (hbegins : ∀ a, Begins (lay a))
    (h : ∀ a, r.ReadsLayout (lay a) a) (o : Option α) :
    (Reader.optional r).ReadsLayout (nullable lay o) o := by
  intro level b hb
  cases o with
  | none => exact Reader.reads_null hb
  | some a =>
    obtain ⟨c, cs, hcs, hblank, hword⟩ := hbegins a level
    have hread := h a level [] isBlanks_nil
    rw [List.nil_append, hcs] at hread
    rw [nullable, hcs]
    exact Reader.reads_optional hb hblank hword hread

/-- A whole number. -/
def number (n : Int) : Layout := fun _ => (toString n).toList

theorem begins_number (n : Int) : Begins (number n) := by
  intro _
  obtain ⟨c, cs, hcs, hc⟩ := Text.exists_cons_toString n
  obtain ⟨hblank, hword, -⟩ := number_head hc
  exact ⟨c, cs, hcs, hblank, hword⟩

theorem begins_text (s : String) : Begins (Layout.text s) :=
  fun _ => ⟨'"', _, rfl, rfl, by decide⟩

end Nullable

/-- The layout of options. -/
def layout (o : Options) : Layout :=
  .object [("host", nullable .text o.host),
    ("port", nullable (fun port : Int64 => number port.toInt) o.port),
    ("timeout_ms", nullable (fun ms : UInt64 => number ms.toNat) o.timeout),
    ("connect_timeout_ms", nullable (fun ms : UInt64 => number ms.toNat) o.connectTimeout)]

/-- The text of options. -/
def text (o : Options) : String := String.ofList (o.layout 0)

theorem readsLayout (o : Options) : (shape.reader {}).ReadsLayout o.layout o := by
  have hhost := readsLayout_nullable begins_text Reader.readsLayout_text o.host
  have hport := readsLayout_nullable (fun port : Int64 => begins_number port.toInt)
    (fun port _ _ hb => Reader.reads_int64 port hb) o.port
  have hmillis := readsLayout_nullable (fun ms : UInt64 => begins_number ms.toNat)
    (fun ms _ _ hb => Reader.reads_uint64 ms hb)
  refine Shape.readsLayout_object fun level =>
    ⟨["connect_timeout_ms", "timeout_ms", "port", "host"], ?_⟩
  refine TakesEach.cons (Shape.takes_storing rfl (by decide) hhost) ?_
  refine TakesEach.cons (Shape.takes_storing rfl (by decide) hport) ?_
  refine TakesEach.cons (Shape.takes_storing rfl (by decide) (hmillis o.timeout)) ?_
  exact TakesEach.cons (Shape.takes_storing rfl (by decide) (hmillis o.connectTimeout)) TakesEach.nil

/-- **Written options are read back.** -/
theorem parse_text (o : Options) : (shape.reader {}).parse o.text = .ok o := by
  refine Reader.parse_of_reads (b := []) ?_ (o.readsLayout 0 [] isBlanks_nil) isBlanks_nil
  rw [text, String.toList_ofList, List.nil_append, List.append_nil]

end LibraryRegistry.Options
