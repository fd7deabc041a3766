import LibraryRegistry.Proofs.Json.Layout
import LibraryRegistry.Record.Json

/-!
# Records in JSON, there and back

Whatever the order in which the entries of a map are laid out, the same record is read back.

* `LaidOut.reads` — a laid out release is read back
* `LaidOut.parse` — a laid out record is read back, with blanks around it
-/

namespace LibraryRegistry

open Json

namespace Release

/-- **A laid out release is read back.** -/
theorem LaidOut.reads {r : Release} {l : Layout} (h : r.LaidOut l) : reader.ReadsLayout l r := by
  obtain ⟨order, hperm, rfl⟩ := h
  have hdependencies : (Reader.dict .text).ReadsLayout (.entries .text order) r.dependencies := by
    rw [← Dict.ofList_of_perm hperm]
    exact Reader.readsLayout_entries fun e _ => Reader.readsLayout_text e.2
  refine Shape.readsLayout_object fun level => ⟨["dependencies", "version", "name"], ?_⟩
  refine TakesEach.cons (Shape.takes_storing rfl (by decide) (Reader.readsLayout_text r.name)) ?_
  refine TakesEach.cons (Shape.takes_storing rfl (by decide) (Reader.readsLayout_text r.version)) ?_
  exact TakesEach.cons (Shape.takes_storing rfl (by decide) hdependencies) TakesEach.nil

end Release

namespace Record

theorem LaidOut.reads {r : Record} {l : Layout} (h : r.LaidOut l) : reader.ReadsLayout l r := by
  obtain ⟨order, lay, hperm, hlaid, rfl⟩ := h
  have hreleases : (Reader.dict Release.reader).ReadsLayout
      (.object (order.map fun e => (e.1, lay e))) r.releases := by
    rw [← Dict.ofList_of_perm hperm]
    exact Reader.readsLayout_entries fun e he => (hlaid e he).reads
  refine Shape.readsLayout_object fun level => ⟨["versions", "description", "name"], ?_⟩
  refine TakesEach.cons (Shape.takes_storing rfl (by decide) (Reader.readsLayout_text r.name)) ?_
  refine TakesEach.cons
    (Shape.takes_storing rfl (by decide) (Reader.readsLayout_text r.description)) ?_
  exact TakesEach.cons (Shape.takes_storing rfl (by decide) hreleases) TakesEach.nil

/-- **A laid out record is read back**, with blanks around it. -/
theorem LaidOut.parse {r : Record} {l : Layout} (h : r.LaidOut l) {b b' : List Char}
    (hb : IsBlanks b) (hb' : IsBlanks b') (level : Nat) :
    reader.parse (String.ofList (b ++ l level ++ b')) = .ok r :=
  Reader.parse_of_reads String.toList_ofList (h.reads level b hb) hb'

end Record

end LibraryRegistry
