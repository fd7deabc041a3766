import LibraryRegistry.Proofs.Record.Json
import LibraryRegistry.Report

/-!
# Reading what was printed

The report of a record is a JSON text with an empty line in front of it, and it is read back as the
record whatever the order of its maps. The report with the maps in ascending order is one of them, and
such reports tell records apart.

* `prints_iff` — what may be printed is what printers print
* `text_ofRecord_inj` — reports tell records apart
* `reports_read_back` — printed, read and printed again
-/

namespace LibraryRegistry.Report

open Json

/-- The texts in which a record may be printed: its maps come in any order. -/
def Prints (r : Record) (text : String) : Prop :=
  ∃ l, r.LaidOut l ∧ text = (⟨String.ofList (l 0)⟩ : Report).text

/-- Reads a record and prints it. -/
def reprint (input : String) : Except Json.Error String :=
  (Record.reader.parse input).map fun r => (ofRecord r).text

/-- Lays one record out in the given way, and all others with their maps in ascending order. -/
def printerOf {r : Record} {l : Layout} (h : r.LaidOut l) : Printer where
  layout r' := if r' = r then l else r'.layout
  laidOut r' := by
    split
    · next heq => exact heq ▸ h
    · exact r'.laidOut_layout

/-- The texts in which a record may be printed are those that printers print. -/
theorem prints_iff {r : Record} {text : String} :
    Prints r text ↔ ∃ p : Printer, (ofRecord r p).text = text := by
  constructor
  · rintro ⟨l, hlaid, rfl⟩
    have hlayout : (printerOf hlaid).layout r = l := if_pos rfl
    exact ⟨printerOf hlaid, by rw [ofRecord, hlayout]⟩
  · rintro ⟨p, rfl⟩
    exact ⟨_, p.laidOut r, rfl⟩

theorem prints_ofRecord (r : Record) (p : Printer) : Prints r (ofRecord r p).text :=
  prints_iff.2 ⟨p, rfl⟩

theorem isBlanks_lineBreak : IsBlanks ['\n'] := by
  intro c hc
  rw [List.mem_singleton.1 hc]
  rfl

/-- A printed record is read back. -/
theorem Prints.parse {r : Record} {text : String} (h : Prints r text) :
    Record.reader.parse text = .ok r := by
  obtain ⟨l, hlaid, rfl⟩ := h
  have htext : (⟨String.ofList (l 0)⟩ : Report).text = String.ofList (['\n'] ++ l 0 ++ ['\n']) := by
    rw [String.ofList_append, String.ofList_append]
    rfl
  rw [htext]
  exact hlaid.parse isBlanks_lineBreak isBlanks_lineBreak 0

theorem reprint_of_parse {input : String} {r : Record} (h : Record.reader.parse input = .ok r) :
    reprint input = .ok (ofRecord r).text := by
  rw [reprint, h]
  rfl

/-- Reports tell records apart. -/
theorem text_ofRecord_inj {r r' : Record} : (ofRecord r).text = (ofRecord r').text ↔ r = r' := by
  constructor
  · intro h
    have hread := (prints_ofRecord r .ascending).parse
    rw [h, (prints_ofRecord r' .ascending).parse] at hread
    exact (Except.ok.inj hread).symm
  · rintro rfl
    rfl

theorem exists_parse_of_reprint {input output : String} (h : reprint input = .ok output) :
    ∃ r, Record.reader.parse input = .ok r ∧ output = (ofRecord r).text := by
  cases hread : Record.reader.parse input with
  | error e =>
    rw [reprint, hread] at h
    cases h
  | ok r =>
    rw [reprint_of_parse hread] at h
    exact ⟨r, rfl, (Except.ok.inj h).symm⟩

/-- **A record is read back from every text in which it may be printed**, its report among them. Two
inputs have the same report exactly when they are the same record, and a report is printed again as
it is. -/
theorem reports_read_back :
    (∀ (r : Record) (text : String), Prints r text → Record.reader.parse text = .ok r) ∧
    (∀ r : Record, Prints r (ofRecord r).text) ∧
    (∀ (input input' : String) (r r' : Record), Record.reader.parse input = .ok r →
      Record.reader.parse input' = .ok r' → (reprint input = reprint input' ↔ r = r')) ∧
    (∀ input output : String, reprint input = .ok output → reprint output = .ok output) := by
  refine ⟨fun r text h => h.parse, fun r => prints_ofRecord r .ascending, ?_, ?_⟩
  · intro input input' r r' h h'
    rw [reprint_of_parse h, reprint_of_parse h', Except.ok.injEq]
    exact text_ofRecord_inj
  · intro input output h
    obtain ⟨r, -, rfl⟩ := exists_parse_of_reprint h
    exact reprint_of_parse (prints_ofRecord r .ascending).parse

/-- A record whose texts have to be escaped. -/
def quotedRecord : Record :=
  { name := "\"é\\", description := "a\n\x01",
    releases := .ofList [("10", {}), ("2", { dependencies := .ofList [("", "x"), ("b", "")] })] }

/-- The same record with its maps in descending order. -/
def descendingText : String :=
  "\n\x7b\n  \"name\": \"\\\"é\\\\\",\n  \"description\": \"a\\n\\u0001\",\n  \"versions\": \x7b\n"
    ++ "    \"2\": \x7b\n      \"name\": \"\",\n      \"version\": \"\",\n"
    ++ "      \"dependencies\": \x7b\n        \"b\": \"\",\n        \"\": \"x\"\n      \x7d\n    \x7d,\n"
    ++ "    \"10\": \x7b\n      \"name\": \"\",\n      \"version\": \"\",\n"
    ++ "      \"dependencies\": \x7b\x7d\n    \x7d\n  \x7d\n\x7d\n"

theorem prints_descendingText : Prints quotedRecord descendingText := by
  let lay (e : String × Release) : Layout :=
    e.2.layoutWith (if e.1 = "2" then [("b", ""), ("", "x")] else [])
  refine ⟨_, ⟨[("2", { dependencies := .ofList [("", "x"), ("b", "")] }), ("10", {})], lay, ?_, ?_,
    rfl⟩, ?_⟩
  · decide
  · intro e he
    simp only [List.mem_cons, List.not_mem_nil, or_false] at he
    rcases he with rfl | rfl
    · exact ⟨[("b", ""), ("", "x")], by decide, rfl⟩
    · exact ⟨[], by decide, rfl⟩
  · decide +kernel

theorem reports_read_back_descending :
    Prints quotedRecord descendingText ∧ Record.reader.parse descendingText = .ok quotedRecord ∧
    reprint descendingText = reprint (ofRecord quotedRecord).text ∧
    reprint descendingText = .ok (ofRecord quotedRecord).text ∧
    reprint (ofRecord quotedRecord).text = .ok (ofRecord quotedRecord).text := by
  obtain ⟨hparse, hprints, hsame, hagain⟩ := reports_read_back
  have hread := hparse quotedRecord descendingText prints_descendingText
  have hreport := hparse quotedRecord _ (hprints quotedRecord)
  have hprint : reprint descendingText = .ok (ofRecord quotedRecord).text := reprint_of_parse hread
  exact ⟨prints_descendingText, hread, (hsame _ _ _ _ hread hreport).2 rfl, hprint,
    hagain _ _ hprint⟩

end LibraryRegistry.Report
