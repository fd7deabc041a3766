import LibraryRegistry.Proofs.Json.Fields
import LibraryRegistry.Registry

/-!
# Forms of records

Records may be written by hand: as objects with their fields in any order and with other members
among them, or as lists that end early; fields that have their defaults may be left out. Releases
stand in records in any of these forms, and records in the object of a registry.

* `Release.Form`, `Record.Form` — the texts of a release and of a record
* `Release.Repeats`, `Record.Repeats` — texts in which a field stands twice
* `parse_forms` — the forms are read, and repeated fields are refused
-/

namespace LibraryRegistry

open Json

/-! ## Releases -/

namespace Release

/-- The parts of the text of a release. -/
def parts (r : Release) : List TextPart := [
  ⟨"name", IsText r.name, r.name = ""⟩,
  ⟨"version", IsText r.version, r.version = ""⟩,
  ⟨"dependencies", IsDict IsText r.dependencies, r.dependencies = .empty⟩]

/-- The texts of a release. -/
def Form (r : Release) (cs : List Char) : Prop := Written false r.parts cs

/-- The texts of releases in which a field stands twice. -/
def Repeats (cs : List Char) : Prop :=
  ∃ ms key, IsObject ms cs ∧ key ∈ ["name", "version", "dependencies"] ∧
    2 ≤ (ms.map (·.1)).count key

/-- The release with the fields of the given names. -/
def keepNamed (r : Release) (names : List String) : Release where
  name := if names.contains "name" then r.name else ""
  version := if names.contains "version" then r.version else ""
  dependencies := if names.contains "dependencies" then r.dependencies else .empty

/-- Every field of a release is read up to where its value ends. -/
theorem exact_fields : ∀ field ∈ shape.fields, field.value.Exact := by
  intro field hmem
  simp only [shape, List.mem_cons, List.not_mem_nil, or_false] at hmem
  rcases hmem with rfl | rfl | rfl
  · exact Reader.exact_map Reader.exact_text
  · exact Reader.exact_map Reader.exact_text
  · exact Reader.exact_map (Reader.exact_dict Reader.exact_text)

/-- The members of a form fill in the fields of the release one by one, and what is left out has its
default already. -/
theorem collects (r : Release) : shape.Collects {} r.parts r r.keepNamed where
  fields := by
    refine .cons (gathers_storing (Reader.readsValue_text r.name) fun names => ?_) ?_
    · ext1 <;> simp [keepNamed]
    refine .cons (gathers_storing (Reader.readsValue_text r.version) fun names => ?_) ?_
    · ext1 <;> simp [keepNamed]
    refine .cons (gathers_storing (a := r.dependencies) (fun v hv => ?_) fun names => ?_) .nil
    · exact Reader.readsValue_dict Reader.readsValue_text hv
    · ext1 <;> simp [keepNamed]
  nothing := rfl
  everything := by
    intro names h
    simp only [parts, List.forall_mem_cons] at h
    obtain ⟨hname, hversion, hdependencies, -⟩ := h
    ext1
    · exact ite_contains_eq hname
    · exact ite_contains_eq hversion
    · exact ite_contains_eq hdependencies

/-- **A release is read from all its forms.** -/
theorem Form.reads {r : Release} {cs : List Char} (h : r.Form cs) : reader.ReadsValue cs r :=
  Shape.reads_of_written r.collects h

/-- A release in which a field stands twice is refused. -/
theorem Repeats.refuses {cs : List Char} (h : Repeats cs) : reader.Refuses cs := by
  obtain ⟨ms, key, hcs, hkey, htwice⟩ := h
  exact Shape.refuses_repeated exact_fields hcs hkey htwice

end Release

/-! ## Records -/

namespace Record

/-- The parts of the text of a record. -/
def parts (r : Record) : List TextPart := [
  ⟨"name", IsText r.name, r.name = ""⟩,
  ⟨"description", IsText r.description, r.description = ""⟩,
  ⟨"versions", IsDict Release.Form r.releases, r.releases = .empty⟩]

/-- The texts of a record. -/
def Form (r : Record) (cs : List Char) : Prop := Written false r.parts cs

/-- The texts of objects of releases in one of which a field stands twice. -/
def RepeatsIn (cs : List Char) : Prop :=
  ∃ ms, IsObject ms cs ∧ ∃ member ∈ ms, Release.Repeats member.2

/-- The texts of records in which, or in a release of which, a field stands twice. -/
inductive Repeats : List Char → Prop
  | own {ms : List Member} {key : String} {cs : List Char} : IsObject ms cs →
      key ∈ ["name", "description", "versions"] → 2 ≤ (ms.map (·.1)).count key → Repeats cs
  | member {ms : List Member} {v cs : List Char} : IsObject ms cs → ("versions", v) ∈ ms →
      RepeatsIn v → Repeats cs
  | element {name description v : List Char} {vs : List (List Char)} {cs : List Char} :
      IsList (name :: description :: v :: vs) cs → RepeatsIn v → Repeats cs

/-- The record with the fields of the given names. -/
def keepNamed (r : Record) (names : List String) : Record where
  name := if names.contains "name" then r.name else ""
  description := if names.contains "description" then r.description else ""
  releases := if names.contains "versions" then r.releases else .empty

/-- The releases of a record are read up to where their object ends. -/
theorem exact_releases : (Reader.dict Release.reader).Exact :=
  Reader.exact_dict (Shape.exact_reader Release.exact_fields {})

theorem exact_fields : ∀ field ∈ shape.fields, field.value.Exact := by
  intro field hmem
  simp only [shape, List.mem_cons, List.not_mem_nil, or_false] at hmem
  rcases hmem with rfl | rfl | rfl
  · exact Reader.exact_map Reader.exact_text
  · exact Reader.exact_map Reader.exact_text
  · exact Reader.exact_map exact_releases

/-- The members of a form fill in the fields of the record one by one. -/
theorem collects (r : Record) : shape.Collects {} r.parts r r.keepNamed where
  fields := by
    refine .cons (gathers_storing (Reader.readsValue_text r.name) fun names => ?_) ?_
    · ext1 <;> simp [keepNamed]
    refine .cons (gathers_storing (Reader.readsValue_text r.description) fun names => ?_) ?_
    · ext1 <;> simp [keepNamed]
    refine .cons (gathers_storing (a := r.releases) (fun v hv => ?_) fun names => ?_) .nil
    · exact Reader.readsValue_dict (fun _ _ h => h.reads) hv
    · ext1 <;> simp [keepNamed]
  nothing := rfl
  everything := by
    intro names h
    simp only [parts, List.forall_mem_cons] at h
    obtain ⟨hname, hdescription, hreleases, -⟩ := h
    ext1
    · exact ite_contains_eq hname
    · exact ite_contains_eq hdescription
    · exact ite_contains_eq hreleases

/-- **A record is read from all its forms.** -/
theorem Form.reads {r : Record} {cs : List Char} (h : r.Form cs) : reader.ReadsValue cs r :=
  Shape.reads_of_written r.collects h

/-- One release in which a field stands twice is enough to refuse them all. -/
theorem RepeatsIn.refuses {cs : List Char} (h : RepeatsIn cs) :
    (Reader.dict Release.reader).Refuses cs := by
  obtain ⟨ms, hcs, member, hmem, hrepeats⟩ := h
  exact Reader.refuses_dict (Shape.exact_reader Release.exact_fields {}) hcs hmem hrepeats.refuses

/-- A field that stands twice is refused wherever it stands: in the record itself or in a release,
and whether the record is an object or a list. -/
theorem Repeats.refuses {cs : List Char} (h : Repeats cs) : reader.Refuses cs := by
  cases h with
  | own hcs hkey htwice => exact Shape.refuses_repeated exact_fields hcs hkey htwice
  | member hcs hmem hrepeats =>
    exact Shape.refuses_member exact_fields hcs hmem rfl (Reader.refuses_map hrepeats.refuses)
  | element hcs hrepeats =>
    exact Shape.refuses_element exact_fields hcs (.tail _ (.tail _ (.head _)))
      (Reader.refuses_map hrepeats.refuses)

/-- **Records are read from all their forms**, alone and in a registry: as objects with their fields
in any order and anything else among them, or as lists; fields with their defaults may be left out,
and of a repeated key of a map the last value counts. A field that stands twice in a record or in a
release makes the text invalid, whatever else stands there. -/
theorem parse_forms :
    (∀ (r : Record) (text : String), Holds text r.Form → reader.parse text = .ok r) ∧
    (∀ (registry : Registry) (text : String), Holds text (IsDict Form registry) →
      Registry.ofJson text = .ok registry) ∧
    (∀ text : String, Holds text Repeats → ∃ e, reader.parse text = .error e) ∧
    (∀ (ms : List Member) (text : String), Holds text (IsObject ms) →
      (∃ member ∈ ms, Repeats member.2) → ∃ e, Registry.ofJson text = .error e) := by
  have hexact : reader.Exact := Shape.exact_reader exact_fields {}
  refine ⟨fun r text h => Reader.parse_of_readsValue h fun _ hv => Form.reads hv,
    fun registry text h => Reader.parse_of_readsValue h fun _ hv =>
      Reader.readsValue_dict (fun _ _ h => h.reads) hv,
    fun text h => Reader.parse_of_refuses h fun _ hv => hv.refuses, ?_⟩
  rintro ms text h ⟨member, hmem, hrepeats⟩
  exact Reader.parse_of_refuses h fun _ hv => Reader.refuses_dict hexact hv hmem hrepeats.refuses

/-- A release as a list with its name alone. -/
def listedRelease : List Char := compactList [writeText "a"]

/-- A number that is too large to be read. -/
def hugeNumber : List Char := ['1', 'e', '9', '9', '9']

/-- A release as an object with its name, behind a member that is no field. -/
def namedRelease : List Char :=
  compactObject [("x", compactList [hugeNumber]), ("name", writeText "b")]

/-- Releases one of which is listed twice. -/
def mixedReleases : List Char :=
  compactObject [("1", listedRelease), ("2", namedRelease), ("1", compactObject [])]

/-- A record with its releases first and without a description. -/
def mixedText : List Char :=
  compactObject
    [("versions", mixedReleases), ("extra", ['n', 'u', 'l', 'l']), ("name", writeText "n")]

/-- What the record comes to. -/
def mixedRecord : Record :=
  { name := "n", releases := .ofList [("1", {}), ("2", { name := "b" })] }

/-- An object in which the name stands twice. -/
def repeatedName : List Char :=
  compactObject [("name", ['n', 'u', 'l', 'l']), ("name", ['n', 'u', 'l', 'l'])]

/-- What is skipped has to be a value, but no number that can be held. -/
theorem isValue_hugeNumber : IsValue hugeNumber := by
  have hwhole : IsWhole ['1'] := ⟨⟨by simp, by simp⟩, by simp⟩
  have hdigits : IsDigits ['9', '9', '9'] := ⟨by simp, by simp⟩
  exact .scalar (.number (.parts (.head _) hwhole .none (.digits rfl (.head _) hdigits)))

/-- A list may end behind any of the fields. -/
theorem form_listedRelease : Release.Form { name := "a" } listedRelease := by
  have hlist : IsList [writeText "a"] listedRelease := isList_compactList (by simp [isValue_writeText])
  have hname : List.Forall₂ (fun (part : TextPart) v => part.IsOf v)
      [⟨"name", IsText "a", "a" = ""⟩] [writeText "a"] :=
    .cons (isText_writeText "a") .nil
  refine .list hlist (List.singleton_append ..).symm hname ?_ (by simp)
  simp

theorem form_namedRelease : Release.Form { name := "b" } namedRelease := by
  have hlist : IsList [hugeNumber] (compactList [hugeNumber]) :=
    isList_compactList (by simp [isValue_hugeNumber])
  have hobject : IsObject [("x", compactList [hugeNumber]), ("name", writeText "b")] namedRelease :=
    isObject_compactObject (by simp [hlist.isValue, isValue_writeText])
  refine .object hobject ?_ ?_ ?_ (by simp) <;> simp [Release.parts, isText_writeText]

/-- The last of two releases with the same version number counts. -/
theorem isDict_mixedReleases :
    IsDict Release.Form mixedRecord.releases mixedReleases := by
  have hempty : Release.Form {} (compactObject []) := by
    refine .object (isObject_compactObject (by simp)) ?_ ?_ ?_ (by simp) <;> simp [Release.parts]
  have hobject : IsObject [("1", listedRelease), ("2", namedRelease), ("1", compactObject [])]
      mixedReleases := isObject_compactObject (by
    simp [form_listedRelease.isValue, form_namedRelease.isValue, hempty.isValue])
  have hlast : Dict.ofList [("1", ({ name := "a" } : Release)), ("2", { name := "b" }), ("1", {})]
      = mixedRecord.releases := by decide
  refine ⟨_, _, ?_, hobject, hlast ▸ Dict.hasLast_ofList _⟩
  exact .cons ⟨rfl, form_listedRelease⟩ (.cons ⟨rfl, form_namedRelease⟩ (.cons ⟨rfl, hempty⟩ .nil))

theorem form_mixedText : mixedRecord.Form mixedText := by
  obtain ⟨_, _, -, hreleases, -⟩ := isDict_mixedReleases
  have hobject : IsObject [("versions", mixedReleases), ("extra", ['n', 'u', 'l', 'l']),
      ("name", writeText "n")] mixedText :=
    isObject_compactObject (by simp [hreleases.isValue, isValue_null, isValue_writeText])
  refine .object hobject ?_ ?_ ?_ (by simp)
  · have hversions := isDict_mixedReleases
    simp only [mixedRecord] at hversions
    simp [parts, mixedRecord, isText_writeText, hversions]
  · simp [parts]
  · simp [parts, mixedRecord]

theorem isObject_repeatedName :
    IsObject [("name", ['n', 'u', 'l', 'l']), ("name", ['n', 'u', 'l', 'l'])] repeatedName :=
  isObject_compactObject (by simp [isValue_null])

theorem parse_forms_mixed :
    reader.parse ("\x7b\"versions\":\x7b\"1\":[\"a\"],\"2\":\x7b\"x\":[1e999],\"name\":\"b\"\x7d,"
        ++ "\"1\":\x7b\x7d\x7d,\"extra\":null,\"name\":\"n\"\x7d") = .ok mixedRecord ∧
    Registry.ofJson (String.ofList (compactObject [("n", mixedText)]))
      = .ok (.ofList [("n", mixedRecord)]) ∧
    (∃ e, reader.parse "\x7b\"name\":null,\"name\":null\x7d" = .error e) ∧
    (∃ e, Registry.ofJson "\x7b\"n\":[\"\",\"\",\x7b\"1\":\x7b\"name\":null,\"name\":null\x7d\x7d]\x7d"
      = .error e) := by
  obtain ⟨halone, hregistry, hrepeats, hwithin⟩ := parse_forms
  have hnone : IsBlanks [] := isBlanks_nil
  have hrecords : IsDict Form (.ofList [("n", mixedRecord)]) (compactObject [("n", mixedText)]) :=
    ⟨_, [("n", mixedText)], .cons ⟨rfl, form_mixedText⟩ .nil,
      isObject_compactObject (by simp [form_mixedText.isValue]), Dict.hasLast_ofList _⟩
  have hreleases : IsObject [("1", repeatedName)] (compactObject [("1", repeatedName)]) :=
    isObject_compactObject (by simp [isObject_repeatedName.isValue])
  have hlist : IsList [writeText "", writeText "", compactObject [("1", repeatedName)]]
      (compactList [writeText "", writeText "", compactObject [("1", repeatedName)]]) :=
    isList_compactList (by simp [isValue_writeText, hreleases.isValue])
  have hregistryText : IsObject [("n", _)] (compactObject [("n", _)]) :=
    isObject_compactObject (List.forall_mem_singleton.2 hlist.isValue)
  have hname : Repeats repeatedName :=
    @Repeats.own _ "name" _ isObject_repeatedName (by decide) (by decide)
  refine ⟨halone _ _ ⟨[], _, [], hnone, hnone, form_mixedText, by decide +kernel⟩,
    hregistry _ _ (holds_ofList hrecords),
    hrepeats _ ⟨[], _, [], hnone, hnone, hname, by decide +kernel⟩,
    hwithin _ _ ⟨[], _, [], hnone, hnone, hregistryText, by decide +kernel⟩
      ⟨_, List.mem_singleton_self _, ?_⟩⟩
  exact .element hlist ⟨_, hreleases, _, List.mem_singleton_self _,
    _, "name", isObject_repeatedName, by decide, by decide⟩

end Record

end LibraryRegistry
