import LibraryRegistry.Json.Layout
import LibraryRegistry.Json.Shape
import LibraryRegistry.Record

/-!
# Records in JSON

Every field may be left out and then has its default; members with other names are skipped. Records
are written with all their fields. The entries of a map may be laid out in any order: `layout` has
them in ascending order, and `LaidOut` says which layouts there are.
-/

namespace LibraryRegistry

open Json

namespace Lookup

/-- Look-ups in JSON. -/
def shape : Shape Lookup where
  title := "struct MetadataRequest"
  strict := false
  fields := [.storing "library" .text fun l library => { l with library }]

/-- Reads a look-up. -/
def reader : Reader Lookup := shape.reader {}

end Lookup

namespace Release

/-- Releases in JSON. -/
def shape : Shape Release where
  title := "struct Version"
  strict := false
  fields := [
    .storing "name" .text fun r name => { r with name },
    .storing "version" .text fun r version => { r with version },
    .storing "dependencies" (.dict .text) fun r dependencies => { r with dependencies }]

/-- Reads a release. -/
def reader : Reader Release := shape.reader {}

/-- A release to be written, with its dependencies in the given order. -/
def layoutWith (dependencies : List (String × String)) (r : Release) : Layout :=
  .object [
    ("name", .text r.name),
    ("version", .text r.version),
    ("dependencies", .entries .text dependencies)]

/-- A release to be written. -/
def layout (r : Release) : Layout := r.layoutWith r.dependencies.toList

/-- The layouts of a release: its dependencies come in any order. -/
def LaidOut (r : Release) (l : Layout) : Prop :=
  ∃ order : List (String × String), order.Perm r.dependencies.toList ∧ l = r.layoutWith order

theorem laidOut_layout (r : Release) : r.LaidOut r.layout := ⟨_, .refl _, rfl⟩

end Release

namespace Record

/-- Records in JSON. -/
def shape : Shape Record where
  title := "struct MetadataResponse"
  strict := false
  fields := [
    .storing "name" .text fun r name => { r with name },
    .storing "description" .text fun r description => { r with description },
    .storing "versions" (.dict Release.reader) fun r releases => { r with releases }]

/-- Reads a record. -/
def reader : Reader Record := shape.reader {}

/-- A record to be written, with its releases, laid out already, in the given order. -/
def layoutWith (releases : List (String × Layout)) (r : Record) : Layout :=
  .object [
    ("name", .text r.name),
    ("description", .text r.description),
    ("versions", .object releases)]

/-- A record to be written. -/
def layout (r : Record) : Layout :=
  r.layoutWith (r.releases.toList.map fun (version, release) => (version, release.layout))

/-- The layouts of a record: its releases come in any order, each laid out with its dependencies in
any order. -/
def LaidOut (r : Record) (l : Layout) : Prop :=
  ∃ (order : List (String × Release)) (lay : String × Release → Layout),
    order.Perm r.releases.toList ∧ (∀ e ∈ order, e.2.LaidOut (lay e)) ∧
      l = r.layoutWith (order.map fun e => (e.1, lay e))

theorem laidOut_layout (r : Record) : r.LaidOut r.layout :=
  ⟨_, fun e => e.2.layout, .refl _, fun e _ => e.2.laidOut_layout, rfl⟩

end Record

end LibraryRegistry
