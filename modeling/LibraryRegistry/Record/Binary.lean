import LibraryRegistry.Record
import LibraryRegistry.Wire.Message

/-!
# Records as binary messages

Look-ups, releases and records written and read as messages of the registry's schema. `encodeWith`
takes the entries of a map in the order in which they are to come; readers accept any order, and of
entries with one key the last one counts. Up to `nestingLimit` levels may be nested.
-/

namespace LibraryRegistry

open Wire

/-- How many levels of messages and groups a message may hold. -/
def nestingLimit : Nat := 100

namespace Lookup

/-- Writes a look-up. -/
def encode (l : Lookup) : List UInt8 := encodeText 1 l.library

/-- The number of bytes of a written look-up. -/
def encodedSize (l : Lookup) : Nat := sizeText 1 l.library

/-- The fields of a look-up. -/
def fields (depth : Nat) : FieldReader Lookup :=
  .onField 1
    (.named ⟨"MetadataRequest", "library"⟩ <| .text fun l s => { l with library := s })
  <| .skipping depth

/-- Merges the fields of the bytes into a look-up. -/
def merge (l : Lookup) (bytes : List UInt8) : Except DecodeError Lookup :=
  (fields nestingLimit).merge l bytes

/-- Merges the fields of a look-up that comes with its length; what follows is not looked at. -/
def mergeDelimited (l : Lookup) (bytes : List UInt8) : Except DecodeError Lookup :=
  ((fields (nestingLimit - 1)).mergeDelimited l bytes).map (·.1)

/-- Reads a look-up. -/
def decode (bytes : List UInt8) : Except DecodeError Lookup := merge {} bytes

end Lookup

namespace Release

/-- Writes a release with its dependencies in the given order. -/
def encodeWith (dependencies : List (String × String)) (r : Release) : List UInt8 :=
  encodeText 1 r.name ++ encodeText 2 r.version
    ++ dependencies.flatMap fun (library, version) => encodeEntry 3 library (Text.utf8 version)

/-- Writes a release with its dependencies in ascending order. -/
def encode (r : Release) : List UInt8 := r.encodeWith r.dependencies.toList

/-- The number of bytes of a written release. -/
def encodedSize (r : Release) : Nat :=
  sizeText 1 r.name + sizeText 2 r.version
    + (r.dependencies.toList.map fun (library, version) =>
        sizeEntry 3 library version.utf8ByteSize).foldr (· + ·) 0

/-- The fields of a release. -/
def fields (depth : Nat) : FieldReader Release :=
  .onField 1 (.named ⟨"Version", "name"⟩ <| .text fun r s => { r with name := s })
  <| .onField 2 (.named ⟨"Version", "version"⟩ <| .text fun r s => { r with version := s })
  <| .onField 3
    (.named ⟨"Version", "dependencies"⟩ <|
      .entry depth ("", "") (.entryFields (depth - 1) <| .text fun e s => (e.1, s))
        fun r library version => { r with dependencies := r.dependencies.insert library version })
  <| .skipping depth

/-- Merges the fields of the bytes into a release. -/
def merge (r : Release) (bytes : List UInt8) : Except DecodeError Release :=
  (fields nestingLimit).merge r bytes

/-- Merges the fields of a release that comes with its length; what follows is not looked at. -/
def mergeDelimited (r : Release) (bytes : List UInt8) : Except DecodeError Release :=
  ((fields (nestingLimit - 1)).mergeDelimited r bytes).map (·.1)

/-- Reads a release. -/
def decode (bytes : List UInt8) : Except DecodeError Release := merge {} bytes

end Release

namespace Record

/-- Writes a record with its releases, written already, in the given order. -/
def encodeWith (releases : List (String × List UInt8)) (r : Record) : List UInt8 :=
  encodeText 1 r.name ++ encodeText 2 r.description
    ++ releases.flatMap fun (version, release) => encodeEntry 3 version release

/-- Writes a record with its releases and their dependencies in ascending order. -/
def encode (r : Record) : List UInt8 :=
  r.encodeWith (r.releases.toList.map fun (version, release) => (version, release.encode))

/-- The number of bytes of a written record. -/
def encodedSize (r : Record) : Nat :=
  sizeText 1 r.name + sizeText 2 r.description
    + (r.releases.toList.map fun (version, release) =>
        sizeEntry 3 version release.encodedSize).foldr (· + ·) 0

/-- The fields of a record. -/
def fields (depth : Nat) : FieldReader Record :=
  .onField 1 (.named ⟨"MetadataResponse", "name"⟩ <| .text fun r s => { r with name := s })
  <| .onField 2
    (.named ⟨"MetadataResponse", "description"⟩ <| .text fun r s => { r with description := s })
  <| .onField 3
    (.named ⟨"MetadataResponse", "versions"⟩ <|
      .entry depth ("", {})
        (.entryFields (depth - 1) <|
          .nested (depth - 1) (Release.fields (depth - 2)) (·.2) fun e release => (e.1, release))
        fun r version release => { r with releases := r.releases.insert version release })
  <| .skipping depth

/-- Merges the fields of the bytes into a record. -/
def merge (r : Record) (bytes : List UInt8) : Except DecodeError Record :=
  (fields nestingLimit).merge r bytes

/-- Merges the fields of a record that comes with its length; what follows is not looked at. -/
def mergeDelimited (r : Record) (bytes : List UInt8) : Except DecodeError Record :=
  ((fields (nestingLimit - 1)).mergeDelimited r bytes).map (·.1)

/-- Reads a record. -/
def decode (bytes : List UInt8) : Except DecodeError Record := merge {} bytes

end Record

end LibraryRegistry
