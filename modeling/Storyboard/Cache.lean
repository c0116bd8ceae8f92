import Storyboard.Digest
import Storyboard.Extraction.Record
import Storyboard.Files.Disk
import Storyboard.Json.Reader

/-!
# Kept extractions

The extraction of a file is kept for the next run, in a file of its own that is named by a digest of the
name of the source file. It is valid as long as a digest of everything that it was computed from stays the
same. An entry that can not be read is removed. The cache never makes the work fail.
-/

namespace Storyboard

/-- A directory of kept extractions, used with given options. -/
structure Cache where
  /-- The path of the directory. -/
  directory : String
  /-- The options that the extractions are made with. -/
  options : Options

/-- A kept extraction. -/
structure CacheEntry where
  /-- The digest of what it was computed from. -/
  hash : String
  /-- The extraction. -/
  extraction : Extraction
deriving DecidableEq, Repr

namespace CacheEntry

/-- The record of an entry. -/
def toJson (entry : CacheEntry) : Json :=
  .object [("hash", .string entry.hash), ("extraction", entry.extraction.toJson)]

/-- Read an entry from its record. -/
def ofJson? (value : Json) : Option CacheEntry := do
  match ← fullEntries? ["hash", "extraction"] value with
  | [some hash, some extraction] =>
    return { hash := ← hash.asString?, extraction := ← Extraction.ofJson? extraction }
  | _ => none

/-- Read an entry from a text. -/
def parse? (text : String) : Option CacheEntry := (Json.readRaw? text).bind ofJson?

end CacheEntry

namespace Cache

/-- The bytes of a text. -/
def bytes (text : String) : List UInt8 := text.toUTF8.data.toList

/-- What an extraction is computed from: the source, whether style sheets are loaded, and the options. -/
def inputs (cache : Cache) (source : String) (processCss : Bool) : List UInt8 :=
  bytes source ++ [0, if processCss then 1 else 0, 0] ++ bytes cache.options.toJson.render

/-- The digest of what an extraction is computed from. -/
def hash (cache : Cache) (source : String) (processCss : Bool) : String :=
  Digest.sha256 (cache.inputs source processCss)

/-- The name of the file of the entry for a source file. -/
def entryName (label : String) : String := Digest.sha256 (bytes label) ++ ".json"

/-- The file of the entry for a source file. -/
def entryPath (cache : Cache) (label : String) : String := Path.join cache.directory (entryName label)

/-- Do something with a disk, whether it succeeds or not. -/
def attempt (action : DiskAction FileFault Unit) : StateM Disk Unit := do
  let _ ← action.run

/-- Open a cache; its directory is made if it is missing. -/
def openAt (directory : String) (options : Options) : StateM Disk Cache := do
  unless (← get).has directory do
    attempt (Disk.makeAllDirectories directory)
  return { directory, options }

/-- The entry of a source file, if there is a readable one. An unreadable one is removed. -/
def stored? (cache : Cache) (label : String) : StateM Disk (Option CacheEntry) := do
  let path := cache.entryPath label
  match (← get).readText path with
  | .error _ => return none
  | .ok text =>
    match CacheEntry.parse? text with
    | some entry => return some entry
    | none =>
      attempt (Disk.removeFile path)
      return none

/-- The kept extraction of a source file, if it is still valid. -/
def get? (cache : Cache) (label source : String) (processCss : Bool) :
    StateM Disk (Option Extraction) := do
  return (← cache.stored? label).bind fun entry =>
    if entry.hash == cache.hash source processCss then some entry.extraction else none

/-- Keep the extraction of a source file. -/
def set (cache : Cache) (label source : String) (processCss : Bool) (extraction : Extraction) :
    StateM Disk Unit :=
  let entry : CacheEntry := { hash := cache.hash source processCss, extraction }
  attempt (Disk.writeText (cache.entryPath label) entry.toJson.render)

end Cache

end Storyboard
