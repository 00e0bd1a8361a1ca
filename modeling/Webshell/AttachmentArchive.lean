import Webshell.AttachmentNames

/-!
# Collecting an archive

The files and directories that are asked for are walked over, and what is found
becomes the entries of an archive. What a directory holds the backend says,
which may answer anything: directories in a circle, or without an end.
-/

namespace Webshell

open GoBytes

def maxAttachmentArchiveCount : Nat := 4096

structure AttachmentEntry where
  name : Bytes
  path : Bytes
  type : Bytes
  modified : Int := 0
  deriving DecidableEq

def AttachmentEntry.isDir (entry : AttachmentEntry) : Bool := entry.type = ascii "dir"

structure AttachmentListing where
  path : Bytes
  entries : List AttachmentEntry

structure ArchiveSource where
  name : Bytes
  path : Bytes
  dir : Bool
  modified : Int
  deriving DecidableEq

inductive ArchiveError (ε : Type)
  | tooManyFiles
  | backend (e : ε)

/-- `ListAttachmentFiles`. It is told of the paths it was called with before, as it may answer otherwise each time. -/
abbrev AttachmentBackend (ε : Type) := List Bytes → Bytes → Except ε AttachmentListing

/-- What a source was made of: the entry, whether a listing had it, the name that was asked for
and how often its path was taken before. -/
structure ArchiveOrigin where
  entry : AttachmentEntry
  child : Bool
  asked : Bytes
  count : Nat

/-- `calls` and `origins` are not in the source. -/
structure ArchiveState where
  sources : List ArchiveSource := []
  names : OrderedMap Bytes Nat := ∅
  visitedDirs : List Bytes := []
  calls : List Bytes := []
  origins : List ArchiveOrigin := []

namespace ArchiveState

variable {ε : Type}

def unique (s : ArchiveState) (name : Bytes) : Bytes × ArchiveState :=
  let r := uniqueAttachmentArchivePath name s.names
  (r.1, { s with names := r.2 })

/-- What a name that is asked for comes from. -/
def origin (s : ArchiveState) (entry : AttachmentEntry) (child : Bool) (asked : Bytes) : ArchiveOrigin where
  entry := entry
  child := child
  asked := asked
  count := seenCount s.names (archiveKey asked)

def visit (s : ArchiveState) (path : Bytes) : ArchiveState :=
  if path = [] then s else { s with visitedDirs := path :: s.visitedDirs }

/-- A source is appended, and the sources are counted. -/
def append (s : ArchiveState) (source : ArchiveSource) (origin : ArchiveOrigin) : Option (ArchiveError ε) × ArchiveState :=
  let s := { s with sources := s.sources ++ [source], origins := s.origins ++ [origin] }
  (if maxAttachmentArchiveCount < s.sources.length then some .tooManyFiles else none, s)

end ArchiveState

variable {ε : Type}

/-- What walks over a directory. None when the fuel has run out. -/
abbrev DirWalk (ε : Type) := AttachmentEntry → Bytes → Bytes → ArchiveOrigin → ArchiveState →
  Option (Option (ArchiveError ε) × ArchiveState)

/-- The loop over the entries of a listing. -/
def appendChildren (walk : DirWalk ε) (archivePrefix : Bytes) :
    List AttachmentEntry → ArchiveState → Option (Option (ArchiveError ε) × ArchiveState)
  | [], s => some (none, s)
  | child :: children, s =>
    let child := { child with name := trimSpace child.name, path := trimSpace child.path }
    if child.name = [] ∨ child.path = [] then appendChildren walk archivePrefix children s
    else
      let asked := archivePrefix ++ slash :: child.name
      let origin := s.origin child true asked
      let childArchiveName := (s.unique asked).1
      let s := (s.unique asked).2
      if child.isDir = true then
        match walk child (childArchiveName ++ [slash]) childArchiveName origin s with
        | some (none, s) => appendChildren walk archivePrefix children s
        | stop => stop
      else
        match s.append { name := childArchiveName, path := child.path, dir := false, modified := child.modified } origin with
        | (none, s) => appendChildren walk archivePrefix children s
        | stop => some stop

local instance lawfulPaths : LawfulBEq GoBytes.Str := inferInstance

/-- `fuel` is one more than the directories that may be gone down. -/
def appendAttachmentArchiveDirSource (backend : AttachmentBackend ε) : Nat → DirWalk ε
  | 0, _, _, _, _, _ => none
  | fuel + 1, entry, archiveName, archivePrefix, origin, s =>
    let resolvedKey := trimSpace entry.path
    if resolvedKey ≠ [] ∧ resolvedKey ∈ s.visitedDirs then some (none, s)
    else
      let s := s.visit resolvedKey
      let archiveName := if [slash].isSuffixOf archiveName = true then archiveName else archiveName ++ [slash]
      let answer := backend s.calls entry.path
      let s := { s with calls := s.calls ++ [entry.path] }
      match answer with
      | .error e => some (some (.backend e), s)
      | .ok response =>
        let resolvedPath := trimSpace response.path
        if resolvedPath ≠ [] ∧ resolvedPath ≠ resolvedKey ∧ resolvedPath ∈ s.visitedDirs then some (none, s)
        else
          let s := if resolvedPath ≠ resolvedKey then s.visit resolvedPath else s
          match s.append { name := archiveName, path := [], dir := true, modified := entry.modified } origin with
          | (none, s) =>
            appendChildren (appendAttachmentArchiveDirSource backend fuel) archivePrefix response.entries s
          | stop => some stop

/-- The loop over what was asked for. -/
def appendEntries (walk : DirWalk ε) :
    List AttachmentEntry → ArchiveState → Option (Option (ArchiveError ε) × ArchiveState)
  | [], s => some (none, s)
  | entry :: entries, s =>
    if entry.isDir = true then
      let asked := entry.name ++ [slash]
      let origin := s.origin entry false asked
      let rootName := (s.unique asked).1
      let rootPrefix := trimSuffix [slash] rootName
      match walk entry rootName rootPrefix origin (s.unique asked).2 with
      | some (none, s) => appendEntries walk entries s
      | stop => stop
    else
      let origin := s.origin entry false entry.name
      let source := {
        name := (s.unique entry.name).1, path := entry.path, dir := false, modified := entry.modified : ArchiveSource }
      match (s.unique entry.name).2.append source origin with
      | (none, s) => appendEntries walk entries s
      | stop => some stop

/-- The error, if there is one, and the state it ends in; the sources are answered when there is none. -/
def collectAttachmentArchiveSources (backend : AttachmentBackend ε) (fuel : Nat) (entries : List AttachmentEntry) :
    Option (Option (ArchiveError ε) × ArchiveState) :=
  appendEntries (appendAttachmentArchiveDirSource backend fuel) entries {}

end Webshell
