import Webshell.BytePaths
import Webshell.Throwing
import Mathlib.Data.FinEnum

/-!
# Receiving by SCP

What the peer's records make the receiving side do with the file system. The
file system and the channel's writer are a host that answers as it likes.
-/

namespace Webshell

open GoBytes

/-! ## What is called -/

/-- An error of a call, with what `os.IsNotExist` and `os.IsExist` say of it. -/
structure ScpFault where
  text : Str
  notExist : Bool
  exist : Bool

structure ScpInfo where
  dir : Bool
  symlink : Bool

/-- `time.Unix`, with the nanoseconds below one second. -/
structure ScpTime where
  seconds : Int
  nanoseconds : Int

structure ScpTimes where
  modified : ScpTime
  accessed : ScpTime

abbrev ScpCall (σ α : Type) := σ → Except ScpFault α × σ

structure ScpHost (σ φ : Type) where
  stat : Str → ScpCall σ ScpInfo
  lstat : Str → ScpCall σ ScpInfo
  mkdir : Str → Nat → ScpCall σ Unit
  openFile : Str → Nat → ScpCall σ φ
  write : φ → Str → ScpCall σ Unit
  chmodFile : φ → Nat → ScpCall σ Unit
  close : φ → ScpCall σ Unit
  chmod : Str → Nat → ScpCall σ Unit
  chtimes : Str → ScpTime → ScpTime → ScpCall σ Unit
  ack : ScpCall σ Unit

structure ScpOptions where
  recursive : Bool
  preserve : Bool
  directory : Bool

/-- What is kept of a run: the records read, and what was done with which path. -/
inductive ScpOp
  | record (text : Str)
  | checked (path : Str) (symlink : Bool)
  | made (path : Str)
  | entered (path : Str)
  | opened (path : Str)
  | modeChanged (path : Str)
  | timesChanged (path : Str)
  deriving DecidableEq

/-- The reader still holds `input`; after it comes an error, or the end. -/
structure ScpRun (σ : Type) where
  input : Str
  ends : Option Str
  world : σ
  ops : List ScpOp

inductive ScpError
  | failed (text : Str)
  | outOfFuel
  deriving DecidableEq

abbrev Scp (σ : Type) := EStateM ScpError (ScpRun σ)

variable {σ φ α : Type}

def scpText (text : String) : Str := text.toList.map fun c => UInt8.ofNat c.toNat

def scpFail (text : Str) : Scp σ α := throw (.failed text)

def scpRefuse (bad : Prop) [Decidable bad] (text : String) : Scp σ Unit :=
  if bad then scpFail (scpText text) else pure ()

def scpNote (op : ScpOp) : Scp σ Unit := modify fun s => { s with ops := s.ops ++ [op] }

def scpAttempt (call : ScpCall σ α) : Scp σ (Except ScpFault α) := fun s =>
  .ok (call s.world).1 { s with world := (call s.world).2 }

/-- What is called without looking at its error. -/
def scpCall (call : ScpCall σ α) : Scp σ α := do
  match ← scpAttempt call with
  | .ok a => pure a
  | .error fault => scpFail fault.text

/-- The error of a call, unless it is one that does not matter. -/
def scpTolerate (tolerated : ScpFault → Bool) (result : Except ScpFault α) : Scp σ Unit :=
  match result with
  | .ok _ => pure ()
  | .error fault => if tolerated fault then pure () else scpFail fault.text

/-- A change that is not always wanted. -/
def scpChange (wanted : Bool) (op : ScpOp) (call : ScpCall σ Unit) : Scp σ Unit :=
  if wanted then do
    scpNote op
    scpCall call
  else pure ()

/-! ## The reader -/

inductive ScpReadError
  | eof
  | bufferFull
  | other (text : Str)
  deriving DecidableEq

def ScpReadError.text : ScpReadError → Str
  | .eof => scpText "EOF"
  | .bufferFull => scpText "bufio: buffer full"
  | .other text => text

def readEnd (ends : Option Str) : ScpReadError := ends.elim .eof .other

def newline : UInt8 := 10

def scpBuffer : Nat := 8192

/-- `ReadSlice` up to a newline. -/
def readSlice : Scp σ (Str × Option ScpReadError) := fun s =>
  let front := s.input.take scpBuffer
  if newline ∈ front then
    let size := front.idxOf newline + 1
    .ok (s.input.take size, none) { s with input := s.input.drop size }
  else if scpBuffer ≤ s.input.length then
    .ok (front, some .bufferFull) { s with input := s.input.drop scpBuffer }
  else .ok (s.input, some (readEnd s.ends)) { s with input := [] }

def readByte : Scp σ UInt8 := fun s =>
  match s.input with
  | [] => .error (.failed (readEnd s.ends).text) s
  | code :: input => .ok code { s with input := input }

/-- `io.CopyN` to a file. -/
def copyN (host : ScpHost σ φ) (file : φ) (size : Nat) : Scp σ Unit := do
  let s ← get
  let data := s.input.take size
  set { s with input := s.input.drop size }
  if size = 0 then pure ()
  else do
    scpCall (host.write file data)
    if data.length < size then scpFail (readEnd s.ends).text else pure ()

def response : Scp σ Unit := do
  let code ← readByte
  if code = 0 then pure ()
  else do
    let (line, err) ← readSlice
    match err with
    | some err => scpFail err.text
    | none => do
      scpRefuse (line.length > scpBuffer) "SCP response too long"
      scpFail (scpText "SCP peer: " ++ trimSpace line)

/-! ## Records -/

/-- The bytes no name may have: slash, backslash, colon, CR, LF and NUL. -/
def scpNameBytes : Str := [47, 92, 58, 13, 10, 0]

def scpName (name : Str) : Bool := name ≠ [] ∧ name ≠ [dot] ∧ name ≠ [dot, dot] ∧ ∀ b ∈ scpNameBytes, b ∉ name

def scpTimes (fields : Str) : Except String ScpTimes :=
  let fields := spaceFields fields
  if fields.length ≠ 4 then .error "invalid SCP timestamp"
  else match fields.mapM fun field => (parseInt64 field).filter (0 ≤ ·) with
    | some [modified, modifiedMicro, accessed, accessedMicro] =>
      if modifiedMicro ≥ 1000000 ∨ accessedMicro ≥ 1000000 then .error "invalid SCP microseconds"
      else .ok ⟨⟨modified, modifiedMicro * 1000⟩, ⟨accessed, accessedMicro * 1000⟩⟩
    | _ => .error "invalid SCP timestamp"

structure ScpEntry where
  mode : Nat
  size : Int
  name : Str

/-- The rest of a `C` or `D` record. Only a directory takes more than one. -/
def scpEntry (isDir : Bool) (count : Nat) (fields : Str) : Except String ScpEntry :=
  match splitN 32 3 fields with
  | [mode, size, name] =>
    if mode.length ≠ 4 ∨ ¬scpName name then .error "invalid SCP filename or mode"
    else match parseUintBase 8 12 mode, parseInt64 size with
      | some mode, some size =>
        if size < 0 ∨ (isDir = false ∧ count > 0) then .error "invalid SCP file record"
        else .ok ⟨mode % 512, size, name⟩
      | _, _ => .error "invalid SCP file record"
  | _ => .error "invalid SCP filename or mode"

def ofParse (parsed : Except String α) : Scp σ α :=
  match parsed with
  | .ok a => pure a
  | .error text => scpFail (scpText text)

/-! ## Receiving -/

section Receive

variable (host : ScpHost σ φ) (options : ScpOptions)

def receiveFile (path : Str) (size mode : Nat) : Scp σ Unit := do
  scpNote (.opened path)
  let file ← scpCall (host.openFile path mode)
  Throwing.deferred (fun s => { s with world := (host.close file s.world).2 }) do
    scpCall host.ack
    copyN host file size
    response
    scpChange options.preserve (.modeChanged path) (host.chmodFile file mode)
    scpCall (host.close file)
    scpCall host.ack

/-- A directory record: `enter` receives what is in it. -/
def receiveDirectory (enter : Str → Scp σ Unit) (path : Str) (entry : ScpEntry) : Scp σ Unit := do
  scpRefuse (¬options.recursive ∨ entry.size ≠ 0) "unexpected SCP directory"
  scpNote (.made path)
  let made ← scpAttempt (host.mkdir path 0o700)
  scpTolerate (·.exist) made
  let info ← scpAttempt (host.stat path)
  scpRefuse (¬info.toOption.any (·.dir)) "SCP destination is not a directory"
  scpCall host.ack
  scpNote (.entered path)
  enter path
  scpChange (made.isOk || options.preserve) (.modeChanged path) (host.chmod path entry.mode)

/-- The link is not followed that a directory entry chose. -/
def checkLink (path : Str) : Scp σ Unit := do
  let info ← scpAttempt (host.lstat path)
  let symlink := info.toOption.any (·.symlink)
  scpNote (.checked path symlink)
  scpRefuse (symlink = true) "SCP destination is a symbolic link"

def keepTimes (path : Str) (times : Option ScpTimes) : Scp σ Unit :=
  match times with
  | none => pure ()
  | some times => scpChange options.preserve (.timesChanged path) (host.chtimes path times.accessed times.modified)

def receiveOne (enter : Str → Scp σ Unit) (isDirectory : Bool) (path : Str) (entry : ScpEntry) : Scp σ Unit :=
  if isDirectory then receiveDirectory host options enter path entry
  else receiveFile host options path entry.size.toNat entry.mode

/-- What a `C` or `D` record does. -/
def receiveEntry (enter : Str → Scp σ Unit) (isDirectory : Bool) (path : Str) (entry : ScpEntry)
    (times : Option ScpTimes) : Scp σ Unit := do
  checkLink host path
  receiveOne host options enter isDirectory path entry
  keepTimes host options path times

/-- `loop` reads the records. -/
def receiveEntries (loop : Str → Bool → Nat → Bool → Nat → Option ScpTimes → Scp σ Unit) (target : Str)
    (isDir : Bool) (depth : Nat) (nested : Bool) : Scp σ Unit := do
  scpRefuse (depth > 128) "SCP directory nesting exceeds limit"
  loop target isDir depth nested 0 none

def recordEnd : Str := [69]

/-- The path of an entry. -/
def scpPath (isDir : Bool) (target name : Str) : Str := if isDir then pathJoin target name else target

/-- One record that is not empty, and the records after it, which `loop` reads. -/
def receiveRecord (loop : Str → Bool → Nat → Bool → Nat → Option ScpTimes → Scp σ Unit) (target : Str) (isDir : Bool)
    (depth : Nat) (nested : Bool) (count : Nat) (times : Option ScpTimes) (kind : UInt8) (fields : Str) : Scp σ Unit :=
  if kind = 1 ∨ kind = 2 then scpFail (scpText "SCP sender aborted")
  else if kind = 69 then do
    scpRefuse (kind :: fields ≠ recordEnd ∨ nested = false) "unexpected SCP directory end"
    scpCall host.ack
  else if kind = 84 then do
    let times ← ofParse (scpTimes fields)
    scpCall host.ack
    loop target isDir depth nested count (some times)
  else if kind = 67 ∨ kind = 68 then do
    let entry ← ofParse (scpEntry isDir count fields)
    let path := scpPath isDir target entry.name
    receiveEntry host options (fun path => receiveEntries loop path true (depth + 1) true) (kind = 68) path entry times
    loop target isDir depth nested (count + 1) none
  else scpFail (scpText "invalid SCP record")

/-- The records of one directory, or of the target. -/
def receiveLoop : Nat → Str → Bool → Nat → Bool → Nat → Option ScpTimes → Scp σ Unit
  | 0, _, _, _, _, _, _ => throw .outOfFuel
  | fuel + 1, target, isDir, depth, nested, count, times => do
    let (line, err) ← readSlice
    if err = some .eof ∧ nested = false ∧ line = [] then pure ()
    else match err with
      | some err => scpFail err.text
      | none => do
        let text := line.dropLast
        scpNote (.record text)
        match text with
        | [] => scpFail (scpText "empty SCP record")
        | kind :: fields => receiveRecord host options (receiveLoop fuel) target isDir depth nested count times kind fields

def receive (target : Str) : Scp σ Unit := do
  let info ← scpAttempt (host.stat target)
  let isDir := info.toOption.any (·.dir)
  scpTolerate (·.notExist) info
  scpRefuse (options.directory ∧ isDir = false) "SCP target must be a directory"
  scpCall host.ack
  let s ← get
  receiveEntries (receiveLoop host options (s.input.length + 1)) target isDir 0 false

end Receive

/-- How a session ends, and what it did. -/
def scpSession (host : ScpHost σ φ) (options : ScpOptions) (target : Str) (input : Str) (ends : Option Str) (world : σ) :
    Option ScpError × List ScpOp :=
  match receive host options target ⟨input, ends, world, []⟩ with
  | .ok _ s => (none, s.ops)
  | .error e s => (some e, s.ops)

end Webshell
