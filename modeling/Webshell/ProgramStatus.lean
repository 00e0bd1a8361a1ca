import Webshell.PaneQueries

/-!
# What a program says about its work

A tracker reads the pane's output for the OSC strings in which programs report
their state, and counts the turns that were finished. A source of low priority
does not overrule one of high priority until the state is cleared.
-/

namespace Webshell

open GoText

inductive ProgramState
  | unset
  | idle
  | working
  | blocked
  | done
  | error
  deriving DecidableEq

structure ProgramStatus where
  state : ProgramState := .unset
  revision : Nat := 0
  completed : Nat := 0
  completedOffset : Nat := 0
  deriving DecidableEq

/-- The values of `scanner`, from 0 to 5. -/
inductive StatusScanner
  | ground
  | escape
  | osc
  | oscEscape
  | string
  | stringEscape
  deriving DecidableEq

structure ProgramStatusTracker extends ProgramStatus where
  source : Nat := 0
  scanner : StatusScanner := .ground
  pending : Bytes := []
  overflow : Bool := false
  titleSpinner : Bool := false
  /-- Nanoseconds of the clock. -/
  updatedAt : Nat := 0
  outputOffset : Nat := 0
  deriving DecidableEq

namespace ProgramStatusTracker

def set (s : ProgramStatusTracker) (state : ProgramState) (source now : Nat) : ProgramStatusTracker :=
  if source < s.source then s
  else
    let s := { s with source := source, updatedAt := now }
    if state = s.state then s
    else
      let s :=
        if state = .done ∨ (state = .idle ∧ s.state = .working) then
          { s with completed := s.completed + 1, completedOffset := s.outputOffset }
        else s
      { s with state := state, revision := s.revision + 1 }

def clear (s : ProgramStatusTracker) (now : Nat) : ProgramStatusTracker :=
  let s := if s.state ≠ .error then s.set .unset s.source now else s
  { s with source := 0, titleSpinner := false }

end ProgramStatusTracker

/-! ## Titles -/

/-- The code point of the sequence of `size` bytes a text begins with; U+FFFD for an invalid byte. -/
def decodeRune (data : Bytes) (size : Nat) : Char :=
  match size, data.map UInt8.toNat with
  | 1, b :: _ => if b < 0x80 then Char.ofNat b else '\ufffd'
  | 2, b :: c :: _ => Char.ofNat (b % 32 * 64 + c % 64)
  | 3, b :: c :: d :: _ => Char.ofNat (b % 16 * 4096 + c % 64 * 64 + d % 64)
  | 4, b :: c :: d :: e :: _ => Char.ofNat (b % 8 * 262144 + c % 64 * 4096 + d % 64 * 64 + e % 64)
  | _, _ => '\ufffd'

def runesFrom : Nat → Bytes → List Char
  | 0, _ => []
  | _ + 1, [] => []
  | fuel + 1, b :: rest =>
    let size := decodeRuneSize (b :: rest)
    decodeRune (b :: rest) size :: runesFrom fuel ((b :: rest).drop size)

/-- The text of a Go string. What a payload is compared with is ASCII, which no other bytes decode to. -/
def runes (data : Bytes) : String := String.ofList (runesFrom data.length data)

/-- A letter of a pattern against one of the text, under `(?i)`. -/
def foldsTo (p c : Char) : Bool := c = p || c = p.toUpper || (p = 'k' && c = '\u212a') || (p = 's' && c = '\u017f')

/-- What follows a literal of a pattern. -/
def foldPrefix : List Char → List Char → Option (List Char)
  | [], text => some text
  | p :: ps, c :: cs => if foldsTo p c then foldPrefix ps cs else none
  | _ :: _, [] => none

/-- `\s`. -/
def isPatternSpace (c : Char) : Bool := c = '\t' || c = '\n' || c = '\x0c' || c = '\r' || c = ' '

/-- `(?i)^(words)(\s*[|·—-]|$)`. -/
def titleBegins (words : List String) (title : List Char) : Bool :=
  words.any fun word =>
    match foldPrefix word.toList title with
    | none => false
    | some rest => rest = [] || (rest.dropWhile isPatternSpace).head?.any fun c => ['|', '·', '—', '-'].contains c

def programWorkingTitle : List Char → Bool := titleBegins ["working", "thinking", "running", "processing", "starting"]

def programReadyTitle : List Char → Bool := titleBegins ["ready", "idle", "done", "complete", "completed"]

def programErrorTitle : List Char → Bool := titleBegins ["error", "failed"]

/-- `^(\[\s*[!.]\s*\]\s*)?`; nothing that follows it begins with a bracket or a space. -/
def dropMark (title : List Char) : List Char :=
  match title with
  | '[' :: inner =>
    match inner.dropWhile isPatternSpace with
    | c :: inner =>
      match inner.dropWhile isPatternSpace with
      | ']' :: rest => if c = '!' ∨ c = '.' then rest.dropWhile isPatternSpace else title
      | _ => title
    | [] => title
  | _ => title

def isWordChar (c : Char) : Bool :=
  ('0' ≤ c && c ≤ '9') || ('A' ≤ c && c ≤ 'Z') || ('a' ≤ c && c ≤ 'z') || c = '_'

/-- The phrases end with a letter, so that `\b` asks only what follows. -/
def programBlockedTitle (title : List Char) : Bool :=
  ["action required", "waiting for input", "waiting for permission", "waiting for approval"].any fun phrase =>
    match foldPrefix phrase.toList (dropMark title) with
    | none => false
    | some rest => rest.head?.all fun c => !isWordChar c

def programSpinner (title : List Char) : Bool := title.head?.any fun c => "⠋⠙⠹⠸⠼⠴⠦⠧⠇⠏".toList.contains c

/-! ## The OSC strings -/

/-- What an OSC string asks for. -/
inductive StatusCall
  | set (state : ProgramState) (source : Nat)
  | clear
  deriving DecidableEq

namespace ProgramStatusTracker

def osc7501 (body : String) : Option StatusCall :=
  match (split body ':').findSome? fun field => afterTag field "state=" with
  | some "idle" => some (.set .idle 3)
  | some "working" => some (.set .working 3)
  | some "blocked" => some (.set .blocked 3)
  | some "done" => some (.set .done 3)
  | some "error" => some (.set .error 3)
  | some "clear" => some .clear
  | _ => none

def osc21337 (s : ProgramStatusTracker) (body : String) : Option StatusCall :=
  match afterTag (String.ofList (body.toList.takeWhile (· ≠ ';'))) "status=" with
  | some "Working" => some (.set .working 2)
  | some "Waiting" => some (.set .blocked 2)
  | some "Idle" => if s.state = .working then some (.set .done 2) else some (.set .idle 2)
  | some "Error" => some (.set .error 2)
  | some "" => if s.source ≤ 2 then some .clear else none
  | _ => none

def osc9 (s : ProgramStatusTracker) (body : String) : Option StatusCall :=
  match split body ';' with
  | "4" :: progress :: _ =>
    match progress with
    | "1" | "3" => some (.set .working 2)
    | "2" => some (.set .error 2)
    | "4" => some (.set .blocked 2)
    | "0" =>
      if s.state = .working then some (.set .done 2)
      else if s.state ≠ .done ∧ s.state ≠ .error then some (.set .idle 2)
      else none
    | _ => none
  | _ => none

def osc133 (body : String) : Option StatusCall :=
  match split body ';' with
  | "C" :: _ => some (.set .working 1)
  | "D" :: code :: _ =>
    match atoi code with
    | none => none
    | some code => if code ≠ 0 then some (.set .error 1) else some (.set .done 1)
  | ["D"] => some (.set .done 1)
  | _ => none

def oscTitle (s : ProgramStatusTracker) (body : String) : Option StatusCall :=
  if 1 < s.source then none
  else
    let title := (trimSpace body).toList
    if programBlockedTitle title = true then some (.set .blocked 1)
    else if programSpinner title = true ∨ programWorkingTitle title = true then some (.set .working 1)
    else if programErrorTitle title = true then some (.set .error 1)
    else if programReadyTitle title = true ∨ (s.titleSpinner = true ∧ s.state = .working ∧ title ≠ []) then
      if s.state = .working then some (.set .done 1)
      else if s.state ≠ .done ∧ s.state ≠ .error then some (.set .idle 1)
      else none
    else none

/-- `strings.Cut(payload, ";")`. -/
def cutPayload (payload : Bytes) : Option (String × String) :=
  let text := (runes payload).toList
  if ';' ∈ text then
    some (String.ofList (text.takeWhile (· ≠ ';')), String.ofList ((text.dropWhile (· ≠ ';')).drop 1))
  else none

def isTitle (code : String) : Bool := code = "0" || code = "2"

/-- The call of `set` or `clear`, where the payload comes to one. -/
def oscCall (s : ProgramStatusTracker) (payload : Bytes) : Option StatusCall :=
  match cutPayload payload with
  | none => none
  | some (code, body) =>
    if code = "7501" then osc7501 body
    else if code = "21337" then s.osc21337 body
    else if code = "9" then s.osc9 body
    else if code = "133" then osc133 body
    else if isTitle code = true then s.oscTitle body
    else none

def call (s : ProgramStatusTracker) (now : Nat) : Option StatusCall → ProgramStatusTracker
  | none => s
  | some (.set state source) => s.set state source now
  | some .clear => s.clear now

/-- `titleSpinner` after a payload. -/
def oscSpinner (s : ProgramStatusTracker) (payload : Bytes) (spinner : Bool) : Bool :=
  match cutPayload payload with
  | none => spinner
  | some (code, body) =>
    if isTitle code = true ∧ s.source ≤ 1 then programSpinner (trimSpace body).toList else spinner

def observeOSC (s : ProgramStatusTracker) (payload : Bytes) (now : Nat) : ProgramStatusTracker :=
  let next := s.call now (s.oscCall payload)
  { next with titleSpinner := s.oscSpinner payload next.titleSpinner }

/-! ## The scanner -/

def maxPendingStatus : Nat := 4096

/-- A byte of an OSC string. -/
def oscByte (s : ProgramStatusTracker) (ch : UInt8) (now : Nat) : ProgramStatusTracker :=
  if ch = bel ∨ (s.scanner = .oscEscape ∧ ch = code '\\') then
    let s := if s.overflow = true then s else s.observeOSC s.pending now
    { s with scanner := .ground, pending := [] }
  else
    -- an ESC that ends nothing
    let s := if s.scanner = .oscEscape then { s with overflow := true } else s
    if ch = esc then { s with scanner := .oscEscape }
    else if s.pending.length < maxPendingStatus ∧ s.overflow = false then
      { s with scanner := .osc, pending := s.pending ++ [ch] }
    else { s with scanner := .osc, overflow := true }

def scanByte (s : ProgramStatusTracker) (ch : UInt8) (now : Nat) : ProgramStatusTracker :=
  match s.scanner with
  | .ground => if ch = esc then { s with scanner := .escape } else s
  | .escape =>
    if ch = code ']' then { s with scanner := .osc, pending := [], overflow := false }
    else if ch = code 'P' ∨ ch = code '_' ∨ ch = code '^' ∨ ch = code 'X' then { s with scanner := .string }
    else if ch = esc then s
    else { s with scanner := .ground }
  | .osc | .oscEscape => s.oscByte ch now
  | .string => if ch = esc then { s with scanner := .stringEscape } else s
  | .stringEscape =>
    if ch = code '\\' then { s with scanner := .ground }
    else if ch ≠ esc then { s with scanner := .string }
    else s

/-- The loop of `write`, with the offset of each byte and the time when it is read. -/
def write (s : ProgramStatusTracker) : Bytes → Nat → (Nat → Nat) → ProgramStatusTracker
  | [], _, _ => s
  | ch :: data, startOffset, now =>
    ({ s with outputOffset := startOffset + 1 }.scanByte ch (now 0)).write data (startOffset + 1) fun index => now (index + 1)

/-- The activity scan finds no foreground program. -/
def handOff (s : ProgramStatusTracker) (busy : Bool) (scanStartedAt now : Nat) : ProgramStatusTracker :=
  if busy = false ∧ ¬ scanStartedAt < s.updatedAt ∧ (s.state = .working ∨ s.state = .blocked) then s.clear now else s

end ProgramStatusTracker

end Webshell
