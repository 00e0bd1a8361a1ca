import Webshell.Scanner
import Webshell.Text
import Webshell.Checkpoint

/-!
# Terminal queries

The agent answers some terminal queries itself and takes them out of the
output. A read may end inside a sequence: what could still become a query is
held until the next read.
-/

namespace Webshell

open Scanner GoText

def code (c : Char) : UInt8 := c.toNat.toUInt8

/-- The bytes of an ASCII text. -/
def ascii (s : String) : Bytes := s.toList.map code

def esc : UInt8 := 0x1b

def bel : UInt8 := 0x07

def maxPendingTerminalQuery : Nat := 64

def maxPendingKittyGraphicsQuery : Nat := 4096

def primaryDeviceAttributesResponse : Bytes := ascii "\x1b[?1;2c"

def secondaryDeviceAttributesResponse : Bytes := ascii "\x1b[>0;0;0c"

def programStatusSupportResponse : Bytes := ascii "\x1b]7501;?\x1b\\"

def defaultTerminalForegroundColor : String := "#00cd00"

def defaultTerminalBackgroundColor : String := "#000000"

def defaultTerminalCursorColor : String := "#00cd00"

structure TerminalColors where
  terminalForegroundColor : String := ""
  terminalBackgroundColor : String := ""
  terminalCursorColor : String := ""
  deriving DecidableEq

/-- What the filter does besides passing output on. -/
inductive QueryAction
  | expectGeneratedInput (data : Bytes) (count : Nat)
  | writeGeneratedInput (data : Bytes)
  | expectGeneratedCursorReport (count : Nat)
  deriving DecidableEq

/-! ## Terminators -/

def indexByte (data : Bytes) (b : UInt8) : Option Nat := data.findIdx? (· = b)

/-- `bytes.Cut` at one byte. -/
def cut (data : Bytes) (sep : UInt8) : Option (Bytes × Bytes) :=
  (indexByte data sep).map fun i => (data.take i, data.drop (i + 1))

/-- The end of the first terminator from `index` on: `ESC \`, or BEL where that is one. -/
def findTerminator (bell : Bool) : Nat → Bytes → Option Nat
  | _, [] => none
  | index, b :: rest =>
    if bell && b = bel then some (index + 1)
    else if b = esc ∧ rest.head? = some (code '\\') then some (index + 2)
    else findTerminator bell (index + 1) rest

def findOSCTerminator (sequence : Bytes) : Option Nat :=
  if sequence.length < 2 ∨ sequence[0]? ≠ some esc ∨ sequence[1]? ≠ some (code ']') then none
  else findTerminator true 2 (sequence.drop 2)

def findAPCTerminator (sequence : Bytes) : Option Nat :=
  if sequence.length < 3 ∨ sequence[0]? ≠ some esc ∨ sequence[1]? ≠ some (code '_') then none
  else findTerminator false 2 (sequence.drop 2)

/-- The final byte of a control sequence, looked for up to the limit. -/
def findFinal : Nat → Bytes → Option Nat
  | _, [] => none
  | i, b :: rest =>
    if 0x40 ≤ b ∧ b ≤ 0x7e then some i
    else if maxPendingTerminalQuery ≤ i then none
    else findFinal (i + 1) rest

/-! ## Responses -/

def terminalQueryResponse (sequence : Bytes) : Option Bytes :=
  if sequence.length < 3 ∨ sequence[0]? ≠ some esc ∨ sequence[1]? ≠ some (code '[') ∨
      sequence.getLast? ≠ some (code 'c') then none
  else
    let params := (sequence.drop 2).dropLast
    if params = [] ∨ params = ascii "0" then some primaryDeviceAttributesResponse
    else if params = ascii ">" ∨ params = ascii ">0" then some secondaryDeviceAttributesResponse
    else none

def isColorDigit (c : Char) : Bool :=
  ('0' ≤ c && c ≤ '9') || ('a' ≤ c && c ≤ 'f') || ('A' ≤ c && c ≤ 'F')

def normalizeTerminalHexColor (value fallback : String) : String :=
  let value := (trimSpace value).toList
  let value := if value.head? = some '#' then value.drop 1 else value
  if byteLength (String.ofList value) ≠ 6 ∨ value.all isColorDigit = false then fallback
  else String.ofList ('#' :: value.map Char.toLower)

def terminalOSCColorResponse (number color : String) : Bytes :=
  let color := ascii (normalizeTerminalHexColor color defaultTerminalForegroundColor)
  let twice := fun i => (color.drop i).take 2 ++ (color.drop i).take 2
  ascii "\x1b]" ++ ascii number ++ ascii ";rgb:" ++ twice 1 ++ ascii "/" ++ twice 3 ++ ascii "/" ++ twice 5 ++ [bel]

namespace TerminalColors

variable (c : TerminalColors)

def terminalForegroundColorValue : String := normalizeTerminalHexColor c.terminalForegroundColor defaultTerminalForegroundColor

def terminalBackgroundColorValue : String := normalizeTerminalHexColor c.terminalBackgroundColor defaultTerminalBackgroundColor

def terminalCursorColorValue : String := normalizeTerminalHexColor c.terminalCursorColor defaultTerminalCursorColor

/-- The answer to the text of an operating system command. -/
def oscAnswer (text : Bytes) : Option Bytes :=
  if text = ascii "7501;?" then some programStatusSupportResponse
  else if text = ascii "10;?" then some (terminalOSCColorResponse "10" c.terminalForegroundColorValue)
  else if text = ascii "11;?" then some (terminalOSCColorResponse "11" c.terminalBackgroundColorValue)
  else if text = ascii "12;?" then some (terminalOSCColorResponse "12" c.terminalCursorColorValue)
  else none

def terminalOSCQueryResponse (sequence : Bytes) : Option Bytes :=
  if sequence.length < 7 ∨ sequence[0]? ≠ some esc ∨ sequence[1]? ≠ some (code ']') then none
  else if sequence.getLast? = some bel then c.oscAnswer (sequence.drop 2).dropLast
  else if sequence.dropLast.getLast? = some esc ∧ sequence.getLast? = some (code '\\') then
    c.oscAnswer (sequence.drop 2).dropLast.dropLast
  else none

end TerminalColors

def terminalClientGeneratedResponse (sequence : Bytes) : Option Bytes :=
  if sequence = ascii "\x1b[5n" then some (ascii "\x1b[0n") else none

def isCursorPositionQuery (sequence : Bytes) : Bool := sequence = ascii "\x1b[6n"

def kittyGraphicsQueryControl (control : Bytes) : Bool := ascii "a=q" ∈ control.splitOn (code ',')

/-- The last value given to a key, empty if there is none. -/
def attributes (control : Bytes) (key : String) : Bytes :=
  ((((control.splitOn (code ',')).filterMap (cut · (code '='))).reverse.find? (·.1 = ascii key)).map (·.2)).getD []

def kittyGraphicsMessage (control : Bytes) : Bytes :=
  let transmission := attributes control "t"
  let format := attributes control "f"
  let compression := attributes control "o"
  if transmission ≠ [] ∧ transmission ≠ ascii "d" then ascii "EINVAL: only direct transmission is supported"
  else if format ≠ [] ∧ format ≠ ascii "24" ∧ format ≠ ascii "32" ∧ format ≠ ascii "100" then
    ascii "EINVAL: image format is unsupported"
  else if compression ≠ [] ∧ compression ≠ ascii "z" then ascii "EINVAL: compression is unsupported"
  else ascii "OK"

def kittyGraphicsQueryResponse (sequence : Bytes) : Option Bytes :=
  if sequence.length < 12 ∨ sequence[0]? ≠ some esc ∨ sequence[1]? ≠ some (code '_') then none
  else if sequence.dropLast.getLast? ≠ some esc ∨ sequence.getLast? ≠ some (code '\\') then none
  else
    let body := (sequence.drop 3).dropLast.dropLast
    let control := body.takeWhile (· ≠ code ';')
    let imageID := attributes control "i"
    if attributes control "a" ≠ ascii "q" then none
    else if imageID = [] ∨ imageID.any (fun b => b < code '0' || code '9' < b) then none
    else some (ascii "\x1b_Gi=" ++ imageID ++ ascii ";" ++ kittyGraphicsMessage control ++ ascii "\x1b\\")

/-! ## The filter -/

def answered (response : Bytes) : List QueryAction := [.expectGeneratedInput response 1, .writeGeneratedInput response]

/-- `ESC _`, with the buffer from there on. -/
def graphicsStep (buffer : Bytes) : Decision QueryAction :=
  if buffer.length < 4 then .hold
  else if buffer[2]? ≠ some (code 'G') then .take 1 true []
  else
    match indexByte buffer (code ';') with
    | none => if buffer.length ≤ maxPendingTerminalQuery then .hold else .flush
    | some separator =>
      if !kittyGraphicsQueryControl ((buffer.take separator).drop 3) then .flush
      else
        match findAPCTerminator buffer with
        | none => if buffer.length ≤ maxPendingKittyGraphicsQuery then .hold else .flush
        | some stop =>
          match kittyGraphicsQueryResponse (buffer.take stop) with
          | some response => .take stop false (answered response)
          | none => .take stop true []

/-- What is expected of the client for a sequence that is passed on. -/
def clientActions (sequence : Bytes) : List QueryAction :=
  match terminalClientGeneratedResponse sequence with
  | some response => [.expectGeneratedInput response 1]
  | none => if isCursorPositionQuery sequence then [.expectGeneratedCursorReport 1] else []

/-- `ESC [`. -/
def controlStep (buffer : Bytes) : Decision QueryAction :=
  if buffer.length = 2 then .hold
  else
    match findFinal 2 (buffer.drop 2) with
    | none => if buffer.length ≤ maxPendingTerminalQuery then .hold else .take 1 true []
    | some final =>
      match terminalQueryResponse (buffer.take (final + 1)) with
      | some response => .take (final + 1) false (answered response)
      | none => .take (final + 1) true (clientActions (buffer.take (final + 1)))

/-- `ESC ]`. -/
def oscStep (c : TerminalColors) (buffer : Bytes) : Decision QueryAction :=
  match findOSCTerminator buffer with
  | none => if buffer.length ≤ maxPendingTerminalQuery then .hold else .take 1 true []
  | some stop =>
    match c.terminalOSCQueryResponse (buffer.take stop) with
    | some response => .take stop false (answered response)
    | none => .take stop true []

/-- One turn of the loop; text in front of the next ESC is passed on byte by byte. -/
def queryStep (c : TerminalColors) (buffer : Bytes) : Decision QueryAction :=
  match buffer with
  | [] => .hold
  | b :: rest =>
    if b ≠ esc then .take 1 true []
    else
      match rest with
      | [] => .hold
      | kind :: _ =>
        if kind = code '_' then graphicsStep buffer
        else if kind = code '[' then controlStep buffer
        else if kind = code ']' then oscStep c buffer
        else if kind = code 'Z' then .take 2 false (answered primaryDeviceAttributesResponse)
        else .take 1 true []

structure QueryFilter where
  colors : TerminalColors
  terminalQueryPending : Bytes
  deriving DecidableEq

/-- The filter's new state, the output and what else is done, in order. -/
def QueryFilter.filterTerminalQueryOutput (f : QueryFilter) (data : Bytes) : QueryFilter × Bytes × List QueryAction :=
  if data = [] then (f, [], [])
  else
    let r := run (queryStep f.colors) (f.terminalQueryPending ++ data)
    ({ f with terminalQueryPending := r.pending }, r.output, r.actions)

end Webshell
