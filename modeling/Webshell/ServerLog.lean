import Webshell.GoBytes
import Webshell.LogWriter

/-!
# The server log

What is published to the hub is cut into lines, and every line that is not
blank becomes an event. In its message the values of some keys are replaced.
-/

namespace Webshell

open GoBytes

def logBytes (text : String) : Str := text.toList.map fun c => UInt8.ofNat c.toNat

/-! ## Redaction -/

def sensitiveWords : List Str := ["authorization", "token", "cookie", "password", "credential"].map logBytes

/-- What `(?i)` reads as one letter: both cases, and the Kelvin sign and the long s. -/
def letterUnits (letter : UInt8) : List Str :=
  [[letter], [letter - 32]] ++
    (if letter = 107 then [[0xe2, 0x84, 0xaa]] else if letter = 115 then [[0xc5, 0xbf]] else [])

def folds : Str → Str → Bool
  | [], key => key.isEmpty
  | letter :: word, key => (letterUnits letter).any fun unit => unit.isPrefixOf key && folds word (key.drop unit.length)

def isSensitive (key : Str) : Bool := sensitiveWords.any (folds · key)

/-- A match of `serverLogSensitiveValuePattern` at the front: its key, and what stands behind its value. No key has
an equals sign in it, so that it ends before the first one. -/
def sensitiveMatch (s : Str) : Option (Str × Str) :=
  if isSensitive (s.takeWhile (· ≠ 61)) then
    match s.dropWhile (· ≠ 61) with
    | 61 :: b :: rest => if b = 32 then none else some (s.takeWhile (· ≠ 61), rest.dropWhile (· ≠ 32))
    | _ => none
  else none

/-- `ReplaceAllString`; every turn takes something away. -/
def redactFrom : Nat → Str → Str
  | 0, s => s
  | fuel + 1, s =>
    match sensitiveMatch s, s with
    | some (key, rest), _ => key ++ logBytes "=[redacted]" ++ redactFrom fuel rest
    | none, [] => []
    | none, b :: s => b :: redactFrom fuel s

def redactServerLog (message : Str) : Str := redactFrom message.length message

/-! ## Events -/

/-- `strings.ToLower`, as far as it comes to ASCII letters. -/
def lowerLetters : Str → Str
  | 0xc4 :: 0xb0 :: s => 105 :: lowerLetters s
  | 0xe2 :: 0x84 :: 0xaa :: s => 107 :: lowerLetters s
  | b :: s => (if 65 ≤ b.toNat ∧ b.toNat ≤ 90 then b + 32 else b) :: lowerLetters s
  | [] => []

def classifyServerLogLevel (message : Str) : String :=
  let lower := lowerLetters message
  if ["fatal", "panic", "error", "failed"].any fun word => logBytes word <:+: lower then "error"
  else if ["warn", "retry"].any fun word => logBytes word <:+: lower then "warn"
  else "info"

structure ServerLogEvent where
  Sequence : Nat
  UnixMS : Int
  Level : String
  Source : Str
  Message : Str
  deriving DecidableEq

def serverLogHistoryLimit : Nat := 512

/-- `published` is what subscribers have been sent; `history` is the end of it. -/
structure ServerLogHub where
  sequence : Nat := 0
  history : List ServerLogEvent := []
  published : List ServerLogEvent := []
  deriving DecidableEq

namespace ServerLogHub

/-- `strings.ReplaceAll(text, "\r\n", "\n")`. -/
def newlines : Str → Str
  | 13 :: 10 :: s => 10 :: newlines s
  | b :: s => b :: newlines s
  | [] => []

/-- The text of an event, before it is redacted. -/
def limited (line : Str) : Str :=
  if serverLogMessageLimit < line.length then line.take serverLogMessageLimit ++ logBytes "..." else line

/-- One line; `now` is the clock at each event. -/
def appendLine (now : Nat → Int) (source : Str) (h : ServerLogHub) (line : Str) : ServerLogHub :=
  let line := trimSpace line
  if line = [] then h
  else
    let sequence := (h.sequence + 1) % 2 ^ 64
    let event : ServerLogEvent := {
      Sequence := sequence, UnixMS := now h.published.length, Level := classifyServerLogLevel (limited line)
      Source := trimSpace source, Message := redactServerLog (limited line) }
    let history := h.history ++ [event]
    { sequence := sequence, published := h.published ++ [event]
      history := history.drop (history.length - serverLogHistoryLimit) }

def appendTextLocked (now : Nat → Int) (source : Str) (h : ServerLogHub) (text : Str) : ServerLogHub :=
  ((newlines text).splitOn 10).foldl (appendLine now source) h

end ServerLogHub

namespace LogWriter

def flush (w : LogWriter) : LogWriter :=
  if trimSpace w.pending ≠ [] then { w.publish w.pending with pending := [] } else { w with pending := [] }

/-- The hub of a writer that has been written to and flushed. -/
def hub (now : Nat → Int) (source : Str) (data : List Str) : ServerLogHub :=
  (writes data).flush.published.foldl (ServerLogHub.appendTextLocked now source) {}

end LogWriter

/-! ## Messages -/

/-- The message of a line, or none. -/
def lineMessage (line : Str) : List Str :=
  if trimSpace line = [] then [] else [redactServerLog (ServerLogHub.limited (trimSpace line))]

namespace ServerLogHub

variable (now : Nat → Int) (source : Str)

def messages (h : ServerLogHub) : List Str := h.published.map (·.Message)

theorem messages_appendLine (h : ServerLogHub) (line : Str) :
    (h.appendLine now source line).messages = h.messages ++ lineMessage line := by
  unfold appendLine lineMessage
  by_cases hblank : trimSpace line = []
  · simp only [hblank, if_true, List.append_nil]
  · simp only [hblank, if_false]
    unfold messages
    rw [List.map_append]
    rfl

theorem messages_foldl (lines : List Str) (h : ServerLogHub) :
    (lines.foldl (appendLine now source) h).messages = h.messages ++ lines.flatMap lineMessage := by
  induction lines generalizing h with
  | nil => simp
  | cons line lines ih =>
    rw [List.foldl_cons, ih, messages_appendLine, List.flatMap_cons, List.append_assoc]

theorem newlines_of_not_mem {text : Str} (h : 10 ∉ text) : newlines text = text := by
  induction text using newlines.induct with
  | case1 s => simp at h
  | case2 b s _ ih =>
    rw [newlines, ih fun hm => h (List.mem_cons_of_mem _ hm)]
    rintro s' rfl rfl
    simp at h
  | case3 => rfl

/-- A text without a newline is one line. -/
theorem messages_append_line {text : Str} (h : 10 ∉ text) (hub : ServerLogHub) :
    (hub.appendTextLocked now source text).messages = hub.messages ++ lineMessage text := by
  unfold appendTextLocked
  rw [newlines_of_not_mem h, List.splitOn_eq_singleton h, messages_foldl, List.flatMap_singleton]

theorem messages_append_lines {texts : List Str} (h : ∀ text ∈ texts, 10 ∉ text) (hub : ServerLogHub) :
    (texts.foldl (appendTextLocked now source) hub).messages = hub.messages ++ texts.flatMap lineMessage := by
  induction texts generalizing hub with
  | nil => simp
  | cons text texts ih =>
    rw [List.foldl_cons, ih fun x hx => h x (List.mem_cons_of_mem _ hx),
      messages_append_line now source (h text (List.mem_cons_self ..)), List.flatMap_cons, List.append_assoc]

end ServerLogHub

end Webshell
