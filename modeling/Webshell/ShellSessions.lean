import Mathlib
import Webshell.Machine
import Webshell.Text

/-!
# The interactive shells

Shells are opened and closed by many goroutines. A step is one holding of a
lock, or what a goroutine does between two of them; a shell keeps its place in
the list after it left the map.
-/

namespace Webshell

open GoText

structure ShellSize where
  Cols : Int
  Rows : Int
  PixelWidth : Int
  PixelHeight : Int

def ShellSize.Validate (s : ShellSize) : Option String :=
  if s.Cols < 1 ∨ s.Rows < 1 ∨ s.Cols > 4096 ∨ s.Rows > 4096 ∨ s.Cols * s.Rows > 1048576 ∨ s.PixelWidth < 0 ∨ s.PixelHeight < 0 ∨
      s.PixelWidth > 65535 ∨ s.PixelHeight > 65535 then
    some "invalid terminal size"
  else none

structure ShellOptions where
  Term : String
  Size : ShellSize
  Execute : Bool := false

/-- What is refused before anything is locked. -/
def ShellOptions.refused (options : ShellOptions) (ssh ctxErr : Bool) : Option String :=
  match options.Size.Validate with
  | some err => some err
  | none =>
    if byteLength options.Term = 0 ∨ 64 < byteLength options.Term then some "invalid terminal type"
    else if options.Term.toList.any fun ch => ch.toNat < 33 || 126 < ch.toNat then some "invalid terminal type"
    else if ctxErr = true then some "context canceled"
    else if options.Execute = true ∧ ssh = false then some "command execution unavailable"
    else none

/-! ## One shell -/

/-- Where `open` is that started the shell. -/
inductive Opening
  | started
  | armed
  | stopSet
  | failing (err : String)
  | returned (err : Option String)
  deriving DecidableEq

/-- Where the one `Close` of the shell is. -/
inductive ShellClosing
  | never
  | marked
  | killed (err : Option String)
  | waited (err : Option String)
  | done (err : Option String)
  deriving DecidableEq

/-- What `context.AfterFunc` was asked for. -/
inductive AfterFunc
  | unset
  | waiting
  | stopped
  | fired
  deriving DecidableEq

structure ShellSession where
  ctxDone : Bool := false
  opening : Opening := .started
  after : AfterFunc := .unset
  closed : Bool := false
  closing : ShellClosing := .never
  /-- `done` is closed: the command was waited for. -/
  exited : Bool := false
  deriving DecidableEq

inductive ShellEvent
  | ctxEnds
  | exits
  | close
  | arm
  | setStop
  | resize (err : Option String)
  | closeFailed
  | fire
  | kill (err : Option String)
  | wait
  | waitTimeout
  | finish
  deriving DecidableEq

/-- What happens by itself, and not because someone outside asks for it. -/
def ShellEvent.internal : ShellEvent → Bool
  | .ctxEnds | .exits | .close => false
  | _ => true

namespace ShellSession

def stopAfter (s : ShellSession) : ShellSession := if s.after = .waiting then { s with after := .stopped } else s

/-- `stop` is kept by the shell once `open` has set it. -/
def hasStop (s : ShellSession) : Bool := s.opening ≠ .started && s.opening ≠ .armed

/-- `Close`, up to the end of its first holding of the lock; it does this once. -/
def beginClose (s : ShellSession) : ShellSession :=
  if s.closing = .never then
    let s := { s with closing := .marked, closed := true }
    if s.hasStop = true then s.stopAfter else s
  else s

def step (s : ShellSession) : ShellEvent → Option ShellSession
  | .ctxEnds => if s.ctxDone = true then none else some { s with ctxDone := true }
  | .exits => if s.exited = true then none else some { s with exited := true }
  | .close => some s.beginClose
  | .arm => if s.opening = .started then some { s with opening := .armed, after := .waiting } else none
  | .setStop =>
    if s.opening = .armed then
      let s := { s with opening := .stopSet }
      some (if s.closed = true then s.stopAfter else s)
    else none
  | .resize err =>
    if s.opening = .stopSet then
      if s.closed = true then some { s with opening := .failing "terminal session closed" }
      else
        match err with
        | none => some { s with opening := .returned none }
        | some err => some { s with opening := .failing err }
    else none
  | .closeFailed =>
    match s.opening, s.closing with
    | .failing _, .never => some s.beginClose
    | .failing err, .done _ => some { s with opening := .returned (some err) }
    | _, _ => none
  | .fire => if s.after = .waiting ∧ s.ctxDone = true then some { s.beginClose with after := .fired } else none
  | .kill err => if s.closing = .marked then some { s with closing := .killed err } else none
  | .wait =>
    match s.closing with
    | .killed err => if s.exited = true then some { s with closing := .waited err } else none
    | _ => none
  | .waitTimeout =>
    match s.closing with
    | .killed _ => some { s with closing := .waited (some "terminal process cleanup timed out") }
    | _ => none
  | .finish =>
    match s.closing with
    | .waited err => some { s with closing := .done err }
    | _ => none

end ShellSession

/-! ## All of them -/

/-- Where the one `Close` of the shells is. -/
inductive ShellsClosing
  | idle
  | cancelled
  | items (rest : List Nat)
  | done
  deriving DecidableEq

structure ShellSessions where
  /-- `ctx.Err() != nil`. -/
  cancelled : Bool := false
  closed : Bool := false
  failure : Option String := none
  closing : ShellsClosing := .idle
  /-- The shells that are in the map, by their place in `shells`. -/
  sessions : List Nat := []
  shells : List ShellSession := []
  deriving DecidableEq

inductive ShellsEvent
  | cancel
  /-- `ssh` platforms can execute a command; `err` is what starting the PTY came to. -/
  | open (options : ShellOptions) (ssh ctxErr : Bool) (err : Option String)
  | close
  | shell (id : Nat) (event : ShellEvent)
  /-- `Close` runs because the context has ended. -/
  | closeFires
  /-- The map is read in some order. -/
  | closeSnapshot (order : List Nat)
  | closeNext

def ShellsEvent.internal : ShellsEvent → Bool
  | .shell _ event => event.internal
  | .closeFires | .closeSnapshot _ | .closeNext => true
  | _ => false

namespace ShellSessions

/-- `open`, up to the end of its holding of the lock. -/
def opens (s : ShellSessions) (options : ShellOptions) (ssh ctxErr : Bool) (err : Option String) :
    ShellSessions × Except String Nat :=
  match options.refused ssh ctxErr with
  | some err => (s, .error err)
  | none =>
    if s.closed = true ∨ s.failure ≠ none ∨ s.cancelled = true ∨ ctxErr = true then (s, .error "terminal access disabled")
    else if 32 ≤ s.sessions.length then (s, .error "too many terminal sessions")
    else
      match err with
      | some err => (s, .error err)
      | none => ({ s with sessions := s.sessions ++ [s.shells.length], shells := s.shells ++ [{}] }, .ok s.shells.length)

/-- `Close` of a shell holds the lock of all of them at its end. -/
def finished (s : ShellSessions) (id : Nat) : ShellClosing → ShellSessions
  | .done (some err) => { s with failure := some err }
  | .done none => { s with sessions := s.sessions.erase id }
  | _ => s

def shellStep (s : ShellSessions) (id : Nat) (event : ShellEvent) : Option ShellSessions :=
  match s.shells[id]? with
  | none => none
  | some shell =>
    (shell.step event).map fun shell =>
      let s := { s with shells := s.shells.set id shell }
      if event = .finish then s.finished id shell.closing else s

end ShellSessions

def shellsMachine : Machine ShellSessions ShellsEvent where
  step s
    | .cancel => some { s with cancelled := true }
    | .open options ssh ctxErr err => some (s.opens options ssh ctxErr err).1
    | .close => some (if s.closing = .idle then { s with cancelled := true, closing := .cancelled } else s)
    | .shell id event => s.shellStep id event
    | .closeFires => if s.cancelled = true ∧ s.closing = .idle then some { s with closing := .cancelled } else none
    | .closeSnapshot order =>
      if s.closing = .cancelled ∧ order.Perm s.sessions then some { s with closed := true, closing := .items order } else none
    | .closeNext =>
      match s.closing with
      | .items [] => some { s with closing := .done }
      | .items (id :: rest) =>
        match (s.shells[id]?).map ShellSession.closing with
        | some .never => s.shellStep id .close
        | some (.done _) => some { s with closing := .items rest }
        | _ => none
      | _ => none

end Webshell
