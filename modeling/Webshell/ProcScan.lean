import Mathlib.Algebra.Group.Int.Defs
import Mathlib.Data.List.Sort
import Webshell.GoBytes

/-!
# What runs on a terminal

The activity of a terminal is read off the processes of its foreground group.
On the host they are read from `/proc`; in a container a script prints them, one
line for each, and the lines are taken apart again.
-/

namespace Webshell

open GoBytes

structure ProcInfo where
  PID : Int
  Comm : Str
  Cmd : Str := []
  CWD : Str := []
  FD0 : Str := []
  Pgrp : Int
  TTYNr : Int
  TPgid : Int
  deriving DecidableEq

structure PaneActivity where
  TTY : Str
  Busy : Bool := false
  Command : Str := []
  CommandLine : Str := []
  CWD : Str := []
  deriving DecidableEq

def bytesOf (s : String) : Str := s.toList.map fun c => UInt8.ofNat c.toNat

/-- `strconv.Atoi` where the error is not looked at: a number that is too large is the largest there is. -/
def atoiValue (s : Str) : Int :=
  match parseInt64 s with
  | some n => n
  | none =>
    match s with
    | 45 :: rest => if (digitsValue 10 rest).isSome then -2 ^ 63 else 0
    | 43 :: rest => if (digitsValue 10 rest).isSome then 2 ^ 63 - 1 else 0
    | s => if (digitsValue 10 s).isSome then 2 ^ 63 - 1 else 0

/-- What stands before the first of a byte and behind it. -/
def cutFirst (b : UInt8) (s : Str) : Option (Str × Str) :=
  if b ∈ s then some (s.takeWhile (· ≠ b), (s.dropWhile (· ≠ b)).tail) else none

/-- What stands before the last of a byte and behind it. -/
def cutLast (b : UInt8) (s : Str) : Option (Str × Str) :=
  if b ∈ s then some ((s.rdropWhile (· ≠ b)).dropLast, s.rtakeWhile (· ≠ b)) else none

/-- The line of a `stat` file; the last `)` must stand behind the first `(`. -/
def parseProcStat (stat : Str) : Option ProcInfo :=
  match cutFirst 40 (trimSpace stat) with
  | none => none
  | some (front, behind) =>
    match cutLast 41 behind with
    | none => none
    | some (comm, rest) =>
      match spaceFields (trimSpace rest) with
      | _ :: _ :: pgrp :: _ :: ttyNr :: tpgid :: _ =>
        match parseInt64 pgrp, parseInt64 ttyNr, parseInt64 tpgid with
        | some pgrp, some ttyNr, some tpgid =>
          some { PID := atoiValue (trimSpace front), Comm := comm, Pgrp := pgrp, TTYNr := ttyNr, TPgid := tpgid }
        | _, _, _ => none
      | _ => none

/-! ## The activity of a terminal -/

def trimDash (s : Str) : Str := if s.head? = some 45 then s.tail else s

def displayCommand (process : ProcInfo) : Str :=
  match spaceFields process.Cmd with
  | first :: _ => if trimDash (base first) ≠ [] then trimDash (base first) else trimDash (trimSpace process.Comm)
  | [] => trimDash (trimSpace process.Comm)

def idleShells : List Str :=
  ["", "sh", "bash", "dash", "ash", "zsh", "fish", "ksh", "csh", "tcsh", "login", "su", "sudo"].map bytesOf

def isIdleShellCommand (command comm : Str) : Bool :=
  let name := trimDash (trimSpace command)
  idleShells.contains (if name = [] then trimDash (trimSpace comm) else name)

/-- The first process on the terminal that leads it, else the last on it. -/
def findAnchor (tty : Str) : List ProcInfo → Option ProcInfo → Option ProcInfo
  | [], anchor => anchor
  | process :: rest, anchor =>
    if process.FD0 = tty ∧ process.TTYNr ≠ 0 ∧ 0 < process.TPgid then
      if process.Pgrp = process.TPgid then some process else findAnchor tty rest (some process)
    else findAnchor tty rest anchor

/-- The loop over the foreground group of the anchor. -/
def resolveFrom (anchor : ProcInfo) (activity : PaneActivity) : Str → Str → Str → List ProcInfo → PaneActivity
  | fallback, fallbackCommandLine, fallbackCWD, [] =>
    { activity with Command := fallback, CommandLine := fallbackCommandLine, CWD := fallbackCWD }
  | fallback, fallbackCommandLine, fallbackCWD, process :: rest =>
    if process.TTYNr ≠ anchor.TTYNr ∨ process.Pgrp ≠ anchor.TPgid then
      resolveFrom anchor activity fallback fallbackCommandLine fallbackCWD rest
    else
      let display := displayCommand process
      let fallback := if fallback = [] then display else fallback
      let fallbackCommandLine := if fallbackCommandLine = [] then process.Cmd else fallbackCommandLine
      let fallbackCWD := if fallbackCWD = [] then process.CWD else fallbackCWD
      if !isIdleShellCommand display process.Comm then
        { activity with
          Busy := true
          Command := display
          CommandLine := process.Cmd
          CWD := if process.CWD = [] then fallbackCWD else process.CWD }
      else resolveFrom anchor activity fallback fallbackCommandLine fallbackCWD rest

def ResolveTTYActivity (tty : Str) (processes : List ProcInfo) : PaneActivity :=
  match findAnchor tty processes none with
  | none => { TTY := tty }
  | some anchor => resolveFrom anchor { TTY := tty } [] [] [] processes

/-! ## Requested terminals -/

/-- `^/dev/pts/[0-9]+$`. -/
def privateTTY (tty : Str) : Bool :=
  (bytesOf "/dev/pts/").isPrefixOf tty && (tty.drop 9 ≠ []) && (tty.drop 9).all fun b => 48 ≤ b && b ≤ 57

/-- The terminals of `NormalizeActivityTTYs`: each once, in order. -/
def uniqueTTYs (ttys : List Str) : List Str :=
  ttys.foldl (fun unique tty =>
    if !privateTTY (trimSpace tty) || unique.contains (trimSpace tty) then unique else unique ++ [trimSpace tty]) []

/-! ## The process table -/

/-- The name of a process in its `stat` file: the kernel escapes line ends and backslashes. -/
def statName (comm : Str) : Str :=
  comm.flatMap fun b => if b = 10 then [92, 110] else if b = 92 then [92, 92] else [b]

/-- A process in `/proc`. What cannot be read of it is `none`. -/
structure ProcEntry where
  pid : Nat
  /-- The directory. -/
  name : Str
  named : digitsValue 10 name = some pid
  bounded : pid < 2 ^ 63
  /-- The process is gone before its `stat` file is read. -/
  gone : Bool := false
  comm : Str
  /-- What the `stat` file says behind the name. -/
  fields : Str
  oneLine : 10 ∉ fields
  fd0 : Option Str := none
  cwd : Option Str := none
  cmdline : Option Str := none

namespace ProcEntry

def stat (e : ProcEntry) : Str := e.name ++ [32, 40] ++ statName e.comm ++ 41 :: e.fields ++ [10]

def isProcPIDDirName (name : Str) : Bool := name ≠ [] && name.all fun b => 48 ≤ b && b ≤ 57

/-- What a command line has instead of spaces. -/
def spaced (data : Str) : Str := data.map fun b => if b = 0 ∨ b = 9 ∨ b = 10 ∨ b = 13 then 32 else b

def readProcCmdline (e : ProcEntry) : Str := ((e.cmdline.map spaced).map trimSpace).getD []

def readProcLink (target : Option Str) : Str := (target.map trimSpace).getD []

/-! ## On the host -/

/-- A process that has a terminal, as far as it is read at first. -/
def candidate (e : ProcEntry) : Option (ProcInfo × ProcEntry) :=
  if !isProcPIDDirName e.name || e.gone then none
  else
    match parseProcStat e.stat with
    | none => none
    | some info =>
      if info.TTYNr = 0 ∨ info.TPgid ≤ 0 then none else some ({ info with FD0 := readProcLink e.fd0 }, e)

end ProcEntry

/-- The map of terminal numbers to foreground groups; the last entry of a number counts. -/
def foregroundByTTYNr (unique : List Str) (candidates : List (ProcInfo × ProcEntry)) : List (Int × Int) :=
  candidates.foldl (fun foreground c =>
    if unique.contains c.1.FD0 then (c.1.TTYNr, c.1.TPgid) :: foreground else foreground) []

/-- Whether the second loop reads on. -/
def isKept (unique : List Str) (foreground : List (Int × Int)) (info : ProcInfo) : Bool :=
  unique.contains info.FD0 || foreground.lookup info.TTYNr = some info.Pgrp

def byPID (processes : List ProcInfo) : List ProcInfo := processes.mergeSort fun a b => a.PID ≤ b.PID

def scanProcActivities (table : List ProcEntry) (ttys : List Str) : List (Str × PaneActivity) :=
  let unique := uniqueTTYs ttys
  if unique = [] then []
  else
    let candidates := table.filterMap ProcEntry.candidate
    let foreground := foregroundByTTYNr unique candidates
    if foreground = [] then unique.map fun tty => (tty, { TTY := tty })
    else
      let processes := candidates.filterMap fun c =>
        if isKept unique foreground c.1 then
          some { c.1 with Cmd := c.2.readProcCmdline, CWD := ProcEntry.readProcLink c.2.cwd }
        else none
      unique.map fun tty => (tty, ResolveTTYActivity tty (byPID processes))

/-! ## In a container -/

/-- What `$(..)` makes of an output. -/
def substituted (output : Str) : Str := output.rdropWhile (· = 10)

namespace ProcEntry

/-- `$(readlink .. || true)`. -/
def readlink (target : Option Str) : Str := substituted ((target.map (· ++ [10])).getD [])

/-- What `ProcScanScript` prints for a process. -/
def scanLine (e : ProcEntry) : Str :=
  if e.gone then []
  else
    [80] ++ 9 :: e.name ++ 9 :: readlink e.fd0 ++ 9 :: readlink e.cwd ++ 9 :: substituted ((e.cmdline.map spaced).getD []) ++
      9 :: substituted e.stat ++ [10]

end ProcEntry

def procScan (table : List ProcEntry) : Str := table.flatMap ProcEntry.scanLine

def parseProcScanLine (line : Str) : Option ProcInfo :=
  if !([80, 9] : Str).isPrefixOf line then none
  else
    match splitN 9 6 line with
    | [_, pid, fd0, cwd, cmd, stat] =>
      match parseInt64 pid, parseProcStat stat with
      | some pid, some info =>
        some { info with PID := pid, FD0 := trimSpace fd0, CWD := trimSpace cwd, Cmd := trimSpace cmd }
      | _, _ => none
    | _ => none

def ParseProcScanOutput (output : Str) : List ProcInfo := byPID ((output.splitOn 10).filterMap parseProcScanLine)

def scanContainerActivities (table : List ProcEntry) (ttys : List Str) : List (Str × PaneActivity) :=
  let unique := uniqueTTYs ttys
  if unique = [] then []
  else unique.map fun tty => (tty, ResolveTTYActivity tty (ParseProcScanOutput (procScan table)))

end Webshell
