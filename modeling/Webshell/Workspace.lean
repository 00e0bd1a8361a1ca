import Webshell.Text
import Webshell.Layout
import Mathlib.Data.List.AList

/-!
# The terminal workspace

Tabs, their layouts and panes, and the thirteen actions of `applyAction`. A
tab is a pointer in the source; here it is named by its index in `tabs`. An
action answers the workspace it leaves behind and the error it returns, so a
failed action can be compared with the state before it.
-/

namespace Webshell

open GoText

/-- The fields of `terminalPane` that the workspace reads and writes. -/
structure WorkspacePane where
  id : String
  cols : Int
  rows : Int
  cwd : String
  command : String
  exited : Bool
  exitRetained : Bool
  deriving DecidableEq

/-- The platform's answer to starting a pane's process: an error, or the
directory its PTY starts in, empty when the PTY does not tell. -/
abbrev SpawnResult := Except String String

def newTerminalPane (paneID : String) (cols rows : Int) (initialCWD : String) (spawn : SpawnResult) :
    Except String WorkspacePane :=
  match spawn with
  | .error err => .error err
  | .ok directory =>
    let cwd := trimSpace initialCWD
    .ok {
      id := paneID, cols := NormalizeCols cols, rows := NormalizeRows rows,
      cwd := if cwd = "" then directory else cwd, command := "", exited := false, exitRetained := false }

structure Workspace where
  selector : String
  workspaceGeneration : String
  username : String
  tabs : List TerminalTab
  activeTab : String
  recentTabs : List String
  panes : AList (fun _ : String => WorkspacePane)
  nextTabID : Int
  nextPaneID : Int
  /-- The panes whose process was started and has neither been closed nor exited. -/
  running : List String

/-- What an operation leaves behind, and the error it returns. -/
abbrev Outcome := Workspace × Option String

def displayPathLabel (path : String) : String :=
  let cleaned := pathClean (trimSpace path)
  if cleaned = "" ∨ cleaned = "." then ""
  else if cleaned = "/" then "ROOT"
  else pathBase cleaned

namespace Workspace

def findTabIn (tabID : String) : List TerminalTab → Option (Nat × TerminalTab)
  | [] => none
  | t :: ts => if t.ID = tabID then some (0, t) else (findTabIn tabID ts).map fun p => (p.1 + 1, p.2)

def findTabIndexLocked (w : Workspace) (tabID : String) : Option (Nat × TerminalTab) := findTabIn tabID w.tabs

def findTabLocked (w : Workspace) (tabID : String) : Option TerminalTab := (w.findTabIndexLocked tabID).map (·.2)

/-! ## Active and recent tabs -/

def appendRecentTabLocked (w : Workspace) (items : List String) (tabID : String) : List String :=
  let tabID := trimSpace tabID
  if tabID = "" ∨ w.findTabLocked tabID = none then items
  else if items.contains tabID then items
  else items ++ [tabID]

/-- The loop that stops at two recent tabs. -/
def collectRecentTabs (w : Workspace) : List String → List String → List String
  | [], next => next
  | tabID :: tabIDs, next =>
    let next := w.appendRecentTabLocked next tabID
    if 2 ≤ next.length then next else collectRecentTabs w tabIDs next

def setRecentTabsLocked (w : Workspace) (tabIDs : List String) : Workspace :=
  { w with recentTabs := w.collectRecentTabs tabIDs [] }

def pruneRecentTabsLocked (w : Workspace) : Workspace := w.setRecentTabsLocked w.recentTabs

def rememberRecentTabLocked (w : Workspace) (tabID : String) : Workspace :=
  let tabID := trimSpace tabID
  if tabID = "" ∨ w.findTabLocked tabID = none then w.pruneRecentTabsLocked
  else w.setRecentTabsLocked (tabID :: w.activeTab :: w.recentTabs)

def setActiveTabLocked (w : Workspace) (tabID : String) : Workspace :=
  let tabID := trimSpace tabID
  if tabID = "" then { w with activeTab := "" }.pruneRecentTabsLocked
  else if w.findTabLocked tabID = none then w.pruneRecentTabsLocked
  else { w.rememberRecentTabLocked tabID with activeTab := tabID }

/-! ## Panes -/

def nextTabIDStringLocked (w : Workspace) : Workspace × String :=
  ({ w with nextTabID := w.nextTabID + 1 }, taggedID "tab-" w.nextTabID)

def nextPaneIDStringLocked (w : Workspace) : Workspace × String :=
  ({ w with nextPaneID := w.nextPaneID + 1 }, taggedID "pane-" w.nextPaneID)

/-- The new pane's id, or the error of starting it: the id is used up either way. -/
def newPaneLocked (w : Workspace) (cols rows : Int) (initialCWD : String) (spawn : SpawnResult) :
    Workspace × Except String String :=
  let (w, paneID) := w.nextPaneIDStringLocked
  match newTerminalPane paneID cols rows initialCWD spawn with
  | .error err => (w, .error err)
  | .ok pane => ({ w with panes := w.panes.insert pane.id pane, running := pane.id :: w.running }, .ok pane.id)

/-- Deleting a pane from the map and closing it. -/
def dropPane (w : Workspace) (paneID : String) : Workspace :=
  match w.panes.lookup paneID with
  | none => w
  | some _ => { w with panes := w.panes.erase paneID, running := w.running.erase paneID }

def dropPanes (w : Workspace) (paneIDs : List String) : Workspace := paneIDs.foldl dropPane w

def modifyPane (w : Workspace) (paneID : String) (f : WorkspacePane → WorkspacePane) : Workspace :=
  match w.panes.lookup paneID with
  | none => w
  | some pane => { w with panes := w.panes.insert paneID (f pane) }

def resolveSourcePaneCWDLocked (w : Workspace) (tabID paneID : String) : String :=
  let cwdOf (sourcePaneID : String) : String :=
    match w.panes.lookup sourcePaneID with
    | none => ""
    | some pane => pane.cwd
  if trimSpace paneID ≠ "" then cwdOf (trimSpace paneID)
  else
    match (w.findTabLocked tabID).or (w.findTabLocked w.activeTab) with
    | none => ""
    | some tab => cwdOf (trimSpace tab.ActivePaneID)

/-! ## Actions -/

def insertTabAfterSourceLocked (w : Workspace) (tab : TerminalTab) (sourceTabID : String) : Workspace :=
  let sourceTabID := trimSpace sourceTabID
  let source := if sourceTabID = "" then none else w.findTabIndexLocked sourceTabID
  let insertAt :=
    match source.or (w.findTabIndexLocked w.activeTab) with
    | some (index, _) => index + 1
    | none => w.tabs.length
  if w.tabs.length ≤ insertAt then { w with tabs := w.tabs ++ [tab] }
  else { w with tabs := w.tabs.insertIdx insertAt tab }

def createTabLocked (w : Workspace) (sourceTabID sourcePaneID : String) (cols rows : Int) (spawn : SpawnResult) :
    Outcome :=
  let initialCWD := w.resolveSourcePaneCWDLocked sourceTabID sourcePaneID
  match w.newPaneLocked cols rows initialCWD spawn with
  | (w, .error err) => (w, some err)
  | (w, .ok paneID) =>
    let (w, tabID) := w.nextTabIDStringLocked
    let label := displayPathLabel initialCWD
    let label := if label = "" then taggedID "Shell " (w.nextTabID - 1) else label
    let tab : TerminalTab := {
      ID := tabID, Label := label, CustomLabel := false, ActivePaneID := paneID,
      Layout := leafNode paneID 0, PaneIDs := [paneID] }
    ((w.insertTabAfterSourceLocked tab sourceTabID).setActiveTabLocked tab.ID, none)

def renameTabLocked (w : Workspace) (tabID label : String) : Outcome :=
  match w.findTabIndexLocked tabID with
  | none => (w, some "tab not found")
  | some (index, tab) =>
    let label := trimSpace label
    if label = "" then (w, some "label is required")
    else ({ w with tabs := w.tabs.set index { tab with Label := label, CustomLabel := true } }, none)

def closeTabLocked (w : Workspace) (tabID : String) : Outcome :=
  match w.findTabIndexLocked tabID with
  | none => (w, some "tab not found")
  | some (index, tab) =>
    let w := w.dropPanes tab.PaneIDs
    let w := { w with tabs := w.tabs.eraseIdx index }
    if w.activeTab = tabID then
      let nextActiveTab :=
        match w.tabs[min index (w.tabs.length - 1)]? with
        | some next => next.ID
        | none => ""
      (w.setActiveTabLocked nextActiveTab, none)
    else (w.pruneRecentTabsLocked, none)

/-- The loop over the tab indices below `i`, from the last down. -/
def closeTabsBelow (tabID : String) : Nat → Workspace → Outcome
  | 0, w => (w, none)
  | i + 1, w =>
    match w.tabs[i]? with
    | none => (w, none)
    | some tab =>
      if tab.ID = tabID then closeTabsBelow tabID i w
      else
        match w.closeTabLocked tab.ID with
        | (w, some err) => (w, some err)
        | (w, none) => closeTabsBelow tabID i w

def closeOtherTabsLocked (w : Workspace) (tabID : String) : Outcome :=
  if w.findTabLocked tabID = none then (w, some "tab not found")
  else
    match closeTabsBelow tabID w.tabs.length w with
    | (w, some err) => (w, some err)
    | (w, none) => (w.setActiveTabLocked tabID, none)

def splitPaneLocked (w : Workspace) (tabID paneID : String) (direction : Direction) (cols rows : Int)
    (spawn : SpawnResult) : Outcome :=
  match w.findTabIndexLocked tabID with
  | none => (w, some "tab not found")
  | some (index, tab) =>
    if !tab.hasPane paneID then (w, some "pane not found")
    else if direction ≠ .vertical ∧ direction ≠ .horizontal then (w, some "invalid split direction")
    else
      let initialCWD := w.resolveSourcePaneCWDLocked tabID paneID
      match w.newPaneLocked cols rows initialCWD spawn with
      | (w, .error err) => (w, some err)
      | (w, .ok newPaneID) =>
        let layout :=
          match splitLayoutNode paneID direction newPaneID tab.Layout with
          | some layout => layout
          | none => .node .split direction "" [leafNode paneID 50, leafNode newPaneID 50] 0
        let tab := { tab with Layout := layout, PaneIDs := tab.PaneIDs ++ [newPaneID], ActivePaneID := newPaneID }
        (({ w with tabs := w.tabs.set index tab }).setActiveTabLocked tab.ID, none)

/-- The tab without a pane: its pane list, layout and active pane after
`closePaneInTabLocked` and `movePaneToTabLocked` have taken the pane out. -/
def takePane (tab : TerminalTab) (paneID : String) : TerminalTab :=
  let nextActivePaneID :=
    if tab.ActivePaneID = paneID then (adjacentPaneID paneID tab.Layout).1 else tab.ActivePaneID
  let layout := removePaneFromLayoutNode paneID tab.Layout
  let paneIDs := collectLayoutPaneIDs layout []
  let active := firstExistingPaneID nextActivePaneID paneIDs
  { tab with
    PaneIDs := tab.PaneIDs.filter (· ≠ paneID)
    Layout := layout
    ActivePaneID := if active = "" ∧ paneIDs ≠ [] then paneIDs.headD "" else active }

def closePaneInTabLocked (w : Workspace) (index : Nat) (tab : TerminalTab) (paneID : String) : Outcome :=
  if !tab.hasPane paneID then (w, some "pane not found")
  else
    let w := w.dropPane paneID
    let tab := takePane tab paneID
    let w := { w with tabs := w.tabs.set index tab }
    if tab.PaneIDs = [] ∨ tab.Layout.isNil = true then w.closeTabLocked tab.ID else (w, none)

def closePaneLocked (w : Workspace) (tabID paneID : String) : Outcome :=
  match w.findTabIndexLocked tabID with
  | none => (w, some "tab not found")
  | some (index, tab) => w.closePaneInTabLocked index tab paneID

def movePaneToTabLocked (w : Workspace) (tabID paneID : String) : Outcome :=
  match w.findTabIndexLocked tabID with
  | none => (w, some "tab not found")
  | some (index, source) =>
    if source.PaneIDs.length ≤ 1 then (w, some "cannot move the last pane")
    else if !source.hasPane paneID then (w, some "pane not found")
    else
      let source := takePane source paneID
      let w := { w with tabs := w.tabs.set index source }
      let (w, tabIDNext) := w.nextTabIDStringLocked
      let tab : TerminalTab := {
        ID := tabIDNext, Label := taggedID (source.Label ++ " ") (w.tabs.length + 1), CustomLabel := false,
        ActivePaneID := paneID, Layout := leafNode paneID 0, PaneIDs := [paneID] }
      ((w.insertTabAfterSourceLocked tab source.ID).setActiveTabLocked tab.ID, none)

inductive TabPosition
  | first
  | left
  | right
  | last
  | other (name : String)
  deriving DecidableEq

/-- The index a position names, among `count` tabs. -/
def TabPosition.target (index count : Nat) : TabPosition → Option Nat
  | .first => some 0
  | .left => some (index - 1)
  | .right => some (min (count - 1) (index + 1))
  | .last => some (count - 1)
  | .other _ => none

def moveTabLocked (w : Workspace) (tabID : String) (position : TabPosition) : Outcome :=
  match w.findTabIndexLocked tabID with
  | none => (w, some "tab not found")
  | some (index, tab) =>
    if w.tabs.length ≤ 1 then (w, none)
    else
      match position.target index w.tabs.length with
      | none => (w, some "invalid tab position")
      | some target =>
        if target = index then (w, none)
        else
          (({ w with tabs := (w.tabs.eraseIdx index).insertIdx target tab }).setActiveTabLocked tab.ID, none)

def reorderTabLocked (w : Workspace) (tabID beforeTabID : String) : Outcome :=
  match w.findTabIndexLocked (trimSpace tabID) with
  | none => (w, some "tab not found")
  | some (index, tab) =>
    let beforeTabID := trimSpace beforeTabID
    if beforeTabID = tab.ID then (w, some "tab cannot be ordered before itself")
    else if beforeTabID ≠ "" ∧ w.findTabLocked beforeTabID = none then (w, some "before tab not found")
    else
      let w := { w with tabs := w.tabs.eraseIdx index }
      if beforeTabID = "" then ({ w with tabs := w.tabs ++ [tab] }, none)
      else
        match w.findTabIndexLocked beforeTabID with
        | some (target, _) => ({ w with tabs := w.tabs.insertIdx target tab }, none)
        | none => (w, none)

def activateTabLocked (w : Workspace) (tabID : String) (recentTabIDs : Option (List String)) : Outcome :=
  match w.findTabLocked tabID with
  | none => (w, some "tab not found")
  | some tab =>
    match recentTabIDs with
    | some recent => ({ w.setRecentTabsLocked (tab.ID :: recent) with activeTab := tab.ID }, none)
    | none => (w.setActiveTabLocked tab.ID, none)

def activatePaneLocked (w : Workspace) (tabID paneID : String) : Outcome :=
  match w.findTabIndexLocked tabID with
  | none => (w, some "tab not found")
  | some (index, tab) =>
    if !tab.hasPane paneID then (w, some "pane not found")
    else
      let tab := { tab with ActivePaneID := paneID }
      (({ w with tabs := w.tabs.set index tab }).setActiveTabLocked tab.ID, none)

def updateLayoutLocked (w : Workspace) (tabID : String) (layout : LayoutNode) (activePaneID : String) : Outcome :=
  match w.findTabIndexLocked tabID with
  | none => (w, some "tab not found")
  | some (index, tab) =>
    if layout.isNil then (w, some "layout is required")
    else
      match validateLayoutForTab (cloneLayout layout) tab with
      | .error err => (w, some err)
      | .ok normalized =>
        -- the layout is stored before the active pane is checked
        let tab := { tab with Layout := normalized }
        let w := { w with tabs := w.tabs.set index tab }
        if activePaneID = "" then (w, none)
        else if !tab.hasPane activePaneID then (w, some "active pane not found")
        else ({ w with tabs := w.tabs.set index { tab with ActivePaneID := activePaneID } }, none)

def restartExitedPaneLocked (w : Workspace) (tabID paneID : String) (cols rows : Int) (spawn : SpawnResult) :
    Outcome :=
  match w.findTabIndexLocked tabID, w.panes.lookup paneID with
  | some (index, tab), some old =>
    if !tab.hasPane paneID then (w, some "terminal to restart no longer exists")
    else if !old.exited then (w, some "only an exited terminal can be recreated")
    else
      match w.newPaneLocked cols rows old.cwd spawn with
      | (w, .error err) => (w, some err)
      | (w, .ok newPaneID) =>
        let tab := { tab with
          PaneIDs := tab.PaneIDs.map fun id => if id = paneID then newPaneID else id
          Layout := replaceLayoutPane paneID newPaneID tab.Layout
          ActivePaneID := if tab.ActivePaneID = paneID then newPaneID else tab.ActivePaneID }
        -- closing the old pane stops nothing: its process has exited
        let w := { w with tabs := w.tabs.set index tab, panes := w.panes.erase paneID }
        (w.setActiveTabLocked tab.ID, none)
  | _, _ => (w, some "terminal to restart no longer exists")

end Workspace

inductive ActionName
  | createTab
  | renameTab
  | closeTab
  | closeOtherTabs
  | splitPane
  | closePane
  | restartPane
  | movePaneToTab
  | moveTab
  | reorderTab
  | activateTab
  | activatePane
  | updateLayout
  | unknown (name : String)
  deriving DecidableEq

structure WorkspaceActionRequest where
  Action : ActionName
  TabID : String := ""
  BeforeTabID : String := ""
  PaneID : String := ""
  RecentTabIDs : Option (List String) := none
  Direction : Direction := .none
  Label : String := ""
  Layout : LayoutNode := .nil
  ActivePaneID : String := ""
  Cols : Int := 0
  Rows : Int := 0
  Position : Workspace.TabPosition := .other ""

namespace Workspace

/-- `spawn` is the platform's answer, should the action start a pane. -/
def applyAction (w : Workspace) (request : WorkspaceActionRequest) (spawn : SpawnResult) : Outcome :=
  let cols := NormalizeCols request.Cols
  let rows := NormalizeRows request.Rows
  match request.Action with
  | .createTab => w.createTabLocked request.TabID request.PaneID cols rows spawn
  | .renameTab => w.renameTabLocked request.TabID request.Label
  | .closeTab => w.closeTabLocked request.TabID
  | .closeOtherTabs => w.closeOtherTabsLocked request.TabID
  | .splitPane => w.splitPaneLocked request.TabID request.PaneID request.Direction cols rows spawn
  | .closePane => w.closePaneLocked request.TabID request.PaneID
  | .restartPane => w.restartExitedPaneLocked request.TabID request.PaneID cols rows spawn
  | .movePaneToTab => w.movePaneToTabLocked request.TabID request.PaneID
  | .moveTab => w.moveTabLocked request.TabID request.Position
  | .reorderTab => w.reorderTabLocked request.TabID request.BeforeTabID
  | .activateTab => w.activateTabLocked request.TabID request.RecentTabIDs
  | .activatePane => w.activatePaneLocked request.TabID request.PaneID
  | .updateLayout => w.updateLayoutLocked request.TabID request.Layout request.ActivePaneID
  | .unknown _ => (w, some "unknown workspace action")

/-! ## Pane exits, labels and snapshots -/

/-- The first part of `markExited`: the process is gone, the pane still shows it. -/
def markExited (w : Workspace) (paneID : String) : Workspace :=
  { w.modifyPane paneID fun pane => { pane with exited := true } with running := w.running.erase paneID }

def retainFailedFinalPane (w : Workspace) (paneID : String) (exitCode : Int) : Workspace × Bool :=
  match w.tabs.find? (·.hasPane paneID) with
  | none => (w, false)
  | some tab =>
    if exitCode ≠ 0 ∧ w.tabs.length = 1 ∧ tab.PaneIDs.length = 1 then
      (w.modifyPane paneID fun pane => { pane with exitRetained := true }, true)
    else (w, false)

/-- The first tab that has the pane, with its index. -/
def findPaneTab (paneID : String) : List TerminalTab → Option (Nat × TerminalTab)
  | [] => none
  | t :: ts => if t.hasPane paneID then some (0, t) else (findPaneTab paneID ts).map fun p => (p.1 + 1, p.2)

def removePaneAfterExit (w : Workspace) (paneID : String) : Workspace :=
  match findPaneTab paneID w.tabs with
  | none => w
  | some (index, tab) => (w.closePaneInTabLocked index tab paneID).1

def closeAllPanes (w : Workspace) : Workspace :=
  let closed := w.panes.keys.foldl (fun running paneID => running.erase paneID) w.running
  { w with panes := ∅, tabs := [], activeTab := "", recentTabs := [], running := closed }

def resolveAutoTabLabelLocked (w : Workspace) (tab : TerminalTab) : String :=
  let pane := (w.panes.lookup tab.ActivePaneID).or (tab.PaneIDs.findSome? fun paneID => w.panes.lookup paneID)
  match pane with
  | none => ""
  | some pane =>
    let label := displayPathLabel pane.cwd
    if label ≠ "" then label else trimSpace pane.command

def refreshAutoTabLabelsLocked (w : Workspace) : Workspace :=
  { w with
    tabs := w.tabs.map fun tab =>
      let label := w.resolveAutoTabLabelLocked tab
      if tab.CustomLabel = true ∨ label = "" then tab else { tab with Label := label } }

structure TabState where
  ID : String
  Label : String
  CustomLabel : Bool
  ActivePaneID : String
  Layout : LayoutNode
  Panes : List WorkspacePane

structure WorkspaceState where
  Selector : String
  WorkspaceGeneration : String
  ActiveTabID : String
  RecentTabIDs : List String
  Tabs : List TabState

/-- The workspace is left with refreshed labels and pruned recent tabs. -/
def snapshot (w : Workspace) : Workspace × WorkspaceState :=
  let w := w.refreshAutoTabLabelsLocked.pruneRecentTabsLocked
  (w, {
    Selector := w.selector, WorkspaceGeneration := w.workspaceGeneration, ActiveTabID := w.activeTab,
    RecentTabIDs := w.recentTabs,
    Tabs := w.tabs.map fun tab => {
      ID := tab.ID, Label := tab.Label, CustomLabel := tab.CustomLabel, ActivePaneID := tab.ActivePaneID,
      Layout := cloneLayout tab.Layout, Panes := tab.PaneIDs.filterMap fun paneID => w.panes.lookup paneID } })

/-- The workspace `ensureWorkspaceLocked` starts from, before its first tab. -/
def empty (selector workspaceGeneration username : String) : Workspace where
  selector := selector
  workspaceGeneration := workspaceGeneration
  username := username
  tabs := []
  activeTab := ""
  recentTabs := []
  panes := ∅
  nextTabID := 1
  nextPaneID := 1
  running := []

end Workspace

end Webshell
