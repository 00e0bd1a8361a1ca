import Webshell.JsValue
import Webshell.LayoutBrowser
import Webshell.OrderedMap
import Webshell.WorkspaceRun

/-!
# Applying a workspace state

The browser brings its own tabs in line with a state the server has sent: it
closes and creates tabs, disposes and creates the sessions of panes, and picks
the active tab. Tabs and sessions are objects in the source, so a tab is edited
where it stands in the map.
-/

namespace Webshell

/-! ## What is sent -/

structure SentPane where
  id : String
  cols : Int
  rows : Int
  exited : Bool

structure SentTab where
  id : String
  label : String
  custom_label : Bool
  active_pane_id : String
  layout : BrowserNode
  panes : List SentPane

structure SentState where
  selector : String
  agent_capabilities : List String
  workspace_generation : String
  active_tab_id : String
  recent_tab_ids : Option (List String)
  tabs : List SentTab

/-- A state of the server as the browser reads it from the answer. -/
def received (agentCapabilities : List String) (state : Workspace.WorkspaceState) : SentState where
  selector := state.Selector
  agent_capabilities := agentCapabilities
  workspace_generation := state.WorkspaceGeneration
  active_tab_id := state.ActiveTabID
  recent_tab_ids := some state.RecentTabIDs
  tabs := state.Tabs.map fun tab => {
    id := tab.ID, label := tab.Label, custom_label := tab.CustomLabel, active_pane_id := tab.ActivePaneID
    layout := ofLayout tab.Layout
    panes := tab.Panes.map fun pane => { id := pane.id, cols := pane.cols, rows := pane.rows, exited := pane.exited } }

/-! ## What the browser has -/

/-- A session of a pane. `object` tells it from all others. -/
structure PaneSession where
  object : Nat
  id : String
  name : String
  initialCols : Int
  initialRows : Int
  terminalExitRetained : Bool := false
  workspaceExitPending : Bool := false
  exitExpected : Bool := false
  pendingConnect : Bool := false
  socket : Bool := false

structure BrowserTab where
  id : String
  label : String
  customLabel : Bool
  panes : OrderedMap String PaneSession := ∅
  activePaneId : Option String := none
  layout : BrowserNode := .null

structure BrowserWorkspace where
  tabs : OrderedMap String BrowserTab := ∅
  activeTabId : Option String := none
  activeWorkspaceGeneration : String := ""
  recentTabIds : List String := []
  nextObject : Nat := 0
  /-- The sessions that were disposed of, and those whose history was destroyed. -/
  disposed : List Nat := []
  destroyed : List Nat := []

/-- What the page around the workspace answers. -/
structure BrowserPage where
  disposed : Bool
  isCurrentRequest : String → Bool
  readRestartTabForName : String → String
  requestedTab : String
  readLastActiveTab : String → String
  storedRecentTabIds : String → List String
  /-- The tabs of the buttons, as they stand in the document. -/
  tabButtons : BrowserWorkspace → List String
  defaultLabel : String → String

def jsTrim (s : String) : String := String.ofList (Js.trim s.toList)

mutual
def collectPaneIds : BrowserNode → List (Option String) → List (Option String)
  | .null, result => result
  | .node t _ p cs _, result => if t = .leaf then result ++ [p] else collectChildPaneIds cs result
def collectChildPaneIds : List BrowserNode → List (Option String) → List (Option String)
  | [], result => result
  | c :: cs, result => collectChildPaneIds cs (collectPaneIds c result)
end

namespace BrowserWorkspace

/-! ## Recent tabs -/

/-- Two existing tabs at most, each once. -/
def collectRecent (w : BrowserWorkspace) : List String → List String → List String
  | [], next => next
  | id :: ids, next =>
    let next := if id ≠ "" ∧ w.tabs.has id = true ∧ id ∉ next then next ++ [id] else next
    if 2 ≤ next.length then next else w.collectRecent ids next

def normalizeRecentTabIds (w : BrowserWorkspace) (ids : List String) : List String := w.collectRecent (ids.map jsTrim) []

def applyRecentTabIds (w : BrowserWorkspace) (ids : List String) : BrowserWorkspace :=
  { w with recentTabIds := w.normalizeRecentTabIds ids }

def rememberRecentTab (w : BrowserWorkspace) (tabID : String) (previousTabID : Option String) : BrowserWorkspace :=
  let nextID := jsTrim tabID
  let next := if nextID ≠ "" ∧ w.tabs.has nextID = true then [nextID] else []
  let others := (jsTrim (previousTabID.getD "") :: w.recentTabIds).filter (· ≠ nextID)
  w.applyRecentTabIds (w.collectRecent others next)

/-! ## Tabs and panes -/

def setActiveTab (w : BrowserWorkspace) (tabId : String) (rememberRecent : Bool) : BrowserWorkspace :=
  if w.tabs.has tabId = true then
    let activated := { w with activeTabId := some tabId }
    if rememberRecent then activated.rememberRecentTab tabId w.activeTabId else activated
  else w

def clearActiveTab (w : BrowserWorkspace) : BrowserWorkspace := { w with activeTabId := none }

def getOrderedTabs (page : BrowserPage) (w : BrowserWorkspace) : List String :=
  let ordered := (page.tabButtons w).filter fun id => w.tabs.has id
  ordered ++ (w.tabs.values.map (·.id)).filter fun id => !ordered.contains id

/-- The tab behind another, else the one before it. -/
def neighbour (ordered : List String) (tabId : String) : Option String :=
  match ordered.idxOf? tabId with
  | none => none
  | some index => (ordered[index + 1]?).or (if index = 0 then none else ordered[index - 1]?)

def disposePane (w : BrowserWorkspace) (pane : PaneSession) : BrowserWorkspace :=
  { w with disposed := w.disposed ++ [pane.object] }

/-- The history of a pane is destroyed only for the instance that is applied. -/
def destroyLocalHistory (targetName : String) (w : BrowserWorkspace) (pane : PaneSession) : BrowserWorkspace :=
  if pane.name = targetName then { w with destroyed := w.destroyed ++ [pane.object] } else w

def closeTab (page : BrowserPage) (w : BrowserWorkspace) (tabId : String) : BrowserWorkspace :=
  match w.tabs.get tabId with
  | none => w
  | some tab =>
    let nextActiveTab := if w.activeTabId = some tab.id then neighbour (getOrderedTabs page w) tab.id else none
    let w := tab.panes.values.foldl disposePane w
    let closed := { w with tabs := w.tabs.delete tab.id }
    if closed.activeTabId = some tab.id then
      match nextActiveTab with
      | some next => closed.clearActiveTab.setActiveTab next true
      | none => closed.clearActiveTab
    else closed

/-- An empty tab, behind all others. -/
def createTab (page : BrowserPage) (w : BrowserWorkspace) (id label : String) (customLabel : Bool) : BrowserWorkspace :=
  { w with
    tabs := w.tabs.set id {
      id := id
      label := if label = "" then page.defaultLabel id else label
      customLabel := customLabel || label ≠ "" } }

def modifyTab (w : BrowserWorkspace) (tabId : String) (f : BrowserTab → BrowserTab) : BrowserWorkspace :=
  match w.tabs.get tabId with
  | none => w
  | some tab => { w with tabs := w.tabs.set tabId (f tab) }

def createPaneSession (w : BrowserWorkspace) (tabId targetName : String) (pane : SentPane) : BrowserWorkspace :=
  let session : PaneSession := {
    object := w.nextObject, id := pane.id, name := targetName, initialCols := pane.cols, initialRows := pane.rows }
  { w.modifyTab tabId fun tab => { tab with panes := tab.panes.set pane.id session } with nextObject := w.nextObject + 1 }

/-! ## Applying -/

def requireManagedClientWorkspace (state : SentState) : Except String Unit :=
  if "client:".isPrefixOf state.selector = true ∧
      (jsTrim state.workspace_generation = "" ∨ "unified_terminal" ∉ state.agent_capabilities) then
    .error "请更新 PC 客户端并重新启用 LightOS 接入，当前终端服务不支持统一连接。"
  else .ok ()

def setWorkspaceGenerationFromState (w : BrowserWorkspace) (state : SentState) : Except String (BrowserWorkspace × Bool) := do
  requireManagedClientWorkspace state
  let next := jsTrim state.workspace_generation
  if next = w.activeWorkspaceGeneration then .ok (w, false)
  else .ok ({ w with activeWorkspaceGeneration := next }, true)

def ensureResponseSelector (state : SentState) (expectedName : String) : Except String Unit :=
  let selector := jsTrim state.selector
  if selector ≠ "" ∧ expectedName ≠ "" ∧ selector ≠ expectedName then
    .error s!"Workspace selector mismatch: expected {expectedName}, got {selector}"
  else .ok ()

/-- A tab that the state no longer has. -/
def closeGone (page : BrowserPage) (targetName : String) (nextTabIDs : List String) (w : BrowserWorkspace) (tab : BrowserTab) :
    BrowserWorkspace :=
  if nextTabIDs.contains tab.id then w
  else closeTab page (tab.panes.values.foldl (destroyLocalHistory targetName) w) tab.id

/-- A pane that the tab no longer has. -/
def dropPane (targetName tabId : String) (w : BrowserWorkspace) (pane : PaneSession) : BrowserWorkspace :=
  ((w.destroyLocalHistory targetName pane).disposePane pane).modifyTab tabId fun tab =>
    { tab with panes := tab.panes.delete pane.id }

/-- What a state says of the exit of a pane that is there. -/
def paneExit (exited : Bool) (pane : PaneSession) : PaneSession :=
  if exited && pane.terminalExitRetained then
    { pane with workspaceExitPending := false, exitExpected := true, pendingConnect := false }
  else if pane.workspaceExitPending then
    { pane with workspaceExitPending := false, exitExpected := false, pendingConnect := true }
  else if !pane.socket then { pane with pendingConnect := true }
  else pane

def applyPane (targetName tabId : String) (w : BrowserWorkspace) (paneState : SentPane) : BrowserWorkspace :=
  let has := ((w.tabs.get tabId).map fun tab => tab.panes.has paneState.id).getD false
  let w := if has then w else w.createPaneSession tabId targetName paneState
  w.modifyTab tabId fun tab =>
    match tab.panes.get paneState.id with
    | none => tab
    | some pane => { tab with panes := tab.panes.set paneState.id (paneExit paneState.exited pane) }

/-- Whether a tab has other panes than the state. -/
def membershipChanged (wantedPaneIDs : List String) (tab : BrowserTab) : Bool :=
  wantedPaneIDs.dedup.length ≠ tab.panes.size || wantedPaneIDs.any fun id => !tab.panes.has id

/-- What a tab takes from the state before its panes are looked at. -/
def adopt (passive : Bool) (tabState : SentTab) (tab : BrowserTab) : BrowserTab :=
  let wantedPaneIDs := tabState.panes.map (·.id)
  { tab with
    label := if tabState.label = "" then tab.label else tabState.label
    customLabel := tabState.custom_label
    activePaneId :=
      if !passive || !(tab.activePaneId.map wantedPaneIDs.contains).getD false then some tabState.active_pane_id
      else tab.activePaneId
    layout := if !passive || membershipChanged wantedPaneIDs tab then tabState.layout else tab.layout }

/-- A round of the loop over the tabs of the state, and the tabs changed so far. -/
def applyTab (page : BrowserPage) (passive : Bool) (targetName : String) (done : BrowserWorkspace × List String)
    (tabState : SentTab) : BrowserWorkspace × List String :=
  let w := if done.1.tabs.has tabState.id then done.1
    else done.1.createTab page tabState.id tabState.label tabState.custom_label
  match w.tabs.get tabState.id with
  | none => done
  | some tab =>
    let wantedPaneIDs := tabState.panes.map (·.id)
    let changedTabs := if membershipChanged wantedPaneIDs tab then done.2 ++ [tab.id] else done.2
    let adopted := w.modifyTab tabState.id (adopt passive tabState)
    let dropped := (tab.panes.values.filter fun pane => !wantedPaneIDs.contains pane.id).foldl (dropPane targetName tabState.id)
      adopted
    (tabState.panes.foldl (applyPane targetName tabState.id) dropped, changedTabs)

/-- The tab the browser stays on where local choices are kept. -/
def keepActive (previousActiveTabId : Option String) (changedTabs : List String) (w : BrowserWorkspace) : BrowserWorkspace :=
  match ((previousActiveTabId.bind w.tabs.get).or (w.activeTabId.bind w.tabs.get)).or w.tabs.first with
  | none => w.clearActiveTab
  | some current =>
    if some current.id ≠ previousActiveTabId ∨ current.id ∈ changedTabs then w.setActiveTab current.id false else w

/-- The recent tabs of the state, else those that are stored. -/
def recallRecentTabs (page : BrowserPage) (targetName : String) (state : SentState) (w : BrowserWorkspace) : BrowserWorkspace :=
  match state.recent_tab_ids with
  | some ids => w.applyRecentTabIds ids
  | none =>
    let stored := w.normalizeRecentTabIds (page.storedRecentTabIds targetName)
    w.applyRecentTabIds (if stored = [] then w.recentTabIds else stored)

def nextActiveTab (page : BrowserPage) (targetName : String) (preferStateActiveTab : Bool) (state : SentState)
    (w : BrowserWorkspace) : Option BrowserTab :=
  let restartTab := w.tabs.get (page.readRestartTabForName targetName)
  let requestedTab := w.tabs.get (jsTrim page.requestedTab)
  let savedTab := w.tabs.get (page.readLastActiveTab targetName)
  let stateActiveTab := w.tabs.get state.active_tab_id
  if preferStateActiveTab then (((restartTab.or stateActiveTab).or requestedTab).or savedTab).or w.tabs.first
  else (((restartTab.or requestedTab).or savedTab).or stateActiveTab).or w.tabs.first

/-- The tab the browser goes to where local choices are not kept. -/
def chooseActive (page : BrowserPage) (targetName : String) (preferStateActiveTab : Bool) (state : SentState)
    (w : BrowserWorkspace) : BrowserWorkspace :=
  let w := recallRecentTabs page targetName state w
  match nextActiveTab page targetName preferStateActiveTab state w with
  | none => w.clearActiveTab
  | some next =>
    let w := w.setActiveTab next.id state.recent_tab_ids.isNone
    if state.recent_tab_ids.isSome ∧ w.recentTabIds.head? ≠ some next.id then
      w.applyRecentTabIds (next.id :: w.recentTabIds)
    else w

/-- The tabs in line with the state, and which of them have got other panes. -/
def reconcile (page : BrowserPage) (passive workspaceGenerationChanged : Bool) (targetName : String) (state : SentState)
    (w : BrowserWorkspace) : BrowserWorkspace × List String :=
  let w := if workspaceGenerationChanged then (w.tabs.values.map (·.id)).foldl (closeTab page) w else w
  let w := w.tabs.values.foldl (closeGone page targetName (state.tabs.map (·.id))) w
  state.tabs.foldl (applyTab page passive targetName) (w, [])

end BrowserWorkspace

structure ApplyOptions where
  instanceName : String
  preferStateActiveTab : Bool := false
  preserveLocalState : Bool := false

/-- The instance a state is for: the one it names, else the one that was asked. -/
def ApplyOptions.targetName (options : ApplyOptions) (state : SentState) : String :=
  if jsTrim state.selector = "" then jsTrim options.instanceName else jsTrim state.selector

/-- `apply`; the answer is whether the request was still current. -/
def BrowserWorkspace.apply (page : BrowserPage) (state : SentState) (options : ApplyOptions) (w : BrowserWorkspace) :
    Except String (BrowserWorkspace × Bool) := do
  ensureResponseSelector state (jsTrim options.instanceName)
  let targetName := options.targetName state
  if page.disposed = true ∨ targetName = "" ∨ page.isCurrentRequest targetName = false then
    .ok (w, false)
  else
    let previousActiveTabId := w.activeTabId
    let (w, workspaceGenerationChanged) ← setWorkspaceGenerationFromState w state
    let passive := options.preserveLocalState && !workspaceGenerationChanged
    let (w, changedTabs) := reconcile page passive workspaceGenerationChanged targetName state w
    .ok (if passive then keepActive previousActiveTabId changedTabs w
      else chooseActive page targetName options.preferStateActiveTab state w, true)

end Webshell
