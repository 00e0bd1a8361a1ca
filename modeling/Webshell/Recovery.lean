import Webshell.Workspace

/-!
# Recovery documents

A workspace's state written down as a document, the checks a document has to
pass, and the workspace rebuilt from it. The id counters are Go ints.
-/

namespace Webshell

open GoText

def workspaceRecoveryVersion : Int := 1
def workspaceRecoveryMaxTabs : Nat := 64
def workspaceRecoveryMaxPanes : Nat := 256
def workspaceRecoveryMaxLayoutDepth : Nat := 32

structure WorkspaceRecoveryPane where
  ID : String
  CWD : String

structure WorkspaceRecoveryTab where
  ID : String
  Label : String
  CustomLabel : Bool
  ActivePaneID : String
  Layout : LayoutNode
  Panes : List WorkspaceRecoveryPane

structure WorkspaceRecoveryDocument where
  Version : Int
  Epoch : String
  WorkspaceGeneration : String
  ActiveTabID : String
  RecentTabIDs : List String
  Tabs : List WorkspaceRecoveryTab

def WorkspaceRecoveryTab.paneIDs (tab : WorkspaceRecoveryTab) : List String := tab.Panes.map (·.ID)

/-! ## Writing -/

/-- A drive with a separator, as a Windows client's path begins. -/
def hasDrive (value : String) : Bool :=
  match value.toList with
  | a :: ':' :: b :: _ => (('A' ≤ a && a ≤ 'Z') || ('a' ≤ a && a ≤ 'z')) && (b = '\\' || b = '/')
  | _ => false

def NormalizeRecoveryCWD (value : String) : String :=
  let value := trimSpace value
  if value = "" ∨ 4096 < byteLength value ∨ '\x00' ∈ value.toList then ""
  else if !pathIsAbs value then
    if hasDrive value = true ∨ (afterTag value "\\\\").isSome = true then value else ""
  else pathClean value

namespace Workspace

def recoveryTabOf (tab : TabState) : WorkspaceRecoveryTab where
  ID := trimSpace tab.ID
  Label := tab.Label
  CustomLabel := tab.CustomLabel
  ActivePaneID := trimSpace tab.ActivePaneID
  Layout := cloneLayout tab.Layout
  Panes := tab.Panes.map fun pane => { ID := trimSpace pane.id, CWD := NormalizeRecoveryCWD pane.cwd }

def WorkspaceRecoveryDocumentFromState (epoch : String) (state : WorkspaceState) : WorkspaceRecoveryDocument where
  Version := workspaceRecoveryVersion
  Epoch := trimSpace epoch
  WorkspaceGeneration := trimSpace state.WorkspaceGeneration
  ActiveTabID := trimSpace state.ActiveTabID
  RecentTabIDs := state.RecentTabIDs
  Tabs := state.Tabs.map recoveryTabOf

end Workspace

/-! ## Checking -/

def numericWorkspaceID (value tag : String) : Option Int :=
  match (afterTag value tag).bind atoi with
  | none => none
  | some number => if 0 < number then some number else none

mutual
/-- The error, if the layout is too deep or has a missing node. -/
def validateRecoveryLayoutDepth : LayoutNode → Nat → Option String
  | .nil, _ => some "invalid recovered layout depth"
  | .node _ _ _ cs _, depth =>
    if workspaceRecoveryMaxLayoutDepth < depth then some "invalid recovered layout depth"
    else validateRecoveryLayoutsDepth cs (depth + 1)
def validateRecoveryLayoutsDepth : List LayoutNode → Nat → Option String
  | [], _ => none
  | c :: cs, depth =>
    match validateRecoveryLayoutDepth c depth with
    | some err => some err
    | none => validateRecoveryLayoutsDepth cs depth
end

/-- The loop over a tab's panes; `paneIDs` are those seen so far. -/
def validateRecoveryPanes : List WorkspaceRecoveryPane → List String → Except String (List String)
  | [], paneIDs => .ok paneIDs
  | pane :: panes, paneIDs =>
    if numericWorkspaceID pane.ID "pane-" = none ∨ pane.ID ∈ paneIDs then
      .error "invalid or duplicate recovered pane id"
    else if pane.CWD ≠ "" ∧ NormalizeRecoveryCWD pane.CWD ≠ pane.CWD then .error "invalid recovered working directory"
    else validateRecoveryPanes panes (pane.ID :: paneIDs)

/-- The tab a layout is checked against. -/
def recoveryCandidate (tab : WorkspaceRecoveryTab) : TerminalTab where
  ID := ""
  Label := ""
  CustomLabel := false
  ActivePaneID := ""
  Layout := .nil
  PaneIDs := tab.paneIDs

def validateRecoveryTab (tab : WorkspaceRecoveryTab) (tabIDs paneIDs : List String) : Except String (List String) :=
  if numericWorkspaceID tab.ID "tab-" = none ∨ tab.ID ∈ tabIDs then .error "invalid or duplicate recovered tab id"
  else if 16 * 1024 < byteLength tab.Label ∨ tab.Panes = [] ∨
      workspaceRecoveryMaxPanes < paneIDs.length + tab.Panes.length then .error "invalid recovered tab"
  else
    match validateRecoveryPanes tab.Panes paneIDs with
    | .error err => .error err
    | .ok paneIDs =>
      if tab.ActivePaneID ∉ tab.paneIDs then .error "invalid recovered active pane"
      else
        match validateRecoveryLayoutDepth tab.Layout 0 with
        | some err => .error err
        | none =>
          match validateLayoutForTab (cloneLayout tab.Layout) (recoveryCandidate tab) with
          | .error err => .error ("invalid recovered layout: " ++ err)
          | .ok _ => .ok paneIDs

/-- The loop over the tabs, with the tab and pane ids seen so far. -/
def validateRecoveryTabs : List WorkspaceRecoveryTab → List String → List String → Option String
  | [], _, _ => none
  | tab :: tabs, tabIDs, paneIDs =>
    match validateRecoveryTab tab tabIDs paneIDs with
    | .error err => some err
    | .ok paneIDs => validateRecoveryTabs tabs (tab.ID :: tabIDs) paneIDs

/-- The error a document is refused with. -/
def ValidateWorkspaceRecoveryDocument (document : WorkspaceRecoveryDocument) : Option String :=
  let tabIDs := document.Tabs.map (·.ID)
  if document.Version ≠ workspaceRecoveryVersion then
    some (taggedID "unsupported workspace recovery version " document.Version)
  else if trimSpace document.Epoch = "" ∨ 128 < byteLength document.Epoch then some "invalid workspace recovery epoch"
  else if trimSpace document.WorkspaceGeneration = "" ∨ 128 < byteLength document.WorkspaceGeneration then
    some "invalid workspace recovery generation"
  else if workspaceRecoveryMaxTabs < document.Tabs.length then some "invalid workspace recovery tab count"
  else if document.Tabs = [] then
    if document.ActiveTabID ≠ "" ∨ document.RecentTabIDs ≠ [] then some "invalid empty workspace recovery state"
    else none
  else
    match validateRecoveryTabs document.Tabs [] [] with
    | some err => some err
    | none =>
      if document.ActiveTabID ∉ tabIDs then some "invalid recovered active tab"
      else if document.RecentTabIDs.any fun tabID => tabID ∉ tabIDs then some "invalid recovered recent tab"
      else none

/-! ## Rebuilding -/

/-- The counter after an id has been read: past its number, unless it is past it already. -/
def nextCounter (tag : String) (counter : Int) (id : String) : Int :=
  match numericWorkspaceID id tag with
  | none => counter
  | some number => if counter ≤ number then wrapInt (number + 1) else counter

namespace Workspace

/-- The loop over a recovered tab's panes. -/
def recoverPanes (cols rows : Int) (spawn : String → SpawnResult) : List WorkspaceRecoveryPane → Workspace → Outcome
  | [], w => (w, none)
  | recovered :: rest, w =>
    match newTerminalPane recovered.ID (NormalizeCols cols) (NormalizeRows rows) recovered.CWD (spawn recovered.ID) with
    | .error err => (w, some err)
    | .ok pane =>
      recoverPanes cols rows spawn rest { w with
        panes := w.panes.insert pane.id pane, running := pane.id :: w.running
        nextPaneID := nextCounter "pane-" w.nextPaneID pane.id }

def recoveredTab (tab : WorkspaceRecoveryTab) : TerminalTab where
  ID := tab.ID
  Label := tab.Label
  CustomLabel := tab.CustomLabel
  ActivePaneID := tab.ActivePaneID
  Layout := cloneLayout tab.Layout
  PaneIDs := tab.paneIDs

def recoverTabs (cols rows : Int) (spawn : String → SpawnResult) : List WorkspaceRecoveryTab → Workspace → Outcome
  | [], w => (w, none)
  | recovered :: rest, w =>
    match recoverPanes cols rows spawn recovered.Panes w with
    | (w, some err) => (w, some err)
    | (w, none) =>
      recoverTabs cols rows spawn rest { w with
        tabs := w.tabs ++ [recoveredTab recovered], nextTabID := nextCounter "tab-" w.nextTabID recovered.ID }

/-- The workspace, if one was made, and the error: a workspace whose panes could not all be
started is closed again. -/
def newRecoveredTerminalWorkspace (document : WorkspaceRecoveryDocument) (selector username : String) (cols rows : Int)
    (generation : Except String String) (spawn : String → SpawnResult) : Option Workspace × Option String :=
  match ValidateWorkspaceRecoveryDocument document with
  | some err => (none, some err)
  | none =>
    match generation with
    | .error err => (none, some err)
    | .ok workspaceGeneration =>
      match recoverTabs cols rows spawn document.Tabs (empty selector workspaceGeneration username) with
      | (w, some err) => (some w.closeAllPanes, some err)
      | (w, none) =>
        if w.tabs = [] then
          match w.createTabLocked "" "" (NormalizeCols cols) (NormalizeRows rows) (spawn "pane-1") with
          | (w, some err) => (some w.closeAllPanes, some err)
          | (w, none) => (some w, none)
        else (some ({ w with activeTab := document.ActiveTabID }.setRecentTabsLocked document.RecentTabIDs), none)

/-- The counters as Go ints. An operation advances each of them once at most, after its last
look at it, so that it may be wrapped at the end. -/
def wrapCounters (w : Workspace) : Workspace :=
  { w with nextTabID := wrapInt w.nextTabID, nextPaneID := wrapInt w.nextPaneID }

end Workspace

end Webshell
