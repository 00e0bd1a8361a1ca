import Mathlib.Algebra.Order.Ring.Unbundled.Rat
import Mathlib.Algebra.Ring.Rat
import Mathlib.Data.List.Dedup
import Mathlib.Data.Rat.Defs

/-!
# Pane layouts

A tab's layout is a tree of splits over panes. Nodes are pointers in the
source: `nil` is the nil pointer, and in-place edits return the edited tree.
Sizes are percentages, kept as exact rationals.
-/

namespace Webshell

inductive NodeType
  | leaf
  | split
  | other (name : String)
  deriving DecidableEq, Repr

inductive Direction
  | none
  | vertical
  | horizontal
  | other (name : String)
  deriving DecidableEq, Repr

inductive LayoutNode
  | nil
  | node (type : NodeType) (direction : Direction) (paneID : String) (children : List LayoutNode) (size : ℚ)

structure TerminalTab where
  ID : String
  Label : String
  CustomLabel : Bool
  ActivePaneID : String
  Layout : LayoutNode
  PaneIDs : List String

def TerminalTab.hasPane (t : TerminalTab) (paneID : String) : Bool := t.PaneIDs.contains paneID

def LayoutNode.size : LayoutNode → ℚ
  | .nil => 0
  | .node _ _ _ _ z => z

def LayoutNode.setSize (size : ℚ) : LayoutNode → LayoutNode
  | .nil => .nil
  | .node t d p cs _ => .node t d p cs size

def LayoutNode.isNil : LayoutNode → Bool
  | .nil => true
  | .node .. => false

def leafNode (paneID : String) (size : ℚ) : LayoutNode := .node .leaf .none paneID [] size

/-- A deep copy: nodes are values here. -/
def cloneLayout (node : LayoutNode) : LayoutNode := node

mutual
/-- The edited tree, or `none` when no leaf shows the target. -/
def splitLayoutNode (targetPaneID : String) (direction : Direction) (newPaneID : String) :
    LayoutNode → Option LayoutNode
  | .nil => none
  | .node t d p cs z =>
    if t = .leaf ∧ p = targetPaneID then
      some (.node .split direction "" [leafNode targetPaneID 50, leafNode newPaneID 50] z)
    else (splitLayoutNodes targetPaneID direction newPaneID cs).map fun cs' => .node t d p cs' z
def splitLayoutNodes (targetPaneID : String) (direction : Direction) (newPaneID : String) :
    List LayoutNode → Option (List LayoutNode)
  | [] => none
  | c :: cs =>
    match splitLayoutNode targetPaneID direction newPaneID c with
    | some c' => some (c' :: cs)
    | none => (splitLayoutNodes targetPaneID direction newPaneID cs).map (c :: ·)
end

/-- What is left of a split whose remaining children are `children`. -/
def collapseSplit (type : NodeType) (direction : Direction) (paneID : String) (size : ℚ) :
    List LayoutNode → LayoutNode
  | [] => .nil
  | [c] => if 0 < size then c.setSize size else c
  | children =>
    let share : ℚ := 100 / children.length
    .node type direction paneID (children.map fun c => if c.size ≤ 0 then c.setSize share else c) size

mutual
def removePaneFromLayoutNode (paneID : String) : LayoutNode → LayoutNode
  | .nil => .nil
  | .node t d p cs z =>
    if t = .leaf then
      if p = paneID then .nil else cloneLayout (.node t d p cs z)
    else collapseSplit t d p z (removePaneFromLayoutNodes paneID cs)
def removePaneFromLayoutNodes (paneID : String) : List LayoutNode → List LayoutNode
  | [] => []
  | c :: cs =>
    let next := removePaneFromLayoutNode paneID c
    if next.isNil then removePaneFromLayoutNodes paneID cs
    else next :: removePaneFromLayoutNodes paneID cs
end

def clampChildSize (child : LayoutNode) : LayoutNode :=
  let low := if child.size < 5 then child.setSize 5 else child
  if low.size > 95 then low.setSize 95 else low

mutual
/-- The normalised node and the panes seen so far, each once. -/
def validateLayoutNode (tab : TerminalTab) : LayoutNode → List String → Except String (LayoutNode × List String)
  | .nil, _ => .error "layout node is required"
  | .node t d p cs z, seen =>
    match t with
    | .leaf =>
      if !tab.hasPane p then .error "layout references unknown pane"
      else if seen.contains p then .error "layout references pane more than once"
      else .ok (.node .leaf .none p [] z, p :: seen)
    | .split =>
      if d ≠ .vertical ∧ d ≠ .horizontal then .error "invalid layout direction"
      else if cs.length < 2 then .error "split layout needs at least two children"
      else
        match validateLayoutNodes tab cs seen with
        | .error err => .error err
        | .ok (children, seen) =>
          let totalSized := (children.map LayoutNode.size).sum
          let share : ℚ := 100 / children.length
          let sized := if totalSized ≤ 0 then children.map (LayoutNode.setSize share) else children
          .ok (.node .split d "" sized z, seen)
    | .other _ => .error "invalid layout node type"
def validateLayoutNodes (tab : TerminalTab) :
    List LayoutNode → List String → Except String (List LayoutNode × List String)
  | [], seen => .ok ([], seen)
  | c :: cs, seen =>
    match validateLayoutNode tab c seen with
    | .error err => .error err
    | .ok (c', seen) =>
      match validateLayoutNodes tab cs seen with
      | .error err => .error err
      | .ok (cs', seen) => .ok (clampChildSize c' :: cs', seen)
end

def validateLayoutForTab (node : LayoutNode) (tab : TerminalTab) : Except String LayoutNode :=
  match validateLayoutNode tab node [] with
  | .error err => .error err
  | .ok (normalized, seen) =>
    if seen.length ≠ tab.PaneIDs.length then .error "layout does not include every pane"
    else if tab.PaneIDs.any fun paneID => seen.count paneID ≠ 1 then .error "layout pane set does not match tab"
    else .ok normalized

mutual
def collectLayoutPaneIDs : LayoutNode → List String → List String
  | .nil, result => result
  | .node t _ p cs _, result => if t = .leaf then result ++ [p] else collectLayoutsPaneIDs cs result
def collectLayoutsPaneIDs : List LayoutNode → List String → List String
  | [], result => result
  | c :: cs, result => collectLayoutsPaneIDs cs (collectLayoutPaneIDs c result)
end

mutual
def firstLayoutPaneID : LayoutNode → String
  | .nil => ""
  | .node t _ p cs _ => if t = .leaf then p else firstLayoutsPaneID cs
def firstLayoutsPaneID : List LayoutNode → String
  | [] => ""
  | c :: cs =>
    let paneID := firstLayoutPaneID c
    if paneID ≠ "" then paneID else firstLayoutsPaneID cs
end

mutual
def lastLayoutPaneID : LayoutNode → String
  | .nil => ""
  | .node t _ p cs _ => if t = .leaf then p else lastLayoutsPaneID cs
/-- The loop from the last child down. -/
def lastLayoutsPaneID : List LayoutNode → String
  | [] => ""
  | c :: cs =>
    let paneID := lastLayoutsPaneID cs
    if paneID ≠ "" then paneID else lastLayoutPaneID c
end

mutual
def adjacentPaneID (paneID : String) : LayoutNode → String × Bool
  | .nil => ("", false)
  | .node t _ p cs _ => if t = .leaf then ("", p = paneID) else adjacentAmong paneID none cs
/-- The loop over the children; `before` is the child before the rest. -/
def adjacentAmong (paneID : String) : Option LayoutNode → List LayoutNode → String × Bool
  | _, [] => ("", false)
  | before, c :: cs =>
    let (candidate, contains) := adjacentPaneID paneID c
    if !contains then adjacentAmong paneID (some c) cs
    else if candidate ≠ "" then (candidate, true)
    else
      match cs, before with
      | next :: _, _ => (firstLayoutPaneID next, true)
      | [], some prev => (lastLayoutPaneID prev, true)
      | [], none => ("", true)
end

def firstExistingPaneID (current : String) (paneIDs : List String) : String :=
  if paneIDs.contains current then current else paneIDs.headD ""

mutual
/-- The closure `replace` of `restartExitedPaneLocked`. -/
def replaceLayoutPane (paneID newPaneID : String) : LayoutNode → LayoutNode
  | .nil => .nil
  | .node t d p cs z =>
    .node t d (if t = .leaf ∧ p = paneID then newPaneID else p) (replaceLayoutPanes paneID newPaneID cs) z
def replaceLayoutPanes (paneID newPaneID : String) : List LayoutNode → List LayoutNode
  | [] => []
  | c :: cs => replaceLayoutPane paneID newPaneID c :: replaceLayoutPanes paneID newPaneID cs
end

def defaultTerminalCols : Int := 120
def defaultTerminalRows : Int := 32

def NormalizeCols (cols : Int) : Int := if cols ≤ 0 then defaultTerminalCols else min cols 500

def NormalizeRows (rows : Int) : Int := if rows ≤ 0 then defaultTerminalRows else min rows 300

def normalizeTerminalPixelDimension (value : Int) : Int := if value ≤ 0 then 0 else min value 65535

end Webshell
