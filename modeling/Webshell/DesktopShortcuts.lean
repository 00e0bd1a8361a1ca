import Webshell.MobileShortcuts

/-!
# Desktop shortcuts

Server and browser each normalise a shortcut and each take two shortcuts to be one if
their normal forms are equal. The server replaces single spaces in the name of a key, the
browser runs of white space.
-/

namespace Webshell

open GoText

/-! ## The state of both loops -/

structure DesktopShortcutState where
  ctrl : Bool := false
  shift : Bool := false
  alt : Bool := false
  super : Bool := false
  key : List Char := []
  deriving DecidableEq

namespace DesktopShortcutState

def take (state : DesktopShortcutState) (token : List Char) : DesktopShortcutState :=
  if token = "ctrl".toList then { state with ctrl := true }
  else if token = "shift".toList then { state with shift := true }
  else if token = "alt".toList then { state with alt := true }
  else if token = "super".toList then { state with super := true }
  else { state with key := token }

def flags (state : DesktopShortcutState) (ctrl shift alt super : String) : List (List Char) :=
  (if state.ctrl then [ctrl.toList] else []) ++ (if state.shift then [shift.toList] else []) ++
    (if state.alt then [alt.toList] else []) ++ if state.super then [super.toList] else []

def parts (state : DesktopShortcutState) (ctrl shift alt super : String) : List (List Char) :=
  state.flags ctrl shift alt super ++ [state.key]

end DesktopShortcutState

/-! ## The server -/

structure DesktopShortcut where
  ID : String
  Label : String
  Action : String
  Shortcut : String
  deriving DecidableEq

def allowedDesktopShortcutActions : List String :=
  ["fullscreen", "new_tab", "close_tab", "close_other_tabs", "rename_tab", "next_tab", "previous_tab", "last_tab",
    "move_tab_to_first", "move_tab_left", "move_tab_right", "move_tab_to_last", "vertical_split", "horizontal_split",
    "select_up", "select_down", "select_left", "select_right", "close_pane", "theme", "switch_container",
    "copy_terminal", "paste_terminal", "search_terminal", "select_all_terminal", "attachment_clipboard",
    "attachment_file"] ++ (List.range' 1 9).map fun i => "tab_" ++ i.repr

/-- The cases of the switch of `normalizeDesktopShortcutToken`. -/
def desktopShortcutNames : List (List String × String) :=
  [(["control", "ctrl"], "ctrl"), (["shift"], "shift"), (["alt", "option"], "alt"),
    (["meta", "command", "cmd", "super"], "super"), (["pageup"], "page_up"), (["pagedown"], "page_down"),
    (["return"], "enter"), (["esc", "escape"], "escape"), ([" "], "space")]

def desktopShortcutName (lower : List Char) : Option (List Char) :=
  (desktopShortcutNames.find? fun row => (row.1.map String.toList).contains lower).map (·.2.toList)

/-- `strings.ReplaceAll(lower, " ", "_")`. -/
def replaceBlanks (s : List Char) : List Char := s.map fun c => if c = ' ' then '_' else c

/-- The token of an ASCII text. -/
def normalizeDesktopShortcutToken (token : List Char) : List Char :=
  let raw := (trimSpace (String.ofList token)).toList
  if raw = [] then []
  else
    let lower := raw.map Char.toLower
    match desktopShortcutName lower with
    | some name => name
    | none =>
      if byteLength (String.ofList raw) = 1 then lower
      else if lower.head? = some 'f' ∧ byteLength (String.ofList lower) ≤ 3 then lower
      else replaceBlanks lower

def desktopShortcutState (value : List Char) : DesktopShortcutState :=
  (value.splitOn '+').foldl (fun state part => state.take (normalizeDesktopShortcutToken part)) {}

def DesktopShortcutState.serialize (s : DesktopShortcutState) : Except String (List Char) :=
  if s.key = [] then .error (errBadRequest "invalid desktop shortcut")
  else .ok (" + ".toList.intercalate (s.parts "Ctrl" "Shift" "Alt" "Command"))

def normalizeDesktopShortcutDefinition (value : List Char) : Except String (List Char) :=
  if trimSpace (String.ofList value) = "" then .error (errBadRequest "invalid desktop shortcut")
  else (desktopShortcutState value).serialize

def normalizeDesktopShortcut (shortcut : DesktopShortcut) : Except String DesktopShortcut :=
  let next : DesktopShortcut :=
    { ID := trimSpace shortcut.ID, Label := trimSpace shortcut.Label, Action := trimSpace shortcut.Action,
      Shortcut := trimSpace shortcut.Shortcut }
  if !shortcutIDPattern next.ID then .error (errBadRequest "invalid desktop shortcut id")
  else if next.Label.length < 1 ∨ 32 < next.Label.length then
    .error (errBadRequest "desktop shortcut label must be 1-32 characters")
  else if !allowedDesktopShortcutActions.contains next.Action then .error (errBadRequest "invalid desktop shortcut action")
  else
    match normalizeDesktopShortcutDefinition next.Shortcut.toList with
    | .error err => .error err
    | .ok normalizedShortcut => .ok { next with Shortcut := String.ofList normalizedShortcut }

def normalizeDesktopShortcutsFrom (seenIDs seenShortcuts : List String) :
    List DesktopShortcut → Except String (List DesktopShortcut)
  | [] => .ok []
  | shortcut :: list => do
    let next ← normalizeDesktopShortcut shortcut
    if seenIDs.contains next.ID then .error (errBadRequest "duplicate desktop shortcut id")
    else if seenShortcuts.contains next.Shortcut then .error (errBadRequest "duplicate desktop shortcut")
    else
      let normalized ← normalizeDesktopShortcutsFrom (next.ID :: seenIDs) (next.Shortcut :: seenShortcuts) list
      return next :: normalized

/-- The list may be nil. -/
def normalizeDesktopShortcuts : Option (List DesktopShortcut) → Except String (Option (List DesktopShortcut))
  | none => .ok none
  | some list =>
    if 64 < list.length then .error (errBadRequest "too many desktop shortcuts")
    else (normalizeDesktopShortcutsFrom [] [] list).map some

/-! ## The browser -/

namespace Client

/-- What the text of the function `Object` is. -/
def objectFunctionText : String := "function Object() \x7b [native code] \x7d"

/-- The properties of `aliases` that have names in lower case, with the text of their values: the last two are inherited
from `Object.prototype`. -/
def aliases : List (String × String) :=
  [("control", "ctrl"), ("meta", "super"), ("command", "super"), ("cmd", "super"), ("option", "alt"),
    ("pageup", "page_up"), ("pagedown", "page_down"), ("escape", "escape"), ("esc", "escape"), ("return", "enter"),
    (" ", "space"), ("constructor", objectFunctionText), ("__proto__", "[object Object]")]

def aliasOf (lower : List Char) : Option (List Char) :=
  (aliases.find? fun row => row.1.toList == lower).map (·.2.toList)

/-- `/^f\d{1,2}$/i`. -/
def functionKey : List Char → Bool
  | [f, d] => (f = 'f' || f = 'F') && d.isDigit
  | [f, d, e] => (f = 'f' || f = 'F') && d.isDigit && e.isDigit
  | _ => false

/-- `replace(/\s+/g, "_")`. -/
def replaceSpaces : List Char → List Char
  | [] => []
  | c :: cs =>
    if Js.isSpace c = false then c :: replaceSpaces cs
    else if cs.head?.any Js.isSpace = true then replaceSpaces cs
    else '_' :: replaceSpaces cs

/-- The token of an ASCII text. -/
def normalizeShortcutKeyToken (token : List Char) : List Char :=
  let raw := Js.trim token
  if raw = [] then []
  else
    let lower := raw.map Char.toLower
    match aliasOf lower with
    | some name => name
    | none => if functionKey raw = true ∨ Js.length raw = 1 then lower else replaceSpaces lower

def serializeShortcut (state : DesktopShortcutState) : List Char :=
  if state.key = [] then [] else ['+'].intercalate (state.parts "ctrl" "shift" "alt" "super")

def normalizeShortcutDefinition (value : List Char) : List Char :=
  serializeShortcut ((value.splitOn '+').foldl (fun state part => state.take (normalizeShortcutKeyToken part)) {})

def desktopShortcutActionLabels : List (String × String) :=
  [("fullscreen", "全屏"), ("new_tab", "新建标签"), ("close_tab", "关闭标签"), ("close_other_tabs", "关闭其他标签"),
    ("rename_tab", "重命名标签"), ("next_tab", "下一个标签"), ("previous_tab", "上一个标签"),
    ("last_tab", "最后一个标签"), ("move_tab_to_first", "标签移到最前"), ("move_tab_left", "标签左移"),
    ("move_tab_right", "标签右移"), ("move_tab_to_last", "标签移到最后"), ("vertical_split", "左右分屏"),
    ("horizontal_split", "上下分屏"), ("select_up", "选择上方窗格"), ("select_down", "选择下方窗格"),
    ("select_left", "选择左侧窗格"), ("select_right", "选择右侧窗格"), ("close_pane", "关闭窗格"),
    ("theme", "主题设置"), ("switch_container", "切换实例"), ("copy_terminal", "复制终端文本"),
    ("paste_terminal", "粘贴到终端"), ("search_terminal", "搜索终端"), ("select_all_terminal", "全选终端缓冲区"),
    ("attachment_clipboard", "从剪贴板导入附件"), ("attachment_file", "上传附件文件")] ++
  (List.range' 1 9).map fun index => ("tab_" ++ index.repr, "切换到第 " ++ index.repr ++ " 个标签")

structure DesktopShortcut where
  id : List Char
  label : List Char
  action : List Char
  shortcut : List Char
  deriving DecidableEq

def toClientDesktopShortcut (shortcut : Webshell.DesktopShortcut) : Option DesktopShortcut :=
  let id := Js.trim shortcut.ID.toList
  let action := Js.trim shortcut.Action.toList
  let label := Js.trim shortcut.Label.toList
  match desktopShortcutActionLabels.lookup (String.ofList action) with
  | none => none
  | some actionLabel =>
    if id = [] ∨ normalizeShortcutDefinition shortcut.Shortcut.toList = [] then none
    else
      some { id, label := if label = [] then actionLabel.toList else label, action,
             shortcut := Js.trim shortcut.Shortcut.toList }

def cloneDesktopShortcuts (shortcuts : List DesktopShortcut) : List DesktopShortcut :=
  shortcuts.map fun shortcut =>
    { id := Js.trim shortcut.id, label := Js.trim shortcut.label, action := Js.trim shortcut.action,
      shortcut := Js.trim shortcut.shortcut }

local instance lawfulTexts : LawfulBEq (List Char) := inferInstance

/-- The filter of `normalizeDesktopShortcuts`, with the normal forms seen so far. -/
def unseenShortcuts (seenShortcuts : List (List Char)) : List DesktopShortcut → List DesktopShortcut
  | [] => []
  | shortcut :: shortcuts =>
    let normalized := normalizeShortcutDefinition shortcut.shortcut
    if normalized = [] ∨ normalized ∈ seenShortcuts then unseenShortcuts seenShortcuts shortcuts
    else shortcut :: unseenShortcuts (normalized :: seenShortcuts) shortcuts

def normalizeDesktopShortcuts (shortcuts : Option (List Webshell.DesktopShortcut)) (defaults : List DesktopShortcut) :
    List DesktopShortcut :=
  match shortcuts with
  | none => cloneDesktopShortcuts defaults
  | some shortcuts => unseenShortcuts [] (shortcuts.filterMap toClientDesktopShortcut)

end Client

end Webshell
