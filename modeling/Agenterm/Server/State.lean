import Agenterm.Server.Tree
import Agenterm.Control.Authority
import Mathlib.Data.Finset.Basic

/-!
# The server state

`ServerState` of `server_app.rs`: the tabs, the active tab, the id allocator, the journal and
the control authority, with the operations that change them. What an operation meets outside
the server (a process that starts or does not, what a terminal delivers, how a process is shut
down) is an argument of it.

An operation answers with the source's `Result` and the state it leaves; `none` is the end of
the process: the journal has used up its sequence numbers, or a search for a free tab index
does not end.
-/

namespace Agenterm

def initialRows : Nat := 30
def initialColumns : Nat := 100

structure ServerState where
  tabs : List TerminalTab
  collapsedTabs : Finset Nat
  active : Option Nat
  nextId : Nat
  sessionName : String
  eventJournal : EventJournal
  controlAuthority : ControlAuthority
  shutdownRequested : Bool

namespace ServerState

/-- Whether some tab has this id. -/
def isLive (s : ServerState) (id : Nat) : Bool := s.tabs.any fun tab => tab.id = id

def commit (s : ServerState) (kind : EventKind) (tabId : Option Nat) (payload : Value) :
    Option ServerState := do
  let (_, eventJournal) ← s.eventJournal.commit kind tabId payload
  some { s with eventJournal }

/-! ## The tab tree -/

/-- The size a new terminal starts with. -/
def newTabSize (s : ServerState) : Nat × Nat :=
  (((s.active.bind fun active => s.tabs.find? fun tab => tab.id = active).or
    s.tabs.head?).map TerminalTab.lastSize).getD (initialRows, initialColumns)

/-- Expands the parent of a new tab. -/
def expandParent (s : ServerState) : Option Nat → Option ServerState
  | none => some s
  | some parentId =>
    if parentId ∈ s.collapsedTabs then
      { s with collapsedTabs := s.collapsedTabs.erase parentId }.commit .layoutTreeCollapse
        (some parentId) (.object [("collapsed", .bool false)])
    else
      some s

/-- Selects a tab that was just created. -/
def selectCreated (s : ServerState) (id : Nat) (select : Bool) : Option ServerState :=
  if select then
    { s with active := some id }.commit .tabSelected (some id) (.object [])
  else
    some s

/-- Adds a tab whose process has started. -/
def addTab (s : ServerState) (tab : TerminalTab) (select : Bool) : Option ServerState := do
  let s := { s with tabs := sortByIndex (s.tabs ++ [tab]) }
  let s ← s.expandParent tab.parentId
  let s ← s.commit .tabCreated (some tab.id) (.object [("index", .nat tab.index),
    ("parent_id", .option .nat tab.parentId), ("selected", .bool select)])
  s.selectCreated tab.id select

def createTab (s : ServerState) (title : Option String) (commandLine : List String)
    (select : Bool) (parentId : Option Nat) (spawn : Except String Spawned) :
    Option (Except String Nat × ServerState) :=
  if parentId.any fun parent => !s.isLive parent then
    some (.error ("can't find parent tab: @" ++ toString (parentId.getD 0)), s)
  else
    let id := s.nextId
    let index := leastFreeIndex s.tabs
    if index ≤ u32Max then
      let size := s.newTabSize
      let s := { s with nextId := saturatingAdd s.nextId 1 }
      match spawn with
      | .error error => some (.error error, s)
      | .ok spawned => do
        let tab := TerminalTab.spawn id index parentId title commandLine size spawned
        let s ← s.addTab tab select
        some (.ok index, s)
    else
      none

/-- Everything `set_tab_parent_on_host` refuses. -/
def parentRefusal (s : ServerState) (childId : Nat) : Option Nat → Option String
  | none => none
  | some parentId =>
    if !s.isLive parentId then
      some ("can't find parent tab: @" ++ toString parentId)
    else if wouldCreateCycle (s.tabs.map TerminalTab.treeNode) childId parentId then
      some ("moving @" ++ toString childId ++ " under @" ++ toString parentId
        ++ " would create a cycle")
    else
      none

def setTabParentOnHost (s : ServerState) (childId : Nat) (parentId : Option Nat) :
    Option (Except String Unit × ServerState) :=
  match s.tabs.find? fun tab => tab.id = childId with
  | none => some (.error ("can't find child tab: @" ++ toString childId), s)
  | some child =>
    match s.parentRefusal childId parentId with
    | some error => some (.error error, s)
    | none => do
      let tabs := Lib.updateFirst (fun tab => tab.id = childId)
        (TerminalTab.setParent parentId) s.tabs
      let s ← { s with tabs }.commit .tabParent (some childId)
        (.object [("previous_parent_id", .option .nat child.parentId),
          ("parent_id", .option .nat parentId)])
      some (.ok (), s)

/-- The tabs after the one at `position`, with this id and parent, is closed: its children move
up to its parent. -/
def tabsAfterClose (tabs : List TerminalTab) (id : Nat) (parentId : Option Nat)
    (position : Nat) : List TerminalTab :=
  (tabs.map (TerminalTab.promote id parentId)).eraseIdx position

/-- The tab that becomes active when the active one at `position` is closed. -/
def neighbourId (tabs : List TerminalTab) (position : Nat) : Option Nat :=
  (tabs[position]?.or (if position = 0 then none else tabs[position - 1]?)).map TerminalTab.id

def closeTab (s : ServerState) (id : Nat) (shutdown : TerminalShutdownReceipt) :
    Option (Except String TerminalShutdownReceipt × ServerState) :=
  match s.tabs.find? fun tab => tab.id = id with
  | none => some (.error ("can't find tab: @" ++ toString id), s)
  | some closing => do
    let position := s.tabs.findIdx fun tab => tab.id = id
    let promoted := (s.tabs.filter fun tab => tab.parentId = some id).map TerminalTab.id
    let tabs := tabsAfterClose s.tabs id closing.parentId position
    let active := if s.active = some id then neighbourId tabs position else s.active
    let s ← { s with tabs, collapsedTabs := s.collapsedTabs.erase id, active }.commit
      .tabClosed (some id)
      (.object [("index", .nat closing.index),
        ("parent_id", .option .nat closing.parentId),
        ("exit_code", .option .nat closing.exited),
        ("promoted_children", .array (promoted.map .nat)),
        ("active_id", .option .nat active),
        ("terminal_shutdown_complete", .bool shutdown.verified),
        ("terminal_shutdown", shutdown.json)])
    some (.ok shutdown, s)

def selectTabAt (s : ServerState) (position : Nat) : Option (Except String Unit × ServerState) :=
  match s.tabs[position]? with
  | none => some (.error "can't find window", s)
  | some tab => do
    let s ← { s with active := some tab.id }.commit .tabSelected (some tab.id) (.object [])
    some (.ok (), s)

def toggleTabCollapsed (s : ServerState) (tabId : Nat) :
    Option (Except String Unit × ServerState) :=
  if !s.isLive tabId then
    some (.error ("can't find tab: @" ++ toString tabId), s)
  else if !s.tabs.any fun tab => tab.parentId = some tabId then
    some (.error "tab has no child nodes", s)
  else do
    let collapsed := tabId ∉ s.collapsedTabs
    let collapsedTabs :=
      if collapsed then insert tabId s.collapsedTabs else s.collapsedTabs.erase tabId
    let s ← { s with collapsedTabs }.commit .layoutTreeCollapse (some tabId)
      (.object [("collapsed", .bool collapsed)])
    some (.ok (), s)

end ServerState

end Agenterm
