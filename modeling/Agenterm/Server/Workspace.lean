import Agenterm.Lib.Run
import Agenterm.Server.Terminals

/-!
# Workspaces and runs of the server

The workspace file (`workspace.rs`), how the server writes it and how it starts from it
(`ServerState::new`), and the machine whose runs are the histories of the server: the
operations on a server, the writing of the workspace file, and restarts.
-/

namespace Agenterm

structure SavedTab where
  id : Nat
  index : Nat
  parentId : Option Nat
  title : String
  note : String
  composer : String
  commandLine : List String
deriving DecidableEq

/-- A workspace file; `collapsedIds` are written in the order of a hash set, which carries no
meaning. -/
structure SavedWorkspace where
  version : Nat
  sessionName : String
  activeId : Option Nat
  collapsedIds : Finset Nat
  tabs : List SavedTab
deriving DecidableEq

def defaultSessionName : String := "agenterm"

/-- The one tab of a first start. -/
def defaultTab : SavedTab :=
  { id := 1, index := 0, parentId := none, title := "", note := "", composer := "",
    commandLine := [] }

def defaultWorkspace : SavedWorkspace :=
  { version := 1, sessionName := defaultSessionName, activeId := some 1, collapsedIds := ∅,
    tabs := [defaultTab] }

/-- The workspace of a server that starts empty. -/
def emptyWorkspace : SavedWorkspace :=
  { version := 1, sessionName := defaultSessionName, activeId := none, collapsedIds := ∅,
    tabs := [] }

/-- `load_workspace` on the content of the workspace file, `none` being a file that is missing
or cannot be read. -/
def loadWorkspace (file : Option SavedWorkspace) : Option SavedWorkspace :=
  file.filter fun workspace => workspace.version = 1 && !workspace.tabs.isEmpty

namespace ServerState

def savedTab (tab : TerminalTab) : SavedTab :=
  { id := tab.id, index := tab.index, parentId := tab.parentId, title := tab.title,
    note := tab.note, composer := tab.composer, commandLine := tab.commandLine }

def savedWorkspace (s : ServerState) : SavedWorkspace :=
  { version := 1, sessionName := s.sessionName, activeId := s.active,
    collapsedIds := s.collapsedTabs, tabs := s.tabs.map savedTab }

/-- The terminal of a saved tab, once its process has started. -/
def restoredTab (saved : SavedTab) (spawned : Spawned) : TerminalTab :=
  let title := if saved.title.isEmpty then none else some saved.title
  { TerminalTab.spawn saved.id saved.index saved.parentId title saved.commandLine
      (initialRows, initialColumns) spawned with
    note := saved.note
    composer := saved.composer }

def restoreTab (s : ServerState) (saved : SavedTab) (spawn : Except String Spawned) :
    Option ServerState :=
  match spawn with
  | .error _ => none
  | .ok spawned =>
    { s with tabs := sortByIndex (s.tabs ++ [restoredTab saved spawned]) }.commit .tabCreated
      (some saved.id) (.object [("index", .nat saved.index), ("restored", .bool true),
        ("selected", .bool (s.active = some saved.id))])

/-- Restores the tabs in order; `spawn` gives the outcome for each saved tab. -/
def restoreTabs (spawn : SavedTab → Except String Spawned) (s : ServerState)
    (saved : List SavedTab) : Option ServerState :=
  saved.foldlM (fun s tab => s.restoreTab tab (spawn tab)) s

/-- The server before its tabs are restored. -/
def unrestored (epoch : String) (restored : SavedWorkspace) : ServerState :=
  { tabs := []
    collapsedTabs := restored.collapsedIds
    active := restored.activeId
    nextId := saturatingAdd ((restored.tabs.map SavedTab.id).foldl max 0) 1
    sessionName :=
      if restored.sessionName.isEmpty then defaultSessionName else restored.sessionName
    eventJournal := .withEpoch epoch defaultEventCapacity
    controlAuthority := .default
    shutdownRequested := false }

/-- The first tab becomes active unless the saved one is live. -/
def settleActive (s : ServerState) : ServerState :=
  if s.active.all fun id => !s.isLive id then
    { s with active := s.tabs.head?.map TerminalTab.id }
  else
    s

/-- `ServerState::new`; `none` is a start that fails. -/
def new (startEmpty : Bool) (file : Option SavedWorkspace) (epoch : String)
    (spawn : SavedTab → Except String Spawned) (spawnFirst : Except String Spawned) :
    Option ServerState := do
  let restored := if startEmpty then emptyWorkspace else (loadWorkspace file).getD defaultWorkspace
  let s ← (unrestored epoch restored).restoreTabs spawn restored.tabs
  if s.tabs.isEmpty && !startEmpty then
    match ← s.createTab none [] true none spawnFirst with
    | (.ok _, s) => some s
    | (.error _, _) => none
  else
    some s.settleActive

end ServerState

/-! ## Runs -/

/-- The operations of a running server. `commitEvent` stands for the operations that change no
tab and commit an event that names none (layout, leases, window visibility). -/
inductive ServerOp where
  | createTab (title : Option String) (commandLine : List String) (select : Bool)
      (parentId : Option Nat) (spawn : Except String Spawned)
  | setTabParent (childId : Nat) (parentId : Option Nat)
  | closeTab (id : Nat) (shutdown : TerminalShutdownReceipt)
  | selectTabAt (position : Nat)
  | toggleTabCollapsed (tabId : Nat)
  | renameWindow (position : Nat) (name : String)
  | setTabNote (position : Nat) (note : String)
  | setComposer (position : Nat) (text : String)
  | prepareCwd (tabId : Nat) (path mode : String)
  | sendCwdNow (tabId : Nat) (path : String) (now : Nat) (writeError : Option String)
  | sendComposer (position now : Nat) (writeError : Option String)
  | paste (tabId : Nat) (bytes : List UInt8) (textBytes characters : Nat) (bracketed : Bool)
      (writeError : Option String)
  | resize (tabId rows columns : Nat) (native : Except String Unit) (screen : Screen)
  | scroll (position : Nat) (screen : Screen) (source : String)
  | pollTerminals (inputs : Nat → PollInput)
  | commitEvent (kind : EventKind) (payload : Value)

namespace ServerState

def step (s : ServerState) : ServerOp → Option ServerState
  | .createTab title commandLine select parentId spawn =>
    (s.createTab title commandLine select parentId spawn).map Prod.snd
  | .setTabParent childId parentId => (s.setTabParentOnHost childId parentId).map Prod.snd
  | .closeTab id shutdown => (s.closeTab id shutdown).map Prod.snd
  | .selectTabAt position => (s.selectTabAt position).map Prod.snd
  | .toggleTabCollapsed tabId => (s.toggleTabCollapsed tabId).map Prod.snd
  | .renameWindow position name => (s.renameWindow position name).map Prod.snd
  | .setTabNote position note => (s.setTabNote position note).map Prod.snd
  | .setComposer position text => (s.applySetComposer position text).map Prod.snd
  | .prepareCwd tabId path mode => (s.prepareCwd tabId path mode).map Prod.snd
  | .sendCwdNow tabId path now writeError =>
    (s.sendCwdNow tabId path now writeError).map Prod.snd
  | .sendComposer position now writeError =>
    (s.sendComposerAtPosition position now writeError).map Prod.snd
  | .paste tabId bytes textBytes characters bracketed writeError =>
    (s.pasteInto tabId bytes textBytes characters bracketed writeError).map Prod.snd
  | .resize tabId rows columns native screen =>
    (s.resizeTab tabId rows columns native screen).map Prod.snd
  | .scroll position screen source => (s.scrollViewport position screen source).map Prod.snd
  | .pollTerminals inputs => s.pollTerminals inputs
  | .commitEvent kind payload => s.commit kind none payload

end ServerState

/-- A server and the workspace file it writes. -/
structure Machine where
  server : ServerState
  file : Option SavedWorkspace

inductive MachineOp where
  | serve (op : ServerOp)
  | persistWorkspace
  | restart (startEmpty : Bool) (epoch : String) (spawn : SavedTab → Except String Spawned)
      (spawnFirst : Except String Spawned)

namespace Machine

/-- The first start, when there is no workspace file yet. -/
def start (startEmpty : Bool) (epoch : String) (spawn : SavedTab → Except String Spawned)
    (spawnFirst : Except String Spawned) : Option Machine := do
  let server ← ServerState.new startEmpty none epoch spawn spawnFirst
  some { server, file := none }

def step (m : Machine) : MachineOp → Option Machine
  | .serve op => do
    let server ← m.server.step op
    some { m with server }
  | .persistWorkspace => do
    let server ← m.server.commit .workspaceSaved none (.object [])
    some { server, file := some m.server.savedWorkspace }
  | .restart startEmpty epoch spawn spawnFirst => do
    let server ← ServerState.new startEmpty m.file epoch spawn spawnFirst
    some { m with server }

end Machine

end Agenterm
