import Agenterm.Server.Workspace
import Agenterm.Text

/-!
# Requests to the server

`execute_request` of `server_app.rs`: a controlled request is admitted by the control authority,
executed, and its receipt recorded; a submission that waits for its Enter leaves the receipt
open until a poll finishes it.

`send-composer`, the command whose receipt may stay open, is modelled as the source has it. What
any other command does is an argument of the request: a list of operations on the server and the
response. Commands never poll the terminals.
-/

namespace Agenterm

/-! ## Targets -/

/-- The id behind `@`, if there is one. -/
def stableIdOf : List Char → Option Nat
  | '@' :: value => parseUnsigned u64Max value
  | _ => none

/-- The position of the tab that a target names: by id, by index, by name, or the active one. -/
def resolveTargetPosition (tabs : List TerminalTab) (active : Option Nat) :
    Option String → Option Nat
  | none => active.bind fun active => tabs.findIdx? fun tab => tab.id = active
  | some target =>
    let target := ((target.toList.reverse.takeWhile fun c => c ≠ ':').reverse).dropWhile fun c =>
      c = '=' || c = '%'
    match stableIdOf target with
    | some id => tabs.findIdx? fun tab => tab.id = id
    | none =>
      match parseUnsigned u32Max target with
      | some index => tabs.findIdx? fun tab => tab.index = index
      | none => tabs.findIdx? fun tab => tab.title.toList = target

/-- The commands whose target is the active tab when they name none. -/
def tabScopedCommands : List String :=
  ["capture-output", "capture-pane", "display-message", "dump-cells", "focus", "inspect",
    "kill-window", "rename-window", "scroll-pane", "send-composer", "send-keys", "send-mouse",
    "set-composer", "set-tab-note", "show-composer", "show-tab-note", "paste-buffer", "pasteb"]

/-- A command that has no target and answers with a tab id resolves to that tab. -/
def ResolvedTarget.settle (resolved : ResolvedTarget) (response : IpcResponse) :
    ResolvedTarget :=
  if resolved.tabId.isNone then
    { resolved with tabId := stableIdOf (trim response.output.toList) }
  else
    resolved

namespace ServerState

def controlEventPosition (s : ServerState) : ControlEventPosition :=
  { epoch := s.eventJournal.epoch, sequence := s.eventJournal.sequence }

def resolvedControlTarget (s : ServerState) (serverPid : Nat) (serverAddress : String)
    (args : List String) : ResolvedTarget :=
  let tabScoped := (optionValue args "-t").isSome ||
    tabScopedCommands.contains (args.head?.getD "")
  let tabId :=
    if tabScoped then
      (resolveTargetPosition s.tabs s.active (optionValue args "-t")).bind fun position =>
        s.tabs[position]?.map TerminalTab.id
    else
      none
  { serverPid, serverAddress, serverEpoch := s.eventJournal.epoch, session := s.sessionName,
    tabId }

/-- The wait of a composer that was sent and whose tab waits for its Enter. -/
def submissionWait (s : ServerState) (control : ControlRequest) (responseOk : Bool)
    (resolved : ResolvedTarget) (afterPosition : ControlEventPosition) :
    Option WaitDescriptor :=
  if responseOk && control.operationId.value = "command.send.composer" then do
    let tabId ← resolved.tabId
    let tab ← s.tabs.find? fun tab => tab.id = tabId
    if tab.submission.isPending then
      some
        { condition := .submissionComplete
          target := resolved
          minimumPosition := afterPosition
          eventKind := some "composer.submission-finished"
          deadlineUnixMs := control.deadlineUnixMs }
    else
      none
  else
    none

/-- What `kill-session` and `kill-server` leave. -/
def killSession (s : ServerState) : ServerState :=
  { s with tabs := [], active := none, shutdownRequested := true }

end ServerState

/-! ## Commands -/

def ServerOp.polls : ServerOp → Bool
  | .pollTerminals _ => true
  | _ => false

/-- What commands do: operations of the server, input to a terminal, and the few changes that
commit no event. -/
inductive CommandOp where
  | serve (op : ServerOp) (quiet : op.polls = false)
  | persistWorkspace
  | sendInput (position : Nat) (bytes : List UInt8) (writeError : Option String)
  | sendNativeKey (position : Nat)
  | renameSession (name : String)
  | requestShutdown
  | killSession

/-- What a request meets: the clocks, the error of writing to the terminal if there is one, the
identity of the server, and what its command does unless it is `send-composer`. -/
structure RequestEnv where
  nowUnixMs : Nat
  now : Nat
  writeError : Option String
  serverPid : Nat
  serverAddress : String
  ops : List CommandOp
  response : IpcResponse

/-- The commands other than `send-composer` that the server dispatches, or whose arguments it
checks before it refuses them. -/
def serverCommands : List String :=
  ["start-server", "protocol-info", "ui-hello", "ui-bootstrap", "ui-deltas", "lscm",
    "list-commands", "ls", "list-sessions", "has", "has-session", "lsw", "list-windows", "lsp",
    "list-panes", "send", "send-keys", "send-mouse", "set-buffer", "setb", "load-buffer", "loadb",
    "show-buffer", "showb", "list-buffers", "lsb", "delete-buffer", "deleteb", "paste-buffer",
    "pasteb", "save-buffer", "saveb", "capturep", "capture-pane", "capture-output", "inspect",
    "pane-snapshot", "new", "new-session", "neww", "new-window", "new-agent", "selectw",
    "select-window", "killw", "kill-window", "signal-terminal-foreground", "active-window",
    "active-tab", "display", "display-message", "rename", "rename-session", "kill-session",
    "kill-server", "scroll-pane", "cwd-prepare", "cwd-prepare-append", "cwd-prepare-replace",
    "cwd-send-now", "read-events", "list-tab-tree", "dump-cells", "workspace-info", "renamew",
    "rename-window", "set-tab-note", "show-tab-note", "set-tab-parent", "show-tab-parent", "next",
    "next-window", "prev", "previous-window", "ui-snapshot", "show-composer", "set-composer",
    "set-setting", "ui-action", "get-settings", "focus", "ui-lease", "ui-client-state",
    "ui-client-command", "ui-interact", "screenshot", "screenshot-pane", "screenshot-tab",
    "__focus", "__show-no-activate", "ui-input", "save-workspace", "shutdown", "control-center",
    "wait-events", "server-kill"]

namespace Machine

/-- The tab at `position` after it was edited in place; `none` is an index out of bounds. -/
def editTab (m : Machine) (position : Nat) (edit : TerminalTab → TerminalTab) :
    Option Machine := do
  let tab ← m.server.tabs[position]?
  some { m with server := m.server.setTab position (edit tab) }

def commandStep (m : Machine) : CommandOp → Option Machine
  | .serve op _ => m.step (.serve op)
  | .persistWorkspace => m.step .persistWorkspace
  | .sendInput position bytes writeError =>
    m.editTab position fun tab => (tab.send bytes writeError).2
  | .sendNativeKey position =>
    m.editTab position fun tab => { tab with inputWrites := tab.inputWrites + 1 }
  | .renameSession name => some { m with server := { m.server with sessionName := name } }
  | .requestShutdown => some { m with server := { m.server with shutdownRequested := true } }
  | .killSession => some { m with server := m.server.killSession }

def executeCommand (m : Machine) (args : List String) (env : RequestEnv) :
    Option (IpcResponse × Machine) :=
  match args.head? with
  | none => some (.failure "no command specified", m)
  | some command =>
    if command = "send-composer" then
      match resolveTargetPosition m.server.tabs m.server.active (optionValue args "-t") with
      | none => some (.failure "can't find window", m)
      | some position => do
        let (response, server) ←
          m.server.sendComposerAtPosition position env.now env.writeError
        some (response, { m with server })
    else if serverCommands.contains command then do
      let m ← Lib.exec commandStep m env.ops
      some (env.response, m)
    else
      some (.typedFailure ("headless AgenTerm server does not implement `" ++ command ++ "`")
        "server_command_unsupported" "unsupported" false, m)

def withAuthority (m : Machine) (controlAuthority : ControlAuthority) : Machine :=
  { m with server := { m.server with controlAuthority } }

/-- The admission of a request, and the machine it is executed on. -/
def admitted (m : Machine) (request : IpcRequest) (env : RequestEnv) :
    ControlAdmission × Machine :=
  let (admission, controlAuthority) :=
    m.server.controlAuthority.admitRequest request.control request.args env.nowUnixMs
  (admission, m.withAuthority controlAuthority)

/-- Executes the command of an admitted request, and records its receipt. -/
def executeControlled (m : Machine) (control : ControlRequest) (args : List String)
    (env : RequestEnv) : Option (IpcResponse × Machine) := do
  let beforePosition := m.server.controlEventPosition
  let resolved := m.server.resolvedControlTarget env.serverPid env.serverAddress args
  let (response, m) ← m.executeCommand args env
  let afterPosition := m.server.controlEventPosition
  let resolved := resolved.settle response
  let wait := m.server.submissionWait control response.ok resolved afterPosition
  let (response, controlAuthority) :=
    m.server.controlAuthority.complete control response resolved beforePosition afterPosition wait
  some (response, m.withAuthority controlAuthority)

def executeRequest (m : Machine) (request : IpcRequest) (env : RequestEnv) :
    Option (IpcResponse × Machine) :=
  match m.admitted request env with
  | (.uncontrolled, m) => m.executeCommand request.args env
  | (.respond response, m) => some (response, m)
  | (.execute control, m) => m.executeControlled control request.args env

end Machine

/-- What happens to a server: requests, and everything else (polls among it). -/
inductive ControlOp where
  | machine (op : MachineOp)
  | request (request : IpcRequest) (env : RequestEnv)

def Machine.controlStep (m : Machine) : ControlOp → Option Machine
  | .machine op => m.step op
  | .request request env => (m.executeRequest request env).map Prod.snd

end Agenterm
