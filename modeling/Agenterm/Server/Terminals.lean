import Agenterm.Server.State

/-!
# The terminals of the server

The operations of the server that work on one terminal (its name, note, composer, working
directory, size and viewport) and `poll_terminals`, which takes in what all terminals have
delivered. Each commits the events of its changes, under the name of the tab it changed.
-/

namespace Agenterm

/-! ## Working directories -/

def cwdMaxChars : Nat := 4096

def validDisplayPath (path : String) : Bool :=
  !path.isEmpty && path.length ≤ cwdMaxChars && !path.toList.any isControl

def validatePath (path : String) : Except String Unit :=
  if path.isEmpty then
    .error "working directory cannot be empty"
  else if path.length > cwdMaxChars then
    .error ("working directory exceeds " ++ toString cwdMaxChars ++ " characters")
  else if !validDisplayPath path then
    .error "working directory contains a control character"
  else
    .ok ()

/-- `str::replace` of a quote. -/
def replaceQuote (path replacement : String) : String :=
  String.join (path.toList.map fun c => if c = '\'' then replacement else c.toString)

/-- The command line that changes the directory of a shell. -/
def cwdCommand (shell : ShellKind) (path : String) : Except String String := do
  validatePath path
  match shell with
  | .cmd =>
    if path.toList.any fun c => c = '"' || c = '%' || c = '!' then
      .error "cmd working directory contains a character that cannot be quoted safely"
    else
      .ok ("cd /d \"" ++ path ++ "\"")
  | .powerShell => .ok ("Set-Location -LiteralPath '" ++ replaceQuote path "''" ++ "'")
  | .bash => .ok ("cd -- '" ++ replaceQuote path "'\\''" ++ "'")
  | .unknown => .error "the active shell is unknown"

def CwdTracker.request (cwd : CwdTracker) (path : String) : Except String CwdTracker := do
  validatePath path
  .ok { cwd with path := some path, source := .userRequested, pending := true }

namespace ServerState

/-- Puts `tab` in the place of the tab at `position`. -/
def setTab (s : ServerState) (position : Nat) (tab : TerminalTab) : ServerState :=
  { s with tabs := s.tabs.set position tab }

def cwdRequested (path disposition : String) (rest : List (String × Value)) : Value :=
  .object ([("path", .string path), ("source", .string CwdSource.userRequested.asStr),
    ("pending", .bool true), ("disposition", .string disposition)] ++ rest)

/-- The composer text of `prepare_cwd`. -/
def preparedComposer (previous command mode : String) : Except String String :=
  match mode with
  | "empty-only" =>
    if !previous.isEmpty then
      .error "Composer already has a draft; explicitly choose append or replace"
    else
      .ok command
  | "replace" => .ok command
  | "append" => .ok (if previous.isEmpty then command else previous ++ "\r\n" ++ command)
  | _ => .error ("unknown CWD composer mode: " ++ mode)

def prepareCwd (s : ServerState) (tabId : Nat) (path mode : String) :
    Option (Except String Unit × ServerState) :=
  match validatePath path with
  | .error error => some (.error error, s)
  | .ok () =>
    let position := s.tabs.findIdx fun tab => tab.id = tabId
    match s.tabs[position]? with
    | none => some (.error ("can't find tab: @" ++ toString tabId), s)
    | some tab =>
      match (do preparedComposer tab.composer (← cwdCommand tab.shellKind path) mode) with
      | .error error => some (.error error, s)
      | .ok composer =>
        let tab := { tab with composer }
        match tab.cwd.request path with
        | .error error => some (.error error, s.setTab position tab)
        | .ok cwd => do
          let s ← (s.setTab position { tab with cwd }).commit .workingContextCwdRequested
            (some tabId) (cwdRequested path "prepared" [("composer_mode", .string mode)])
          let s ← s.commit .composerDraft (some tabId)
            (.object [("length", .nat composer.length)])
          some (.ok (), s)

def sendCwdNow (s : ServerState) (tabId : Nat) (path : String) (now : Nat)
    (writeError : Option String) : Option (Except String Unit × ServerState) :=
  match validatePath path with
  | .error error => some (.error error, s)
  | .ok () =>
    let position := s.tabs.findIdx fun tab => tab.id = tabId
    match s.tabs[position]? with
    | none => some (.error ("can't find tab: @" ++ toString tabId), s)
    | some tab =>
      match cwdCommand tab.shellKind path with
      | .error error => some (.error error, s)
      | .ok command =>
        match tab.submit command now writeError with
        | (false, tab) =>
          some (.error "terminal is unavailable or already has a pending submission",
            s.setTab position tab)
        | (true, tab) =>
          match tab.cwd.request path with
          | .error error => some (.error error, s.setTab position tab)
          | .ok cwd => do
            let s ← (s.setTab position { tab with cwd }).commit .workingContextCwdRequested
              (some tabId) (cwdRequested path "sent" [("shell", .string tab.shellKind.asStr)])
            some (.ok (), s)

/-! ## Names, notes and composers -/

def renameWindow (s : ServerState) (position : Nat) (name : String) :
    Option (Except String Unit × ServerState) :=
  match s.tabs[position]? with
  | none => some (.error "can't find window", s)
  | some tab => do
    let s ← (s.setTab position { tab with title := name }).commit .tabRenamed (some tab.id)
      (.object [("previous_name", .string tab.title), ("name", .string name)])
    some (.ok (), s)

def setTabNote (s : ServerState) (position : Nat) (note : String) :
    Option (Except String Unit × ServerState) :=
  match s.tabs[position]? with
  | none => some (.error "can't find tab", s)
  | some tab => do
    let s ← (s.setTab position { tab with note }).commit .tabNote (some tab.id)
      (.object [("previous_note", .string tab.note), ("note", .string note)])
    some (.ok (), s)

/-- Writes a composer draft; writing the text it already has is no change. `none` is an index
out of bounds. -/
def applySetComposer (s : ServerState) (position : Nat) (text : String) :
    Option (Except String Unit × ServerState) := do
  let tab ← s.tabs[position]?
  if tab.composer = text then
    some (.ok (), s)
  else
    let s ← (s.setTab position { tab with composer := text }).commit .composerDraft
      (some tab.id) (.object [("length", .nat text.length)])
    some (.ok (), s)

/-- `send_composer_at_position` for a composer that holds a secret. -/
def sendSensitive (s : ServerState) (position : Nat) (tab : TerminalTab) (now : Nat)
    (writeError : Option String) : Option (IpcResponse × ServerState) :=
  let draft := (tab.sensitiveComposer, tab.sensitiveProxyMarker)
  let taken := { tab with sensitiveComposer := none, sensitiveProxyMarker := none }
  match taken.submitSensitive now writeError with
  | (false, tab) =>
    let restored := { tab with sensitiveComposer := draft.1, sensitiveProxyMarker := draft.2 }
    some (.failure "a composer submission is already pending", s.setTab position restored)
  | (true, tab) =>
    match draft.2 with
    | none =>
      some (.failure "sensitive proxy draft lost its confirmation identity",
        s.setTab position { tab with proxy := tab.proxy.markFailed.2 })
    | some marker =>
      match tab.proxy.markSubmitted with
      | (.error error, proxy) =>
        some (.failure error, s.setTab position { tab with proxy })
      | (.ok (), proxy) => do
        let tab := { tab with proxy }.beginProxyConfirmation marker now
        let s ← (s.setTab position tab).commit .workingContextProxySubmitted (some tab.id)
          (.object [("sensitive", .bool true), ("application_state", .string "submitted")])
        some (.success "", s)

/-- Submits the composer of a tab. `none` is an index out of bounds. -/
def sendComposerAtPosition (s : ServerState) (position now : Nat)
    (writeError : Option String) : Option (IpcResponse × ServerState) := do
  let tab ← s.tabs[position]?
  if tab.sensitiveComposer.isSome then
    s.sendSensitive position tab now writeError
  else
    let text := tab.composer
    if text.isEmpty then
      some (.success "", s)
    else
      match { tab with composer := "" }.submit text now writeError with
      | (false, tab) =>
        some (.failure "a composer submission is already pending",
          s.setTab position { tab with composer := text })
      | (true, tab) =>
        let s ← (s.setTab position tab).commit .composerSubmitted (some tab.id)
          (.object [("length", .nat text.length)])
        some (.success "", s)

/-! ## Input, size and viewport -/

/-- The paste of a user interaction. -/
def pasteInto (s : ServerState) (tabId : Nat) (bytes : List UInt8) (textBytes characters : Nat)
    (bracketed : Bool) (writeError : Option String) :
    Option (Except String Unit × ServerState) :=
  let position := s.tabs.findIdx fun tab => tab.id = tabId
  match s.tabs[position]? with
  | none => some (.error ("can't find UI interaction target: @" ++ toString tabId), s)
  | some tab =>
    if s.active ≠ some tabId then
      some (.error "UI paste target is not the active tab", s)
    else if tab.submission.isPending then
      some (.error "composer submission is pending; UI terminal paste is paused", s)
    else
      match tab.send bytes writeError with
      | (false, tab) =>
        some (.error "terminal paste was not accepted because the pane is no longer writable",
          s.setTab position tab)
      | (true, tab) => do
        let s ← (s.setTab position tab).commit .terminalPasted (some tabId)
          (.object [("characters", .nat characters), ("bytes", .nat textBytes),
            ("bracketed", .bool bracketed), ("source", .string "keyboard"),
            ("operation_id", .string "terminal.paste")])
        some (.ok (), s)

/-- The resize of a user interaction; `native` is the answer of the system and `screen` what
the emulator shows at the new size. -/
def resizeTab (s : ServerState) (tabId rows columns : Nat) (native : Except String Unit)
    (screen : Screen) : Option (Except String Unit × ServerState) :=
  let position := s.tabs.findIdx fun tab => tab.id = tabId
  match s.tabs[position]? with
  | none => some (.error ("can't find UI interaction target: @" ++ toString tabId), s)
  | some tab =>
    let resized : Except String TerminalTab :=
      if tab.lastSize = (rows, columns) then
        .ok tab
      else
        native.map fun _ => { tab with screen, lastSize := (rows, columns) }
    match resized with
    | .error error => some (.error ("terminal resize was rejected: " ++ error), s)
    | .ok tab => do
      let s ← (s.setTab position tab).commit .terminalResized (some tabId)
        (.object [("rows", .nat rows), ("columns", .nat columns), ("source", .string "ui_lease")])
      some (.ok (), s)

/-- A scroll of the viewport; `screen` is what the emulator shows at the new offset. -/
def scrollViewport (s : ServerState) (position : Nat) (screen : Screen) (source : String) :
    Option (Except String Unit × ServerState) :=
  match s.tabs[position]? with
  | none => some (.error "can't find pane", s)
  | some tab => do
    let s ← (s.setTab position { tab with screen }).commit .terminalViewport (some tab.id)
      (.object [("scrollback_offset", .nat screen.scrollback), ("source", .string source)])
    some (.ok (), s)

end ServerState

/-! ## Polling -/

/-- What the poll of one tab leaves: the tab, the events to commit, and the submission that
has finished (its tab, whether its Enter was written, whether the terminal is finalized). -/
structure PolledTab where
  tab : TerminalTab
  events : List (EventKind × Nat × Value)
  completed : Option (Nat × Bool × Bool)

namespace TerminalTab

def outputEvents (id : Nat) (after : TerminalObservation) (delta : TerminalObservationDelta) :
    List (EventKind × Nat × Value) :=
  if delta.outputAdvancedBy > 0 then
    [(.terminalOutput, id, .object [("output_bytes", .nat after.outputBytes),
      ("advanced_by", .nat delta.outputAdvancedBy)])]
  else
    []

def stateName : TerminalProcessState → String
  | .running => "running"
  | .exited _ => "dead"
  | .error _ => "error"

def stateEvents (id : Nat) (after : TerminalObservation) (delta : TerminalObservationDelta) :
    List (EventKind × Nat × Value) :=
  if delta.processStateChanged || delta.lifecycleChanged then
    [(.tabState, id, .object [("state", .string (stateName after.processState)),
      ("exit_code", .option .nat after.exitCode),
      ("error", .option .string after.error),
      ("reader_closed", .bool after.readerClosed),
      ("parser_drained", .bool after.parserDrained),
      ("finalized", .bool after.finalized),
      ("became_finalized", .bool delta.becameFinalized)])]
  else
    []

def cwdEvents (id : Nat) (before after : CwdTracker) : List (EventKind × Nat × Value) :=
  if after ≠ before then
    [(.workingContextCwd, id, .object [("path", .option .string after.path),
      ("source", .string after.source.asStr), ("pending", .bool after.pending)])]
  else
    []

def proxyEvents (id : Nat) (before after : ProxyFacts) : List (EventKind × Nat × Value) :=
  if after ≠ before then
    [(.workingContextProxyResolved, id, .object [("configured", .bool after.configured),
      ("source", .string after.source.asStr),
      ("application_state", .string after.applicationState.asStr),
      ("request_pending", .bool after.requestPending)])]
  else
    []

/-- One round of the loop of `poll_terminals`. -/
def pollRound (tab : TerminalTab) (input : PollInput) : PolledTab :=
  let before := tab.observation
  let polled := tab.poll input
  let after := polled.observation
  let rest := cwdEvents tab.id tab.cwd polled.cwd ++
    proxyEvents tab.id tab.proxy.facts polled.proxy.facts
  match before.deltaTo after with
  | .ok delta =>
    { tab := polled
      events := outputEvents tab.id after delta ++ stateEvents tab.id after delta ++ rest
      completed :=
        if delta.submissionFinished then
          some (tab.id, after.submissionEnterWritten.getD false, after.finalized)
        else
          none }
  | .error error =>
    { tab := { polled with error := some error }
      events := (.tabState, tab.id, .object [("state", .string "error"),
        ("error", .string error), ("became_finalized", .bool false)]) :: rest
      completed := none }

end TerminalTab

/-- Polls the tabs in order; the input of a tab is given by its position. -/
def pollTabs : (Nat → PollInput) → List TerminalTab → List PolledTab
  | _, [] => []
  | inputs, tab :: tabs => tab.pollRound (inputs 0) :: pollTabs (fun i => inputs (i + 1)) tabs

namespace ServerState

/-- Commits the events of a poll. -/
def commitEvents (s : ServerState) : List (EventKind × Nat × Value) → Option ServerState
  | [] => some s
  | (kind, tabId, payload) :: events => do
    let s ← s.commit kind (some tabId) payload
    s.commitEvents events

/-- The text of a completion error on a tab. -/
def finalizeError (error : CompletionError) : String :=
  "failed to finalize control receipt: " ++ error.message

/-- Finalizes the submissions that a poll has completed. -/
def finishSubmissions (s : ServerState) : List (Nat × Bool × Bool) → Option ServerState
  | [] => some s
  | (tabId, enterWritten, terminalFinalized) :: completed => do
    let (finished, controlAuthority, eventJournal) ←
      s.controlAuthority.finishSubmission s.eventJournal tabId enterWritten terminalFinalized
    let s := { s with controlAuthority, eventJournal }
    match finished with
    | .ok _ => s.finishSubmissions completed
    | .error error =>
      let tabs := Lib.updateFirst (fun tab => tab.id = tabId)
        (fun tab => { tab with error := some (finalizeError error) }) s.tabs
      { s with tabs }.finishSubmissions completed

def pollTerminals (s : ServerState) (inputs : Nat → PollInput) : Option ServerState := do
  let polled := pollTabs inputs s.tabs
  let s ← { s with tabs := polled.map PolledTab.tab }.commitEvents
    (polled.flatMap PolledTab.events)
  s.finishSubmissions (polled.filterMap PolledTab.completed)

end ServerState

end Agenterm
