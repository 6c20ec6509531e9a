import Agenterm.Server.State
import Agenterm.Ui.Bridge
import Mathlib.Data.List.Dedup

/-!
# What the server shows its UI clients

The bootstrap snapshot of the whole tab list and the delta batches that bring a snapshot up to
date (`control_dispatch.rs`). A batch carries the events of the journal after the client's
position, and the current state of the tabs these events name.
-/

namespace Agenterm

/-! ## Screens -/

/-- `screen.cell(row, column)`. -/
def Screen.cell (screen : Screen) (row column : Nat) : Option Cell :=
  (screen.cells[row]?.bind fun cells => cells[column]?).join

/-- What the loop over the cells has gathered. -/
structure ScreenScan where
  runs : List UiCellRun
  textBytes : Nat
  truncated : Bool
deriving DecidableEq

/-- Extends the last run by one that continues it, or starts a new run. -/
def appendRun (runs : List UiCellRun) (run : UiCellRun) : List UiCellRun :=
  match runs.getLast? with
  | none => [run]
  | some previous =>
    if previous.row = run.row && previous.column + previous.columns = run.column &&
        previous.style = run.style then
      runs.dropLast ++ [{ previous with
        columns := previous.columns + run.columns, text := previous.text ++ run.text }]
    else
      runs ++ [run]

/-- One round of the loop; after a limit was met the rest of the screen is left out. -/
def scanCell (screen : Screen) (scan : ScreenScan) (position : Nat × Nat) : ScreenScan :=
  match screen.cell position.1 position.2 with
  | none => scan
  | some cell =>
    if scan.truncated || cell.isWideContinuation then
      scan
    else
      let text := if cell.contents.isEmpty then " " else cell.contents
      if scan.runs.length ≥ uiScreenMaxRuns ||
          scan.textBytes + text.utf8ByteSize > uiScreenMaxTextBytes then
        { scan with truncated := true }
      else
        let columns := if cell.isWide then 2 else 1
        let run :=
          { row := position.1, column := position.2, columns, text, style := cell.style }
        { scan with
          runs := appendRun scan.runs run, textBytes := scan.textBytes + text.utf8ByteSize }

def scanScreen (screen : Screen) : ScreenScan :=
  ((List.range screen.rows).flatMap fun row =>
    (List.range screen.columns).map fun column => (row, column)).foldl (scanCell screen)
    { runs := [], textBytes := 0, truncated := false }

/-- Keeps the cursor of a pending wrap inside the visible grid. -/
def visibleCursorColumn (column columns : Nat) : Nat := min column (columns - 1)

/-- The snapshot of a screen, before it is checked. -/
def screenSnapshot (tab : TerminalTab) (generation : Nat) : UiScreenSnapshot :=
  let screen := tab.screen
  let scan := scanScreen screen
  { schemaVersion := uiScreenSchemaVersion
    tabId := stableTabId tab.id
    generation
    terminalTitle := screen.title
    rows := screen.rows
    columns := screen.columns
    alternateScreen := screen.alternateScreen
    applicationCursor := screen.applicationCursor
    bracketedPaste := screen.bracketedPaste
    mouseProtocolMode := screen.mouseProtocolMode.name
    mouseProtocolEncoding := screen.mouseProtocolEncoding.name
    scrollbackOffset := screen.scrollback
    maxScrollback := screen.maxScrollback
    cursor :=
      { row := screen.cursorRow
        column := visibleCursorColumn screen.cursorColumn screen.columns
        visible := !screen.hideCursor }
    runs := scan.runs
    complete := !scan.truncated
    truncated := scan.truncated }

def uiScreenSnapshot (tab : TerminalTab) (generation : Nat) : Except String UiScreenSnapshot :=
  let screen := tab.screen
  if screen.rows = 0 || screen.columns = 0 || screen.rows > uiScreenMaxRows ||
      screen.columns > uiScreenMaxColumns then
    .error "ui_screen_dimensions_limit"
  else do
    let snapshot := screenSnapshot tab generation
    snapshot.validate
    .ok snapshot

/-! ## Tabs -/

def composerSnapshot (tab : TerminalTab) : UiComposerSnapshot :=
  match tab.sensitiveComposer with
  | some secret => { text := none, sensitive := true, byteLength := secret.utf8ByteSize }
  | none =>
    { text := some tab.composer, sensitive := false, byteLength := tab.composer.utf8ByteSize }

def workingContextSnapshot (tab : TerminalTab) : UiWorkingContextSnapshot :=
  let proxy := tab.proxy.facts
  { cwd := tab.cwd.path
    cwdConfirmedPath := tab.cwd.confirmedPath
    cwdConfirmed := tab.cwd.path = tab.cwd.confirmedPath
    cwdSource := tab.cwd.source.asStr
    cwdRequestPending := tab.cwd.pending
    shell := tab.shellKind.asStr
    proxyConfigured := proxy.configured
    proxySource := proxy.source.asStr
    proxyApplicationState := proxy.applicationState.asStr
    proxyRequestPending := proxy.requestPending }

def uiTabBootstrap (tab : TerminalTab) (generation : Nat) (collapsed : Bool) :
    Except String UiTabBootstrap := do
  let screen ← uiScreenSnapshot tab generation
  .ok
    { id := stableTabId tab.id
      index := tab.index
      parentId := tab.parentId.map stableTabId
      collapsed
      title := tab.title
      note := tab.note
      processId := tab.processId
      dead := tab.exited.isSome
      exitCode := tab.exited
      composer := composerSnapshot tab
      workingContext := workingContextSnapshot tab
      screen }

namespace ServerState

/-- The current state of a tab of the server, at the position of the journal. -/
def projectTab (s : ServerState) (tab : TerminalTab) : Except String UiTabBootstrap :=
  uiTabBootstrap tab s.eventJournal.sequence (tab.id ∈ s.collapsedTabs)

/-- `active_id().map(..)`. -/
def activeTabId (s : ServerState) : Option String := s.active.map stableTabId

/-- The snapshot of the whole server; `serverPid` is the id of its process. -/
def uiBootstrapSnapshot (s : ServerState) (serverPid : Nat) :
    Except String UiBootstrapSnapshot := do
  let tabs ← s.tabs.mapM s.projectTab
  let truncated := tabs.any fun tab => tab.screen.truncated
  let snapshot : UiBootstrapSnapshot :=
    { schemaVersion := uiBootstrapSchemaVersion
      serverPid
      serverEpoch := s.eventJournal.epoch
      position := { serverEpoch := s.eventJournal.epoch, sequence := s.eventJournal.sequence }
      workspaceRevision := none
      activeTabId := s.activeTabId
      tabs
      complete := !truncated
      truncated }
  snapshot.validate
  .ok snapshot

/-! ## Deltas -/

/-- The ids that events name, in the order of a `BTreeSet`. -/
def affectedIds (events : List EventEnvelope) : List Nat :=
  (events.filterMap EventEnvelope.tabId).dedup.insertionSort (· ≤ ·)

def uiDeltaEvent (event : EventEnvelope) : UiDeltaEvent :=
  { sequence := event.sequence
    kind := event.kind
    tabId := event.tabId.map stableTabId
    requestId := event.requestId
    operationId := event.operationId
    payload := event.payload }

/-- The batch that carries exactly `selected`, before it is checked. -/
def deltaBatchOf (s : ServerState) (afterSequence : Nat) (selected : List EventEnvelope) :
    Except String UiDeltaBatch := do
  let affected := affectedIds selected
  let tabUpdates ← (s.tabs.filter fun tab => affected.contains tab.id).mapM s.projectTab
  let throughSequence := (selected.getLast?.map EventEnvelope.sequence).getD afterSequence
  let complete : Bool := throughSequence = s.eventJournal.sequence
  .ok
    { schemaVersion := uiDeltaSchemaVersion
      serverEpoch := s.eventJournal.epoch
      afterSequence
      throughSequence
      currentSequence := s.eventJournal.sequence
      events := selected.map uiDeltaEvent
      tabUpdates
      closedTabIds := (affected.filter fun id => !s.isLive id).map stableTabId
      activeTabId := s.activeTabId
      complete
      truncated := !complete }

/-- The loop of `ui_delta_batch`: as long as the batch of the first `eventCount` events is too
large, the last of them is left out. -/
def deltaBatchLoop (s : ServerState) (afterSequence : Nat) (events : List EventEnvelope) :
    Nat → Except String UiDeltaBatch
  | 0 => do
    let batch ← s.deltaBatchOf afterSequence []
    batch.validate
    .ok batch
  | fewer + 1 => do
    let batch ← s.deltaBatchOf afterSequence (events.take (fewer + 1))
    match batch.validate with
    | .ok () => .ok batch
    | .error error =>
      if error = "ui_delta_bytes_limit" && fewer + 1 > 1 then
        s.deltaBatchLoop afterSequence events fewer
      else
        .error error

def uiDeltaBatch (s : ServerState) (afterSequence : Nat) (events : List EventEnvelope) :
    Except String UiDeltaBatch :=
  s.deltaBatchLoop afterSequence events events.length

/-- The command `ui-deltas`. -/
def uiDeltas (s : ServerState) (epoch : String) (after limit : Nat) :
    Except String UiDeltaBatch :=
  if limit < 1 || limit > uiDeltaMaxEvents then
    .error ("ui-deltas --limit must be from 1 to " ++ toString uiDeltaMaxEvents)
  else
    match s.eventJournal.readAfter epoch after limit with
    | .error error => .error error.code
    | .ok events => s.uiDeltaBatch after events

end ServerState

end Agenterm
