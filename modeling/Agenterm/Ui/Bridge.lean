import Agenterm.Journal.EventJournal
import Agenterm.Json
import Agenterm.Terminal.Tab

/-!
# The UI bridge

The snapshots and delta batches that the server sends to its UI clients (`ui_bridge.rs`), with
the checks both sides make on them. The checks end with a limit on the size of the JSON text
(`Value.encodedLength`).
-/

namespace Agenterm

/-! ## The messages -/

def uiBootstrapSchemaVersion : Nat := 2
def uiScreenSchemaVersion : Nat := 2
def uiDeltaSchemaVersion : Nat := 2
def uiBootstrapMaxBytes : Nat := 8 * 1024 * 1024
def uiBootstrapMaxTabs : Nat := 1024
def uiScreenMaxRows : Nat := 512
def uiScreenMaxColumns : Nat := 512
def uiScreenMaxRuns : Nat := 256 * 1024
def uiScreenMaxTextBytes : Nat := 4 * 1024 * 1024
def uiTabTitleMaxBytes : Nat := 4096
def uiTabNoteMaxBytes : Nat := 64 * 1024
def uiDeltaMaxBytes : Nat := 8 * 1024 * 1024
def uiDeltaMaxEvents : Nat := 64

structure UiCursorSnapshot where
  row : Nat
  column : Nat
  visible : Bool
deriving DecidableEq

structure UiCellRun where
  row : Nat
  column : Nat
  columns : Nat
  text : String
  style : UiCellStyle
deriving DecidableEq

structure UiScreenSnapshot where
  schemaVersion : Nat
  tabId : String
  generation : Nat
  terminalTitle : String
  rows : Nat
  columns : Nat
  alternateScreen : Bool
  applicationCursor : Bool
  bracketedPaste : Bool
  mouseProtocolMode : String
  mouseProtocolEncoding : String
  scrollbackOffset : Nat
  maxScrollback : Nat
  cursor : UiCursorSnapshot
  runs : List UiCellRun
  complete : Bool
  truncated : Bool
deriving DecidableEq

structure UiComposerSnapshot where
  text : Option String
  sensitive : Bool
  byteLength : Nat
deriving DecidableEq

structure UiWorkingContextSnapshot where
  cwd : Option String
  cwdConfirmedPath : Option String
  cwdConfirmed : Bool
  cwdSource : String
  cwdRequestPending : Bool
  shell : String
  proxyConfigured : Bool
  proxySource : String
  proxyApplicationState : String
  proxyRequestPending : Bool
deriving DecidableEq

structure UiTabBootstrap where
  id : String
  index : Nat
  parentId : Option String
  collapsed : Bool
  title : String
  note : String
  processId : Option Nat
  dead : Bool
  exitCode : Option Nat
  composer : UiComposerSnapshot
  workingContext : UiWorkingContextSnapshot
  screen : UiScreenSnapshot
deriving DecidableEq

structure UiEventPosition where
  serverEpoch : String
  sequence : Nat
deriving DecidableEq

structure UiBootstrapSnapshot where
  schemaVersion : Nat
  serverPid : Nat
  serverEpoch : String
  position : UiEventPosition
  workspaceRevision : Option Nat
  activeTabId : Option String
  tabs : List UiTabBootstrap
  complete : Bool
  truncated : Bool
deriving DecidableEq

structure UiDeltaEvent where
  sequence : Nat
  kind : String
  tabId : Option String
  requestId : Option String
  operationId : Option String
  payload : Value

structure UiDeltaBatch where
  schemaVersion : Nat
  serverEpoch : String
  afterSequence : Nat
  throughSequence : Nat
  currentSequence : Nat
  events : List UiDeltaEvent
  tabUpdates : List UiTabBootstrap
  closedTabIds : List String
  activeTabId : Option String
  complete : Bool
  truncated : Bool

/-! ## Their JSON -/

def UiColor.json : UiColor → Value
  | .default => .object [("kind", .string "default")]
  | .indexed index => .object [("kind", .string "indexed"), ("index", .nat index)]
  | .rgb red green blue => .object [("kind", .string "rgb"), ("red", .nat red),
      ("green", .nat green), ("blue", .nat blue)]

def UiCellStyle.json (s : UiCellStyle) : Value :=
  .object [("foreground", s.foreground.json), ("background", s.background.json),
    ("bold", .bool s.bold), ("italic", .bool s.italic), ("underline", .bool s.underline),
    ("inverse", .bool s.inverse)]

def UiCellRun.json (r : UiCellRun) : Value :=
  .object [("row", .nat r.row), ("column", .nat r.column), ("columns", .nat r.columns),
    ("text", .string r.text), ("style", r.style.json)]

def UiCursorSnapshot.json (c : UiCursorSnapshot) : Value :=
  .object [("row", .nat c.row), ("column", .nat c.column), ("visible", .bool c.visible)]

def UiScreenSnapshot.json (s : UiScreenSnapshot) : Value :=
  .object [("schema_version", .nat s.schemaVersion), ("tab_id", .string s.tabId),
    ("generation", .nat s.generation), ("terminal_title", .string s.terminalTitle),
    ("rows", .nat s.rows), ("columns", .nat s.columns),
    ("alternate_screen", .bool s.alternateScreen),
    ("application_cursor", .bool s.applicationCursor),
    ("bracketed_paste", .bool s.bracketedPaste),
    ("mouse_protocol_mode", .string s.mouseProtocolMode),
    ("mouse_protocol_encoding", .string s.mouseProtocolEncoding),
    ("scrollback_offset", .nat s.scrollbackOffset), ("max_scrollback", .nat s.maxScrollback),
    ("cursor", s.cursor.json), ("runs", .array (s.runs.map UiCellRun.json)),
    ("complete", .bool s.complete), ("truncated", .bool s.truncated)]

def UiComposerSnapshot.json (c : UiComposerSnapshot) : Value :=
  .object [("text", .option .string c.text), ("sensitive", .bool c.sensitive),
    ("byte_length", .nat c.byteLength)]

def UiWorkingContextSnapshot.json (w : UiWorkingContextSnapshot) : Value :=
  .object [("cwd", .option .string w.cwd),
    ("cwd_confirmed_path", .option .string w.cwdConfirmedPath),
    ("cwd_confirmed", .bool w.cwdConfirmed), ("cwd_source", .string w.cwdSource),
    ("cwd_request_pending", .bool w.cwdRequestPending), ("shell", .string w.shell),
    ("proxy_configured", .bool w.proxyConfigured), ("proxy_source", .string w.proxySource),
    ("proxy_application_state", .string w.proxyApplicationState),
    ("proxy_request_pending", .bool w.proxyRequestPending)]

def UiTabBootstrap.json (t : UiTabBootstrap) : Value :=
  .object [("id", .string t.id), ("index", .nat t.index),
    ("parent_id", .option .string t.parentId), ("collapsed", .bool t.collapsed),
    ("title", .string t.title), ("note", .string t.note),
    ("process_id", .option .nat t.processId), ("dead", .bool t.dead),
    ("exit_code", .option .nat t.exitCode), ("composer", t.composer.json),
    ("working_context", t.workingContext.json), ("screen", t.screen.json)]

def UiEventPosition.json (p : UiEventPosition) : Value :=
  .object [("server_epoch", .string p.serverEpoch), ("sequence", .nat p.sequence)]

def UiBootstrapSnapshot.json (s : UiBootstrapSnapshot) : Value :=
  .object [("schema_version", .nat s.schemaVersion), ("server_pid", .nat s.serverPid),
    ("server_epoch", .string s.serverEpoch), ("position", s.position.json),
    ("workspace_revision", .option .nat s.workspaceRevision),
    ("active_tab_id", .option .string s.activeTabId),
    ("tabs", .array (s.tabs.map UiTabBootstrap.json)), ("complete", .bool s.complete),
    ("truncated", .bool s.truncated)]

def UiDeltaEvent.json (e : UiDeltaEvent) : Value :=
  .object [("sequence", .nat e.sequence), ("kind", .string e.kind),
    ("tab_id", .option .string e.tabId), ("request_id", .option .string e.requestId),
    ("operation_id", .option .string e.operationId), ("payload", e.payload)]

def UiDeltaBatch.json (b : UiDeltaBatch) : Value :=
  .object [("schema_version", .nat b.schemaVersion), ("server_epoch", .string b.serverEpoch),
    ("after_sequence", .nat b.afterSequence), ("through_sequence", .nat b.throughSequence),
    ("current_sequence", .nat b.currentSequence),
    ("events", .array (b.events.map UiDeltaEvent.json)),
    ("tab_updates", .array (b.tabUpdates.map UiTabBootstrap.json)),
    ("closed_tab_ids", .array (b.closedTabIds.map Value.string)),
    ("active_tab_id", .option .string b.activeTabId), ("complete", .bool b.complete),
    ("truncated", .bool b.truncated)]

/-! ## The checks -/

/-- The wire form of a tab id. -/
def stableTabId (id : Nat) : String := "@" ++ toString id

def validStableTabId (value : String) : Bool :=
  match value.toList with
  | '@' :: digits => !digits.isEmpty && digits.all Char.isDigit
  | _ => false

/-- The runs of a screen lie within it, and their texts within the limit. -/
def UiScreenSnapshot.validateRuns (rows columns : Nat) :
    Nat → List UiCellRun → Except String Unit
  | _, [] => .ok ()
  | textBytes, run :: runs =>
    if run.columns = 0 || run.row ≥ rows || run.column ≥ columns ||
        run.column + run.columns > columns then
      .error "ui_screen_run_bounds"
    else if textBytes + run.text.utf8ByteSize > uiScreenMaxTextBytes then
      .error "ui_screen_text_limit"
    else
      validateRuns rows columns (textBytes + run.text.utf8ByteSize) runs

def UiScreenSnapshot.validate (s : UiScreenSnapshot) : Except String Unit :=
  if s.schemaVersion ≠ uiScreenSchemaVersion then
    .error "ui_screen_schema_unsupported"
  else if !validStableTabId s.tabId then
    .error "ui_screen_tab_id_invalid"
  else if s.rows = 0 || s.columns = 0 || s.rows > uiScreenMaxRows ||
      s.columns > uiScreenMaxColumns then
    .error "ui_screen_dimensions_limit"
  else if s.runs.length > uiScreenMaxRuns then
    .error "ui_screen_runs_limit"
  else if s.complete && s.truncated then
    .error "ui_screen_completeness_invalid"
  else if s.scrollbackOffset > s.maxScrollback then
    .error "ui_screen_scrollback_bounds"
  else if s.cursor.row ≥ s.rows || s.cursor.column ≥ s.columns then
    .error "ui_screen_cursor_bounds"
  else
    validateRuns s.rows s.columns 0 s.runs

/-- What the first pass over the tabs checks of one of them. -/
def UiTabBootstrap.validate (ids : List String) (indices : List Nat) (tab : UiTabBootstrap) :
    Except String Unit :=
  if !validStableTabId tab.id || ids.contains tab.id || indices.contains tab.index then
    .error "ui_bootstrap_tab_id_invalid"
  else if tab.title.utf8ByteSize > uiTabTitleMaxBytes ||
      tab.note.utf8ByteSize > uiTabNoteMaxBytes then
    .error "ui_bootstrap_tab_metadata_limit"
  else if tab.composer.sensitive = tab.composer.text.isSome ||
      tab.composer.text.any fun text => text.utf8ByteSize ≠ tab.composer.byteLength then
    .error "ui_bootstrap_composer_invalid"
  else if tab.screen.tabId ≠ tab.id then
    .error "ui_bootstrap_screen_identity_mismatch"
  else
    tab.screen.validate

namespace UiBootstrapSnapshot

/-- The first pass over the tabs, with the ids and indices seen so far. -/
def validateTabs : List String → List Nat → List UiTabBootstrap → Except String Unit
  | _, _, [] => .ok ()
  | ids, indices, tab :: tabs => do
    tab.validate ids indices
    validateTabs (tab.id :: ids) (tab.index :: indices) tabs

/-- The second pass over the tabs. -/
def parentsKnown (ids : List String) (tabs : List UiTabBootstrap) : Bool :=
  tabs.all fun tab => tab.parentId.all fun parent => parent ≠ tab.id && ids.contains parent

def validate (s : UiBootstrapSnapshot) : Except String Unit :=
  if s.schemaVersion ≠ uiBootstrapSchemaVersion then
    .error "ui_bootstrap_schema_unsupported"
  else if s.serverPid = 0 || s.serverEpoch.isEmpty || s.serverEpoch.utf8ByteSize > 128 ||
      s.position.serverEpoch ≠ s.serverEpoch then
    .error "ui_bootstrap_server_identity_invalid"
  else if s.tabs.length > uiBootstrapMaxTabs then
    .error "ui_bootstrap_tabs_limit"
  else if s.complete && s.truncated then
    .error "ui_bootstrap_completeness_invalid"
  else do
    validateTabs [] [] s.tabs
    let ids := s.tabs.map UiTabBootstrap.id
    if !parentsKnown ids s.tabs then
      .error "ui_bootstrap_parent_invalid"
    else if s.activeTabId.any fun active => !ids.contains active then
      .error "ui_bootstrap_active_tab_invalid"
    else if s.json.encodedLength > uiBootstrapMaxBytes then
      .error "ui_bootstrap_bytes_limit"
    else
      .ok ()

end UiBootstrapSnapshot

namespace UiDeltaBatch

/-- The events follow each other up to `through`; the last sequence seen is returned. -/
def validateEvents (through : Nat) : Nat → List UiDeltaEvent → Except String Nat
  | previous, [] => .ok previous
  | previous, event :: events =>
    if event.sequence ≤ previous || event.sequence > through then
      .error "ui_delta_order_invalid"
    else if event.tabId.any fun id => !validStableTabId id then
      .error "ui_delta_event_tab_id_invalid"
    else
      validateEvents through event.sequence events

def validateUpdates : List String → List UiTabBootstrap → Except String Unit
  | _, [] => .ok ()
  | ids, tab :: tabs =>
    if !validStableTabId tab.id || tab.screen.tabId ≠ tab.id || ids.contains tab.id then
      .error "ui_delta_tab_update_duplicate"
    else do
      tab.screen.validate
      validateUpdates (tab.id :: ids) tabs

/-- The closed ids are distinct and none of them is updated. -/
def closedValid (updates : List String) : List String → List String → Bool
  | _, [] => true
  | seen, id :: ids =>
    validStableTabId id && !seen.contains id && !updates.contains id &&
      closedValid updates (id :: seen) ids

def validate (b : UiDeltaBatch) : Except String Unit :=
  if b.schemaVersion ≠ uiDeltaSchemaVersion then
    .error "ui_delta_schema_unsupported"
  else if b.serverEpoch.isEmpty || b.serverEpoch.utf8ByteSize > 128 ||
      b.throughSequence < b.afterSequence || b.currentSequence < b.throughSequence then
    .error "ui_delta_position_invalid"
  else if b.events.length > uiDeltaMaxEvents then
    .error "ui_delta_events_limit"
  else if b.complete = b.truncated then
    .error "ui_delta_completeness_invalid"
  else if b.complete ≠ decide (b.throughSequence = b.currentSequence) then
    .error "ui_delta_completeness_invalid"
  else do
    let previous ← validateEvents b.throughSequence b.afterSequence b.events
    if previous ≠ b.throughSequence then
      .error "ui_delta_through_sequence_invalid"
    else
      validateUpdates [] b.tabUpdates
      if !closedValid (b.tabUpdates.map UiTabBootstrap.id) [] b.closedTabIds then
        .error "ui_delta_closed_tab_invalid"
      else if b.activeTabId.any fun id => !validStableTabId id then
        .error "ui_delta_active_tab_invalid"
      else if b.json.encodedLength > uiDeltaMaxBytes then
        .error "ui_delta_bytes_limit"
      else
        .ok ()

end UiDeltaBatch

end Agenterm
