import Agenterm.Common
import Agenterm.Terminal.Redaction

/-!
# Terminal tabs

The part of `TerminalTab` (`terminal_runtime.rs`) that the server's control surface reads and
writes, with the lifecycle and submission states of `terminal_lifecycle.rs`, the observations
of `terminal_observation.rs` and the working context of `working_context.rs`. The operating
system and the terminal emulator are outside: what they deliver (spawned processes, PTY
events, the result of a write, the screen after output was processed) are arguments here.
-/

namespace Agenterm

/-! ## Lifecycle and submission -/

structure TerminalLifecycle where
  readerClosed : Bool
  parserDrained : Bool
deriving DecidableEq

namespace TerminalLifecycle

def default : TerminalLifecycle := { readerClosed := false, parserDrained := false }

def closeReaderAfterParserDrain : TerminalLifecycle :=
  { readerClosed := true, parserDrained := true }

def finalized (l : TerminalLifecycle) (processFinished : Bool) : Bool :=
  processFinished && l.readerClosed && l.parserDrained

end TerminalLifecycle

/-- A text that was written to the terminal and waits for its Enter; instants are
milliseconds. -/
inductive SubmissionState where
  | idle
  | pending (dueAt : Nat)
deriving DecidableEq

namespace SubmissionState

def isPending : SubmissionState → Bool
  | idle => false
  | pending _ => true

/-- Whether the submission was scheduled, and the new state. -/
def schedule (s : SubmissionState) (now delay : Nat) : Bool × SubmissionState :=
  if s.isPending then (false, s) else (true, pending (now + delay))

/-- Whether the submission was due, and the new state. -/
def takeIfDue (s : SubmissionState) (now : Nat) : Bool × SubmissionState :=
  match s with
  | pending dueAt => if now ≥ dueAt then (true, idle) else (false, s)
  | idle => (false, s)

end SubmissionState

def composerSubmitDelayMs : Nat := 500
def proxyConfirmationTimeoutMs : Nat := 10000

/-! ## Working context -/

inductive CwdSource where
  | launch
  | osc7
  | userRequested
  | unknown
deriving DecidableEq

def CwdSource.asStr : CwdSource → String
  | .launch => "launch"
  | .osc7 => "osc7"
  | .userRequested => "user_requested"
  | .unknown => "unknown"

structure CwdTracker where
  path : Option String
  confirmedPath : Option String
  source : CwdSource
  pending : Bool
deriving DecidableEq

def CwdTracker.confirmOsc7 (path : String) : CwdTracker :=
  { path := some path, confirmedPath := some path, source := .osc7, pending := false }

inductive ShellKind where
  | cmd
  | powerShell
  | bash
  | unknown
deriving DecidableEq

def ShellKind.asStr : ShellKind → String
  | .cmd => "cmd"
  | .powerShell => "powershell"
  | .bash => "bash"
  | .unknown => "unknown"

inductive ProxySource where
  | launch
  | off
deriving DecidableEq

def ProxySource.asStr : ProxySource → String
  | .launch => "launch"
  | .off => "off"

inductive ProxyApplicationState where
  | off
  | launchApplied
  | prepared
  | submitted
  | applied
  | failed
deriving DecidableEq

def ProxyApplicationState.asStr : ProxyApplicationState → String
  | .off => "off"
  | .launchApplied => "launch_applied"
  | .prepared => "prepared"
  | .submitted => "submitted"
  | .applied => "applied"
  | .failed => "failed"

structure ProxyFacts where
  configured : Bool
  source : ProxySource
  applicationState : ProxyApplicationState
  requestPending : Bool
deriving DecidableEq

structure ProxyState where
  http : Option String
  https : Option String
  source : ProxySource
  applicationState : ProxyApplicationState
deriving DecidableEq

namespace ProxyState

def configured (p : ProxyState) : Bool :=
  (p.http.isSome || p.https.isSome) &&
    (p.applicationState = .launchApplied || p.applicationState = .applied)

def requestPending (p : ProxyState) : Bool :=
  p.applicationState = .prepared || p.applicationState = .submitted

def facts (p : ProxyState) : ProxyFacts :=
  { configured := p.configured, source := p.source, applicationState := p.applicationState,
    requestPending := p.requestPending }

/-- Moves on from `expected`; from any other state the transition fails with a text. -/
def transition (p : ProxyState) (expected next : ProxyApplicationState) :
    Except String Unit × ProxyState :=
  if p.applicationState ≠ expected then
    (.error ("proxy transition from " ++ p.applicationState.asStr ++ " to " ++ next.asStr
      ++ " is invalid"), p)
  else
    (.ok (), { p with applicationState := next })

def markSubmitted (p : ProxyState) : Except String Unit × ProxyState :=
  p.transition .prepared .submitted

def markApplied (p : ProxyState) : Except String Unit × ProxyState :=
  p.transition .submitted .applied

def markFailed (p : ProxyState) : Except String Unit × ProxyState :=
  if p.requestPending then
    (.ok (), { p with applicationState := .failed })
  else
    (.error ("proxy transition from " ++ p.applicationState.asStr ++ " to failed is invalid"), p)

end ProxyState

structure PendingProxyConfirmation where
  marker : List UInt8
  tail : List UInt8
  deadline : Nat
deriving DecidableEq

/-! ## The screen, as the emulator shows it -/

inductive UiColor where
  | default
  | indexed (index : Nat)
  | rgb (red green blue : Nat)
deriving DecidableEq

structure UiCellStyle where
  foreground : UiColor
  background : UiColor
  bold : Bool
  italic : Bool
  underline : Bool
  inverse : Bool
deriving DecidableEq

structure Cell where
  contents : String
  isWide : Bool
  isWideContinuation : Bool
  style : UiCellStyle
deriving DecidableEq

inductive MouseProtocolMode where
  | none
  | press
  | pressRelease
  | buttonMotion
  | anyMotion
deriving DecidableEq

/-- `mouse_protocol_mode_name`. -/
def MouseProtocolMode.name : MouseProtocolMode → String
  | .none => "none"
  | .press => "press"
  | .pressRelease => "press-release"
  | .buttonMotion => "button-motion"
  | .anyMotion => "any-motion"

inductive MouseReportEncoding where
  | default
  | sgr
  | utf8
deriving DecidableEq

/-- `mouse_report_encoding_name`. -/
def MouseReportEncoding.name : MouseReportEncoding → String
  | .default => "default"
  | .sgr => "sgr"
  | .utf8 => "utf8"

/-- What `vt100::Parser` and its callbacks report. -/
structure Screen where
  title : String
  rows : Nat
  columns : Nat
  /-- Row by row; `none` and missing cells are positions without a cell. -/
  cells : List (List (Option Cell))
  alternateScreen : Bool
  applicationCursor : Bool
  bracketedPaste : Bool
  mouseProtocolMode : MouseProtocolMode
  mouseProtocolEncoding : MouseReportEncoding
  scrollback : Nat
  maxScrollback : Nat
  cursorRow : Nat
  cursorColumn : Nat
  hideCursor : Bool
deriving DecidableEq

/-! ## Tabs -/

/-- A tab. Its count of output bytes is a `usize`; streams with which it overflows are left out. -/
structure TerminalTab where
  id : Nat
  index : Nat
  parentId : Option Nat
  title : String
  note : String
  commandLine : List String
  processId : Option Nat
  shellKind : ShellKind
  cwd : CwdTracker
  proxy : ProxyState
  composer : String
  sensitiveComposer : Option String
  sensitiveProxyMarker : Option (List UInt8)
  pendingProxyConfirmation : Option PendingProxyConfirmation
  proxyRedactionNeedles : List (List UInt8)
  proxyRedactionPending : List UInt8
  screen : Screen
  exited : Option Nat
  error : Option String
  lastSize : Nat × Nat
  inputBytes : Nat
  inputWrites : Nat
  submission : SubmissionState
  submissionEnterWritten : Option Bool
  lifecycle : TerminalLifecycle
  outputBytes : Nat
deriving DecidableEq

/-- What the system gives a tab that could be spawned. -/
structure Spawned where
  program : String
  commandName : String
  processId : Option Nat
  shellKind : ShellKind
  cwd : CwdTracker
  proxy : ProxyState
  proxyRedactionNeedles : List (List UInt8)
  screen : Screen
deriving DecidableEq

structure TerminalObservation where
  processId : Option Nat
  exitCode : Option Nat
  error : Option String
  inputBytes : Nat
  inputWrites : Nat
  outputBytes : Nat
  submitPending : Bool
  submissionEnterWritten : Option Bool
  readerClosed : Bool
  parserDrained : Bool
  finalized : Bool
deriving DecidableEq

inductive TerminalProcessState where
  | running
  | exited (code : Nat)
  | error (message : String)
deriving DecidableEq

structure TerminalObservationDelta where
  outputAdvancedBy : Nat
  processStateChanged : Bool
  submissionFinished : Bool
  lifecycleChanged : Bool
  becameFinalized : Bool
deriving DecidableEq

namespace TerminalObservation

def processState (o : TerminalObservation) : TerminalProcessState :=
  match o.error with
  | some message => .error message
  | none =>
    match o.exitCode with
    | some code => .exited code
    | none => .running

/-- What happened between two observations; the error is the text of an output counter that
went backwards. -/
def deltaTo (before after : TerminalObservation) : Except String TerminalObservationDelta :=
  if after.outputBytes < before.outputBytes then
    .error ("terminal output counter regressed from " ++ toString before.outputBytes ++ " to "
      ++ toString after.outputBytes)
  else
    .ok
      { outputAdvancedBy := after.outputBytes - before.outputBytes
        processStateChanged := before.processState ≠ after.processState
        submissionFinished := before.submitPending && !after.submitPending
        lifecycleChanged := before.readerClosed ≠ after.readerClosed ||
          before.parserDrained ≠ after.parserDrained || before.finalized ≠ after.finalized
        becameFinalized := !before.finalized && after.finalized }

end TerminalObservation

/-- What the reader and the waiter threads report; an output chunk comes with the directory
the emulator reports once it has processed the chunk, if any. -/
inductive PtyEvent where
  | output (bytes : List UInt8) (osc7 : Option String)
  | readerClosed
  | readerError (error : String)
  | exited (code : Nat)
  | processError (error : String)
deriving DecidableEq

structure PtyCleanupReceipt where
  containment : String
  membersObserved : Nat
  membersTerminated : Nat
  verifiedEmpty : Bool
deriving DecidableEq

/-- What closing the process of a tab reports. -/
structure TerminalShutdownReceipt where
  nativeCleanup : Option PtyCleanupReceipt
  workersComplete : Bool
deriving DecidableEq

namespace TerminalShutdownReceipt

def verified (r : TerminalShutdownReceipt) : Bool :=
  (r.nativeCleanup.any fun receipt => receipt.verifiedEmpty) && r.workersComplete

def json (r : TerminalShutdownReceipt) : Value :=
  .object
    [("native_cleanup", .option (fun receipt : PtyCleanupReceipt => .object
        [("containment", .string receipt.containment),
          ("members_observed", .nat receipt.membersObserved),
          ("members_terminated", .nat receipt.membersTerminated),
          ("verified_empty", .bool receipt.verifiedEmpty)]) r.nativeCleanup),
      ("workers_complete", .bool r.workersComplete),
      ("verified", .bool r.verified)]

end TerminalShutdownReceipt

/-- What one poll of a tab meets: the events received, the clock, the error of writing the
Enter of a submission if there is one, and the screen after the output was processed. -/
structure PollInput where
  events : List PtyEvent
  now : Nat
  enterError : Option String
  screen : Screen
deriving DecidableEq

namespace TerminalTab

/-- `TerminalTab::spawn`, once the process has been started. -/
def spawn (id index : Nat) (parentId : Option Nat) (title : Option String)
    (commandLine : List String) (size : Nat × Nat) (spawned : Spawned) : TerminalTab :=
  { id, index, parentId
    title := title.getD spawned.commandName
    note := ""
    commandLine := if commandLine.isEmpty then [spawned.program] else commandLine
    processId := spawned.processId
    shellKind := spawned.shellKind
    cwd := spawned.cwd
    proxy := spawned.proxy
    composer := ""
    sensitiveComposer := none
    sensitiveProxyMarker := none
    pendingProxyConfirmation := none
    proxyRedactionNeedles := spawned.proxyRedactionNeedles
    proxyRedactionPending := []
    screen := spawned.screen
    exited := none
    error := none
    lastSize := size
    inputBytes := 0
    inputWrites := 0
    submission := .idle
    submissionEnterWritten := none
    lifecycle := .default
    outputBytes := 0 }

def observation (tab : TerminalTab) : TerminalObservation :=
  let processFinished := tab.exited.isSome || tab.error.isSome
  { processId := tab.processId
    exitCode := tab.exited
    error := tab.error
    inputBytes := tab.inputBytes
    inputWrites := tab.inputWrites
    outputBytes := tab.outputBytes
    submitPending := tab.submission.isPending
    submissionEnterWritten := tab.submissionEnterWritten
    readerClosed := tab.lifecycle.readerClosed
    parserDrained := tab.lifecycle.parserDrained
    finalized := tab.lifecycle.finalized processFinished }

/-- Whether the tab still takes input. -/
def acceptsInput (tab : TerminalTab) : Bool :=
  tab.exited.isNone && tab.error.isNone && !tab.lifecycle.readerClosed

/-- Writes `bytes` to the terminal; `writeError` is the error of the write, if it fails. -/
def send (tab : TerminalTab) (bytes : List UInt8) (writeError : Option String) :
    Bool × TerminalTab :=
  if !tab.acceptsInput then
    (false, tab)
  else
    match writeError with
    | some error => (false, { tab with error := some ("input failed: " ++ error) })
    | none =>
      (true, { tab with
        inputBytes := tab.inputBytes + bytes.length, inputWrites := tab.inputWrites + 1 })

/-- Writes a text and schedules its Enter. -/
def submit (tab : TerminalTab) (text : String) (now : Nat) (writeError : Option String) :
    Bool × TerminalTab :=
  if tab.submission.isPending then
    (false, tab)
  else
    match tab.send text.toUTF8.toList writeError with
    | (false, tab) => (false, tab)
    | (true, tab) =>
      let (scheduled, submission) := tab.submission.schedule now composerSubmitDelayMs
      (scheduled, { tab with submissionEnterWritten := none, submission })

/-- `submit` for a secret: the text is not counted. -/
def submitSensitive (tab : TerminalTab) (now : Nat) (writeError : Option String) :
    Bool × TerminalTab :=
  if tab.submission.isPending || !tab.acceptsInput then
    (false, tab)
  else
    match writeError with
    | some error => (false, { tab with error := some ("sensitive input failed: " ++ error) })
    | none =>
      let (scheduled, submission) := tab.submission.schedule now composerSubmitDelayMs
      (scheduled, { tab with
        inputBytes := tab.inputBytes + proxyRedactionMarker.length
        inputWrites := tab.inputWrites + 1
        submissionEnterWritten := none
        submission })

def beginProxyConfirmation (tab : TerminalTab) (marker : List UInt8) (now : Nat) :
    TerminalTab :=
  { tab with
    pendingProxyConfirmation :=
      some { marker, tail := [], deadline := now + proxyConfirmationTimeoutMs } }

/-- `windows(marker.len()).any(..)`: the marker occurs in the bytes. -/
def containsMarker (marker bytes : List UInt8) : Bool :=
  bytes.tails.any fun tail => marker.isPrefixOf tail

def observeProxyConfirmation (tab : TerminalTab) (bytes : List UInt8) : TerminalTab :=
  match tab.pendingProxyConfirmation with
  | none => tab
  | some pending =>
    let tail := pending.tail ++ bytes
    if containsMarker pending.marker tail then
      { tab with pendingProxyConfirmation := none, proxy := tab.proxy.markApplied.2 }
    else
      let retained := pending.marker.length - 1
      { tab with
        pendingProxyConfirmation :=
          some { pending with tail := tail.drop (tail.length - retained) } }

def redactProxyOutput (tab : TerminalTab) (bytes : List UInt8) (flush : Bool) :
    List UInt8 × TerminalTab :=
  let (output, pending) :=
    redactProxyStreamChunk tab.proxyRedactionPending tab.proxyRedactionNeedles bytes flush
  (output, { tab with proxyRedactionPending := pending })

def finishOutputStream (tab : TerminalTab) : TerminalTab :=
  if tab.lifecycle.readerClosed then
    tab
  else
    let (tail, tab) := tab.redactProxyOutput [] true
    { tab with
      outputBytes := tab.outputBytes + tail.length
      lifecycle := .closeReaderAfterParserDrain }

/-- One round of the receive loop of `poll`. -/
def receive (tab : TerminalTab) : PtyEvent → TerminalTab
  | .output bytes osc7 =>
    if tab.lifecycle.readerClosed then
      { tab with error := some "terminal output arrived after the reader was finalized" }
    else
      let (bytes, tab) := tab.redactProxyOutput bytes false
      let tab := tab.observeProxyConfirmation bytes
      { tab with
        outputBytes := tab.outputBytes + bytes.length
        cwd := match osc7 with
          | some path => .confirmOsc7 path
          | none => tab.cwd }
  | .readerClosed => tab.finishOutputStream
  | .readerError error =>
    { tab.finishOutputStream with error := some ("terminal output failed: " ++ error) }
  | .exited code => { tab with exited := some code }
  | .processError error => { tab with error := some error }

/-- Writes the Enter of a submission that is due. -/
def finishSubmission (tab : TerminalTab) (now : Nat) (enterError : Option String) :
    TerminalTab :=
  match tab.submission.takeIfDue now with
  | (false, _) => tab
  | (true, submission) =>
    let (written, tab) := { tab with submission }.send [13] enterError
    { tab with submissionEnterWritten := some written }

/-- Gives up on a proxy confirmation that is overdue or whose terminal has ended. -/
def expireProxyConfirmation (tab : TerminalTab) (now : Nat) : TerminalTab :=
  if tab.pendingProxyConfirmation.any fun pending =>
      now ≥ pending.deadline || tab.exited.isSome || tab.error.isSome then
    { tab with pendingProxyConfirmation := none, proxy := tab.proxy.markFailed.2 }
  else
    tab

def poll (tab : TerminalTab) (input : PollInput) : TerminalTab :=
  let tab := { input.events.foldl receive tab with screen := input.screen }
  (tab.finishSubmission input.now input.enterError).expireProxyConfirmation input.now

end TerminalTab

end Agenterm
