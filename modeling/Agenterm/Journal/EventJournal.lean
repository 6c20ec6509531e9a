import Agenterm.Common

/-!
# The event journal

The bounded, sequence-numbered journal of `event_journal.rs`. The server commits one event
for every change it makes visible; readers follow it with `readAfter` from the last
sequence number they have seen.
-/

namespace Agenterm

/-- The closed set of event kinds. -/
inductive EventKind where
  | composerDraft
  | composerSubmitted
  | composerSubmissionFinished
  | focusChanged
  | layoutTreeCollapse
  | layoutTabsVisibility
  | layoutTabsWidth
  | tabClosed
  | tabCreated
  | tabNote
  | tabParent
  | tabRenamed
  | tabSelected
  | tabState
  | terminalOutput
  | terminalPasted
  | terminalResized
  | terminalViewport
  | uiLease
  | windowVisibility
  | workingContextCwd
  | workingContextCwdEditor
  | workingContextCwdRequested
  | workingContextProxyEditor
  | workingContextProxyRequested
  | workingContextProxySubmitted
  | workingContextProxyResolved
  | workspaceSaved
  | workspaceShutdown
deriving DecidableEq

/-- The wire name of a kind. -/
def EventKind.asStr : EventKind → String
  | .composerDraft => "composer.draft"
  | .composerSubmitted => "composer.submitted"
  | .composerSubmissionFinished => "composer.submission-finished"
  | .focusChanged => "focus.changed"
  | .layoutTreeCollapse => "layout.tree.collapse"
  | .layoutTabsVisibility => "layout.tabs.visibility"
  | .layoutTabsWidth => "layout.tabs.width"
  | .tabClosed => "tab.closed"
  | .tabCreated => "tab.created"
  | .tabNote => "tab.note"
  | .tabParent => "tab.parent"
  | .tabRenamed => "tab.renamed"
  | .tabSelected => "tab.selected"
  | .tabState => "tab.state"
  | .terminalOutput => "terminal.output"
  | .terminalPasted => "terminal.pasted"
  | .terminalResized => "terminal.resized"
  | .terminalViewport => "terminal.viewport"
  | .uiLease => "ui.lease"
  | .windowVisibility => "window.visibility"
  | .workingContextCwd => "working-context.cwd"
  | .workingContextCwdEditor => "working-context.cwd.editor"
  | .workingContextCwdRequested => "working-context.cwd.requested"
  | .workingContextProxyEditor => "working-context.proxy.editor"
  | .workingContextProxyRequested => "working-context.proxy.requested"
  | .workingContextProxySubmitted => "working-context.proxy.submitted"
  | .workingContextProxyResolved => "working-context.proxy.resolved"
  | .workspaceSaved => "workspace.saved"
  | .workspaceShutdown => "workspace.shutdown"

def eventSchemaVersion : Nat := 1

def defaultEventCapacity : Nat := 4096

/-- A server epoch and a sequence number within it. -/
structure EventPosition where
  epoch : String
  sequence : Nat
deriving DecidableEq

structure EventEnvelope where
  schemaVersion : Nat
  epoch : String
  sequence : Nat
  kind : String
  tabId : Option Nat
  requestId : Option String
  operationId : Option String
  payload : Value

inductive JournalReadError where
  | restart (requestedEpoch : String) (current : EventPosition)
  | gap (requestedAfter earliestAvailable : Nat) (current : EventPosition)
  | futureSequence (requestedAfter : Nat) (current : EventPosition)
deriving DecidableEq

/-- `JournalReadError::code`. -/
def JournalReadError.code : JournalReadError → String
  | .restart _ _ => "server_restart"
  | .gap _ _ _ => "journal_gap"
  | .futureSequence _ _ => "future_sequence"

structure EventJournal where
  epoch : String
  sequence : Nat
  capacity : Nat
  events : List EventEnvelope

namespace EventJournal

def withEpoch (epoch : String) (capacity : Nat) : EventJournal :=
  { epoch, sequence := 0, capacity := max capacity 1, events := [] }

def position (j : EventJournal) : EventPosition :=
  { epoch := j.epoch, sequence := j.sequence }

/-- Appends one event, dropping the oldest retained one when the journal is full. `none` is
the abort of `checked_add(1).expect("event sequence exhausted")`. -/
def commitCorrelated (j : EventJournal) (kind : EventKind) (tabId : Option Nat)
    (requestId operationId : Option String) (payload : Value) :
    Option (EventEnvelope × EventJournal) :=
  if j.sequence + 1 ≤ u64Max then
    let event : EventEnvelope :=
      { schemaVersion := eventSchemaVersion
        epoch := j.epoch
        sequence := j.sequence + 1
        kind := kind.asStr
        tabId, requestId, operationId, payload }
    let retained := if j.events.length = j.capacity then j.events.drop 1 else j.events
    some (event, { j with sequence := j.sequence + 1, events := retained ++ [event] })
  else
    none

def commit (j : EventJournal) (kind : EventKind) (tabId : Option Nat) (payload : Value) :
    Option (EventEnvelope × EventJournal) :=
  j.commitCorrelated kind tabId none none payload

/-- The events after `after`, at most `limit` of them (a limit of zero counts as one). -/
def readAfter (j : EventJournal) (epoch : String) (after limit : Nat) :
    Except JournalReadError (List EventEnvelope) :=
  let current := j.position
  if epoch ≠ j.epoch then
    .error (.restart epoch current)
  else if after > j.sequence then
    .error (.futureSequence after current)
  else
    match j.events.head?.map EventEnvelope.sequence with
    | some earliest =>
      if saturatingAdd after 1 < earliest then
        .error (.gap after earliest current)
      else
        .ok ((j.events.filter fun event => event.sequence > after).take (max limit 1))
    | none => .ok ((j.events.filter fun event => event.sequence > after).take (max limit 1))

end EventJournal

end Agenterm
