import Agenterm.Protocol
import Mathlib.Data.List.AList

/-!
# The UI command queue

`UiClientCommandQueue` of `ui_command.rs`: commands for the attached GUI client wait in
`pending`, are handed out by `poll` into `inFlight`, and leave a bounded record in `completed`
when the client reports their response. `preapplied` holds the server's own response to a
command it has already carried out. The hash maps of the source are `AList`s; nothing depends
on their order.
-/

namespace Agenterm

def uiClientCommandSchemaVersion : Nat := 1
def uiClientCommandQueueLimit : Nat := 64
def uiClientCommandMaxArguments : Nat := 64
def uiClientCommandMaxBytes : Nat := 256 * 1024
def uiClientCommandResponseMaxBytes : Nat := 1024 * 1024

structure UiClientCommand where
  schemaVersion : Nat
  commandId : String
  args : List String
deriving DecidableEq

structure UiClientCommandQueue where
  identity : String
  nextId : Nat
  pending : List UiClientCommand
  inFlight : AList fun _ : String => UiClientCommand
  preapplied : AList fun _ : String => String
  completed : List (String × String)
  completionInputs : AList fun _ : String => String

inductive UiClientCommandResult where
  | pending
  | inFlight
  | complete (responseJson : String)
  | unknown
deriving DecidableEq

/-- `usize::checked_add` on a 64-bit target. -/
def checkedAdd (a b : Nat) : Option Nat := if a + b ≤ u64Max then some (a + b) else none

def validateArgs (args : List String) : Except String Unit :=
  if args.isEmpty ∨ args.length > uiClientCommandMaxArguments then
    .error ("UI client command requires 1..=" ++ toString uiClientCommandMaxArguments
      ++ " arguments")
  else
    match args.foldlM (fun total value => checkedAdd total value.utf8ByteSize) 0 with
    | none => .error "UI client command byte count overflowed"
    | some total =>
      if total > uiClientCommandMaxBytes ∨
          args.any (fun value => value.toList.contains (Char.ofNat 0)) then
        .error ("UI client command exceeds its " ++ toString uiClientCommandMaxBytes
          ++ "-byte budget or contains NUL")
      else
        .ok ()

namespace UiClientCommandQueue

def new (identity : String) : UiClientCommandQueue :=
  { identity, nextId := 1, pending := [], inFlight := ∅, preapplied := ∅, completed := [],
    completionInputs := ∅ }

/-- The id of the command that gets the number `n`. -/
def commandId (identity : String) (n : Nat) : String := identity ++ "-" ++ toString n

def enqueue (q : UiClientCommandQueue) (args : List String) :
    Except String String × UiClientCommandQueue :=
  match validateArgs args with
  | .error error => (.error error, q)
  | .ok () =>
    if q.pending.length + q.inFlight.keys.length ≥ uiClientCommandQueueLimit then
      (.error "UI client command queue is full", q)
    else
      let id := commandId q.identity q.nextId
      let command : UiClientCommand :=
        { schemaVersion := uiClientCommandSchemaVersion, commandId := id, args }
      (.ok id, { q with
        nextId := saturatingAdd q.nextId 1, pending := q.pending ++ [command] })

def poll (q : UiClientCommandQueue) : Option UiClientCommand × UiClientCommandQueue :=
  match q.pending with
  | [] => (none, q)
  | command :: pending =>
    (some command, { q with
      pending, inFlight := q.inFlight.insert command.commandId command })

def recordPreapplied (codec : ResponseCodec) (q : UiClientCommandQueue) (commandId : String)
    (response : IpcResponse) : Except String Unit × UiClientCommandQueue :=
  if !q.pending.any (fun command => command.commandId = commandId) then
    (.error "UI client command is not pending", q)
  else
    match codec.encode response with
    | .error error => (.error ("UI client preapply response is invalid: " ++ error), q)
    | .ok encoded =>
      if encoded.utf8ByteSize > uiClientCommandResponseMaxBytes then
        (.error "UI client preapply response exceeds its byte budget", q)
      else
        (.ok (), { q with preapplied := q.preapplied.insert commandId encoded })

def discardPending (q : UiClientCommandQueue) (commandId : String) :
    Bool × UiClientCommandQueue :=
  match q.pending.findIdx? fun command => command.commandId = commandId with
  | none => (false, q)
  | some position =>
    (true, { q with
      pending := q.pending.eraseIdx position, preapplied := q.preapplied.erase commandId })

/-- The `while` loop that drops the oldest completions with their inputs. -/
def trimCompleted : List (String × String) → AList (fun _ : String => String) →
    List (String × String) × AList (fun _ : String => String)
  | [], inputs => ([], inputs)
  | (expiredId, responseJson) :: completed, inputs =>
    if completed.length + 1 > uiClientCommandQueueLimit then
      trimCompleted completed (inputs.erase expiredId)
    else
      ((expiredId, responseJson) :: completed, inputs)

def complete (codec : ResponseCodec) (q : UiClientCommandQueue) (commandId : String)
    (responseJson : String) : Except String IpcResponse × UiClientCommandQueue :=
  if responseJson.isEmpty ∨ responseJson.utf8ByteSize > uiClientCommandResponseMaxBytes then
    (.error ("UI client command response must contain 1..="
      ++ toString uiClientCommandResponseMaxBytes ++ " bytes"), q)
  else
    match codec.decode responseJson with
    | .error error => (.error ("UI client command response is invalid: " ++ error), q)
    | .ok response =>
      match q.completionInputs.lookup commandId with
      | some previousInput =>
        if previousInput ≠ responseJson then
          (.error "UI client command completion replay changed its response", q)
        else
          match q.completed.find? fun candidate => candidate.1 = commandId with
          | none => (.error "UI client command completion replay expired", q)
          | some completed =>
            match codec.decode completed.2 with
            | .error error => (.error ("UI client command response is invalid: " ++ error), q)
            | .ok recorded => (.ok recorded, q)
      | none =>
        if (q.inFlight.lookup commandId).isNone then
          (.error "UI client command is not in flight", q)
        else
          let (completed, completionInputs) :=
            trimCompleted (q.completed ++ [(commandId, responseJson)])
              (q.completionInputs.insert commandId responseJson)
          (.ok response, { q with
            inFlight := q.inFlight.erase commandId
            preapplied := q.preapplied.erase commandId
            completed, completionInputs })

def result (q : UiClientCommandQueue) (commandId : String) : UiClientCommandResult :=
  match q.completed.find? fun candidate => candidate.1 = commandId with
  | some completed => .complete completed.2
  | none =>
    if (q.inFlight.lookup commandId).isSome then
      .inFlight
    else if q.pending.any fun command => command.commandId = commandId then
      .pending
    else
      .unknown

def replaceCompleted (codec : ResponseCodec) (q : UiClientCommandQueue) (commandId : String)
    (response : IpcResponse) : Except String Unit × UiClientCommandQueue :=
  match codec.encode response with
  | .error error => (.error ("UI client command response is invalid: " ++ error), q)
  | .ok encoded =>
    if encoded.utf8ByteSize > uiClientCommandResponseMaxBytes then
      (.error "UI client command response exceeds its byte budget", q)
    else
      match q.completed.find? fun candidate => candidate.1 = commandId with
      | none => (.error "UI client command completion is unavailable", q)
      | some _ =>
        (.ok (), { q with
          completed := Lib.updateFirst (fun candidate => candidate.1 = commandId)
            (fun candidate => (candidate.1, encoded)) q.completed })

def clearActive (q : UiClientCommandQueue) : UiClientCommandQueue :=
  { q with pending := [], inFlight := ∅, preapplied := ∅ }

end UiClientCommandQueue

end Agenterm
