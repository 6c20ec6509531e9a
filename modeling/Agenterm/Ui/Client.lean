import Agenterm.Server.Workspace
import Agenterm.Ui.Projection

/-!
# A client and its copy of the tab list

`apply_delta` and `poll_deltas` of `ui_client.rs`: the client starts from a bootstrap snapshot
and applies delta batches to it, in place. `Replica` is a server together with one client; its
runs interleave the operations of the server with the client's requests in any order.
-/

namespace Agenterm

/-- One round of the loop over the updates: replaces the tab or adds it. -/
def applyUpdate (tabs : List UiTabBootstrap) (update : UiTabBootstrap) : List UiTabBootstrap :=
  Lib.upsert UiTabBootstrap.id tabs update

/-- The tabs after a batch. -/
def mergedTabs (tabs : List UiTabBootstrap) (batch : UiDeltaBatch) : List UiTabBootstrap :=
  (batch.tabUpdates.foldl applyUpdate
    (tabs.filter fun tab => !batch.closedTabIds.contains tab.id)).insertionSort
    fun a b => a.index ≤ b.index

/-- The snapshot after a batch, before it is checked. -/
def mergedSnapshot (snapshot : UiBootstrapSnapshot) (batch : UiDeltaBatch) :
    UiBootstrapSnapshot :=
  let tabs := mergedTabs snapshot.tabs batch
  let complete := tabs.all fun tab => tab.screen.complete
  { snapshot with
    tabs
    activeTabId := batch.activeTabId
    position := { snapshot.position with sequence := batch.throughSequence }
    complete
    truncated := !complete }

/-- Applies a batch, and says whether the snapshot changed. The snapshot is changed in place:
it stays changed when the check at the end fails. -/
def applyDelta (snapshot : UiBootstrapSnapshot) (batch : UiDeltaBatch) :
    Except String Bool × UiBootstrapSnapshot :=
  let merged := mergedSnapshot snapshot batch
  (merged.validate.map fun _ => decide (snapshot ≠ merged), merged)

/-- One round of `poll_deltas`, with the batch the server answers. -/
def receiveDelta (snapshot : UiBootstrapSnapshot) (batch : UiDeltaBatch) :
    Except String Bool × UiBootstrapSnapshot :=
  match batch.validate with
  | .error error => (.error error, snapshot)
  | .ok () =>
    if batch.serverEpoch ≠ snapshot.serverEpoch ||
        batch.afterSequence ≠ snapshot.position.sequence then
      (.error "UI delta does not continue the current bootstrap position", snapshot)
    else
      applyDelta snapshot batch

/-- The batch the server answers a poll of this client with. -/
def ServerState.answer (s : ServerState) (client : UiBootstrapSnapshot) (limit : Nat) :
    Except String UiDeltaBatch :=
  s.uiDeltas client.serverEpoch client.position.sequence limit

/-! ## Runs of a server and a client -/

/-- A server and one client; `none` is a client that has no snapshot yet. -/
structure Replica where
  machine : Machine
  client : Option UiBootstrapSnapshot

inductive ReplicaOp where
  | serve (op : MachineOp)
  | bootstrap (serverPid : Nat)
  | poll (limit : Nat)

namespace Replica

/-- The client after it asked for a bootstrap snapshot. -/
def bootstrapped (r : Replica) (serverPid : Nat) : Option UiBootstrapSnapshot :=
  match r.machine.server.uiBootstrapSnapshot serverPid with
  | .ok snapshot => some snapshot
  | .error _ => r.client

/-- The client after it asked for a batch. -/
def polled (r : Replica) (limit : Nat) : Option UiBootstrapSnapshot :=
  r.client.map fun snapshot =>
    match r.machine.server.answer snapshot limit with
    | .ok batch => (receiveDelta snapshot batch).2
    | .error _ => snapshot

/-- A restart ends the connections of the server: its clients bootstrap again. -/
def step (r : Replica) : ReplicaOp → Option Replica
  | .serve op => do
    let machine ← r.machine.step op
    match op with
    | .restart .. => some { machine, client := none }
    | _ => some { r with machine }
  | .bootstrap serverPid => some { r with client := r.bootstrapped serverPid }
  | .poll limit => some { r with client := r.polled limit }

end Replica

end Agenterm
