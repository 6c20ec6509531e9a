import Agenterm.Worker.SupervisorTheorems

/-!
# The life of a persistent client

A client is `Alive` with all its handles or `Dead` with none: `invoke_spec` says that an invocation
leads from the first to the second or back to the first, and that a dead client refuses. The main
result is `lifecycle_total_iff`: the end of a life panics exactly when `shutdown` is called on a
client whose worker was ended before.
-/

namespace Agenterm.Worker

open Lib Persistent

namespace PersistentWorkerClient

/-- All handles are there. -/
structure Alive (client : PersistentWorkerClient) : Prop where
  child : client.child = true
  stdin : client.stdin = true
  tree : client.tree = true
  permit : client.permit = true
  unavailable : client.unavailable = false
  released : client.released = []

/-- All handles were let go, the tree and the permit once. -/
structure Dead (client : PersistentWorkerClient) : Prop where
  child : client.child = false
  tree : client.tree = false
  permit : client.permit = false
  unavailable : client.unavailable = true
  released : client.released = [.tree, .permit]

variable {client : PersistentWorkerClient}

lemma Alive.letGo (h : client.Alive) :
    client.letGo.child = false ∧ client.letGo.tree = false ∧ client.letGo.permit = false ∧
      client.letGo.released = [.tree, .permit] := by
  refine ⟨rfl, rfl, rfl, ?_⟩
  show client.released ++ (if client.tree then [.tree] else []) ++
    (if client.permit then [.permit] else []) = _
  rw [h.released, h.tree, h.permit]
  rfl

lemma Alive.dead_letGo (h : client.Alive) : ({ client with unavailable := true }.letGo).Dead := by
  obtain ⟨hchild, htree, hpermit, hreleased⟩ := h.letGo
  exact ⟨hchild, htree, hpermit, rfl, hreleased⟩

lemma Alive.forceTerminate (h : client.Alive) : client.forceTerminate.Dead := by
  obtain ⟨hchild, htree, hpermit, hreleased⟩ := h.letGo
  exact ⟨hchild, htree, hpermit, rfl, hreleased⟩

lemma Alive.finishEof (h : client.Alive) (waited : Except String ExitStatus) :
    ∃ client' error, client.finishEof waited = .ok (client', error) ∧ client'.Dead := by
  obtain ⟨error, herror⟩ := finishEof_of_child h.child waited
  exact ⟨_, error, herror, h.dead_letGo⟩

lemma Alive.writeStdin (h : client.Alive) (written : Except SupervisorError Unit) :
    client.writeStdin written = written := by
  unfold PersistentWorkerClient.writeStdin
  rw [h.stdin]
  rfl

end PersistentWorkerClient

/-! ## The loop -/

/-- A loop goes on with a client that is alive; it ends with a result and a client that is alive, or
with an error and a client that is dead. -/
structure Persistent.Kept (loop : Persistent) : Prop where
  goes : loop.ended = none → loop.client.Alive
  ends : ∀ finish, loop.ended = some finish → ∃ result, finish = .ok result ∧
    ((∃ value, result = .ok value) ∧ loop.client.Alive ∨
      (∃ error, result = .error error) ∧ loop.client.Dead)

section
variable {assignment : Assignment} {loop : Persistent}

lemma Persistent.kept_of_alive {loop : Persistent} (hgoes : loop.ended = none)
    (halive : loop.client.Alive) : loop.Kept where
  goes _ := halive
  ends finish hended := by
    rw [hgoes] at hended
    injection hended

lemma Persistent.terminate_kept (h : loop.client.Alive) (error : SupervisorError) :
    (loop.terminate error).Kept where
  goes hnone := by injection hnone
  ends finish hended := by
    rw [← Option.some.inj hended]
    exact ⟨_, rfl, .inr ⟨⟨_, rfl⟩, h.forceTerminate⟩⟩

lemma Persistent.finishEof_kept (h : loop.client.Alive) (waited : Except String ExitStatus) :
    (loop.finishEof waited).Kept := by
  obtain ⟨client, error, hfinish, hdead⟩ := h.finishEof waited
  unfold finishEof
  rw [hfinish]
  refine ⟨fun hnone => by injection hnone, fun finish hended => ?_⟩
  rw [← Option.some.inj hended]
  exact ⟨_, rfl, .inr ⟨⟨_, rfl⟩, hdead⟩⟩

lemma Persistent.send_kept (hgoes : loop.ended = none) (h : loop.client.Alive) (act : Act)
    (written : Except SupervisorError Unit) : (loop.send act written).Kept := by
  unfold send
  dsimp only
  split
  · exact kept_of_alive hgoes h
  · refine terminate_kept ?_ _
    exact h

theorem Persistent.step_kept (h : loop.Kept) (input : PersistentInput) :
    (loop.step assignment input).Kept := by
  unfold step
  split
  · exact h
  rename_i hgoes
  have halive := h.goes hgoes
  split
  · exact finishEof_kept halive _
  · split
    · exact terminate_kept halive _
    · refine send_kept ?_ ?_ _ _
      · exact hgoes
      · exact halive
  · exact finishEof_kept halive _
  · exact terminate_kept halive _
  · split
    · unfold handleRequest
      split
      · exact terminate_kept halive _
      split
      · exact terminate_kept halive _
      · refine send_kept ?_ ?_ _ _
        · exact hgoes
        · exact halive
    · unfold handleResult
      dsimp only
      split
      · exact terminate_kept halive _
      · refine ⟨fun hnone => by injection hnone, fun finish hended => ?_⟩
        rw [← Option.some.inj hended]
        exact ⟨_, rfl, .inl ⟨⟨_, rfl⟩, halive⟩⟩
    · exact terminate_kept halive _

end

/-! ## Invocations -/

variable {ended : Except Panic InvokeResult} {input : InvokeInput} {inputs : List InvokeInput}

namespace PersistentWorkerClient

variable {client client' : PersistentWorkerClient}

/-- A dead client refuses an invocation and stays as it is. -/
lemma Dead.invoke (h : client.Dead) (input : InvokeInput) :
    client.invoke input = (client, some (.ok (.error (.unavailable client.workerPid)))) := by
  unfold PersistentWorkerClient.invoke
  rw [h.unavailable]
  rfl

lemma invokeActive_kept (h : client.Alive) (input : InvokeInput) :
    (∀ ended, (client.invokeActive input).2 = some ended → ∃ result, ended = .ok result ∧
      ((∃ value, result = .ok value) ∧ (client.invokeActive input).1.Alive ∨
        (∃ error, result = .error error) ∧ (client.invokeActive input).1.Dead)) := by
  intro ended hended
  unfold invokeActive at hended ⊢
  rw [h.writeStdin] at hended ⊢
  split at hended
  · rename_i error
    rw [← Option.some.inj hended]
    exact ⟨_, rfl, .inr ⟨⟨_, rfl⟩, h.forceTerminate⟩⟩
  · have hstart : (start client).Kept := kept_of_alive rfl h
    have hkept : (Lib.run (step input.assignment) (.start client) input.rounds).Kept :=
      run_invariant (P := Persistent.Kept) (fun loop round hloop => step_kept hloop round)
        hstart input.rounds
    exact hkept.ends ended hended

/-- What an invocation of an idle client leaves, with its result. -/
inductive Concluded (client : PersistentWorkerClient) : PersistentWorkerClient → InvokeResult → Prop
  where
  /-- No more invocations: nothing is done. -/
  | limit : Concluded client client
      (.error (.invocationLimit client.workerPid persistentWorkerInvocationLimit))
  | answered {client' : PersistentWorkerClient} (halive : client'.Alive)
      (hactive : client'.active = false) (result : SupervisedResult) :
      Concluded client client' (.ok result)
  | failed {client' : PersistentWorkerClient} (hdead : client'.Dead)
      (error : PersistentWorkerError) : Concluded client client' (.error error)

/-- What an invocation of a client that is alive and idle comes to. -/
theorem Alive.invoke (h : client.Alive) (hactive : client.active = false) (input : InvokeInput)
    (hended : client.invoke input = (client', some ended)) :
    ∃ result, ended = .ok result ∧ Concluded client client' result := by
  unfold PersistentWorkerClient.invoke at hended
  rw [if_neg (by rw [h.unavailable, h.child]; exact Bool.false_ne_true),
    if_neg (by rw [hactive]; exact Bool.false_ne_true)] at hended
  split at hended
  · obtain ⟨rfl, hresult⟩ := Prod.mk.inj hended
    exact ⟨_, (Option.some.inj hresult).symm, .limit⟩
  split at hended
  · obtain ⟨rfl, hresult⟩ := Prod.mk.inj hended
    exact ⟨_, (Option.some.inj hresult).symm, .failed h.forceTerminate _⟩
  · obtain ⟨dead, error, hfinish, hdead⟩ := h.finishEof input.waited
    rw [hfinish] at hended
    obtain ⟨rfl, hresult⟩ := Prod.mk.inj hended
    exact ⟨_, (Option.some.inj hresult).symm, .failed hdead _⟩
  · have hbegun : client.begun.Alive :=
      ⟨h.child, h.stdin, h.tree, h.permit, h.unavailable, h.released⟩
    have hkept := invokeActive_kept hbegun input
    rcases houtcome : client.begun.invokeActive input with ⟨after, finish⟩
    rw [houtcome] at hended hkept
    cases finish with
    | none =>
      have hresult : none = some ended := (Prod.mk.inj hended).2
      injection hresult
    | some finish =>
      obtain ⟨result, rfl, hcases⟩ := hkept finish rfl
      obtain ⟨rfl, hresult⟩ : after.settled result = client' ∧ some (.ok result) = some ended :=
        Prod.mk.inj hended
      refine ⟨result, (Option.some.inj hresult).symm, ?_⟩
      rcases hcases with ⟨⟨value, rfl⟩, hafter⟩ | ⟨⟨error, rfl⟩, hafter⟩
      · have halive : after.Alive := hafter
        have hsettled : (after.settled (.ok value)).Alive :=
          ⟨halive.child, halive.stdin, halive.tree, halive.permit,
            (Bool.or_false _).trans halive.unavailable, halive.released⟩
        exact .answered hsettled rfl value
      · have hdead : after.Dead := hafter
        have hunavailable : (after.settled (.error error)).unavailable = true := by
          show (after.unavailable || _) = true
          rw [hdead.unavailable]
          rfl
        have hsettled : (after.settled (.error error)).Dead :=
          ⟨hdead.child, hdead.tree, hdead.permit, hunavailable, hdead.released⟩
        exact .failed hsettled error

/-! ## Lives -/

/-- A client between two invocations. -/
def Idle (client : PersistentWorkerClient) : Prop :=
  client.Alive ∧ client.active = false ∨ client.Dead

lemma idle_spawned (workerPid : Nat) : (spawned workerPid).Idle :=
  .inl ⟨⟨rfl, rfl, rfl, rfl, rfl, rfl⟩, rfl⟩

/-- An invocation never panics, and leaves the client idle. -/
lemma Idle.invoke (h : client.Idle) (input : InvokeInput)
    (hended : client.invoke input = (client', some ended)) :
    (∃ result, ended = .ok result) ∧ client'.Idle := by
  rcases h with ⟨halive, hactive⟩ | hdead
  · obtain ⟨result, hresult, hconcluded⟩ := halive.invoke hactive input hended
    refine ⟨⟨result, hresult⟩, ?_⟩
    cases hconcluded with
    | limit => exact .inl ⟨halive, hactive⟩
    | answered halive' hactive' value => exact .inl ⟨halive', hactive'⟩
    | failed hdead error => exact .inr hdead
  · rw [hdead.invoke input] at hended
    obtain ⟨rfl, hresult⟩ := Prod.mk.inj hended
    exact ⟨⟨_, (Option.some.inj hresult).symm⟩, .inr hdead⟩

/-- The client after an invocation that returns. -/
def returned (client : PersistentWorkerClient) (input : InvokeInput) :
    Option PersistentWorkerClient :=
  match client.invoke input with
  | (client, some (.ok _)) => some client
  | _ => none

lemma returned_eq_some (h : client.returned input = some client') :
    ∃ result, client.invoke input = (client', some (.ok result)) := by
  unfold returned at h
  split at h
  · rename_i after result hinvoke
    rw [← Option.some.inj h]
    exact ⟨result, hinvoke⟩
  · injection h

/-- How the life of a client ends. -/
inductive Ending where
  | shutdown (waited : Except String ExitStatus)
  | drop

/-- The end of a life. A client that is shut down is dropped afterwards. -/
def conclude (client : PersistentWorkerClient) : Ending → Except Panic PersistentWorkerClient
  | .shutdown waited => (client.shutdown waited).map fun ended => ended.1.drop
  | .drop => .ok client.drop

/-- The tree and the permit were given back once. -/
def GivenBack (client : PersistentWorkerClient) : Prop :=
  client.released.count .tree = 1 ∧ client.released.count .permit = 1

lemma Dead.drop (h : client.Dead) : client.drop.GivenBack := by
  have hreleased : client.drop.released = [.tree, .permit] := by
    unfold PersistentWorkerClient.drop PersistentWorkerClient.release
    rw [h.child]
    simp only [Bool.false_eq_true, if_false, h.tree, h.permit, h.released, List.append_nil]
  unfold GivenBack
  rw [hreleased]
  decide

lemma Idle.drop (h : client.Idle) : client.drop.GivenBack := by
  rcases h with ⟨halive, -⟩ | hdead
  · have hdropped : client.drop = client.forceTerminate.drop := by
      unfold PersistentWorkerClient.drop
      rw [halive.child, halive.forceTerminate.child]
      rfl
    rw [hdropped]
    exact halive.forceTerminate.drop
  · exact hdead.drop

/-- A shutdown of a client that is alive returns. -/
lemma Alive.shutdown (h : client.Alive) (waited : Except String ExitStatus) :
    ∃ client' result, client.shutdown waited = .ok (client', result) ∧
      client'.drop.GivenBack := by
  have hchild : ({ client with stdin := false } : PersistentWorkerClient).child = true := h.child
  obtain ⟨result, hresult⟩ := waitAndReap_of_child hchild waited
  have hreleased : client.letGo.drop.GivenBack := by
    have hdropped : client.letGo.drop = client.letGo.release := rfl
    have hsame : client.letGo.release.released = client.forceTerminate.drop.released := rfl
    unfold GivenBack
    rw [hdropped, hsame]
    exact h.forceTerminate.drop
  unfold PersistentWorkerClient.shutdown
  rw [hresult]
  cases result with
  | error error => exact ⟨_, _, rfl, hreleased⟩
  | ok status =>
    cases hstatus : status.success with
    | true => exact ⟨_, _, if_pos hstatus, hreleased⟩
    | false => exact ⟨_, _, if_neg (by rw [hstatus]; exact Bool.false_ne_true), hreleased⟩

/-- A shutdown of a client without its child panics. -/
lemma Dead.shutdown (h : client.Dead) (waited : Except String ExitStatus) :
    client.shutdown waited = .error ⟨"persistent worker wait requires a child"⟩ := by
  have hchild : ({ client with stdin := false } : PersistentWorkerClient).child = false := h.child
  unfold PersistentWorkerClient.shutdown PersistentWorkerClient.waitAndReap
  rw [hchild]
  rfl

lemma idle_of_exec {workerPid : Nat}
    (hrun : exec returned (spawned workerPid) inputs = some client) : client.Idle :=
  exec_invariant (fun _ input _ h hreturned =>
    let ⟨_, hinvoke⟩ := returned_eq_some hreturned
    (h.invoke input hinvoke).2) (idle_spawned workerPid) hrun

/-- A dead client stays as it is through any invocations. -/
lemma Dead.exec (h : client.Dead) {later : PersistentWorkerClient}
    (hrun : Lib.exec returned client inputs = some later) : later = client :=
  exec_invariant (P := (· = client)) (fun before input after hbefore hreturned => by
    obtain ⟨result, hinvoke⟩ := returned_eq_some hreturned
    rw [hbefore, h.invoke input] at hinvoke
    exact (Prod.mk.inj hinvoke).1.symm) rfl hrun

/-- A failure other than that of the limit leaves a dead client. -/
lemma Idle.dead_of_failed (h : client.Idle) {error : PersistentWorkerError}
    (hinvoke : client.invoke input = (client', some (.ok (.error error))))
    (hlimit : error ≠ .invocationLimit client.workerPid persistentWorkerInvocationLimit) :
    client'.Dead := by
  rcases h with ⟨halive, hactive⟩ | hdead
  · obtain ⟨result, hresult, hconcluded⟩ := halive.invoke hactive input hinvoke
    rw [← Except.ok.inj hresult] at hconcluded
    cases hconcluded with
    | limit => exact absurd rfl hlimit
    | failed hdead error => exact hdead
  · rw [hdead.invoke input] at hinvoke
    rwa [← (Prod.mk.inj hinvoke).1]

lemma Idle.conclude_iff (h : client.Idle) (ending : Ending) :
    (∃ ended, client.conclude ending = .ok ended ∧ ended.GivenBack) ↔
      ∀ waited, ending = .shutdown waited → client.child = true := by
  cases ending with
  | drop => exact ⟨fun _ _ hending => by injection hending, fun _ => ⟨_, rfl, h.drop⟩⟩
  | shutdown waited =>
    rcases h with ⟨halive, -⟩ | hdead
    · obtain ⟨ended, result, hshutdown, hgiven⟩ := halive.shutdown waited
      refine ⟨fun _ _ _ => halive.child, fun _ => ⟨ended.drop, ?_, hgiven⟩⟩
      show (client.shutdown waited).map _ = _
      rw [hshutdown]
      rfl
    · constructor
      · rintro ⟨ended, hended, -⟩
        have hpanic : (client.shutdown waited).map (fun ended => ended.1.drop) = .ok ended := hended
        rw [hdead.shutdown] at hpanic
        injection hpanic
      · intro hchild
        have htrue := hchild waited rfl
        rw [hdead.child] at htrue
        injection htrue

/-- After any invocations that return: the next one does not panic; a failure other than that of
the limit leaves a client that refuses everything; and the end of the life returns, with the tree
and the permit given back once, exactly when it is not a shutdown of a client without its child. -/
theorem lifecycle_total_iff (workerPid : Nat) (inputs : List InvokeInput) (ending : Ending)
    (hrun : exec returned (spawned workerPid) inputs = some client) :
    ((∀ input client' ended, client.invoke input = (client', some ended) →
        ∃ result, ended = .ok result) ∧
      (∀ input client' error, client.invoke input = (client', some (.ok (.error error))) →
        error ≠ .invocationLimit client.workerPid persistentWorkerInvocationLimit →
        ∀ inputs later, exec returned client' inputs = some later → ∀ input,
          later.invoke input = (later, some (.ok (.error (.unavailable later.workerPid))))) ∧
      ∃ ended, client.conclude ending = .ok ended ∧ ended.GivenBack) ↔
    ∀ waited, ending = .shutdown waited → client.child = true := by
  have hidle := idle_of_exec hrun
  rw [← hidle.conclude_iff ending]
  constructor
  · rintro ⟨-, -, hended⟩
    exact hended
  · intro hended
    refine ⟨fun input client' ended hinvoke => (hidle.invoke input hinvoke).1, ?_, hended⟩
    intro input client' error hinvoke hlimit inputs later hlater later_input
    have hdead := hidle.dead_of_failed hinvoke hlimit
    rw [hdead.exec hlater]
    exact hdead.invoke later_input

/-- An invocation whose first write fails, by a script of any kind. -/
def brokenPipe : InvokeInput where
  assignment := ⟨⟨"i", .eval, ⟨1, 16, 1000⟩⟩, 1000, 7, fun _ => none⟩
  polled := .ok none
  waited := .ok ⟨some 1⟩
  written := .error (.transport "failed to write to worker: broken pipe")
  rounds := []

/-- An invocation that is answered with a result in its first round. -/
def answeredRound : InvokeInput :=
  { brokenPipe with
    written := .ok ()
    rounds := [.received (.frame (resultFrame "persistent-1-i" ⟨"i", .success, none, "1"⟩))
      ⟨0, ⟨true, none, none⟩, 0, .ok ()⟩ (.ok ⟨some 0⟩)] }

/-- One invocation is answered, the next one fails, and the client is dropped. -/
theorem lifecycle_total_iff_dropped :
    ∃ client, exec returned (spawned 7) [answeredRound, brokenPipe] = some client ∧
      client.child = false ∧ client.invocationCount = 2 ∧
      ∃ ended, client.conclude .drop = .ok ended ∧ ended.GivenBack := by
  refine ⟨_, rfl, rfl, rfl, ?_⟩
  exact ((lifecycle_total_iff 7 [answeredRound, brokenPipe] .drop rfl).2
    fun _ hdrop => by injection hdrop).2.2

/-- After a write that failed, the shutdown that is required panics. -/
theorem shutdown_after_failure_panics :
    ∃ client, exec returned (spawned 7) [brokenPipe] = some client ∧
      client.conclude (.shutdown (.ok ⟨some 1⟩)) =
        .error ⟨"persistent worker wait requires a child"⟩ :=
  ⟨_, rfl, rfl⟩

end PersistentWorkerClient

end Agenterm.Worker
