import Agenterm.Cu.JobOutput
import Agenterm.Cu.ManagedJobStore

/-!
# The resident owner of a managed job

`stop_with`, `stop_and_release`, `try_finish` and `poll_process_lifecycle` of
`managed_job_owner.rs`: an owner ends its job by at most one report, once the store has taken the
terminal state. The platform decides what becomes of the process: what a call meets on its way is
in its `Circumstances`, and the process remembers what ended it.
-/

namespace Agenterm.Cu.ManagedJobs

/-! ## Processes -/

/-- `ProcessExit` of the platform. -/
inductive ProcessExit where
  | code (code : Int32)
  | signal (signal : Int)
  | unavailable
deriving DecidableEq

/-- The process of a job. What has ended it is the trigger of the termination by the owner that it
fell to, and nothing if it ended without one. -/
inductive Process where
  /-- A process that may have been signalled by the owner, and is still there. -/
  | running (signalled : Option ManagedJobTerminalTrigger)
  | ended (exit : ProcessExit) (cause : Option ManagedJobTerminalTrigger)
deriving DecidableEq

/-- What a termination does to a process that is there: closing its stdin or the native call may end
it, now or later. -/
inductive Fate where
  | unharmed
  | signalled
  | ends (exit : ProcessExit)
deriving DecidableEq

/-- A process that is terminated falls to the first termination that has an effect. -/
def Process.terminate (trigger : ManagedJobTerminalTrigger) (fate : Fate) : Process → Process
  | .running signalled =>
    match fate with
    | .unharmed => .running signalled
    | .signalled => .running (some (signalled.getD trigger))
    | .ends exit => .ended exit (some (signalled.getD trigger))
  | .ended exit cause => .ended exit cause

/-- A process ends between two calls: by itself, or by a signal that it was sent. -/
def Process.exit (exit : ProcessExit) : Process → Process
  | .running signalled => .ended exit signalled
  | .ended exit cause => .ended exit cause

/-! ## Owners -/

inductive ManagedJobTerminal where
  | exited (code : Int32)
  | signaled (signal : UInt16)
  | detached
deriving DecidableEq

def terminalFromExit : ProcessExit → Except String ManagedJobTerminal
  | .code code => .ok (.exited code)
  | .signal signal =>
    if 0 ≤ signal ∧ signal < 2 ^ 16 then .ok (.signaled (UInt16.ofNat signal.toNat))
    else .error "managed_job_process_state_unknown"
  | .unavailable => .error "managed_job_process_state_unknown"

structure OutputSnapshot where
  earliestCursor : Nat
  currentCursor : Nat
  retained : List UInt8
  finalized : Bool
  readError : Option String
deriving DecidableEq

def snapshot (ring : CursorRing) : OutputSnapshot where
  earliestCursor := ring.earliestCursor
  currentCursor := ring.currentCursor
  retained := ring.bytes
  finalized := ring.finalized
  readError := ring.readError

structure ManagedJobRunReport where
  terminal : ManagedJobTerminal
  stdout : OutputSnapshot
  stderr : OutputSnapshot
deriving DecidableEq

/-- What an owner is started with. -/
structure JobLaunch where
  handle : ManagedJobHandle
  owner : ResidentOwnerIdentity
  process : ExactProcessIdentity
  adopted : Bool
  onExpiry : ManagedJobOnExpiry
  /-- Only a process that was adopted may be let go. -/
  policy_allowed : adopted = false → onExpiry = .stop

structure ResidentJobOwner where
  /-- The contained child, or the group that was adopted, is held. -/
  held : Bool
  stdinOpen : Bool
  stdout : CursorRing
  stderr : CursorRing
  finished : Bool
  terminalReport : Option ManagedJobRunReport
  leaseDeadline : Nat
deriving DecidableEq

/-- An owner with its process and the file of the store. -/
structure JobWorld where
  job : ResidentJobOwner
  process : Process
  file : Option Document

/-- What a call of the owner meets on its way. -/
structure Circumstances where
  instant : Nat
  /-- The first look at the process tells whether it is there. -/
  observed : Bool
  fate : Fate
  /-- The termination of an adopted group reports no error. -/
  terminated : Bool
  /-- The look at the process after its termination tells whether it is there. -/
  confirmed : Bool
  /-- What is made out about a process that is let go. -/
  liveness : ManagedJobDetachLiveness
  /-- The containment is closed behind a process that has ended. -/
  cleaned : Bool
  /-- The output when the drains have settled, or the wait for them has ended. -/
  stdout : CursorRing
  stderr : CursorRing
  /-- `now_utc_ms()`, when the clock can be read. -/
  now : Option I64
  io : Lib.StoreIo

section
variable (launch : JobLaunch) (met : Circumstances)

/-- A terminal state is published, and the owner keeps its report. -/
def JobWorld.publish (world : JobWorld) (terminal : ManagedJobTerminal) (failure : String)
    (call : I64 → Call) : Except String ManagedJobRunReport × JobWorld :=
  match met.now with
  | none => (.error "managed_job_clock_invalid", world)
  | some now =>
    let (answer, file) := perform met.io world.file (call now)
    match answer with
    | .error _ => (.error failure, { world with file })
    | .ok _ =>
      let report : ManagedJobRunReport :=
        { terminal, stdout := snapshot world.job.stdout, stderr := snapshot world.job.stderr }
      (.ok report,
        { world with
          file
          job :=
            { world.job with held := false, finished := true, terminalReport := some report } })

/-- `settle_drains`. -/
def JobWorld.settleDrains (world : JobWorld) : Except String Unit × JobWorld :=
  (if met.stdout.finalized && met.stderr.finalized then .ok ()
    else .error "managed_job_output_completion_unknown",
    { world with job := { world.job with stdout := met.stdout, stderr := met.stderr } })

/-- `finish_after_exit`. -/
def JobWorld.finishAfterExit (world : JobWorld) (exit : ProcessExit)
    (trigger : ManagedJobTerminalTrigger) : Except String ManagedJobRunReport × JobWorld :=
  let world := { world with job := { world.job with stdinOpen := false } }
  if !met.cleaned then
    (.error "managed_job_cleanup_unknown", world)
  else
    match world.settleDrains met with
    | (.error error, world) => (.error error, world)
    | (.ok (), world) =>
      match terminalFromExit exit with
      | .error error => (.error error, world)
      | .ok (.exited exitCode) =>
        world.publish met (.exited exitCode) "managed_job_terminal_publish_failed"
          (.markExited launch.handle launch.owner launch.process exitCode trigger)
      | .ok (.signaled signal) =>
        world.publish met (.signaled signal) "managed_job_terminal_publish_failed"
          (.markSignaled launch.handle launch.owner launch.process signal trigger)
      | .ok .detached => (.error "managed_job_process_state_unknown", world)

/-- `finish_adopted_detached`. -/
def JobWorld.finishAdoptedDetached (world : JobWorld) (trigger : ManagedJobTerminalTrigger) :
    Except String ManagedJobRunReport × JobWorld :=
  world.publish met .detached "managed_job_terminal_publish_failed"
    (.markDetached launch.handle launch.owner launch.process met.liveness trigger)

/-- `try_finish`. -/
def JobWorld.tryFinish (world : JobWorld) :
    Except String (Option ManagedJobRunReport) × JobWorld :=
  match world.job.terminalReport with
  | some report => (.ok (some report), world)
  | none =>
    if launch.adopted then
      if !met.observed then
        (.error "managed_job_process_state_unknown", world)
      else
        match world.process with
        | .running _ => (.ok none, world)
        | .ended _ _ =>
          let (finished, world) := world.finishAdoptedDetached launch met .rootExit
          (finished.map some, world)
    else if !world.job.held then
      (.error "managed_job_owner_finished", world)
    else if !met.observed then
      (.error "managed_job_process_state_unknown", world)
    else
      match world.process with
      | .running _ => (.ok none, world)
      | .ended exit _ =>
        let (finished, world) := world.finishAfterExit launch met exit .rootExit
        (finished.map some, world)

/-- `stop_adopted`. -/
def JobWorld.stopAdopted (world : JobWorld) (trigger : ManagedJobTerminalTrigger) :
    Except String ManagedJobRunReport × JobWorld :=
  if !world.job.held then
    (.error "managed_job_process_state_unknown", world)
  else
    let world := { world with process := world.process.terminate trigger met.fate }
    if !met.terminated then
      (.error "managed_job_outcome_unknown", world)
    else
      match met.confirmed, world.process with
      | true, .ended _ _ =>
        world.publish met (.signaled 9) "managed_job_outcome_unknown"
          (.markSignaled launch.handle launch.owner launch.process 9 trigger)
      | _, _ => (.error "managed_job_outcome_unknown", world)

/-- `stop_with`, behind its first look at the process. -/
def JobWorld.terminateJob (world : JobWorld) (trigger : ManagedJobTerminalTrigger) :
    Except String ManagedJobRunReport × JobWorld :=
  if launch.adopted then
    world.stopAdopted launch met trigger
  else if !world.job.held then
    (.error "managed_job_process_state_unknown",
      { world with job := { world.job with stdinOpen := false } })
  else
    -- the outcome of the native termination is not looked at, only the process is
    let world := { world with
      job := { world.job with stdinOpen := false }
      process := world.process.terminate trigger met.fate }
    match met.confirmed, world.process with
    | true, .ended exit _ => world.finishAfterExit launch met exit trigger
    | _, _ => (.error "managed_job_process_state_unknown", world)

/-- `stop_with`. -/
def JobWorld.stopWith (world : JobWorld) (trigger : ManagedJobTerminalTrigger) :
    Except String ManagedJobRunReport × JobWorld :=
  match world.tryFinish launch met with
  | (.error error, world) => (.error error, world)
  | (.ok (some report), world) => (.ok report, world)
  | (.ok none, world) => world.terminateJob launch met trigger

/-- `stop_and_release`, before it revokes the lease. -/
def JobWorld.endSession (world : JobWorld) : Except String ManagedJobRunReport × JobWorld :=
  if launch.onExpiry = .detach then
    match world.tryFinish launch met with
    | (.error error, world) => (.error error, world)
    | (.ok (some report), world) => (.ok report, world)
    | (.ok none, world) => world.finishAdoptedDetached launch met .sessionEnd
  else
    world.stopWith launch met .sessionEnd

/-- `stop_and_release`. -/
def JobWorld.stopAndRelease (world : JobWorld) : Except String ManagedJobRunReport × JobWorld :=
  match world.endSession launch met with
  | (.error error, world) => (.error error, world)
  | (.ok report, world) =>
    (.ok report, { world with job := { world.job with leaseDeadline := met.instant } })

/-- `poll_process_lifecycle`. -/
def JobWorld.pollProcessLifecycle (world : JobWorld) : Except String Unit × JobWorld :=
  if world.job.finished then
    (.ok (), world)
  else if met.instant ≥ world.job.leaseDeadline then
    if launch.onExpiry = .detach then
      let (finished, world) := world.finishAdoptedDetached launch met .leaseExpiry
      (finished.map fun _ => (), world)
    else
      let (stopped, world) := world.stopWith launch met .leaseExpiry
      (stopped.map fun _ => (), world)
  else
    let (finished, world) := world.tryFinish launch met
    (finished.map fun _ => (), world)

end

/-! ## Runs -/

/-- The call is made in the name of an owner. -/
def Call.actsFor (owner : ResidentOwnerIdentity) : Call → Bool
  | .claimStarting _ named _ => named = owner
  | .markRunning _ named _ _ => named = owner
  | .markStartFailed _ named _ _ => named = owner
  | .markExited _ named _ _ _ _ => named = owner
  | .markSignaled _ named _ _ _ _ => named = owner
  | .markDetached _ named _ _ _ _ => named = owner
  | .reserveStart _ _ _ _ _ _ | .markUnclaimedStartFailed _ _ _ | .reconcileOwner _ _ _ => false

def Access.actsFor (owner : ResidentOwnerIdentity) : Access → Bool
  | .call request => request.actsFor owner
  | .prune _ _ _ _ | .get _ | .list | .refreshBlockers => false

/-- An access by another process than the owner. -/
structure OthersAccess (owner : ResidentOwnerIdentity) where
  access : Access
  others : access.actsFor owner = false

inductive JobEvent (owner : ResidentOwnerIdentity) where
  /-- The process ends, if it is still there. -/
  | exit (exit : ProcessExit)
  /-- A call that polls first: a status, a wait, a write, a snapshot of the resources. -/
  | poll (met : Circumstances)
  /-- `stop`: a request, or a resource policy that terminates the job. -/
  | stop (met : Circumstances)
  | stopAndRelease (met : Circumstances)
  /-- The deadline that a renewal has set after its poll. -/
  | renewed (leaseDeadline : Nat)
  /-- Bytes that a drain has kept since. -/
  | output (stdout stderr : CursorRing)
  /-- Another process accesses the store. -/
  | access (io : Lib.StoreIo) (others : OthersAccess owner)

def JobWorld.step (launch : JobLaunch) (world : JobWorld) : JobEvent launch.owner → JobWorld
  | .exit exit => { world with process := world.process.exit exit }
  | .poll met => (world.pollProcessLifecycle launch met).2
  | .stop met => (world.stopWith launch met .explicitStop).2
  | .stopAndRelease met => (world.stopAndRelease launch met).2
  | .renewed leaseDeadline => { world with job := { world.job with leaseDeadline } }
  | .output stdout stderr => { world with job := { world.job with stdout, stderr } }
  | .access io others => { world with file := (access io world.file others.access).2 }

end Agenterm.Cu.ManagedJobs
