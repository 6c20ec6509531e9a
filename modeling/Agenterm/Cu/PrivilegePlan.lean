import Agenterm.Cu.Common
import Agenterm.Lib.BreadthFirst
import Agenterm.Processes

/-!
# Plans of privileged operations

`privilege_plan.rs` of `agenterm-cu`: plans to change the priority of a process and to signal a
process or its tree, with what is observed for them, and their validation. The platform is what it
answers to each read; the digest of a JSON document is a parameter with values in `δ`.
-/

namespace Agenterm.Cu.Privilege

open Lib.BreadthFirst (Found)

def MIN_PLAN_TTL_SECONDS : Nat := 1
def MAX_PLAN_TTL_SECONDS : Nat := 600
def PROCESS_SIGNAL_TIMEOUT_MS_MAX : Nat := 60000
def PROCESS_SIGNAL_TREE_MAX_DESCENDANTS : Nat := 128
def PROCESS_SIGNAL_SNAPSHOT_ATTEMPTS : Nat := 6

inductive PrivilegeOperation where
  | processSetPriority
  | processSignal
deriving DecidableEq

def PrivilegeOperation.json : PrivilegeOperation → Value
  | .processSetPriority => .string "process.set-priority"
  | .processSignal => .string "process.signal"

/-- A process by its id and the identity of its start. The plans for the priority and for signals
have a type of this form each. -/
structure ProcessTarget where
  pid : Nat
  startIdentity : String
deriving DecidableEq

def ProcessTarget.json (t : ProcessTarget) : Value :=
  .object [("pid", .nat t.pid), ("start_identity", .string t.startIdentity)]

structure ProcessPriorityState where
  nice : Int
deriving DecidableEq

def ProcessPriorityState.json (s : ProcessPriorityState) : Value :=
  .object [("nice", .number s.nice)]

structure ProcessPriorityPlan (δ : Type) where
  schemaVersion : Nat
  operation : PrivilegeOperation
  target : ProcessTarget
  before : ProcessPriorityState
  after : ProcessPriorityState
  issuedAtUtcMs : Nat
  expiresAtUtcMs : Nat
  contractDigest : δ
  approvalDigest : δ
  mutationPerformed : Bool
deriving DecidableEq

inductive ProcessSignalScope where
  | single
  | tree
deriving DecidableEq

def ProcessSignalScope.json : ProcessSignalScope → Value
  | .single => .string "single"
  | .tree => .string "tree"

inductive ProcessSignalKind where
  | hangup
  | interrupt
  | terminate
  | kill
  | stop
  | continue
  | user1
  | user2
deriving DecidableEq

def ProcessSignalKind.json : ProcessSignalKind → Value
  | .hangup => .string "SIGHUP"
  | .interrupt => .string "SIGINT"
  | .terminate => .string "SIGTERM"
  | .kill => .string "SIGKILL"
  | .stop => .string "SIGSTOP"
  | .continue => .string "SIGCONT"
  | .user1 => .string "SIGUSR1"
  | .user2 => .string "SIGUSR2"

structure ProcessSignalBeforeState where
  stopped : Bool
deriving DecidableEq

def ProcessSignalBeforeState.json (s : ProcessSignalBeforeState) : Value :=
  .object [("stopped", .bool s.stopped)]

/-- One exact member of the frozen scope. -/
structure ProcessSignalMember where
  pid : Nat
  depth : Nat
  /-- The root has no parent in the tree. -/
  parentPid : Option Nat
  startIdentity : String
  before : ProcessSignalBeforeState
deriving DecidableEq

def ProcessSignalMember.json (m : ProcessSignalMember) : Value :=
  .object [("pid", .nat m.pid), ("depth", .nat m.depth),
    ("parent_pid", .option .nat m.parentPid), ("start_identity", .string m.startIdentity),
    ("before", m.before.json)]

structure ProcessSignalPlan (δ : Type) where
  schemaVersion : Nat
  operation : PrivilegeOperation
  target : ProcessTarget
  scope : ProcessSignalScope
  signal : ProcessSignalKind
  force : Bool
  timeoutMs : Nat
  maxDescendants : Nat
  members : List ProcessSignalMember
  issuedAtUtcMs : Nat
  expiresAtUtcMs : Nat
  contractDigest : δ
  approvalDigest : δ
  consentRequested : Bool
  mutationPerformed : Bool
deriving DecidableEq

/-! ## The members of a signal -/

/-- One or more ASCII digits. -/
def decimal (value : List Char) : Bool := !value.isEmpty && value.all Char.isDigit

/-- What follows the front part of a text, if it begins with it. -/
def stripFront : List Char → List Char → Option (List Char)
  | [], rest => some rest
  | c :: front, d :: rest => if c = d then stripFront front rest else none
  | _ :: _, [] => none

/-- Seconds and microseconds, with a point between them. -/
def validMacosTime (value : List Char) : Bool :=
  let seconds := value.takeWhile (· ≠ '.')
  match value.dropWhile (· ≠ '.') with
  | [] => false
  | _ :: micros => decimal seconds && decimal micros

def validProcessStartIdentity (value : String) : Bool :=
  match stripFront "proc-start-ticks:".toList value.toList with
  | some rest => decimal rest
  | none =>
    match stripFront "windows-filetime:".toList value.toList with
    | some rest => decimal rest
    | none =>
      match stripFront "macos-start-time:".toList value.toList with
      | some rest => validMacosTime rest
      | none => false

/-- `depth + 1` of a `u32`. With overflow checks it stops the program at the maximum (`none`),
without them it wraps. -/
def nextDepth (checks : Bool) (depth : Nat) : Option Nat :=
  if depth = u32Max then (if checks then none else some 0) else some (depth + 1)

/-- Whether a member is the parent, one level above; the members are tried in order. -/
def anyParent (checks : Bool) (parentPid depth : Nat) :
    List ProcessSignalMember → Option Bool
  | [] => some false
  | row :: rows =>
    if row.pid = parentPid then
      match nextDepth checks row.depth with
      | none => none
      | some next => if next = depth then some true else anyParent checks parentPid depth rows
    else
      anyParent checks parentPid depth rows

/-- `(depth, pid)` of one member comes before that of another. -/
def keyLt (a b : ProcessSignalMember) : Bool :=
  a.depth < b.depth || a.depth = b.depth && a.pid < b.pid

/-- What the loop checks of a member before its parent. -/
def memberFits (seen : List Nat) (previous : Option ProcessSignalMember)
    (member : ProcessSignalMember) : Bool :=
  !(member.pid ≤ 1 || !validProcessStartIdentity member.startIdentity ||
    seen.contains member.pid) &&
    previous.all fun previous => keyLt previous member

/-- The root has no parent, and every other member one a level above. -/
def parentFits (checks : Bool) (all : List ProcessSignalMember) (member : ProcessSignalMember) :
    Option Bool :=
  match member.depth, member.parentPid with
  | 0, none => some true
  | 0, some _ => some false
  | _ + 1, none => some false
  | depth + 1, some parentPid => anyParent checks parentPid (depth + 1) all

/-- The loop over the members, with the pids seen so far and the member before. -/
def validMembers (checks : Bool) (all : List ProcessSignalMember) :
    List Nat → Option ProcessSignalMember → List ProcessSignalMember → Option Bool
  | _, _, [] => some true
  | seen, previous, member :: rest =>
    if !memberFits seen previous member then some false
    else
      match parentFits checks all member with
      | some true => validMembers checks all (member.pid :: seen) (some member) rest
      | other => other

/-- `valid_signal_members`; `none` when the arithmetic stops the program. -/
def validSignalMembers {δ : Type} (checks : Bool) (plan : ProcessSignalPlan δ) : Option Bool :=
  if plan.members.isEmpty ||
      plan.members.length > min (plan.maxDescendants + 1) u32Max then
    some false
  else if plan.scope = .single && plan.members.length ≠ 1 then
    some false
  else
    match validMembers checks plan.members [] none plan.members with
    | some true =>
      match plan.members with
      | [] => some false
      | root :: _ =>
        some (root.depth = 0 && root.pid = plan.target.pid &&
          root.startIdentity = plan.target.startIdentity &&
          (plan.members.filter fun member => member.depth = 0).length = 1)
    | other => other

/-! ## The tree of a process -/

/-- The ids of the processes whose parent is `parent`, in order. -/
def childIds (rows : List ProcessRow) (parent : Nat) : List Nat :=
  ((rows.filter fun row => row.parentId = parent).map ProcessRow.id).insertionSort (· ≤ ·)

/-- `signal_tree_ids`: ids with their depths and parents, breadth first. `none` does not occur
(`signalTreeIds_isSome`). -/
def signalTreeIds (inventory : Except String (List ProcessRow)) (rootPid maxDescendants : Nat) :
    Option (Except CuError (List (Found Nat))) :=
  match inventory with
  | .error _ =>
    some (.error ⟨"privilege_target_unavailable", "process tree inventory failed"⟩)
  | .ok rows =>
    if !rows.any fun row => row.id = rootPid then
      some (.error ⟨"privilege_target_not_found",
        "the exact root is absent from the process inventory"⟩)
    else
      match Lib.BreadthFirst.search (childIds rows) maxDescendants rows.length
          (Lib.BreadthFirst.start rootPid) with
      | .found ids => some (.ok ids)
      | .tooLarge => some (.error ⟨"privilege_target_too_large",
          s!"process signal tree exceeds {maxDescendants} descendants"⟩)
      | .unfinished => none

/-! ## Observations -/

/-- What the platform says of a process id. -/
inductive ProcessObservation where
  | live (startIdentity : Option String)
  | dead
  | unknown
deriving DecidableEq

inductive ProcessMetricsErrorKind where
  | invalidId
  | notFound
  | unsupported
  /-- Any other kind. -/
  | unavailable
deriving DecidableEq

def liveStartIdentity : ProcessObservation → Except CuError String
  | .live (some identity) => .ok identity
  | .live none => .error ⟨"privilege_target_identity_unavailable",
      "process is live but its stable start identity is unavailable"⟩
  | .dead => .error ⟨"privilege_target_not_found", "process is not live"⟩
  | .unknown => .error ⟨"privilege_target_unavailable", "process identity could not be observed"⟩

/-- A metric of a process, with the error of a failed read. -/
def readMetric {α : Type} (message : String) (read : Except ProcessMetricsErrorKind α) :
    Except CuError α :=
  match read with
  | .ok value => .ok value
  | .error kind =>
    let code := match kind with
      | .invalidId => "privilege_target_invalid"
      | .notFound => "privilege_target_not_found"
      | .unsupported => "privilege_operation_unsupported"
      | .unavailable => "privilege_target_unavailable"
    .error ⟨code, message⟩

def readNice (read : Except ProcessMetricsErrorKind Int) : Except CuError Int :=
  readMetric "process priority could not be observed" read

def readStopped (read : Except ProcessMetricsErrorKind Bool) : Except CuError Bool :=
  readMetric "process scheduler state could not be observed" read

/-- What the reads of a member come to, in their order. -/
structure MemberReads where
  beforeIdentity : ProcessObservation
  beforeStopped : Except ProcessMetricsErrorKind Bool
  afterStopped : Except ProcessMetricsErrorKind Bool
  afterIdentity : ProcessObservation

def observeSignalMember (reads : MemberReads) (pid depth : Nat) (parentPid : Option Nat) :
    Except CuError ProcessSignalMember := do
  let beforeIdentity ← liveStartIdentity reads.beforeIdentity
  let beforeStopped ← readStopped reads.beforeStopped
  let afterStopped ← readStopped reads.afterStopped
  let afterIdentity ← liveStartIdentity reads.afterIdentity
  if beforeIdentity ≠ afterIdentity ∨ beforeStopped ≠ afterStopped then
    .error ⟨"privilege_target_changed",
      s!"process {pid} changed while its signal precondition was observed"⟩
  else
    .ok {
      pid
      depth
      parentPid
      startIdentity := beforeIdentity
      before := ⟨beforeStopped⟩ }

/-- What the platform answers during one observation of the members. -/
structure Snapshot where
  inventory : Except String (List ProcessRow)
  reads : Nat → MemberReads

/-- Members by depth and pid. -/
def sortMembers (members : List ProcessSignalMember) : List ProcessSignalMember :=
  members.insertionSort fun a b => keyLt b a = false

/-- The ids in the scope of a signal. -/
def scopeIds (snapshot : Snapshot) (rootPid : Nat) (scope : ProcessSignalScope)
    (maxDescendants : Nat) : Option (Except CuError (List (Found Nat))) :=
  match scope with
  | .single => some (.ok [Lib.BreadthFirst.rootEntry rootPid])
  | .tree => signalTreeIds snapshot.inventory rootPid maxDescendants

def observeIds (snapshot : Snapshot) (ids : List (Found Nat)) :
    Except CuError (List ProcessSignalMember) := do
  let members ← ids.mapM fun entry =>
    observeSignalMember (snapshot.reads entry.node) entry.node entry.depth entry.parent
  .ok (sortMembers members)

def observeSignalMembersOnce (snapshot : Snapshot) (rootPid : Nat) (scope : ProcessSignalScope)
    (maxDescendants : Nat) : Option (Except CuError (List ProcessSignalMember)) :=
  (scopeIds snapshot rootPid scope maxDescendants).map fun ids =>
    ids.bind (observeIds snapshot)

/-- Observes until two observations in a row are equal. -/
def observeAttempts (snapshots : Nat → Snapshot) (rootPid : Nat) (scope : ProcessSignalScope)
    (maxDescendants : Nat) : Nat → Nat → Option (List ProcessSignalMember) →
    Option (Except CuError (List ProcessSignalMember))
  | 0, _, _ => some (.error ⟨"privilege_target_changed",
      "process signal scope did not produce two equal bounded observations"⟩)
  | left + 1, attempt, previous =>
    match observeSignalMembersOnce (snapshots attempt) rootPid scope maxDescendants with
    | none => none
    | some (.error error) => some (.error error)
    | some (.ok current) =>
      if previous = some current then some (.ok current)
      else observeAttempts snapshots rootPid scope maxDescendants left (attempt + 1) (some current)

def observeStableSignalMembers (snapshots : Nat → Snapshot) (rootPid : Nat)
    (scope : ProcessSignalScope) (maxDescendants : Nat) :
    Option (Except CuError (List ProcessSignalMember)) :=
  observeAttempts snapshots rootPid scope maxDescendants PROCESS_SIGNAL_SNAPSHOT_ATTEMPTS 0 none

/-! ## Plans -/

/-- `plan_expiry`. -/
def planExpiry (nowUtcMs ttlSeconds : Nat) : Except CuError Nat :=
  if ttlSeconds * 1000 > u64Max then
    .error ⟨"privilege_plan_ttl_invalid", "privilege plan TTL overflows"⟩
  else if nowUtcMs + ttlSeconds * 1000 > u64Max then
    .error ⟨"privilege_plan_clock_invalid", "privilege plan expiry overflows the host clock"⟩
  else
    .ok (nowUtcMs + ttlSeconds * 1000)

def ttlInvalid : CuError :=
  ⟨"privilege_plan_ttl_invalid",
    s!"privilege plan TTL must be in {MIN_PLAN_TTL_SECONDS}..={MAX_PLAN_TTL_SECONDS} seconds"⟩

/-- `validate_plan_lifetime`. -/
def validatePlanLifetime (issuedAtUtcMs expiresAtUtcMs nowUtcMs : Nat) : Except CuError Unit :=
  if expiresAtUtcMs < issuedAtUtcMs then
    .error ⟨"privilege_plan_invalid", "privilege plan expiry precedes its issue time"⟩
  else if expiresAtUtcMs - issuedAtUtcMs < MIN_PLAN_TTL_SECONDS * 1000 ∨
      expiresAtUtcMs - issuedAtUtcMs > MAX_PLAN_TTL_SECONDS * 1000 then
    .error ⟨"privilege_plan_invalid", "privilege plan lifetime is outside the bounded contract"⟩
  else if nowUtcMs < issuedAtUtcMs then
    .error ⟨"privilege_plan_not_yet_valid",
      "privilege plan issue time is later than the provider clock"⟩
  else if nowUtcMs > expiresAtUtcMs then
    .error ⟨"privilege_plan_expired", "privilege plan expired before provider reservation"⟩
  else
    .ok ()

/-- The approval projections of both plans: a contract with its times. -/
def approvalJson (contract : Value) (issuedAtUtcMs expiresAtUtcMs : Nat) : Value :=
  .object [("contract", contract), ("issued_at_utc_ms", .nat issuedAtUtcMs),
    ("expires_at_utc_ms", .nat expiresAtUtcMs)]

/-- `ContractProjection`. -/
def priorityContractJson (schemaVersion : Nat) (operation : PrivilegeOperation)
    (target : ProcessTarget) (before after : ProcessPriorityState) : Value :=
  .object [("schema_version", .nat schemaVersion), ("operation", operation.json),
    ("target", target.json), ("before", before.json), ("after", after.json)]

def niceInRange (nice : Int) : Bool := -20 ≤ nice && nice ≤ 20

/-- What the reads for a priority plan come to, in their order. -/
structure PriorityReads where
  beforeIdentity : ProcessObservation
  beforeNice : Except ProcessMetricsErrorKind Int
  afterNice : Except ProcessMetricsErrorKind Int
  afterIdentity : ProcessObservation

section
variable {δ : Type} [DecidableEq δ] (digestJson : Value → δ)

/-- The plan of what was observed, with its digests. -/
def priorityPlanOf (target : ProcessTarget) (before after : ProcessPriorityState)
    (issuedAtUtcMs expiresAtUtcMs : Nat) : ProcessPriorityPlan δ :=
  let contract := priorityContractJson 1 .processSetPriority target before after
  {
    schemaVersion := 1
    operation := .processSetPriority
    target
    before
    after
    issuedAtUtcMs
    expiresAtUtcMs
    contractDigest := digestJson contract
    approvalDigest := digestJson (approvalJson contract issuedAtUtcMs expiresAtUtcMs)
    mutationPerformed := false }

def processPriorityPlan (reads : PriorityReads) (pid : Nat) (desiredNice : Int)
    (ttlSeconds nowUtcMs : Nat) : Except CuError (ProcessPriorityPlan δ) :=
  if pid = 0 then
    .error ⟨"privilege_target_invalid", "process.set-priority pid must be greater than zero"⟩
  else if !niceInRange desiredNice then
    .error ⟨"privilege_parameter_invalid", "process.set-priority nice must be in -20..=20"⟩
  else if ttlSeconds < MIN_PLAN_TTL_SECONDS ∨ ttlSeconds > MAX_PLAN_TTL_SECONDS then
    .error ttlInvalid
  else do
    let expiresAtUtcMs ← planExpiry nowUtcMs ttlSeconds
    let beforeIdentity ← liveStartIdentity reads.beforeIdentity
    let beforeNice ← readNice reads.beforeNice
    let afterNice ← readNice reads.afterNice
    let afterIdentity ← liveStartIdentity reads.afterIdentity
    if beforeIdentity ≠ afterIdentity ∨ beforeNice ≠ afterNice then
      .error ⟨"privilege_target_changed",
        "process identity or priority changed while the plan was prepared"⟩
    else
      .ok (priorityPlanOf digestJson ⟨pid, beforeIdentity⟩ ⟨beforeNice⟩ ⟨desiredNice⟩ nowUtcMs
        expiresAtUtcMs)

def ProcessPriorityPlan.contract (plan : ProcessPriorityPlan δ) : Value :=
  priorityContractJson plan.schemaVersion plan.operation plan.target plan.before plan.after

def digestMismatch : CuError :=
  ⟨"privilege_plan_digest_mismatch", "privilege plan content does not match its canonical digests"⟩

def validateProcessPriorityPlan (plan : ProcessPriorityPlan δ) (nowUtcMs : Nat) :
    Except CuError Unit :=
  if plan.schemaVersion ≠ 1 ∨ plan.operation ≠ .processSetPriority ∨ plan.target.pid ≤ 1 ∨
      !niceInRange plan.before.nice ∨ !niceInRange plan.after.nice ∨
      !validProcessStartIdentity plan.target.startIdentity ∨ plan.mutationPerformed then
    .error ⟨"privilege_plan_invalid", "privilege plan has an invalid closed shape"⟩
  else do
    validatePlanLifetime plan.issuedAtUtcMs plan.expiresAtUtcMs nowUtcMs
    if digestJson plan.contract ≠ plan.contractDigest ∨
        digestJson (approvalJson plan.contract plan.issuedAtUtcMs plan.expiresAtUtcMs) ≠
          plan.approvalDigest then
      .error digestMismatch
    else
      .ok ()

/-! ## Plans of a signal -/

/-- `signal_contract_projection`. -/
def signalContractProjection (plan : ProcessSignalPlan δ) : Value :=
  .object [("schema_version", .nat plan.schemaVersion), ("operation", plan.operation.json),
    ("target", plan.target.json), ("scope", plan.scope.json), ("signal", plan.signal.json),
    ("force", .bool plan.force), ("timeout_ms", .nat plan.timeoutMs),
    ("max_descendants", .nat plan.maxDescendants),
    ("members", .array (plan.members.map ProcessSignalMember.json))]

def validateProcessSignalInputs (pid : Nat) (signal : ProcessSignalKind) (force : Bool)
    (timeoutMs maxDescendants ttlSeconds : Nat) : Except CuError Unit :=
  if pid ≤ 1 then
    .error ⟨"privilege_target_invalid", "process.signal pid must be greater than one"⟩
  else if decide (signal = .kill) ≠ force then
    .error ⟨"privilege_parameter_invalid", "process.signal requires force exactly for SIGKILL"⟩
  else if timeoutMs < 1 ∨ timeoutMs > PROCESS_SIGNAL_TIMEOUT_MS_MAX then
    .error ⟨"privilege_parameter_invalid",
      s!"process.signal timeout_ms must be in 1..={PROCESS_SIGNAL_TIMEOUT_MS_MAX}"⟩
  else if maxDescendants < 1 ∨ maxDescendants > PROCESS_SIGNAL_TREE_MAX_DESCENDANTS then
    .error ⟨"privilege_parameter_invalid",
      s!"process.signal max_descendants must be in 1..={PROCESS_SIGNAL_TREE_MAX_DESCENDANTS}"⟩
  else if ttlSeconds < MIN_PLAN_TTL_SECONDS ∨ ttlSeconds > MAX_PLAN_TTL_SECONDS then
    .error ttlInvalid
  else
    .ok ()

/-- The plan without its digests. -/
def signalPlanFrame (digest : δ) (signal : ProcessSignalKind) (force : Bool)
    (timeoutMs maxDescendants : Nat) (scope : ProcessSignalScope) (root : ProcessSignalMember)
    (members : List ProcessSignalMember) (issuedAtUtcMs expiresAtUtcMs : Nat) :
    ProcessSignalPlan δ where
  schemaVersion := 1
  operation := .processSignal
  target := ⟨root.pid, root.startIdentity⟩
  scope
  signal
  force
  timeoutMs
  maxDescendants
  members
  issuedAtUtcMs
  expiresAtUtcMs
  contractDigest := digest
  approvalDigest := digest
  consentRequested := false
  mutationPerformed := false

/-- `build_process_signal_plan`; `none` when the check of the members stops the program. The
digests are `empty` before they are computed. -/
def buildProcessSignalPlan (checks : Bool) (empty : δ) (signal : ProcessSignalKind) (force : Bool)
    (timeoutMs maxDescendants : Nat) (scope : ProcessSignalScope)
    (members : List ProcessSignalMember) (issuedAtUtcMs expiresAtUtcMs : Nat) :
    Option (Except CuError (ProcessSignalPlan δ)) :=
  match members.find? fun member => member.depth = 0 with
  | none => some (.error ⟨"privilege_target_unavailable",
      "process signal plan has no exact root observation"⟩)
  | some root =>
    let plan := signalPlanFrame empty signal force timeoutMs maxDescendants scope root members
      issuedAtUtcMs expiresAtUtcMs
    (validSignalMembers checks plan).map fun valid =>
      if !valid then
        .error ⟨"privilege_target_changed",
          "process signal membership was not a complete bounded tree"⟩
      else
        let contract := signalContractProjection plan
        .ok { plan with
          contractDigest := digestJson contract
          approvalDigest := digestJson (approvalJson contract issuedAtUtcMs expiresAtUtcMs) }

/-- `process_signal_plan`. -/
def processSignalPlan (checks : Bool) (empty : δ) (snapshots : Nat → Snapshot) (pid : Nat)
    (signal : ProcessSignalKind) (force tree : Bool) (timeoutMs maxDescendants ttlSeconds : Nat)
    (nowUtcMs : Nat) : Option (Except CuError (ProcessSignalPlan δ)) :=
  match validateProcessSignalInputs pid signal force timeoutMs maxDescendants ttlSeconds with
  | .error error => some (.error error)
  | .ok () =>
    match planExpiry nowUtcMs ttlSeconds with
    | .error error => some (.error error)
    | .ok expiresAtUtcMs =>
      let scope := if tree then .tree else .single
      match observeStableSignalMembers snapshots pid scope maxDescendants with
      | none => none
      | some (.error error) => some (.error error)
      | some (.ok members) =>
        buildProcessSignalPlan digestJson checks empty signal force timeoutMs maxDescendants scope
          members nowUtcMs expiresAtUtcMs

/-- `validate_process_signal_plan`; `none` when the check of the members stops the program. -/
def validateProcessSignalPlan (checks : Bool) (plan : ProcessSignalPlan δ) (nowUtcMs : Nat) :
    Option (Except CuError Unit) :=
  let invalid : CuError :=
    ⟨"privilege_plan_invalid", "process signal plan has an invalid closed shape"⟩
  if plan.schemaVersion ≠ 1 ∨ plan.operation ≠ .processSignal ∨ plan.target.pid ≤ 1 ∨
      plan.target.startIdentity.isEmpty ∨ plan.target.startIdentity.utf8ByteSize > 256 ∨
      plan.timeoutMs = 0 ∨ plan.timeoutMs > PROCESS_SIGNAL_TIMEOUT_MS_MAX ∨
      plan.maxDescendants < 1 ∨ plan.maxDescendants > PROCESS_SIGNAL_TREE_MAX_DESCENDANTS ∨
      decide (plan.signal = .kill) ≠ plan.force ∨ plan.consentRequested ∨
      plan.mutationPerformed then
    some (.error invalid)
  else
    (validSignalMembers checks plan).map fun valid =>
      if !valid then
        .error invalid
      else do
        validatePlanLifetime plan.issuedAtUtcMs plan.expiresAtUtcMs nowUtcMs
        let contract := signalContractProjection plan
        if digestJson contract ≠ plan.contractDigest ∨
            digestJson (approvalJson contract plan.issuedAtUtcMs plan.expiresAtUtcMs) ≠
              plan.approvalDigest then
          .error digestMismatch
        else
          .ok ()

end

end Agenterm.Cu.Privilege
