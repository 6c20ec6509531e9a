import Agenterm.Cu.SshTransport
import Mathlib.Data.Finset.Insert
import Mathlib.Logic.Function.Basic

/-!
# The wrapper around the compiler

`incremental_wrapper.rs`: every compiler that Cargo starts runs in a wrapper, which first notes the
incremental root of the compiler in a shared state directory, behind a lock. The finalization reads
what the wrappers noted. The identities of the roots (digests of their metadata) and the paths of the
platform are arguments.
-/

namespace Agenterm.Incremental

open Cu (OsText)

def INCREMENTAL_IDENTITY_ALGORITHM : String := "full-tree-metadata-v1"

structure RootSnapshot where
  name : String
  identity : String
deriving DecidableEq

structure BeforeSnapshot where
  schemaVersion : Nat
  kind : String
  invocationId : String
  target : String
  incrementalRoot : String
  identityAlgorithm : String
  snapshotComplete : Bool
  cargoLockObserved : Bool
  roots : List RootSnapshot
deriving DecidableEq

structure TouchState where
  schemaVersion : Nat
  kind : String
  invocationId : String
  complete : Bool
  rustcInvocations : Nat
  roots : Finset String
deriving DecidableEq

/-- What `incremental_wrapper_environment` gives to all wrappers of a build. -/
structure Config where
  invocation : String
  target : String
  incremental : String

/-! ## The arguments of the compiler -/

/-- The parts of a path that are looked at; `fileName` is there when it is UTF-8. -/
structure RootPath where
  parent : Option String
  fileName : Option String

/-- `to_string_lossy` of an argument, and `exact_absolute`. -/
structure Host where
  lossy : List UInt8 → String
  exactAbsolute : String → Except String RootPath

/-- `str::strip_prefix`. -/
def afterPrefix (front text : String) : Option String :=
  if front.toList <+: text.toList then some (String.ofList (text.toList.drop front.length))
  else none

/-- `OsStr::to_str`. -/
def toStr : OsText → Option String
  | .text text => some text
  | .other _ => none

/-- The loop of `incremental_argument`; a second root ends it. -/
def incrementalLoop (host : Host) :
    List OsText → Option (Except String RootPath) → Option (Except String RootPath)
  | [], found => found
  | argument :: rest, found =>
    if argument.display host.lossy = "-C" then
      match rest with
      | [] => found
      | value :: rest =>
        match (toStr value).bind (afterPrefix "incremental=") with
        | some root =>
          if found.isSome then some (.error "rustc invocation has multiple incremental roots")
          else incrementalLoop host rest (some (host.exactAbsolute root))
        | none => incrementalLoop host rest found
    else
      match afterPrefix "-Cincremental=" (argument.display host.lossy) with
      | some root =>
        if found.isSome then some (.error "rustc invocation has multiple incremental roots")
        else incrementalLoop host rest (some (host.exactAbsolute root))
      | none => incrementalLoop host rest found

def incrementalArgument (host : Host) (arguments : List OsText) :
    Option (Except String RootPath) :=
  incrementalLoop host arguments none

def isEmptyArgument (argument : OsText) : Bool := argument = .text "" || argument = .other []

def hasCrateName : List OsText → Bool
  | first :: second :: rest =>
    (first = .text "--crate-name" && !isEmptyArgument second) || hasCrateName (second :: rest)
  | _ => false

/-- The basename of the root that a compiler touches; `none` when there is nothing to note. -/
def touchedName (host : Host) (config : Config) (arguments : List OsText) :
    Except String (Option String) :=
  match incrementalArgument host arguments with
  | none => .ok none
  | some found =>
    if !hasCrateName arguments then
      .ok none
    else do
      let touchedPath ← found
      match touchedPath.fileName with
      | none => .error "incremental touched root has no UTF-8 basename"
      | some name =>
        if touchedPath.parent ≠ some config.incremental ∨ name = "" then
          .error "rustc incremental root is outside the exact incremental directory"
        else .ok (some name)

/-! ## The state files -/

/-- The state directory: `before.json`, `touch.json` and whether `invalid` is there. -/
structure Files where
  before : Option BeforeSnapshot
  touch : Option TouchState
  poison : Bool

/-- `before.json` as it is written when it is absent; the roots could not be read when there is no
snapshot of them. -/
def beforeSnapshot (config : Config) (cargoLockObserved : Bool)
    (snapshot : Option (List RootSnapshot)) : BeforeSnapshot where
  schemaVersion := 1
  kind := "agenterm-incremental-before-snapshot"
  invocationId := config.invocation
  target := config.target
  incrementalRoot := config.incremental
  identityAlgorithm := INCREMENTAL_IDENTITY_ALGORITHM
  snapshotComplete := cargoLockObserved && snapshot.isSome
  cargoLockObserved := cargoLockObserved
  roots := snapshot.getD []

def freshTouch (config : Config) : TouchState where
  schemaVersion := 1
  kind := "agenterm-incremental-touch-state"
  invocationId := config.invocation
  complete := true
  rustcInvocations := 0
  roots := ∅

def validTouch (config : Config) (touch : TouchState) : Bool :=
  touch.schemaVersion = 1 && touch.kind = "agenterm-incremental-touch-state" &&
    touch.invocationId = config.invocation && touch.complete

/-- One more invocation, with its root. -/
def noteTouch (config : Config) (touch : TouchState) (name : String) : Except String TouchState :=
  if !validTouch config touch then
    .error "incremental touch state identity is invalid"
  else if u64Max < touch.rustcInvocations + 1 then
    .error "incremental rustc invocation count overflowed"
  else
    .ok
      { touch with
        rustcInvocations := touch.rustcInvocations + 1
        roots := insert name touch.roots }

/-- `touch.json`, or a fresh state when it is not found. -/
def Files.currentTouch (files : Files) (config : Config) (fault readFault : Bool) :
    Except String TouchState :=
  match files.touch with
  | some touch =>
    if fault then .ok (freshTouch config)
    else if readFault then .error "incremental state file is absent, indirect, or oversized"
    else .ok touch
  | none => .ok (freshTouch config)

/-! ## The steps of a wrapper -/

/-- Where a wrapper is. It holds the barrier from `checkBefore` to `unlock`. -/
inductive Phase where
  | start
  | lock (name : String)
  | checkBefore (name : String)
  /-- The roots were read at a moment. -/
  | writeBefore (name : String) (snapshot : BeforeSnapshot) (moment : Nat)
  | checkTouch (name : String)
  | writeTouch (name : String) (touch : TouchState)
  | unlock (name : String)
  /-- The coordination failed; the error is to be noted. -/
  | poison
  /-- The coordination is over; `persisted` is `poison_persisted`. -/
  | ready (persisted : Bool)
  | compiling (persisted : Bool)
  | exited (code : Int)
  | died
deriving DecidableEq

/-- How `atomic_write_json` ends; it may fail after the file was replaced. -/
inductive Written where
  | ok
  | failedAfter
  | failedBefore
deriving DecidableEq

/-- What the platform answers to a step. -/
inductive Answer where
  /-- Whether the environment is valid and the state directory direct. -/
  | environment (valid direct : Bool)
  | locked (ok : Bool)
  /-- Whether asking for `before.json` fails; whether Cargo's lock is held, and the roots. -/
  | before (fault cargoLockHeld : Bool) (snapshot : Option (List RootSnapshot))
  | written (result : Written)
  /-- Whether asking for `touch.json` fails, and whether reading it does. -/
  | touch (fault readFault : Bool)
  | unlocked
  /-- Whether `invalid` is there afterwards, and whether all of the note was written. -/
  | poisoned (present persisted : Bool)
  | launched (ok : Bool)
  /-- The exit code of the compiler, if it has one. -/
  | compiled (code : Option Int)
  | killed

/-- A number of wrappers on one state directory. The clock counts the steps; `takenAt` is when the
roots in `before.json` were read, and `startedAt` when a compiler was started. -/
structure System (ι : Type) where
  files : Files
  holder : Option ι
  phase : ι → Phase
  clock : Nat
  takenAt : Nat
  startedAt : ι → Option Nat
  coordinationFailed : ι → Bool

/-- `run_incremental_rustc_wrapper` once the compiler has ended. -/
def exitCode (persisted : Bool) (code : Option Int) : Int :=
  if persisted then code.getD 1
  else if code = some 0 then 2
  else code.getD 1

section
variable {ι : Type} [DecidableEq ι]

namespace System

def initial : System ι where
  files := ⟨none, none, false⟩
  holder := none
  phase := fun _ => .start
  clock := 0
  takenAt := 0
  startedAt := fun _ => none
  coordinationFailed := fun _ => false

def goTo (s : System ι) (w : ι) (phase : Phase) : System ι :=
  { s with phase := Function.update s.phase w phase }

/-- The coordination of a wrapper fails, and the barrier is free. -/
def fail (s : System ι) (w : ι) : System ι :=
  { s.goTo w .poison with
    holder := if s.holder = some w then none else s.holder
    coordinationFailed := Function.update s.coordinationFailed w true }

def tick (s : System ι) : System ι := { s with clock := s.clock + 1 }

/-- `before.json` is replaced. -/
def putBefore (s : System ι) (snapshot : BeforeSnapshot) (moment : Nat) : System ι :=
  { s with files := { s.files with before := some snapshot }, takenAt := moment }

def putTouch (s : System ι) (touch : TouchState) : System ι :=
  { s with files := { s.files with touch := some touch } }

/-- The environment, the arguments and the state directory are checked. -/
def begin (host : Host) (config : Config) (s : System ι) (w : ι) (arguments : List OsText)
    (valid direct : Bool) : System ι :=
  if !valid then s.fail w
  else
    match touchedName host config arguments with
    | .error _ => s.fail w
    | .ok none => s.goTo w (.ready true)
    | .ok (some name) => if direct then s.goTo w (.lock name) else s.fail w

/-- `before.json` is looked for, and the roots are read when it is not found. -/
def checkBefore (config : Config) (s : System ι) (w : ι) (name : String)
    (fault cargoLockHeld : Bool) (snapshot : Option (List RootSnapshot)) : System ι :=
  if s.files.before.isSome && !fault then s.goTo w (.checkTouch name)
  else
    s.goTo w (.writeBefore name (beforeSnapshot config cargoLockHeld snapshot) s.clock)

/-- `touch.json` is looked for, and read when it is found. -/
def checkTouch (config : Config) (s : System ι) (w : ι) (name : String) (fault readFault : Bool) :
    System ι :=
  match s.files.currentTouch config fault readFault >>= fun touch =>
    noteTouch config touch name with
  | .error _ => s.fail w
  | .ok touch => s.goTo w (.writeTouch name touch)

/-- One step of a wrapper; `none` when the answer is not one to what the wrapper does. -/
def act (host : Host) (config : Config) (arguments : ι → List OsText) (s : System ι) (w : ι) :
    Phase → Answer → Option (System ι)
  | .start, .environment valid direct =>
    some (s.begin host config w (arguments w) valid direct)
  | .lock name, .locked ok =>
    if !ok then some (s.fail w)
    else if s.holder.isSome then none
    else some { s.goTo w (.checkBefore name) with holder := some w }
  | .checkBefore name, .before fault cargoLockHeld snapshot =>
    some (s.checkBefore config w name fault cargoLockHeld snapshot)
  | .writeBefore name snapshot moment, .written result =>
    match result with
    | .ok => some ((s.putBefore snapshot moment).goTo w (.checkTouch name))
    | .failedAfter => some ((s.putBefore snapshot moment).fail w)
    | .failedBefore => some (s.fail w)
  | .checkTouch name, .touch fault readFault => some (s.checkTouch config w name fault readFault)
  | .writeTouch name touch, .written result =>
    match result with
    | .ok => some ((s.putTouch touch).goTo w (.unlock name))
    | .failedAfter => some ((s.putTouch touch).fail w)
    | .failedBefore => some (s.fail w)
  | .unlock _, .unlocked => some { s.goTo w (.ready true) with holder := none }
  | .poison, .poisoned present persisted =>
    some
      { s.goTo w (.ready persisted) with
        files := { s.files with poison := s.files.poison || present || persisted } }
  | .ready persisted, .launched ok =>
    if ok then
      some
        { s.goTo w (.compiling persisted) with
          startedAt := Function.update s.startedAt w (some s.clock) }
    else some (s.goTo w (.exited 2))
  | .compiling persisted, .compiled code => some (s.goTo w (.exited (exitCode persisted code)))
  | _, _ => none

/-- A wrapper takes a step, or is killed, which frees the barrier. -/
def step (host : Host) (config : Config) (arguments : ι → List OsText) (s : System ι)
    (op : ι × Answer) : Option (System ι) :=
  match op.2 with
  | .killed =>
    match s.phase op.1 with
    | .exited _ => none
    | _ =>
      some
        { s.goTo op.1 .died with
          holder := if s.holder = some op.1 then none else s.holder }.tick
  | answer => (act host config arguments s op.1 (s.phase op.1) answer).map tick

end System

end

/-! ## The finalization -/

/-- What the finalization finds in the incremental directory and how reading the state files goes. -/
structure Finding where
  direct : String → Bool
  identity : String → Except String String
  beforeFault : Bool
  touchFault : Bool
  poisonFault : Bool

structure ManifestRoot where
  name : String
  beforeIdentity : String
  afterIdentity : String
  touched : Bool
deriving DecidableEq

structure Manifest where
  kind : String
  schemaVersion : Nat
  invocationId : String
  target : String
  incrementalRoot : String
  snapshotComplete : Bool
  rustcInvocations : Nat
  identityAlgorithm : String
  roots : List ManifestRoot
deriving DecidableEq

def identitiesMatch (config : Config) (before : BeforeSnapshot) (touch : TouchState) : Bool :=
  before.schemaVersion = 1 && before.kind = "agenterm-incremental-before-snapshot" &&
    before.invocationId = config.invocation && before.target = config.target &&
    before.incrementalRoot = config.incremental &&
    before.identityAlgorithm = INCREMENTAL_IDENTITY_ALGORITHM && before.snapshotComplete &&
    before.cargoLockObserved && validTouch config touch && decide (0 < touch.rustcInvocations)

/-- The roots that are still there, or `none` when one of them cannot be identified. -/
def manifestRoots (finding : Finding) (touch : TouchState) :
    List RootSnapshot → Option (List ManifestRoot)
  | [] => some []
  | root :: roots =>
    if !finding.direct root.name then manifestRoots finding touch roots
    else
      match finding.identity root.name with
      | .ok afterIdentity =>
        (manifestRoots finding touch roots).map fun rest =>
          ⟨root.name, root.identity, afterIdentity, decide (root.name ∈ touch.roots)⟩ :: rest
      | .error _ => none

/-- The roots and the number of invocations, when the snapshot is complete. -/
def completeRoots (config : Config) (finding : Finding) (files : Files) :
    Option (List ManifestRoot × Nat) :=
  if files.poison || finding.poisonFault then none
  else
    match files.before, files.touch with
    | some before, some touch =>
      if finding.beforeFault || finding.touchFault then none
      else if identitiesMatch config before touch then
        (manifestRoots finding touch before.roots).map fun roots => (roots, touch.rustcInvocations)
      else none
    | _, _ => none

/-- The manifest that `finalize_incremental_manifest` writes. -/
def finalizeIncrementalManifest (config : Config) (finding : Finding) (files : Files) :
    Manifest :=
  let complete := completeRoots config finding files
  { kind := "agenterm-incremental-touch-manifest"
    schemaVersion := 1
    invocationId := config.invocation
    target := config.target
    incrementalRoot := config.incremental
    snapshotComplete := complete.isSome
    rustcInvocations := (complete.map Prod.snd).getD 0
    identityAlgorithm := INCREMENTAL_IDENTITY_ALGORITHM
    roots := ((complete.map Prod.fst).getD []).mergeSort fun a b => decide (a.name ≤ b.name) }

end Agenterm.Incremental
