import Agenterm.Common

/-!
# The module resolver and its ledger

`module_resolver.rs`. The file system, the clock and the cancellation flag are arguments of a call:
each root finds them as they are when its turn comes, and the file that is read need not be the
one whose metadata was seen. Paths are those of Unix: a canonical path is its list of components,
another one the segments between its slashes. The product's set of built-in modules is the
parameter `builtin`, and the `{:?}` form of a specifier is the parameter `quoted`.
-/

namespace Agenterm.Qjswasm

/-! ## Paths -/

/-- A canonical path. -/
abbrev CanonicalPath : Type := List String

/-- The segments of a path between its slashes. -/
abbrev Segments : Type := List String

def segments (path : String) : Segments := (path.toList.splitOn '/').map String.ofList

/-- `Path::join`: an absolute path replaces the root. -/
def join (root : CanonicalPath) (path : String) : Segments :=
  if path.toList.head? = some '/' then segments path else "" :: root ++ segments path

/-- The segments up to the file name: trailing slashes and dots are not components. -/
def trimmed (path : Segments) : Segments :=
  (path.reverse.dropWhile fun segment => segment = "" ∨ segment = ".").reverse

/-- `Path::file_name`. -/
def fileName (path : Segments) : Option String :=
  (trimmed path).getLast?.filter (· ≠ "..")

/-- Whether `Path::extension` is there: a dot that is not the first character of the name. -/
def hasExtension (path : Segments) : Bool :=
  ((fileName path).map fun name => name.toList.tail.contains '.').getD false

/-- `PathBuf::set_extension` on a path without one. -/
def setExtension (path : Segments) (extension : String) : Segments :=
  match fileName path with
  | some name => (trimmed path).dropLast ++ [name ++ "." ++ extension]
  | none => path

def candidate (root : CanonicalPath) (specifier : String) : Segments :=
  let path := join root specifier
  if hasExtension path then path else setExtension path "qjs"

/-! ## Failures -/

inductive ResolverFailureCategory where
  | limit
  | cancelled
  | host
deriving DecidableEq

def ResolverFailureCategory.asStr : ResolverFailureCategory → String
  | .limit => "limit"
  | .cancelled => "cancelled"
  | .host => "host"

structure ResolverFailure where
  code : String
  message : String
  category : ResolverFailureCategory
deriving DecidableEq

section
variable (quoted : String → String)

def cancelledFailure : ResolverFailure :=
  ⟨"host_cancelled", "the invocation was cancelled while resolving imports", .cancelled⟩

def wallTimeFailure (label : String) : ResolverFailure :=
  ⟨"limit_wall_time",
    label ++ " reached its aggregate wall-time budget while resolving imports", .limit⟩

def builtinFailure (specifier : String) : ResolverFailure :=
  ⟨"limit_import_source_bytes",
    "built-in module " ++ quoted specifier ++ " exceeds the source budget", .limit⟩

def modulesFailure (modulesMax : Nat) : ResolverFailure :=
  ⟨"limit_import_modules",
    "recursive imports exceed " ++ toString modulesMax ++ " resolved modules", .limit⟩

def inspectFailure (specifier error : String) : ResolverFailure :=
  ⟨"host_import_read",
    "cannot inspect imported module " ++ quoted specifier ++ ": " ++ error, .host⟩

def readFailure (specifier error : String) : ResolverFailure :=
  ⟨"host_import_read", "cannot read imported module " ++ quoted specifier ++ ": " ++ error, .host⟩

def perSourceFailure (specifier : String) (perSourceMax : Nat) : ResolverFailure :=
  ⟨"limit_import_source_bytes",
    "imported module " ++ quoted specifier ++ " exceeds per-source limit of " ++
      toString perSourceMax ++ " bytes", .limit⟩

def aggregateFailure (aggregateSourceMax : Nat) : ResolverFailure :=
  ⟨"limit_import_source_bytes",
    "entry and imported source exceeds aggregate limit of " ++ toString aggregateSourceMax ++
      " bytes", .limit⟩

def changedFailure (specifier : String) : ResolverFailure :=
  ⟨"limit_import_source_bytes",
    "imported module " ++ quoted specifier ++
      " changed while reading and exceeds the source budget", .limit⟩

end

/-! ## The ledger -/

def importModulesMax : Nat := 1024

structure ResolverLedgerConfig where
  label : String
  deadline : Nat
  perSourceMax : Nat
  aggregateSourceMax : Nat
  entryBytes : Nat
  importedModules : Nat
  /-- Whether the host gave a cancellation flag. -/
  cancellation : Bool
  modulesMax : Nat
  entryBytes_le : entryBytes ≤ u64Max

/-- The ledger: `ResolverState` and the two caches. -/
structure ResolverLedger where
  label : String
  deadline : Nat
  perSourceMax : Nat
  aggregateSourceMax : Nat
  modulesMax : Nat
  compileSourceBytes : Nat
  importedModules : Nat
  cancellation : Bool
  failure : Option ResolverFailure
  resolvedModules : List (CanonicalPath × String)
  resolvedBuiltins : List String

def ResolverLedger.new (config : ResolverLedgerConfig) : ResolverLedger where
  label := config.label
  deadline := config.deadline
  perSourceMax := config.perSourceMax
  aggregateSourceMax := config.aggregateSourceMax
  modulesMax := config.modulesMax
  compileSourceBytes := config.entryBytes
  importedModules := config.importedModules
  cancellation := config.cancellation
  failure := none
  resolvedModules := []
  resolvedBuiltins := []

/-- What a look at the clock and the flag shows. -/
structure Moment where
  now : Nat
  flag : Bool

structure Metadata where
  isFile : Bool
  len : Nat

/-- The file system in the turn of one root. -/
structure FileSystem where
  canonicalize : Segments → Option CanonicalPath
  metadata : CanonicalPath → Except String Metadata
  /-- What `open` answers, and then what reading that file yields: its bytes or an error. -/
  read : CanonicalPath → Except String (Except String ByteArray)

/-- The surroundings of one call. -/
structure Surroundings where
  entered : Moment
  fileSystem : CanonicalPath → FileSystem
  afterRead : Moment

/-- The module that was answered. A file is confined to `root`. -/
inductive Origin where
  | builtin (specifier : String)
  | file (path root : CanonicalPath)
deriving DecidableEq

structure Resolved where
  origin : Origin
  source : String

/-- `Read::read_to_string` of at most `limit` bytes. -/
def readToString (limit : Nat) (contents : Except String ByteArray) : Except String String :=
  contents.bind fun bytes =>
    match String.fromUTF8? (bytes.extract 0 limit) with
    | some source => .ok source
    | none => .error "stream did not contain valid UTF-8"

namespace ResolverLedger

def cancelled (ledger : ResolverLedger) (moment : Moment) : Bool :=
  ledger.cancellation && moment.flag

def refuse (ledger : ResolverLedger) (failure : ResolverFailure) :
    ResolverLedger × Option Resolved :=
  ({ ledger with failure := some failure }, none)

/-- The two conditions that end a call before and after the read. -/
def interrupted (ledger : ResolverLedger) (moment : Moment) : Option ResolverFailure :=
  if ledger.cancelled moment then some cancelledFailure
  else if ledger.deadline ≤ moment.now then some (wallTimeFailure ledger.label)
  else none

/-- Take a new module in. -/
def charge (ledger : ResolverLedger) (source : String) : ResolverLedger :=
  { ledger with
    compileSourceBytes := saturatingAdd ledger.compileSourceBytes source.utf8ByteSize
    importedModules := ledger.importedModules + 1 }

def chargeEntryBytes (ledger : ResolverLedger) (bytes : Nat) :
    ResolverLedger × Except ResolverFailure Unit :=
  let ledger :=
    { ledger with compileSourceBytes := saturatingAdd ledger.compileSourceBytes bytes }
  if ledger.aggregateSourceMax < ledger.compileSourceBytes then
    (ledger, .error (aggregateFailure ledger.aggregateSourceMax))
  else (ledger, .ok ())

section
variable (quoted : String → String)

def resolveBuiltin (ledger : ResolverLedger) (specifier source : String) :
    ResolverLedger × Option Resolved :=
  if specifier ∈ ledger.resolvedBuiltins then (ledger, some ⟨.builtin specifier, source⟩)
  else if ledger.perSourceMax < source.utf8ByteSize ∨ ledger.aggregateSourceMax <
      saturatingAdd ledger.compileSourceBytes source.utf8ByteSize then
    ledger.refuse (builtinFailure quoted specifier)
  else if ledger.modulesMax ≤ ledger.importedModules then
    ledger.refuse (modulesFailure ledger.modulesMax)
  else
    ({ ledger.charge source with resolvedBuiltins := specifier :: ledger.resolvedBuiltins },
      some ⟨.builtin specifier, source⟩)

/-- The size of a file that is not in the cache, before it is read. -/
def priced (ledger : ResolverLedger) (specifier : String) (sourceLen : Nat) :
    Except ResolverFailure Unit :=
  if ledger.perSourceMax < sourceLen then
    .error (perSourceFailure quoted specifier ledger.perSourceMax)
  else if ledger.modulesMax ≤ ledger.importedModules then
    .error (modulesFailure ledger.modulesMax)
  else if ledger.aggregateSourceMax < saturatingAdd ledger.compileSourceBytes sourceLen then
    .error (aggregateFailure ledger.aggregateSourceMax)
  else .ok ()

/-- The bounded read of a file that was priced. -/
def load (ledger : ResolverLedger) (specifier : String) (path root : CanonicalPath)
    (opened : Except String (Except String ByteArray)) (afterRead : Moment) :
    ResolverLedger × Option Resolved :=
  match opened with
  | .error error => ledger.refuse (readFailure quoted specifier error)
  | .ok contents =>
    match readToString (saturatingAdd ledger.perSourceMax 1) contents with
    | .error error => ledger.refuse (readFailure quoted specifier error)
    | .ok source =>
      match ledger.interrupted afterRead with
      | some failure => ledger.refuse failure
      | none =>
        -- the file that was read may be larger than the one that was priced
        if ledger.perSourceMax < source.utf8ByteSize ∨ ledger.aggregateSourceMax <
            saturatingAdd ledger.compileSourceBytes source.utf8ByteSize then
          ledger.refuse (changedFailure quoted specifier)
        else
          let ledger := ledger.charge source
          ({ ledger with resolvedModules := (path, source) :: ledger.resolvedModules },
            some ⟨.file path root, source⟩)

/-- The roots in order of preference; the first that holds the file answers. -/
def resolveFile (ledger : ResolverLedger) (specifier : String) (surroundings : Surroundings) :
    List CanonicalPath → ResolverLedger × Option Resolved
  | [] => (ledger, none)
  | root :: roots =>
    let fileSystem := surroundings.fileSystem root
    match fileSystem.canonicalize (candidate root specifier) with
    | none => resolveFile ledger specifier surroundings roots
    | some path =>
      if root <+: path then
        match ledger.resolvedModules.lookup path with
        | some source => (ledger, some ⟨.file path root, source⟩)
        | none =>
          match fileSystem.metadata path with
          | .error error => ledger.refuse (inspectFailure quoted specifier error)
          | .ok metadata =>
            if metadata.isFile then
              match ledger.priced quoted specifier (min metadata.len u64Max) with
              | .error failure => ledger.refuse failure
              | .ok () =>
                ledger.load quoted specifier path root (fileSystem.read path) surroundings.afterRead
            else resolveFile ledger specifier surroundings roots
      else resolveFile ledger specifier surroundings roots

/-- A resolver keeps each root once. -/
def canonicalRoots (canonicalize : Segments → Option CanonicalPath) (roots : List Segments) :
    List CanonicalPath :=
  roots.foldl (fun canonical root =>
    match canonicalize root with
    | some path => if path ∈ canonical then canonical else canonical ++ [path]
    | none => canonical) []

/-- One call of the callback of `resolver`, for the canonical roots. -/
def resolve (builtin : String → Option String) (ledger : ResolverLedger)
    (roots : List CanonicalPath) (specifier : String) (surroundings : Surroundings) :
    ResolverLedger × Option Resolved :=
  if ledger.failure.isSome then (ledger, none)
  else
    match ledger.interrupted surroundings.entered with
    | some failure => ledger.refuse failure
    | none =>
      match builtin specifier with
      | some source => ledger.resolveBuiltin quoted specifier source
      | none => ledger.resolveFile quoted specifier surroundings roots

end

def takeFailure (ledger : ResolverLedger) : ResolverLedger × Option ResolverFailure :=
  ({ ledger with failure := none }, ledger.failure)

end ResolverLedger

/-! ## Calls of one ledger -/

/-- A resolver is made from roots with `canonicalize`, at any earlier time. -/
inductive LedgerCall where
  | chargeEntryBytes (bytes : Nat)
  | resolve (canonicalize : Segments → Option CanonicalPath) (roots : List Segments)
      (specifier : String) (surroundings : Surroundings)
  | takeFailure

inductive LedgerReply where
  | charged (result : Except ResolverFailure Unit)
  | resolved (answer : Option Resolved)
  | taken (failure : Option ResolverFailure)

def ResolverLedger.perform (quoted : String → String) (builtin : String → Option String)
    (ledger : ResolverLedger) : LedgerCall → ResolverLedger × LedgerReply
  | .chargeEntryBytes bytes =>
    let (ledger, result) := ledger.chargeEntryBytes bytes
    (ledger, .charged result)
  | .resolve canonicalize roots specifier surroundings =>
    let (ledger, answer) := ledger.resolve quoted builtin
      (ResolverLedger.canonicalRoots canonicalize roots) specifier surroundings
    (ledger, .resolved answer)
  | .takeFailure =>
    let (ledger, failure) := ledger.takeFailure
    (ledger, .taken failure)

/-- A ledger with the calls made so far and their replies, in order. -/
structure LedgerRun where
  ledger : ResolverLedger
  replies : List (LedgerCall × LedgerReply)

def LedgerRun.step (quoted : String → String) (builtin : String → Option String)
    (run : LedgerRun) (call : LedgerCall) : LedgerRun where
  ledger := (run.ledger.perform quoted builtin call).1
  replies := run.replies ++ [(call, (run.ledger.perform quoted builtin call).2)]

end Agenterm.Qjswasm
