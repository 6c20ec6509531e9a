import Agenterm.Common

/-!
# Registrations of servers that are gone

`instances.rs`: `cleanup_instance` takes a registration out of the registry when its owner is dead, with
the alias for older clients and the markers of an intended shutdown. The endpoint type comes from
another package and is a parameter, as are the platform and the two readers of files.
-/

namespace Agenterm.Instances

def LEGACY_INSTANCE_SCHEMA_VERSION : Nat := 1

def INSTANCE_SCHEMA_VERSION : Nat := 2

def CLEANUP_RECEIPT_SCHEMA_VERSION : Nat := 1

structure ServerScopeId where
  text : String
deriving DecidableEq

inductive LogicalInstance where
  | main
  | dev
  | ephemeral (label : String)
  | custom (label : String)
deriving DecidableEq

/-- `IntentionalShutdown`, without the endpoint, which no one reads. -/
structure IntentionalShutdown where
  pid : Nat
  address : String
  serverScopeId : Option ServerScopeId
deriving DecidableEq

/-- `InstanceRecord`, without the build facts, which the registry does not compare. -/
structure InstanceRecord (ε : Type) where
  schemaVersion : Nat
  pid : Nat
  address : String
  endpoint : Option ε
  logicalInstance : Option LogicalInstance
  serverScopeId : Option ServerScopeId
  session : String
  workspacePath : String
  startedAtUnixMs : Nat
  processStartIdentity : Option String
  leaseNonce : Option String
  serverEpoch : Option String
  testFixture : Bool
deriving DecidableEq

/-- `IpcEndpoint`, as the registry uses it. -/
structure Endpoints (ε : Type) where
  fromLegacyAddress : String → Option ε
  legacyAddress : ε → Option String
  shown : ε → String

/-- The file of a registration in the registry, and what it held when it was found. -/
structure DiscoveredInstance (ε : Type) where
  record : InstanceRecord ε
  path : String
  isJson : ".json".toList <:+ path.toList

section
variable {ε : Type} [DecidableEq ε] (endpoints : Endpoints ε)

def InstanceRecord.resolvedEndpoint (record : InstanceRecord ε) : Option ε :=
  record.endpoint <|>
    if record.schemaVersion = LEGACY_INSTANCE_SCHEMA_VERSION then
      endpoints.fromLegacyAddress record.address
    else none

def sameRegistrationGeneration (left right : InstanceRecord ε) : Bool :=
  left.schemaVersion = right.schemaVersion
    && left.pid = right.pid
    && left.address = right.address
    && left.resolvedEndpoint endpoints = right.resolvedEndpoint endpoints
    && left.logicalInstance = right.logicalInstance
    && left.serverScopeId = right.serverScopeId
    && left.session = right.session
    && left.workspacePath = right.workspacePath
    && left.startedAtUnixMs = right.startedAtUnixMs
    && left.processStartIdentity = right.processStartIdentity
    && left.leaseNonce = right.leaseNonce
    && left.serverEpoch = right.serverEpoch
    && left.testFixture = right.testFixture

omit [DecidableEq ε] in
/-- The scopes agree where both are known. -/
def sameScope (left right : InstanceRecord ε) : Bool :=
  match left.serverScopeId, right.serverScopeId with
  | some leftScope, some rightScope => leftScope = rightScope
  | _, _ => true

omit [DecidableEq ε] in
def sameRegisteredAuthority (left right : InstanceRecord ε) : Bool :=
  match left.leaseNonce, right.leaseNonce with
  | some leftNonce, some rightNonce =>
    left.pid = right.pid && leftNonce = rightNonce
      && left.processStartIdentity = right.processStartIdentity
      && left.serverEpoch = right.serverEpoch
  | _, _ =>
    left.pid = right.pid && left.startedAtUnixMs = right.startedAtUnixMs
      && left.session = right.session && left.workspacePath = right.workspacePath
      && sameScope left right

end

/-! ## Owners -/

inductive ProcessObservation where
  | dead (reason : String)
  | unknown (reason : String)
  | live (startIdentity : Option String)
  /-- What a later version of the platform may observe. -/
  | unrecognized
deriving DecidableEq

inductive RegistrationOwnerState where
  | confirmedLive (observedStartIdentity : String)
  | dead (reason : String)
  | pidReused (observedStartIdentity : String)
  | ownerUnknown (reason : String) (observedStartIdentity : Option String)
deriving DecidableEq

namespace RegistrationOwnerState

def name : RegistrationOwnerState → String
  | confirmedLive _ => "confirmed_live"
  | dead _ => "dead"
  | pidReused _ => "pid_reused"
  | ownerUnknown _ _ => "owner_unknown"

def reason : RegistrationOwnerState → String
  | confirmedLive _ => "process_start_identity_matched"
  | dead reason => reason
  | pidReused _ => "process_start_identity_mismatch"
  | ownerUnknown reason _ => reason

def isStale : RegistrationOwnerState → Bool
  | dead _ => true
  | pidReused _ => true
  | _ => false

end RegistrationOwnerState

/-- `registration_owner_state`, for what the platform observes of a process. -/
def registrationOwnerState {ε : Type} (observe : Nat → ProcessObservation)
    (record : InstanceRecord ε) : RegistrationOwnerState :=
  match observe record.pid with
  | .dead reason => .dead reason
  | .unknown reason => .ownerUnknown reason none
  | .live startIdentity =>
    match record.processStartIdentity, startIdentity with
    | some expected, some observed =>
      if expected = observed then .confirmedLive observed else .pidReused observed
    | none, observed => .ownerUnknown "registration_missing_process_start_identity" observed
    | some _, none => .ownerUnknown "process_start_identity_unavailable" none
  | .unrecognized => .ownerUnknown "unrecognized_process_observation" none

/-! ## The registry -/

/-- The files of the registry by name. -/
abbrev Directory (κ : Type) := String → Option κ

/-- An error of the file system; `not_found` or its text. -/
inductive IoError where
  | notFound
  | other (text : String)
deriving DecidableEq

/-- The file system, the readers of what a file holds, and the clock. -/
structure Host (ε κ : Type) where
  endpoints : Endpoints ε
  parseRecord : κ → Except String (InstanceRecord ε)
  parseMarker : κ → Option IntentionalShutdown
  /-- The error that reading a file fails with. -/
  readFault : String → Option String
  removeFault : String → Option String
  /-- The directory can be made private. -/
  prepares : Bool
  display : String → String
  nowUnixMs : Nat

section
variable {ε κ : Type} [DecidableEq ε] (host : Host ε κ)

omit [DecidableEq ε] in
/-- `fs::read`. -/
def readFile (directory : Directory κ) (name : String) : Except IoError κ :=
  match directory name with
  | none => .error .notFound
  | some content =>
    match host.readFault name with
    | some text => .error (.other text)
    | none => .ok content

omit [DecidableEq ε] in
/-- `fs::remove_file`. -/
def removeFile (directory : Directory κ) (name : String) : Except IoError Unit × Directory κ :=
  match directory name with
  | none => (.error .notFound, directory)
  | some _ =>
    match host.removeFault name with
    | some text => (.error (.other text), directory)
    | none => (.ok (), Function.update directory name none)

/-- An address as a part of a file name. -/
def safeAddress (address : String) : String :=
  String.ofList (address.toList.map fun character =>
    if character.isAlphanum then character else '_')

def intentionalShutdownPath (address : String) : String :=
  ".intentional-shutdown-" ++ safeAddress address ++ ".marker"

def intentionalShutdownScopePath (scope : ServerScopeId) : String :=
  ".intentional-shutdown-scope-" ++ scope.text ++ ".marker"

def shutdownMarkerPaths (address : String) (scope : Option ServerScopeId) : List String :=
  intentionalShutdownPath address :: (scope.map intentionalShutdownScopePath).toList

omit [DecidableEq ε] in
/-- `remove_intentional_shutdown_markers`; a file that cannot be removed is left. -/
def removeIntentionalShutdownMarkers (directory : Directory κ) (address : String)
    (scope : Option ServerScopeId) : Directory κ :=
  if host.prepares then
    (shutdownMarkerPaths address scope).foldl (fun directory path =>
      (removeFile host directory path).2) directory
  else directory

def legacyAlias (pid : Nat) : String := toString pid ++ "-v1.json"

omit [DecidableEq ε] in
/-- What a file holds is the alias of a registration. -/
def isMatchingAlias (discovered : DiscoveredInstance ε) (content : κ) : Bool :=
  match host.parseRecord content with
  | .ok record => record.schemaVersion = LEGACY_INSTANCE_SCHEMA_VERSION &&
      sameRegisteredAuthority discovered.record record
  | .error _ => false

omit [DecidableEq ε] in
def removeResult : Except IoError Unit → String
  | .ok () => "deleted"
  | .error .notFound => "already_absent"
  | .error (.other _) => "failed"

omit [DecidableEq ε] in
def cleanupMatchingLegacyAlias (directory : Directory κ) (discovered : DiscoveredInstance ε) :
    String × Directory κ :=
  if discovered.record.schemaVersion ≠ INSTANCE_SCHEMA_VERSION ∨
      ¬ ((discovered.record.resolvedEndpoint host.endpoints).any fun endpoint =>
        (host.endpoints.legacyAddress endpoint).isSome) then
    ("not_applicable", directory)
  else
    let aliasName := legacyAlias discovered.record.pid
    match readFile host directory aliasName with
    | .error .notFound => ("already_absent", directory)
    | .error (.other _) => ("failed", directory)
    | .ok content =>
      if !isMatchingAlias host discovered content then
        ("identity_changed", directory)
      else
        let (result, directory) := removeFile host directory aliasName
        (removeResult result, directory)

structure InstanceCleanupReceipt where
  schemaVersion : Nat
  operation : String
  targetPath : String
  pid : Nat
  endpoint : Option String
  serverScopeId : Option String
  expectedProcessStartIdentity : Option String
  expectedLeaseNonce : Option String
  expectedServerEpoch : Option String
  confirmedOwnerState : String
  reason : String
  result : String
  legacyAliasResult : String
  completedAtUnixMs : Nat
deriving DecidableEq

omit [DecidableEq ε] in
def cleanupReceipt (discovered : DiscoveredInstance ε) (owner : RegistrationOwnerState) :
    InstanceCleanupReceipt where
  schemaVersion := CLEANUP_RECEIPT_SCHEMA_VERSION
  operation := "registration.cleanup"
  targetPath := host.display discovered.path
  pid := discovered.record.pid
  endpoint := (discovered.record.resolvedEndpoint host.endpoints).map host.endpoints.shown
  serverScopeId := discovered.record.serverScopeId.map ServerScopeId.text
  expectedProcessStartIdentity := discovered.record.processStartIdentity
  expectedLeaseNonce := discovered.record.leaseNonce
  expectedServerEpoch := discovered.record.serverEpoch
  confirmedOwnerState := owner.name
  reason := owner.reason
  result := "not_eligible"
  legacyAliasResult := "not_attempted"
  completedAtUnixMs := host.nowUnixMs

omit [DecidableEq ε] in
/-- The end of `cleanup_instance`, once the registration is gone. -/
def cleanupBeside (directory : Directory κ) (discovered : DiscoveredInstance ε)
    (receipt : InstanceCleanupReceipt) : InstanceCleanupReceipt × Directory κ :=
  let (aliasResult, directory) := cleanupMatchingLegacyAlias host directory discovered
  ({ receipt with legacyAliasResult := aliasResult },
    removeIntentionalShutdownMarkers host directory discovered.record.address
      discovered.record.serverScopeId)

omit [DecidableEq ε] in
/-- `cleanup_instance` from the removal of the registration on. -/
def removeRegistration (directory : Directory κ) (discovered : DiscoveredInstance ε)
    (receipt : InstanceCleanupReceipt) : InstanceCleanupReceipt × Directory κ :=
  let (removed, directory) := removeFile host directory discovered.path
  match removed with
  | .ok () => cleanupBeside host directory discovered { receipt with result := "deleted" }
  | .error .notFound =>
    cleanupBeside host directory discovered { receipt with result := "already_absent" }
  | .error (.other error) =>
    ({ receipt with
        result := "failed"
        reason := "registration_delete_failed:" ++ error }, directory)

/-- `cleanup_instance`; the owner is observed once before and once after the registration is read
again. -/
def cleanupInstance (before after : Nat → ProcessObservation) (directory : Directory κ)
    (discovered : DiscoveredInstance ε) : InstanceCleanupReceipt × Directory κ :=
  let owner := registrationOwnerState before discovered.record
  let receipt := cleanupReceipt host discovered owner
  if !owner.isStale then
    ({ receipt with result := "not_eligible" }, directory)
  else
    match readFile host directory discovered.path with
    | .error .notFound => ({ receipt with result := "already_absent" }, directory)
    | .error (.other error) =>
      ({ receipt with
          result := "failed"
          reason := "registration_revalidation_failed:" ++ error }, directory)
    | .ok content =>
      match host.parseRecord content with
      | .error error =>
        ({ receipt with
            result := "identity_changed"
            reason := "registration_unparseable_during_revalidation:" ++ error }, directory)
      | .ok current =>
        if !sameRegistrationGeneration host.endpoints discovered.record current then
          ({ receipt with
              result := "identity_changed"
              reason := "registration_identity_changed_during_cleanup" }, directory)
        else
          let owner := registrationOwnerState after current
          let receipt :=
            { receipt with confirmedOwnerState := owner.name, reason := owner.reason }
          if !owner.isStale then
            ({ receipt with result := "identity_changed" }, directory)
          else
            removeRegistration host directory discovered receipt

end

/-!
The cleanup removes files by name (`removed_at`): the registration once it is found dead twice, the alias
after a look at what it holds, and the markers without one. So it is the markers that can be those of
another server (`cleanup_touches_own_iff`).
-/

section
variable {ε κ : Type} [DecidableEq ε] {host : Host ε κ} {before after : Nat → ProcessObservation}
  {directory : Directory κ} {discovered : DiscoveredInstance ε}

/-! ### Removed files -/

omit [DecidableEq ε] in
/-- A file is removed when it has the name and can be removed. -/
lemma removed_at (name other : String) :
    (removeFile host directory name).2 other =
      if other = name ∧ host.removeFault name = none then none else directory other := by
  unfold removeFile
  cases hfile : directory name with
  | none =>
    dsimp only
    split
    · rename_i h
      rw [h.1, hfile]
    · rfl
  | some content =>
    cases hfault : host.removeFault name with
    | some text => simp
    | none =>
      dsimp only
      by_cases h : other = name
      · simp [h]
      · simp [h]

omit [DecidableEq ε] in
lemma readFile_eq_ok {name : String} {content : κ} :
    readFile host directory name = .ok content ↔
      directory name = some content ∧ host.readFault name = none := by
  unfold readFile
  cases hheld : directory name with
  | none => simp
  | some held =>
    cases hfault : host.readFault name with
    | none => simp
    | some text => simp

omit [DecidableEq ε] in
lemma removedAll_at (names : List String) (other : String) :
    (names.foldl (fun directory path => (removeFile host directory path).2) directory) other =
      if other ∈ names ∧ host.removeFault other = none then none else directory other := by
  induction names generalizing directory with
  | nil => simp
  | cons name names ih =>
    rw [List.foldl_cons, ih, removed_at]
    by_cases hother : other = name
    · subst hother
      by_cases hfault : host.removeFault other = none
      · simp [hfault]
      · simp [hfault]
    · simp [hother]

omit [DecidableEq ε] in
lemma removedMarkers_at (address : String) (scope : Option ServerScopeId) (other : String) :
    removeIntentionalShutdownMarkers host directory address scope other =
      if host.prepares = true ∧ other ∈ shutdownMarkerPaths address scope ∧
        host.removeFault other = none then none else directory other := by
  unfold removeIntentionalShutdownMarkers
  by_cases hprepares : host.prepares = true
  · rw [if_pos hprepares, removedAll_at]
    simp [hprepares]
  · rw [if_neg hprepares, if_neg]
    intro h
    exact hprepares h.1

/-! ### Names -/

lemma mem_shutdownMarkerPaths {address : String} {scope : Option ServerScopeId} {name : String}
    (h : name ∈ shutdownMarkerPaths address scope) : ".marker".toList <:+ name.toList := by
  have hends : ∀ front : String, ".marker".toList <:+ (front ++ ".marker").toList := by
    intro front
    rw [String.toList_append]
    exact List.suffix_append _ _
  rcases List.mem_cons.mp h with rfl | h
  · exact hends _
  · obtain ⟨id, _, rfl⟩ := Option.map_eq_some_iff.mp (Option.mem_toList.mp h)
    exact hends _

/-- No marker is a registration. -/
lemma not_json_of_marker {name : String} (h : ".marker".toList <:+ name.toList) :
    ¬ ".json".toList <:+ name.toList := by
  intro hjson
  have hlast := hjson.getLast (by decide)
  have hlast' := h.getLast (by decide)
  exact absurd (hlast.trans hlast'.symm) (by decide)

lemma legacyAlias_json (pid : Nat) : ".json".toList <:+ (legacyAlias pid).toList := by
  unfold legacyAlias
  rw [String.toList_append]
  exact List.IsSuffix.trans (by decide) (List.suffix_append _ _)

/-! ### Own files -/

variable (host before after directory discovered)

/-- The owner is gone at both looks, and the registration is the one that was discovered. -/
structure Eligible : Prop where
  gone : (registrationOwnerState before discovered.record).isStale = true
  registered : ∃ content current, directory discovered.path = some content ∧
    host.readFault discovered.path = none ∧ host.parseRecord content = .ok current ∧
      sameRegistrationGeneration host.endpoints discovered.record current = true ∧
        (registrationOwnerState after current).isStale = true

/-- A file of the registration: itself, its alias, or a marker at one of its names that its process
wrote. -/
def IsOwnFile (name : String) : Prop :=
  name = discovered.path ∨
    (name = legacyAlias discovered.record.pid ∧
      ∃ content, directory name = some content ∧ isMatchingAlias host discovered content = true) ∨
    name ∈ shutdownMarkerPaths discovered.record.address discovered.record.serverScopeId ∧
      ∃ content marker, directory name = some content ∧ host.parseMarker content = some marker ∧
        marker.pid = discovered.record.pid

/-- A cleanup that leaves every file of other servers as it is. -/
structure TouchesOwn (directory' : Directory κ) : Prop where
  ineligible : ¬ Eligible host before after directory discovered → directory' = directory
  own : ∀ name, directory' name = directory name ∨
    directory' name = none ∧ IsOwnFile host directory discovered name

/-- The files at the names of the markers are markers that the process of the registration wrote. -/
def MarkersOwn : Prop :=
  ∀ name ∈ shutdownMarkerPaths discovered.record.address discovered.record.serverScopeId,
    host.removeFault name = none → ∀ content, directory name = some content →
      ∃ marker, host.parseMarker content = some marker ∧ marker.pid = discovered.record.pid

/-! ### The cleanup -/

variable {host before after directory discovered}

/-- No other cleanup than that of a dead owner removes anything. -/
lemma cleanup_of_ineligible (h : ¬ Eligible host before after directory discovered) :
    (cleanupInstance host before after directory discovered).2 = directory := by
  unfold cleanupInstance
  dsimp only
  split
  · rfl
  · rename_i hgone
    rw [Bool.not_eq_true', Bool.not_eq_false] at hgone
    split
    · rfl
    · rfl
    · rename_i content hread
      split
      · rfl
      · rename_i current hparse
        split
        · rfl
        · rename_i hsame
          rw [Bool.not_eq_true', Bool.not_eq_false] at hsame
          split
          · rfl
          · rename_i hgone'
            rw [Bool.not_eq_true', Bool.not_eq_false] at hgone'
            obtain ⟨hheld, hfault⟩ := readFile_eq_ok.mp hread
            exact absurd ⟨hgone, content, current, hheld, hfault, hparse, hsame, hgone'⟩ h

/-- The cleanup of a dead owner goes on to the removal. -/
lemma cleanup_of_eligible (h : Eligible host before after directory discovered) :
    ∃ receipt, cleanupInstance host before after directory discovered =
      removeRegistration host directory discovered receipt := by
  obtain ⟨hgone, content, current, hheld, hfault, hparse, hsame, hgone'⟩ := h
  have hread := readFile_eq_ok.mpr ⟨hheld, hfault⟩
  unfold cleanupInstance
  dsimp only
  rw [hgone, hread]
  dsimp only
  rw [hparse]
  dsimp only
  rw [hsame, hgone']
  exact ⟨_, rfl⟩

omit [DecidableEq ε] in
/-- A registration that cannot be removed stays, and so do the files beside it. -/
lemma removeRegistration_of_fault {receipt : InstanceCleanupReceipt} {text : String}
    (hheld : directory discovered.path ≠ none) (h : host.removeFault discovered.path = some text) :
    (removeRegistration host directory discovered receipt).2 = directory := by
  obtain ⟨content, hcontent⟩ := Option.ne_none_iff_exists'.mp hheld
  unfold removeRegistration removeFile
  rw [hcontent, h]

omit [DecidableEq ε] in
/-- What is left once the registration is removed. -/
lemma removeRegistration_of_removable {receipt : InstanceCleanupReceipt}
    (h : host.removeFault discovered.path = none) :
    (removeRegistration host directory discovered receipt).2 =
      removeIntentionalShutdownMarkers host
        (cleanupMatchingLegacyAlias host (removeFile host directory discovered.path).2
          discovered).2 discovered.record.address discovered.record.serverScopeId := by
  unfold removeRegistration
  cases hremoved : removeFile host directory discovered.path with
  | mk removed directory' =>
    dsimp only
    split
    · rfl
    · rfl
    · -- the removal has no other error
      unfold removeFile at hremoved
      rw [h] at hremoved
      split at hremoved
      · cases hremoved
      · cases hremoved

omit [DecidableEq ε] in
/-- The alias is removed only when it is the one of the registration. -/
lemma alias_at (other : String) :
    (cleanupMatchingLegacyAlias host directory discovered).2 other = directory other ∨
      (cleanupMatchingLegacyAlias host directory discovered).2 other = none ∧
        other = legacyAlias discovered.record.pid ∧
        ∃ content, directory other = some content ∧ isMatchingAlias host discovered content = true := by
  unfold cleanupMatchingLegacyAlias
  split
  · exact .inl rfl
  · dsimp only
    split
    · exact .inl rfl
    · exact .inl rfl
    · rename_i content hread
      split
      · exact .inl rfl
      · rename_i hmatches
        rw [Bool.not_eq_true', Bool.not_eq_false] at hmatches
        have hheld := (readFile_eq_ok.mp hread).1
        dsimp only
        rw [removed_at]
        split
        · rename_i hother
          rw [hother.1]
          exact .inr ⟨rfl, rfl, content, hheld, hmatches⟩
        · exact .inl rfl

omit [DecidableEq ε] in
/-- Up to its alias, what a cleanup removes belongs to the registration. -/
lemma removed_own {directory' : Directory κ} {name : String}
    (hdirectory : directory' =
      (cleanupMatchingLegacyAlias host (removeFile host directory discovered.path).2 discovered).2) :
    directory' name = directory name ∨
      directory' name = none ∧ IsOwnFile host directory discovered name := by
  subst hdirectory
  rcases @alias_at ε κ host (removeFile host directory discovered.path).2 discovered name with
    hkept | ⟨hremoved, hname, content, hcontent, hmatches⟩
  · rw [hkept, removed_at]
    split
    · rename_i h
      rw [h.1]
      exact .inr ⟨rfl, .inl rfl⟩
    · exact .inl rfl
  · refine .inr ⟨hremoved, .inr (.inl ⟨hname, content, ?_, hmatches⟩)⟩
    rw [removed_at] at hcontent
    split at hcontent
    · cases hcontent
    · exact hcontent

variable (host before after directory discovered)

/-- A cleanup leaves the files of other servers alone exactly when the markers that it removes by name
are those of its own process. -/
theorem cleanup_touches_own_iff :
    TouchesOwn host before after directory discovered
        (cleanupInstance host before after directory discovered).2 ↔
      (Eligible host before after directory discovered →
        host.removeFault discovered.path = none → host.prepares = true →
          MarkersOwn host directory discovered) := by
  by_cases heligible : Eligible host before after directory discovered
  · obtain ⟨receipt, hcleanup⟩ := cleanup_of_eligible heligible
    have hheld : directory discovered.path ≠ none := by
      obtain ⟨_, content, current, hheld, _⟩ := heligible
      rw [hheld]
      exact Option.some_ne_none _
    rw [hcleanup]
    cases hfault : host.removeFault discovered.path with
    | some text =>
      rw [removeRegistration_of_fault hheld hfault]
      refine iff_of_true ⟨fun _ => rfl, fun _ => .inl rfl⟩ ?_
      intro _ hnone
      cases hnone
    | none =>
      rw [removeRegistration_of_removable hfault]
      constructor
      · intro htouches _ _ hprepares name hname hremovable content hcontent
        have hremoved := htouches.own name
        rw [removedMarkers_at, if_pos ⟨hprepares, hname, hremovable⟩, hcontent] at hremoved
        have hmarker := not_json_of_marker (mem_shutdownMarkerPaths hname)
        rcases hremoved with hkept | ⟨_, hpath | ⟨halias, _⟩ |
            ⟨-, held, marker, hheld, hparse, hpid⟩⟩
        · cases hkept
        · rw [hpath] at hmarker
          exact absurd discovered.isJson hmarker
        · rw [halias] at hmarker
          exact absurd (legacyAlias_json _) hmarker
        · rw [hcontent] at hheld
          rw [Option.some.inj hheld]
          exact ⟨marker, hparse, hpid⟩
      · intro hmarkers
        refine ⟨fun h => absurd heligible h, fun name => ?_⟩
        rw [removedMarkers_at]
        split
        · rename_i h
          obtain ⟨hprepares, hname, hremovable⟩ := h
          cases hcontent : directory name with
          | none => exact .inl rfl
          | some content =>
            obtain ⟨marker, hparse, hpid⟩ :=
              hmarkers heligible rfl hprepares name hname hremovable content hcontent
            exact .inr ⟨rfl, .inr (.inr ⟨hname, content, marker, hcontent, hparse, hpid⟩)⟩
        · exact removed_own rfl
  · rw [cleanup_of_ineligible heligible]
    refine iff_of_true ⟨fun _ => rfl, fun _ => .inl rfl⟩ ?_
    intro h
    exact absurd h heligible

end

/-! ### A marker of another server -/

/-- Server 41, which is gone; server 42 has its scope. -/
def goneServer : DiscoveredInstance String where
  record :=
    { schemaVersion := 2
      pid := 41
      address := "unix:/run/a.sock"
      endpoint := some "unix:/run/a.sock"
      logicalInstance := some .main
      serverScopeId := some ⟨"agt-v1-00000000000000000000000000000000"⟩
      session := "fleet"
      workspacePath := "workspace.json"
      startedAtUnixMs := 1
      processStartIdentity := some "start-41"
      leaseNonce := some "29-1-1"
      serverEpoch := some "epoch-41"
      testFixture := false }
  path := "41-29-1-1.json"
  isJson := by decide

/-- Every file can be read and removed; a registration reads as a marker with its own process. -/
def exampleHost : Host String (InstanceRecord String ⊕ IntentionalShutdown) where
  endpoints :=
    { fromLegacyAddress := fun _ => none
      legacyAddress := fun _ => none
      shown := fun endpoint => endpoint }
  parseRecord := Sum.elim .ok fun _ => .error "missing field schema_version"
  parseMarker := Sum.elim
    (fun record => some ⟨record.pid, record.address, record.serverScopeId⟩) some
  readFault := fun _ => none
  removeFault := fun _ => none
  prepares := true
  display := fun name => name
  nowUnixMs := 2

/-- The registration of server 41, and the marker that server 42 left for their scope. -/
def exampleDirectory : Directory (InstanceRecord String ⊕ IntentionalShutdown) := fun name =>
  if name = "41-29-1-1.json" then some (.inl goneServer.record)
  else if name = ".intentional-shutdown-scope-agt-v1-00000000000000000000000000000000.marker" then
    some (.inr ⟨42, "unix:/run/b.sock", some ⟨"agt-v1-00000000000000000000000000000000"⟩⟩)
  else none

theorem cleanup_removes_foreign_marker :
    ¬ TouchesOwn exampleHost (fun _ => .dead "no_such_process") (fun _ => .dead "no_such_process")
      exampleDirectory goneServer
      (cleanupInstance exampleHost (fun _ => .dead "no_such_process")
        (fun _ => .dead "no_such_process") exampleDirectory goneServer).2 := by
  intro htouches
  have hmarker := htouches.own ".intentional-shutdown-scope-agt-v1-00000000000000000000000000000000.marker"
  have hremoved : (cleanupInstance exampleHost (fun _ => .dead "no_such_process")
      (fun _ => .dead "no_such_process") exampleDirectory goneServer).2
      ".intentional-shutdown-scope-agt-v1-00000000000000000000000000000000.marker" = none := by
    decide
  have hheld : exampleDirectory ".intentional-shutdown-scope-agt-v1-00000000000000000000000000000000.marker" =
      some (.inr ⟨42, "unix:/run/b.sock", some ⟨"agt-v1-00000000000000000000000000000000"⟩⟩) := by
    decide
  rw [hremoved, hheld] at hmarker
  rcases hmarker with hkept | ⟨_, hpath | ⟨halias, _⟩ | ⟨-, content, marker, hcontent, hparse, hpid⟩⟩
  · cases hkept
  · exact absurd hpath (by decide)
  · exact absurd halias (by decide)
  · rw [hheld] at hcontent
    cases hcontent
    cases hparse
    exact absurd hpid (by decide)

end Agenterm.Instances
