import Agenterm.Cu.PrivilegeTree

/-!
# Plans and their validation

A plan that was made passes its validation from its issue to its expiry: a priority plan unless it
is for the process with id one, which the planner admits and the validator does not
(`priorityPlan_accepted_iff`), and a signal plan unless the start identity of its target is longer
than the validator allows (`signalPlan_accepted_iff`). The digests are taken over every field, so
an approval digest stands for one plan (`priority_eq_of_digest`, `signal_eq_of_digest`) of one kind
(`kinds_differ`).
-/

namespace Agenterm.Cu.Privilege

open Lib List

/-! ## The JSON of a plan determines it -/

lemma nat_json_inj {m n : Nat} : Value.nat m = Value.nat n ↔ m = n := by
  unfold Value.nat
  rw [Value.number.injEq]
  omega

lemma optionNat_json_inj {a b : Option Nat}
    (h : Value.option Value.nat a = Value.option Value.nat b) : a = b := by
  cases a with
  | none =>
    cases b with
    | none => rfl
    | some n => simp [Value.option, Value.nat] at h
  | some m =>
    cases b with
    | none => simp [Value.option, Value.nat] at h
    | some n => exact congrArg _ (nat_json_inj.mp h)

lemma ProcessTarget.json_inj {a b : ProcessTarget} (h : a.json = b.json) : a = b := by
  cases a
  cases b
  simpa [ProcessTarget.json, nat_json_inj] using h

lemma PrivilegeOperation.json_inj {a b : PrivilegeOperation} (h : a.json = b.json) : a = b := by
  cases a <;> cases b <;> first | rfl | simp [PrivilegeOperation.json] at h

lemma ProcessPriorityState.json_inj {a b : ProcessPriorityState} (h : a.json = b.json) :
    a = b := by
  cases a
  cases b
  simpa [ProcessPriorityState.json] using h

lemma ProcessSignalScope.json_inj {a b : ProcessSignalScope} (h : a.json = b.json) : a = b := by
  cases a <;> cases b <;> first | rfl | simp [ProcessSignalScope.json] at h

lemma ProcessSignalKind.json_inj {a b : ProcessSignalKind} (h : a.json = b.json) : a = b := by
  cases a <;> cases b <;> first | rfl | simp [ProcessSignalKind.json] at h

lemma ProcessSignalMember.json_inj {a b : ProcessSignalMember} (h : a.json = b.json) : a = b := by
  cases a with
  | mk pid depth parentPid startIdentity before =>
    cases b with
    | mk pid' depth' parentPid' startIdentity' before' =>
      simp only [ProcessSignalMember.json, ProcessSignalBeforeState.json, Value.object.injEq,
        List.cons.injEq, Prod.mk.injEq, true_and, and_true, nat_json_inj, Value.string.injEq,
        Value.bool.injEq] at h
      obtain ⟨rfl, rfl, hparent, rfl, hstopped⟩ := h
      have hparent' : parentPid = parentPid' := optionNat_json_inj hparent
      have hbefore : before = before' := by
        cases before
        cases before'
        simpa using hstopped
      rw [hparent', hbefore]

variable {checks force tree : Bool} {descendants expires limit now now' pid root timeout ttl : Nat}
  {scope : ProcessSignalScope} {signal : ProcessSignalKind} {snapshots : Nat → Snapshot}

variable {desired : Int} {issued later : Nat} {members : List ProcessSignalMember}
  {reads : PriorityReads} {snapshot : Snapshot}

lemma approvalJson_inj {a b : Value} {issued' expires' : Nat}
    (h : approvalJson a issued expires = approvalJson b issued' expires') :
    a = b ∧ issued = issued' ∧ expires = expires' := by
  simpa [approvalJson, nat_json_inj] using h

variable {δ : Type} {digestJson : Value → δ}

/-! ## What the validators accept -/

lemma validatePlanLifetime_ok_iff :
    validatePlanLifetime issued expires now = .ok () ↔
      issued + 1000 ≤ expires ∧ expires ≤ issued + 600000 ∧ issued ≤ now ∧ now ≤ expires := by
  unfold validatePlanLifetime MIN_PLAN_TTL_SECONDS MAX_PLAN_TTL_SECONDS
  rw [ite_error_eq_ok, ite_error_eq_ok, ite_error_eq_ok, ite_error_eq_ok]
  constructor
  · rintro ⟨horder, hlength, hfrom, hto, -⟩
    omega
  · intro h
    exact ⟨by omega, by omega, by omega, by omega, rfl⟩

/-- What a priority plan must be to be accepted. -/
structure PriorityAccepted (digestJson : Value → δ) (plan : ProcessPriorityPlan δ) (now : Nat) :
    Prop where
  schema : plan.schemaVersion = 1
  operation : plan.operation = .processSetPriority
  pid : 1 < plan.target.pid
  before : niceInRange plan.before.nice = true
  after : niceInRange plan.after.nice = true
  identity : validProcessStartIdentity plan.target.startIdentity = true
  read_only : plan.mutationPerformed = false
  lifetime : validatePlanLifetime plan.issuedAtUtcMs plan.expiresAtUtcMs now = .ok ()
  contract : digestJson plan.contract = plan.contractDigest
  approval : digestJson (approvalJson plan.contract plan.issuedAtUtcMs plan.expiresAtUtcMs) =
    plan.approvalDigest

lemma validatePriority_ok_iff [DecidableEq δ] {plan : ProcessPriorityPlan δ} :
    validateProcessPriorityPlan digestJson plan now = .ok () ↔
      PriorityAccepted digestJson plan now := by
  unfold validateProcessPriorityPlan
  rw [ite_error_eq_ok, bind_unit_eq_ok, ite_error_eq_ok]
  constructor
  · rintro ⟨hshape, hlifetime, hdigests, -⟩
    simp only [not_or, not_not, not_le, Bool.not_eq_true', Bool.not_eq_false,
      Bool.not_eq_true] at hshape hdigests
    obtain ⟨hschema, hoperation, hpid, hbefore, hafter, hidentity, hread⟩ := hshape
    exact ⟨hschema, hoperation, hpid, hbefore, hafter, hidentity, hread, hlifetime, hdigests.1,
      hdigests.2⟩
  · intro h
    have hpid := h.pid
    refine ⟨?_, h.lifetime, ?_, rfl⟩
    · simp [h.schema, h.operation, h.before, h.after, h.identity, h.read_only, hpid]
    · simp [h.contract, h.approval]

/-- What a signal plan must be to be accepted. -/
structure SignalAccepted (digestJson : Value → δ) (checks : Bool) (plan : ProcessSignalPlan δ)
    (now : Nat) : Prop where
  schema : plan.schemaVersion = 1
  operation : plan.operation = .processSignal
  pid : 1 < plan.target.pid
  identity : plan.target.startIdentity.isEmpty = false
  identity_size : plan.target.startIdentity.utf8ByteSize ≤ 256
  timeout : 1 ≤ plan.timeoutMs ∧ plan.timeoutMs ≤ PROCESS_SIGNAL_TIMEOUT_MS_MAX
  descendants : 1 ≤ plan.maxDescendants ∧ plan.maxDescendants ≤ PROCESS_SIGNAL_TREE_MAX_DESCENDANTS
  force : decide (plan.signal = .kill) = plan.force
  no_consent : plan.consentRequested = false
  read_only : plan.mutationPerformed = false
  members : validSignalMembers checks plan = some true
  lifetime : validatePlanLifetime plan.issuedAtUtcMs plan.expiresAtUtcMs now = .ok ()
  contract : digestJson (signalContractProjection plan) = plan.contractDigest
  approval : digestJson (approvalJson (signalContractProjection plan) plan.issuedAtUtcMs
    plan.expiresAtUtcMs) = plan.approvalDigest

/-- Validation accepts exactly the plans that meet every check. -/
lemma validateSignal_ok_iff [DecidableEq δ] {plan : ProcessSignalPlan δ} :
    validateProcessSignalPlan digestJson checks plan now = some (.ok ()) ↔
      SignalAccepted digestJson checks plan now := by
  unfold validateProcessSignalPlan
  constructor
  · intro h
    dsimp only at h
    split at h
    · cases h
    · rename_i hshape
      simp only [ne_eq, not_or, not_not, not_le, not_lt, Bool.not_eq_true] at hshape
      obtain ⟨hschema, hoperation, hpid, hidentity, hsize, htimeout, htimeout', hdescendants,
        hdescendants', hforce, hconsent, hread⟩ := hshape
      obtain ⟨valid, hvalid, h⟩ := Option.map_eq_some_iff.mp h
      cases valid with
      | false => simp at h
      | true =>
        rw [if_neg (by simp), bind_unit_eq_ok, ite_error_eq_ok] at h
        obtain ⟨hlifetime, hdigests, -⟩ := h
        simp only [ne_eq, not_or, not_not] at hdigests
        exact {
          schema := hschema
          operation := hoperation
          pid := hpid
          identity := hidentity
          identity_size := hsize
          timeout := ⟨by omega, htimeout'⟩
          descendants := ⟨hdescendants, hdescendants'⟩
          force := hforce
          no_consent := hconsent
          read_only := hread
          members := hvalid
          lifetime := hlifetime
          contract := hdigests.1
          approval := hdigests.2 }
  · intro h
    have hpid := h.pid
    have hsize := h.identity_size
    have htimeout := h.timeout
    have hdescendants := h.descendants
    dsimp only
    rw [if_neg, h.members, Option.map_some, if_neg (by simp), h.lifetime]
    · simp only [h.contract, h.approval]
      simp [bind, Except.bind]
    · simp only [h.schema, h.operation, h.identity, h.force, h.no_consent, h.read_only]
      simp
      omega

/-! ## Plans are accepted -/

lemma planExpiry_ok (h : planExpiry now ttl = .ok expires) : expires = now + ttl * 1000 := by
  unfold planExpiry at h
  rw [ite_error_eq_ok, ite_error_eq_ok] at h
  exact (Except.ok.inj h.2.2).symm

lemma lifetime_of_ttl {at_ : Nat} (hmin : MIN_PLAN_TTL_SECONDS ≤ ttl)
    (hmax : ttl ≤ MAX_PLAN_TTL_SECONDS) (hexpires : expires = now + ttl * 1000)
    (hfrom : now ≤ at_) (hto : at_ ≤ expires) : validatePlanLifetime now expires at_ = .ok () := by
  rw [validatePlanLifetime_ok_iff]
  unfold MIN_PLAN_TTL_SECONDS at hmin
  unfold MAX_PLAN_TTL_SECONDS at hmax
  omega

/-- What a priority plan was made of. -/
lemma processPriorityPlan_ok {plan : ProcessPriorityPlan δ}
    (h : processPriorityPlan digestJson reads pid desired ttl now = .ok plan) :
    pid ≠ 0 ∧ niceInRange desired = true ∧ MIN_PLAN_TTL_SECONDS ≤ ttl ∧
      ttl ≤ MAX_PLAN_TTL_SECONDS ∧ ∃ identity nice,
        reads.beforeIdentity = .live (some identity) ∧ reads.beforeNice = .ok nice ∧
        plan = priorityPlanOf digestJson ⟨pid, identity⟩ ⟨nice⟩ ⟨desired⟩ now
          (now + ttl * 1000) := by
  unfold processPriorityPlan at h
  rw [ite_error_eq_ok, ite_error_eq_ok, ite_error_eq_ok] at h
  obtain ⟨hpid, hdesired, httl, h⟩ := h
  obtain ⟨expires, hexpires, h⟩ := bind_eq_ok.mp h
  obtain ⟨identity, hidentity, h⟩ := bind_eq_ok.mp h
  obtain ⟨nice, hnice, h⟩ := bind_eq_ok.mp h
  obtain ⟨nice', -, h⟩ := bind_eq_ok.mp h
  obtain ⟨identity', -, h⟩ := bind_eq_ok.mp h
  rw [ite_error_eq_ok] at h
  rw [not_or, not_lt, not_lt] at httl
  refine ⟨hpid, by simpa using hdesired, httl.1, httl.2, identity, nice, ?_, ?_, ?_⟩
  · exact liveStartIdentity_ok hidentity
  · cases hread : reads.beforeNice with
    | ok value =>
      rw [hread] at hnice
      exact congrArg _ (Except.ok.inj hnice)
    | error kind => simp [hread, readNice, readMetric] at hnice
  · rw [← planExpiry_ok hexpires]
    exact (Except.ok.inj h.2).symm

/-- **Priority plans** are accepted, from their issue to their expiry, except for the process with
id one. -/
theorem priorityPlan_accepted_iff [DecidableEq δ] {plan : ProcessPriorityPlan δ}
    (hidentity : ∀ identity, reads.beforeIdentity = .live (some identity) →
      validProcessStartIdentity identity = true)
    (hnice : ∀ nice, reads.beforeNice = .ok nice → niceInRange nice = true)
    (h : processPriorityPlan digestJson reads pid desired ttl now = .ok plan)
    (hfrom : plan.issuedAtUtcMs ≤ later) (hto : later ≤ plan.expiresAtUtcMs) :
    validateProcessPriorityPlan digestJson plan later = .ok () ↔ pid ≠ 1 := by
  obtain ⟨hpid, hdesired, hmin, hmax, identity, nice, hread, hnice', rfl⟩ :=
    processPriorityPlan_ok h
  rw [validatePriority_ok_iff]
  constructor
  · intro haccepted hone
    have hgt : 1 < pid := haccepted.pid
    omega
  · intro hne
    exact {
      schema := rfl
      operation := rfl
      pid := by
        show 1 < pid
        omega
      before := hnice nice hnice'
      after := hdesired
      identity := hidentity identity hread
      read_only := rfl
      lifetime := lifetime_of_ttl hmin hmax rfl hfrom hto
      contract := rfl
      approval := rfl }

/-! ## Signal plans are accepted -/

lemma validateProcessSignalInputs_ok
    (h : validateProcessSignalInputs pid signal force timeout descendants ttl = .ok ()) :
    decide (signal = .kill) = force ∧ (1 ≤ timeout ∧ timeout ≤ PROCESS_SIGNAL_TIMEOUT_MS_MAX) ∧
      (1 ≤ descendants ∧ descendants ≤ PROCESS_SIGNAL_TREE_MAX_DESCENDANTS) ∧
      MIN_PLAN_TTL_SECONDS ≤ ttl ∧ ttl ≤ MAX_PLAN_TTL_SECONDS := by
  unfold validateProcessSignalInputs at h
  rw [ite_error_eq_ok, ite_error_eq_ok, ite_error_eq_ok, ite_error_eq_ok,
    ite_error_eq_ok] at h
  obtain ⟨-, hforce, htimeout, hdescendants, httl, -⟩ := h
  exact ⟨not_not.mp hforce, by omega, by omega, by omega⟩

/-- What a signal plan was made of: members that pass the check, and the digests of the plan. -/
structure SignalBuilt (digestJson : Value → δ) (checks : Bool) (plan : ProcessSignalPlan δ)
    (now ttl : Nat) : Prop where
  schema : plan.schemaVersion = 1
  operation : plan.operation = .processSignal
  timeout : 1 ≤ plan.timeoutMs ∧ plan.timeoutMs ≤ PROCESS_SIGNAL_TIMEOUT_MS_MAX
  descendants : 1 ≤ plan.maxDescendants ∧ plan.maxDescendants ≤ PROCESS_SIGNAL_TREE_MAX_DESCENDANTS
  force : decide (plan.signal = .kill) = plan.force
  no_consent : plan.consentRequested = false
  read_only : plan.mutationPerformed = false
  members : validSignalMembers checks plan = some true
  issued : plan.issuedAtUtcMs = now
  expires : plan.expiresAtUtcMs = now + ttl * 1000
  ttl_min : MIN_PLAN_TTL_SECONDS ≤ ttl
  ttl_max : ttl ≤ MAX_PLAN_TTL_SECONDS
  contract : digestJson (signalContractProjection plan) = plan.contractDigest
  approval : digestJson (approvalJson (signalContractProjection plan) plan.issuedAtUtcMs
    plan.expiresAtUtcMs) = plan.approvalDigest

/-- What is known of a plan that the planner has made. -/
lemma processSignalPlan_ok {empty : δ} {plan : ProcessSignalPlan δ}
    (h : processSignalPlan digestJson checks empty snapshots pid signal force tree timeout
      descendants ttl now = some (.ok plan)) : SignalBuilt digestJson checks plan now ttl := by
  unfold processSignalPlan at h
  split at h
  · simp at h
  · rename_i hinputs
    obtain ⟨hforce, htimeout, hdescendants, hmin, hmax⟩ := validateProcessSignalInputs_ok hinputs
    split at h
    · simp at h
    · rename_i expires hexpires
      dsimp only at h
      split at h
      · cases h
      · simp at h
      · rename_i members _
        unfold buildProcessSignalPlan at h
        split at h
        · simp at h
        · rename_i root _
          dsimp only at h
          obtain ⟨valid, hvalid, h⟩ := Option.map_eq_some_iff.mp h
          cases valid with
          | false => simp at h
          | true =>
            rw [if_neg (by simp), Except.ok.injEq] at h
            subst h
            exact {
              schema := rfl
              operation := rfl
              timeout := htimeout
              descendants := hdescendants
              force := hforce
              no_consent := rfl
              read_only := rfl
              members := hvalid
              issued := rfl
              expires := planExpiry_ok hexpires
              ttl_min := hmin
              ttl_max := hmax
              contract := rfl
              approval := rfl }

lemma validIdentity_nonempty {identity : String} (h : validProcessStartIdentity identity = true) :
    identity.isEmpty = false := by
  by_contra hempty
  have hnil : identity = "" := by
    rw [Bool.not_eq_false] at hempty
    exact String.isEmpty_iff.mp hempty
  rw [hnil] at h
  revert h
  decide

/-! ### The target of a signal plan -/

/-- Members were observed in one of the attempts. -/
lemma observeAttempts_ok {left attempt : Nat} {previous : Option (List ProcessSignalMember)}
    (h : observeAttempts snapshots root scope limit left attempt previous = some (.ok members)) :
    ∃ k < attempt + left,
      observeSignalMembersOnce (snapshots k) root scope limit = some (.ok members) := by
  induction left generalizing attempt previous with
  | zero => simp [observeAttempts] at h
  | succ left ih =>
    unfold observeAttempts at h
    split at h
    · cases h
    · cases h
    · rename_i current hcurrent
      split at h
      · rw [Option.some.injEq, Except.ok.injEq] at h
        exact ⟨attempt, by omega, h ▸ hcurrent⟩
      · obtain ⟨k, hk, hobserved⟩ := ih h
        exact ⟨k, by omega, hobserved⟩

/-- Only the root is at depth zero of the scope. -/
lemma scopeIds_root {ids : List (BreadthFirst.Found Nat)}
    (h : scopeIds snapshot root scope limit = some (.ok ids)) :
    ∀ e ∈ ids, e.depth = 0 → e.node = root := by
  intro e he hdepth
  cases scope with
  | single =>
    rw [scopeIds, Option.some.injEq, Except.ok.injEq] at h
    subst h
    rw [mem_singleton.mp he]
    rfl
  | tree =>
    obtain ⟨rows, -, -, htree⟩ := signalTreeIds_ok h
    rcases htree.parents e he with hroot | ⟨f, -, -, hstep, -⟩
    · rw [hroot]
      rfl
    · omega

/-- The member at depth zero is the root, with the identity that was read of it. -/
lemma observedRoot (h : observeSignalMembersOnce snapshot root scope limit = some (.ok members))
    {m : ProcessSignalMember} (hm : m ∈ members) (hdepth : m.depth = 0) :
    m.pid = root ∧ (snapshot.reads root).beforeIdentity = .live (some m.startIdentity) := by
  obtain ⟨found, hids, h⟩ := Option.map_eq_some_iff.mp h
  obtain ⟨ids, rfl, h⟩ := bind_eq_ok.mp h
  obtain ⟨observed, hstands, rfl⟩ := observeIds_ok h
  rw [sortMembers, mem_insertionSort] at hm
  obtain ⟨e, he, hfor⟩ : ∃ e ∈ ids, StandsFor snapshot e m := by
    obtain ⟨hlength, hget⟩ := forall₂_iff_get.mp hstands
    obtain ⟨i, rfl⟩ := mem_iff_get.mp hm
    have hi : i.val < ids.length := by omega
    exact ⟨ids.get ⟨i, hi⟩, get_mem _ _, hget i hi i.isLt⟩
  have hnode : e.node = root := scopeIds_root hids e he (hfor.depth ▸ hdepth)
  exact ⟨hfor.pid.trans hnode, hnode ▸ hfor.identity⟩

/-- The target of a plan is the process that was asked for, with the identity read in one of the
attempts. -/
lemma processSignalPlan_target {empty : δ} {plan : ProcessSignalPlan δ}
    (h : processSignalPlan digestJson checks empty snapshots pid signal force tree timeout
      descendants ttl now = some (.ok plan)) :
    plan.target.pid = pid ∧ ∃ attempt < PROCESS_SIGNAL_SNAPSHOT_ATTEMPTS,
      ((snapshots attempt).reads pid).beforeIdentity = .live (some plan.target.startIdentity) := by
  unfold processSignalPlan at h
  split at h
  · simp at h
  · split at h
    · simp at h
    · dsimp only at h
      split at h
      · cases h
      · simp at h
      · rename_i members hmembers
        obtain ⟨attempt, hattempt, honce⟩ := observeAttempts_ok hmembers
        unfold buildProcessSignalPlan at h
        split at h
        · simp at h
        · rename_i root hroot
          have hmem := mem_of_find?_eq_some hroot
          have hdepth : root.depth = 0 := by simpa using List.find?_some hroot
          obtain ⟨hpid, hread⟩ := observedRoot honce hmem hdepth
          dsimp only at h
          obtain ⟨valid, -, h⟩ := Option.map_eq_some_iff.mp h
          cases valid with
          | false => simp at h
          | true =>
            rw [if_neg (by simp), Except.ok.injEq] at h
            subst h
            exact ⟨hpid, attempt, by simpa using hattempt, hread⟩

/-- **Signal plans** are accepted, from their issue to their expiry, exactly when the start
identity of the target has at most 256 bytes. -/
theorem signalPlan_accepted_iff [DecidableEq δ] {empty : δ} {plan : ProcessSignalPlan δ}
    (h : processSignalPlan digestJson checks empty snapshots pid signal force tree timeout
      descendants ttl now = some (.ok plan)) (hfrom : plan.issuedAtUtcMs ≤ later)
    (hto : later ≤ plan.expiresAtUtcMs) :
    validateProcessSignalPlan digestJson checks plan later = some (.ok ()) ↔
      plan.target.startIdentity.utf8ByteSize ≤ 256 := by
  have hbuilt := processSignalPlan_ok h
  rw [validateSignal_ok_iff]
  constructor
  · exact fun haccepted => haccepted.identity_size
  · intro hsize
    have htree := rootedTree_of_valid hbuilt.members
    obtain ⟨root, hroot, -, -, hpid, hidentity, -⟩ := htree.root
    have hformed := htree.formed root hroot
    have hissued := hbuilt.issued
    exact {
      schema := hbuilt.schema
      operation := hbuilt.operation
      pid := hpid ▸ hformed.pid_gt
      identity := hidentity ▸ validIdentity_nonempty hformed.identity
      identity_size := hsize
      timeout := hbuilt.timeout
      descendants := hbuilt.descendants
      force := hbuilt.force
      no_consent := hbuilt.no_consent
      read_only := hbuilt.read_only
      members := hbuilt.members
      lifetime := by
        rw [hissued] at hfrom ⊢
        exact lifetime_of_ttl hbuilt.ttl_min hbuilt.ttl_max hbuilt.expires hfrom hto
      contract := hbuilt.contract
      approval := hbuilt.approval }

/-! ## One plan for a digest -/

variable [DecidableEq δ]

theorem priority_eq_of_digest (hdigest : Function.Injective digestJson)
    {p q : ProcessPriorityPlan δ} (hp : validateProcessPriorityPlan digestJson p now = .ok ())
    (hq : validateProcessPriorityPlan digestJson q now' = .ok ())
    (hsame : p.approvalDigest = q.approvalDigest) : p = q := by
  rw [validatePriority_ok_iff] at hp hq
  rw [← hp.approval, ← hq.approval] at hsame
  obtain ⟨hcontract, hissued, hexpires⟩ := approvalJson_inj (hdigest hsame)
  have hcontract' := hp.contract.symm.trans ((congrArg digestJson hcontract).trans hq.contract)
  have happroval := hp.approval.symm.trans ((hdigest.eq_iff.mpr (hdigest hsame)).trans hq.approval)
  have hread := hp.read_only.trans hq.read_only.symm
  simp only [ProcessPriorityPlan.contract, priorityContractJson, Value.object.injEq,
    List.cons.injEq, Prod.mk.injEq, true_and, and_true, nat_json_inj] at hcontract
  obtain ⟨hschema, hoperation, htarget, hbefore, hafter⟩ := hcontract
  cases p
  cases q
  rw [ProcessPriorityPlan.mk.injEq]
  exact ⟨hschema, PrivilegeOperation.json_inj hoperation, ProcessTarget.json_inj htarget,
    ProcessPriorityState.json_inj hbefore, ProcessPriorityState.json_inj hafter, hissued, hexpires,
    hcontract', happroval, hread⟩

theorem signal_eq_of_digest (hdigest : Function.Injective digestJson) {p q : ProcessSignalPlan δ}
    (hp : validateProcessSignalPlan digestJson checks p now = some (.ok ()))
    (hq : validateProcessSignalPlan digestJson checks q now' = some (.ok ()))
    (hsame : p.approvalDigest = q.approvalDigest) : p = q := by
  rw [validateSignal_ok_iff] at hp hq
  rw [← hp.approval, ← hq.approval] at hsame
  obtain ⟨hcontract, hissued, hexpires⟩ := approvalJson_inj (hdigest hsame)
  have hcontract' := hp.contract.symm.trans ((congrArg digestJson hcontract).trans hq.contract)
  have happroval := hp.approval.symm.trans ((hdigest.eq_iff.mpr (hdigest hsame)).trans hq.approval)
  have hconsent := hp.no_consent.trans hq.no_consent.symm
  have hread := hp.read_only.trans hq.read_only.symm
  simp only [signalContractProjection, Value.object.injEq, List.cons.injEq, Prod.mk.injEq,
    true_and, and_true, nat_json_inj, Value.bool.injEq, Value.array.injEq] at hcontract
  obtain ⟨hschema, hoperation, htarget, hscope, hsignal, hforce, htimeout, hdescendants,
    hmembers⟩ := hcontract
  have hmembers' : p.members = q.members :=
    map_injective_iff.mpr (fun _ _ => ProcessSignalMember.json_inj) hmembers
  cases p
  cases q
  rw [ProcessSignalPlan.mk.injEq]
  exact ⟨hschema, PrivilegeOperation.json_inj hoperation, ProcessTarget.json_inj htarget,
    ProcessSignalScope.json_inj hscope, ProcessSignalKind.json_inj hsignal, hforce, htimeout,
    hdescendants, hmembers', hissued, hexpires, hcontract', happroval, hconsent, hread⟩

/-- A digest does not stand for plans of both kinds. -/
theorem kinds_differ (hdigest : Function.Injective digestJson) {p : ProcessPriorityPlan δ}
    {q : ProcessSignalPlan δ} (hp : validateProcessPriorityPlan digestJson p now = .ok ())
    (hq : validateProcessSignalPlan digestJson checks q now' = some (.ok ())) :
    p.approvalDigest ≠ q.approvalDigest := by
  intro hsame
  rw [validatePriority_ok_iff] at hp
  rw [validateSignal_ok_iff] at hq
  rw [← hp.approval, ← hq.approval] at hsame
  obtain ⟨hcontract, -, -⟩ := approvalJson_inj (hdigest hsame)
  simp [ProcessPriorityPlan.contract, priorityContractJson, signalContractProjection] at hcontract

/-! ## Plans and digests together -/

/-- The platform reports start identities of the known formats, and nice values in their range. -/
structure PriorityReads.Admitted (reads : PriorityReads) : Prop where
  identity : ∀ identity, reads.beforeIdentity = .live (some identity) →
    validProcessStartIdentity identity = true
  nice : ∀ nice, reads.beforeNice = .ok nice → niceInRange nice = true

/-- **Plans and their validators.** A priority plan is accepted until it expires, unless it is for
the process with id one. A signal plan is accepted until it expires if the identity that was read
of its root, in one of the attempts, has at most 256 bytes. And an approval digest stands for one
plan. -/
theorem plans_validate (hdigest : Function.Injective digestJson) :
    (∀ (reads : PriorityReads) (pid ttl now later : Nat) (desired : Int)
      (plan : ProcessPriorityPlan δ), reads.Admitted →
      processPriorityPlan digestJson reads pid desired ttl now = .ok plan →
      plan.issuedAtUtcMs ≤ later → later ≤ plan.expiresAtUtcMs →
      (validateProcessPriorityPlan digestJson plan later = .ok () ↔ pid ≠ 1)) ∧
    (∀ (checks : Bool) (empty : δ) (snapshots : Nat → Snapshot)
      (pid timeout descendants ttl now later : Nat) (signal : ProcessSignalKind)
      (force tree : Bool) (plan : ProcessSignalPlan δ),
      processSignalPlan digestJson checks empty snapshots pid signal force tree timeout
        descendants ttl now = some (.ok plan) →
      plan.issuedAtUtcMs ≤ later → later ≤ plan.expiresAtUtcMs →
      ∃ attempt < PROCESS_SIGNAL_SNAPSHOT_ATTEMPTS, ∃ identity,
        ((snapshots attempt).reads pid).beforeIdentity = .live (some identity) ∧
        plan.target = ⟨pid, identity⟩ ∧
        (validateProcessSignalPlan digestJson checks plan later = some (.ok ()) ↔
          identity.utf8ByteSize ≤ 256)) ∧
    (∀ (p q : ProcessPriorityPlan δ) (now now' : Nat),
      validateProcessPriorityPlan digestJson p now = .ok () →
      validateProcessPriorityPlan digestJson q now' = .ok () →
      p.approvalDigest = q.approvalDigest → p = q) ∧
    (∀ (checks : Bool) (p q : ProcessSignalPlan δ) (now now' : Nat),
      validateProcessSignalPlan digestJson checks p now = some (.ok ()) →
      validateProcessSignalPlan digestJson checks q now' = some (.ok ()) →
      p.approvalDigest = q.approvalDigest → p = q) ∧
    (∀ (checks : Bool) (p : ProcessPriorityPlan δ) (q : ProcessSignalPlan δ) (now now' : Nat),
      validateProcessPriorityPlan digestJson p now = .ok () →
      validateProcessSignalPlan digestJson checks q now' = some (.ok ()) →
      p.approvalDigest ≠ q.approvalDigest) := by
  refine ⟨?_, ?_, ?_, ?_, ?_⟩
  · intro reads pid ttl now later desired plan hreads hplan hfrom hto
    exact priorityPlan_accepted_iff hreads.identity hreads.nice hplan hfrom hto
  · intro checks empty snapshots pid timeout descendants ttl now later signal force tree plan hplan
      hfrom hto
    obtain ⟨hpid, attempt, hattempt, hread⟩ := processSignalPlan_target hplan
    refine ⟨attempt, hattempt, plan.target.startIdentity, hread, ?_, ?_⟩
    · rw [← hpid]
    · exact signalPlan_accepted_iff hplan hfrom hto
  · intro p q now now' hp hq
    exact priority_eq_of_digest hdigest hp hq
  · intro checks p q now now' hp hq
    exact signal_eq_of_digest hdigest hp hq
  · intro checks p q now now' hp hq
    exact kinds_differ hdigest hp hq

/-- What is read of a live process that does not change. -/
def steadyReads : PriorityReads where
  beforeIdentity := .live (some "proc-start-ticks:1")
  beforeNice := .ok 0
  afterNice := .ok 0
  afterIdentity := .live (some "proc-start-ticks:1")

/-- The plan for these reads, with documents for their digests. -/
def steadyPlan (pid : Nat) : ProcessPriorityPlan Value :=
  priorityPlanOf id ⟨pid, "proc-start-ticks:1"⟩ ⟨0⟩ ⟨5⟩ 1000 121000

lemma steadyReads_admitted : steadyReads.Admitted where
  identity := by
    intro identity h
    rw [steadyReads, ProcessObservation.live.injEq, Option.some.injEq] at h
    rw [← h]
    decide
  nice := by
    intro nice h
    rw [steadyReads, Except.ok.injEq] at h
    rw [← h]
    decide

/-- A process with one child; both have this identity in every attempt. -/
def steadySnapshot : Snapshot where
  inventory := .ok [⟨2, 1, "shell"⟩, ⟨3, 2, "worker"⟩]
  reads _ := ⟨.live (some "proc-start-ticks:1"), .ok false, .ok false,
    .live (some "proc-start-ticks:1")⟩

open Classical in
theorem plans_validate_steady :
    validateProcessPriorityPlan id (steadyPlan 2) 1001 = .ok () ∧
      ∃ plan, processSignalPlan id true .null (fun _ => steadySnapshot) 2 .terminate false true
          1000 4 120 1000 = some (.ok plan) ∧
        validateProcessSignalPlan id true plan 1001 = some (.ok ()) := by
  obtain ⟨hpriority, hsignal, -⟩ := plans_validate (δ := Value) Function.injective_id
  refine ⟨(hpriority steadyReads 2 120 1000 1001 5 (steadyPlan 2) steadyReads_admitted rfl
    (by decide) (by decide)).mpr (by decide), _, rfl, ?_⟩
  obtain ⟨attempt, -, identity, hread, -, haccepted⟩ := hsignal true .null
    (fun _ => steadySnapshot) 2 1000 4 120 1000 1001 .terminate false true _ rfl (by decide)
    (by decide)
  rw [haccepted]
  obtain rfl : "proc-start-ticks:1" = identity := by
    injection hread with hidentity
    injection hidentity
  decide

open Classical in
/-- The planner admits the process with id one, which the validator refuses. -/
theorem first_process_refused :
    steadyReads.Admitted ∧
      processPriorityPlan id steadyReads 1 5 120 1000 = .ok (steadyPlan 1) ∧
      validateProcessPriorityPlan id (steadyPlan 1) 1001 =
        .error ⟨"privilege_plan_invalid", "privilege plan has an invalid closed shape"⟩ :=
  ⟨steadyReads_admitted, rfl, rfl⟩

end Agenterm.Cu.Privilege
