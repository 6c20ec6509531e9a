import Agenterm.Lib.Maps
import Agenterm.Qjswasm.ChildRegistry
import Mathlib.Data.List.Induction

/-!
# Handles of children

Runs of operations with any handles, from a new registry. `step_change` says once what an operation
may do to the table and which children it reaches; `Sound` is what holds after every run, and
`phase_of_launch` follows one child from its start through its wait to its release.
`child_handles` is the main result.
-/

namespace Agenterm.Qjswasm

open Std List Lib
open ChildRegistry hiding read

/-! ## What operations may do -/

/-- A child that was started, the handle that was returned for it, and its frozen identity. -/
structure Launch (Child : Type) where
  id : Int
  child : Child
  frozen : Option FrozenProcessIdentity

variable {answer : Except String String} {finish : Option (Except String String)}
  {frozen : Option FrozenProcessIdentity} {held : UInt32} {timeoutMs : Int}

section
variable {Child : Type}

/-- The handle that an operation is about. -/
def Op.handle : Op Child → Option Int
  | .spawn .. | .spawnFrozen .. => none
  | .identity handle | .state handle _ _ | .kill handle _ | .release handle | .wait handle _ _
  | .pid handle | .read handle _ _ _ _ _ => some handle

/-- The child that the platform starts for an operation. -/
def Op.started : Op Child → Option (Child × Option FrozenProcessIdentity)
  | .spawn _ (.ok child) => some (child, none)
  | .spawnFrozen _ (.ok (child, frozen)) => some (child, some frozen)
  | _ => none

/-- The child that an operation has started, by its reply. -/
def Op.launched (op : Op Child) : Reply → Option (Launch Child)
  | .number id => op.started.map fun found => ⟨id, found.1, found.2⟩
  | _ => none

/-- A wait that is not refused for its timeout. -/
def Op.waitsFor (handle : Int) : Op Child → Prop
  | .wait waited timeoutMs _ => waited = handle ∧ 0 ≤ timeoutMs
  | _ => False

/-- The slot of a child that was started. -/
def Handle.Is (pid : Child → UInt32) (launch : Launch Child) : Handle Child → Prop
  | .running held => held.child = launch.child ∧ held.frozen = launch.frozen
  | .done held _ frozen => held = pid launch.child ∧ frozen = launch.frozen

/-- The effects of an operation are on the child that is running under its handle. -/
def ReachesOwn (registry : ChildRegistry Child) (op : Op Child) (effects : List (Effect Child)) :
    Prop :=
  ∀ effect ∈ effects, ∃ handle running, op.handle = some handle ∧
    registry.live[handle]? = some (.running running) ∧ effect.child = running.child

/-- What an operation may do. -/
inductive Change (pid : Child → UInt32) (registry : ChildRegistry Child) :
    Op Child → Result Child → Prop
  | kept (op : Op Child) (reply : Reply) (effects : List (Effect Child))
    (none_launched : op.launched reply = none) (reaches : ReachesOwn registry op effects) :
    Change pid registry op ⟨registry, reply, effects⟩
  /-- An id was reserved, and no child started. -/
  | reserved (op : Op Child) (door message : String) (id : Int) (reserved : ChildRegistry Child)
    (reserve : registry.reserveId door = .ok (id, reserved)) :
    Change pid registry op ⟨reserved, .error message, []⟩
  | launched (op : Op Child) (door : String) (launch : Launch Child) (running : Running Child)
    (reserved : ChildRegistry Child) (reserve : registry.reserveId door = .ok (launch.id, reserved))
    (is_launched : op.launched (.number launch.id) = some launch)
    (is_launch : (Handle.running running).Is pid launch) :
    Change pid registry op
      ⟨reserved.insert launch.id (.running running), .number launch.id, [.launch launch.child]⟩
  | updated (op : Op Child) (handle : Int) (running running' : Running Child) (reply : Reply)
    (effects : List (Effect Child)) (held : registry.live[handle]? = some (.running running))
    (same_child : running'.child = running.child) (same_frozen : running'.frozen = running.frozen)
    (none_launched : op.launched reply = none) (reaches : ReachesOwn registry op effects) :
    Change pid registry op ⟨registry.insert handle (.running running'), reply, effects⟩
  | waited (op : Op Child) (handle : Int) (running : Running Child)
    (answer : Except String String) (reply : Reply)
    (held : registry.live[handle]? = some (.running running)) (waits : op.waitsFor handle)
    (answered : reply = .ofText answer ∨ reply = .panicked) :
    Change pid registry op
      ⟨registry.insert handle (.done (pid running.child) answer running.frozen), reply,
        [.finish running.child]⟩
  | released (handle : Int) (held : UInt32) (answer : Except String String)
    (frozen : Option FrozenProcessIdentity)
    (is_done : registry.live[handle]? = some (.done held answer frozen)) :
    Change pid registry (.release handle)
      ⟨{ registry with live := registry.live.erase handle }, .text "", []⟩

section
variable {pid : Child → UInt32} {registry : ChildRegistry Child}

lemma reachesOwn_nil (op : Op Child) : ReachesOwn registry op [] :=
  fun _ h => absurd h not_mem_nil

lemma reachesOwn_of_running {op : Op Child} {handle : Int} {running : Running Child}
    {effects : List (Effect Child)} (hhandle : op.handle = some handle)
    (hheld : registry.live[handle]? = some (.running running))
    (heffects : ∀ effect ∈ effects, effect.child = running.child) :
    ReachesOwn registry op effects :=
  fun effect heffect => ⟨handle, running, hhandle, hheld, heffects effect heffect⟩

lemma launched_eq_none {op : Op Child} {handle : Int} (h : op.handle = some handle)
    (reply : Reply) : op.launched reply = none := by
  have hstarted : op.started = none := by
    cases op with
    | spawn spec started => cases h
    | spawnFrozen spec started => cases h
    | _ => rfl
  unfold Op.launched
  rw [hstarted]
  cases reply <;> rfl

lemma launched_error (op : Op Child) (message : String) :
    op.launched (.error message) = none := rfl

/-- An operation that leaves the table and touches no child. -/
lemma change_kept {op : Op Child} {handle : Int} (h : op.handle = some handle) (reply : Reply) :
    Change pid registry op ⟨registry, reply, []⟩ :=
  .kept op reply [] (launched_eq_none h reply) (reachesOwn_nil op)

lemma enforceDeadline_spec (running : Running Child) (elapsedMs : Nat) :
    (running.enforceDeadline elapsedMs).1.child = running.child ∧
      (running.enforceDeadline elapsedMs).1.frozen = running.frozen ∧
      ∀ effect ∈ (running.enforceDeadline elapsedMs).2, effect.child = running.child := by
  unfold Running.enforceDeadline
  split
  · refine ⟨rfl, rfl, fun effect heffect => ?_⟩
    rw [mem_singleton.mp heffect]
    rfl
  · exact ⟨rfl, rfl, fun _ h => absurd h not_mem_nil⟩

lemma launch_change (op : Op Child) (door : String) (spec : Except String (Option Nat))
    (started : Except String (Child × Option FrozenProcessIdentity))
    (hlaunched : ∀ child frozen id, started = .ok (child, frozen) →
      op.launched (.number id) = some ⟨id, child, frozen⟩) :
    Change pid registry op (registry.launch door spec started) := by
  unfold launch
  cases hreserve : registry.reserveId door with
  | error message => exact .kept op _ [] (launched_error op message) (reachesOwn_nil op)
  | ok found =>
    obtain ⟨id, reserved⟩ := found
    cases spec with
    | error message => exact .reserved op door message id reserved hreserve
    | ok deadlineMs =>
      cases started with
      | error message => exact .reserved op door message id reserved hreserve
      | ok launch =>
        obtain ⟨child, frozen⟩ := launch
        exact .launched op door ⟨id, child, frozen⟩ _ reserved hreserve
          (hlaunched child frozen id rfl) ⟨rfl, rfl⟩

lemma spawn_change (spec : Except String (Option Nat)) (started : Except String Child) :
    Change pid registry (.spawn spec started) (registry.spawn spec started) := by
  refine launch_change _ _ _ _ fun child frozen id h => ?_
  cases started with
  | error message => cases h
  | ok launched =>
    cases h
    rfl

lemma spawnFrozen_change (spec : Except String (Option Nat))
    (started : Except String (Child × FrozenProcessIdentity)) :
    Change pid registry (.spawnFrozen spec started) (registry.spawnFrozen spec started) := by
  refine launch_change _ _ _ _ fun child frozen id h => ?_
  cases started with
  | error message => cases h
  | ok launched =>
    cases h
    rfl

lemma identity_change (handle : Int) :
    Change pid registry (.identity handle) (registry.identity handle) := by
  unfold identity
  cases registry.live[handle]? with
  | none => exact change_kept rfl _
  | some slot =>
    dsimp only
    split
    · exact change_kept rfl _
    · exact change_kept rfl _

lemma state_change (handle : Int) (elapsedMs : Nat) (tryWait : TryWait) :
    Change pid registry (.state handle elapsedMs tryWait)
      (registry.state handle elapsedMs tryWait) := by
  unfold state
  cases hheld : registry.live[handle]? with
  | none => exact change_kept rfl _
  | some slot =>
    cases slot with
    | done held answer frozen => exact change_kept rfl _
    | running running =>
      obtain ⟨hchild, hfrozen, heffects⟩ := enforceDeadline_spec running elapsedMs
      refine .updated _ handle running _ _ _ hheld hchild hfrozen rfl ?_
      refine reachesOwn_of_running rfl hheld fun effect heffect => ?_
      rcases mem_append.mp heffect with hmem | hmem
      · exact heffects effect hmem
      · rw [mem_singleton.mp hmem]
        exact hchild

lemma kill_change (handle : Int) (terminate : Except String Unit) :
    Change pid registry (.kill handle terminate) (registry.kill handle terminate) := by
  unfold kill
  cases hheld : registry.live[handle]? with
  | none => exact change_kept rfl _
  | some slot =>
    cases slot with
    | done held answer frozen => exact change_kept rfl _
    | running running =>
      refine .kept _ _ _ (launched_eq_none rfl _) ?_
      refine reachesOwn_of_running rfl hheld fun effect heffect => ?_
      rw [mem_singleton.mp heffect]
      rfl

lemma release_change (handle : Int) :
    Change pid registry (.release handle) (registry.release handle) := by
  unfold release
  cases hheld : registry.live[handle]? with
  | none => exact change_kept rfl _
  | some slot =>
    cases slot with
    | running running => exact change_kept rfl _
    | done held answer frozen => exact .released handle held answer frozen hheld

lemma wait_change (handle timeoutMs : Int) (finish : Option (Except String String)) :
    Change pid registry (.wait handle timeoutMs finish)
      (registry.wait pid handle timeoutMs finish) := by
  unfold wait
  by_cases htimeout : timeoutMs < 0
  · rw [if_pos htimeout]
    exact change_kept rfl _
  rw [if_neg htimeout]
  cases hheld : registry.live[handle]? with
  | none => exact change_kept rfl _
  | some slot =>
    cases slot with
    | done held answer frozen => exact change_kept rfl _
    | running running =>
      have hwaits : (Op.wait handle timeoutMs finish : Op Child).waitsFor handle :=
        ⟨rfl, by omega⟩
      cases finish with
      | none => exact .waited _ handle running _ _ hheld hwaits (.inr rfl)
      | some answer => exact .waited _ handle running answer _ hheld hwaits (.inl rfl)

lemma pidOf_change (handle : Int) :
    Change pid registry (.pid handle) (registry.pidOf pid handle) := by
  unfold pidOf
  cases hheld : registry.live[handle]? with
  | none => exact change_kept rfl _
  | some slot =>
    cases slot with
    | done held answer frozen => exact change_kept rfl _
    | running running =>
      refine .kept _ _ _ (launched_eq_none rfl _) ?_
      refine reachesOwn_of_running rfl hheld fun effect heffect => ?_
      rw [mem_singleton.mp heffect]
      rfl

lemma read_change (lossy : List UInt8 → String) (handle maxBytes : Int) (elapsedMs : Nat)
    (stdout stderr : Option CaptureBuffer) (tryWait : TryWait) :
    Change pid registry (.read handle maxBytes elapsedMs stdout stderr tryWait)
      (registry.read lossy handle maxBytes elapsedMs stdout stderr tryWait) := by
  unfold ChildRegistry.read
  by_cases hmax : maxBytes < 0
  · rw [if_pos hmax]
    exact change_kept rfl _
  rw [if_neg hmax]
  cases hheld : registry.live[handle]? with
  | none => exact change_kept rfl _
  | some slot =>
    cases slot with
    | done held answer frozen => exact change_kept rfl _
    | running running =>
      obtain ⟨hchild, hfrozen, heffects⟩ := enforceDeadline_spec running elapsedMs
      refine .updated _ handle running _ _ _ hheld hchild hfrozen rfl ?_
      refine reachesOwn_of_running rfl hheld fun effect heffect => ?_
      rcases mem_append.mp heffect with hmem | hmem
      · exact heffects effect hmem
      · rcases mem_cons.mp hmem with rfl | hmem
        · exact hchild
        · rw [mem_singleton.mp hmem]
          exact hchild

lemma step_change (pid : Child → UInt32) (lossy : List UInt8 → String)
    (registry : ChildRegistry Child) (op : Op Child) :
    Change pid registry op (registry.step pid lossy op) := by
  cases op with
  | spawn spec started => exact spawn_change spec started
  | spawnFrozen spec started => exact spawnFrozen_change spec started
  | identity handle => exact identity_change handle
  | state handle elapsedMs tryWait => exact state_change handle elapsedMs tryWait
  | kill handle terminate => exact kill_change handle terminate
  | release handle => exact release_change handle
  | wait handle timeoutMs finish => exact wait_change handle timeoutMs finish
  | pid handle => exact pidOf_change handle
  | read handle maxBytes elapsedMs stdout stderr tryWait =>
    exact read_change lossy handle maxBytes elapsedMs stdout stderr tryWait

end

/-! ## Runs -/

/-- A registry, and the children that were started since it was new. -/
structure History (Child : Type) where
  registry : ChildRegistry Child
  launches : List (Launch Child)

section
variable (pid : Child → UInt32) (lossy : List UInt8 → String)

def History.step (history : History Child) (op : Op Child) : History Child :=
  let result := history.registry.step pid lossy op
  ⟨result.registry, history.launches ++ (op.launched result.reply).toList⟩

def after (ops : List (Op Child)) : History Child :=
  run (History.step pid lossy) ⟨.new Child, []⟩ ops

/-- What an operation comes to after others. -/
def resultAfter (before : List (Op Child)) (op : Op Child) : Result Child :=
  (after pid lossy before).registry.step pid lossy op

end

/-- What holds after every run. -/
structure History.Sound (pid : Child → UInt32) (history : History Child) : Prop where
  increasing : history.launches.Pairwise fun launch later => launch.id < later.id
  below : ∀ launch ∈ history.launches, ∀ next, history.registry.nextId = some next →
    launch.id < next
  listed : ∀ handle slot, history.registry.live[handle]? = some slot →
    ∃ launch ∈ history.launches, launch.id = handle ∧ slot.Is pid launch
  size_le : history.registry.live.size ≤ processChildHandleLimit

section
variable {pid : Child → UInt32} {lossy : List UInt8 → String} {registry : ChildRegistry Child}
  {history : History Child}

lemma reserveId_ok {door : String} {id : Int} {reserved : ChildRegistry Child}
    (h : registry.reserveId door = .ok (id, reserved)) :
    registry.nextId = some id ∧ registry.live.size < processChildHandleLimit ∧
      reserved.live = registry.live ∧ ∀ next, reserved.nextId = some next → id < next := by
  unfold reserveId at h
  by_cases hfull : registry.live.size ≥ processChildHandleLimit
  · rw [if_pos hfull] at h
    cases h
  rw [if_neg hfull] at h
  cases hnext : registry.nextId with
  | none =>
    rw [hnext] at h
    cases h
  | some minted =>
    rw [hnext] at h
    obtain ⟨rfl, rfl⟩ := Prod.mk.inj (Except.ok.inj h)
    refine ⟨rfl, by omega, rfl, fun next h => ?_⟩
    by_cases hlast : minted < i32Max
    · rw [if_pos hlast] at h
      cases h
      omega
    · rw [if_neg hlast] at h
      cases h

lemma sound_new : (⟨.new Child, []⟩ : History Child).Sound pid where
  increasing := .nil
  below _ h := absurd h not_mem_nil
  listed handle slot h := by
    change (∅ : TreeMap Int (Handle Child))[handle]? = some slot at h
    rw [TreeMap.getElem?_emptyc] at h
    cases h
  size_le := by
    show (∅ : TreeMap Int (Handle Child)).size ≤ processChildHandleLimit
    rw [TreeMap.size_emptyc]
    omega

/-- An operation that only replaces slots, each by one of the same child. -/
lemma History.Sound.replace (hs : history.Sound pid) {live : TreeMap Int (Handle Child)}
    {nextId : Option Int}
    (hnext : ∀ launch ∈ history.launches, ∀ next, nextId = some next → launch.id < next)
    (hlive : ∀ (handle : Int) (slot : Handle Child), live[handle]? = some slot →
      ∃ launch ∈ history.launches, launch.id = handle ∧ slot.Is pid launch)
    (hsize : live.size ≤ history.registry.live.size) :
    (⟨⟨live, nextId⟩, history.launches⟩ : History Child).Sound pid where
  increasing := hs.increasing
  below := hnext
  listed := hlive
  size_le := Nat.le_trans hsize hs.size_le

/-- The slot under a handle that a child of the run was started under. -/
lemma History.Sound.is_of_held (hs : history.Sound pid) {handle : Int} {slot slot' : Handle Child}
    (hheld : history.registry.live[handle]? = some slot)
    (hsame : ∀ launch, slot.Is pid launch → slot'.Is pid launch) {other : Int}
    {found : Handle Child}
    (hfound : (history.registry.live.insert handle slot')[other]? = some found) :
    ∃ launch ∈ history.launches, launch.id = other ∧ found.Is pid launch := by
  rcases insert_eq_some hfound with ⟨rfl, rfl⟩ | ⟨-, hfound⟩
  · obtain ⟨launch, hmem, hid, his⟩ := hs.listed other slot hheld
    exact ⟨launch, hmem, hid, hsame launch his⟩
  · exact hs.listed other found hfound

/-- Every operation keeps the handles distinct and each slot on the child it was returned for. -/
lemma step_sound (lossy : List UInt8 → String) (hs : history.Sound pid) (op : Op Child) :
    (history.step pid lossy op).Sound pid := by
  have hchange := step_change pid lossy history.registry op
  unfold History.step
  generalize history.registry.step pid lossy op = result at hchange
  dsimp only
  cases hchange with
  | kept op reply effects hnone hreaches =>
    rw [hnone]
    simpa using hs
  | reserved op door message id reserved hreserve =>
    obtain ⟨hid, -, hlive, hnext⟩ := reserveId_ok hreserve
    rw [launched_error op message]
    refine ⟨by simpa using hs.increasing, fun launch hmem next h => ?_, ?_, ?_⟩
    · have hbelow := hs.below launch (by simpa using hmem) id hid
      have hlater := hnext next h
      omega
    · intro handle slot h
      rw [hlive] at h
      simpa using hs.listed handle slot h
    · rw [hlive]
      exact hs.size_le
  | launched op door launch running reserved hreserve hlaunched hlaunch =>
    obtain ⟨hid, hroom, hlive, hnext⟩ := reserveId_ok hreserve
    rw [hlaunched]
    refine ⟨?_, fun other hmem next h => ?_, fun handle slot h => ?_, ?_⟩
    · -- the id was not minted before
      refine pairwise_append.mpr ⟨hs.increasing, pairwise_singleton _ _, ?_⟩
      intro earlier hearlier new hnew
      obtain rfl := mem_singleton.mp hnew
      exact hs.below earlier hearlier new.id hid
    · have hlater : launch.id < next := hnext next h
      rcases mem_append.mp hmem with hearlier | hnew
      · have hbelow := hs.below other hearlier launch.id hid
        omega
      · obtain rfl := mem_singleton.mp hnew
        exact hlater
    · change (reserved.live.insert launch.id (.running running))[handle]? = some slot at h
      rcases insert_eq_some h with ⟨rfl, rfl⟩ | ⟨-, h⟩
      · exact ⟨launch, mem_append_right _ (mem_singleton_self launch), rfl, hlaunch⟩
      · rw [hlive] at h
        obtain ⟨found, hmem, hfound⟩ := hs.listed handle slot h
        exact ⟨found, mem_append_left _ hmem, hfound⟩
    · show (reserved.live.insert launch.id (.running running)).size ≤ processChildHandleLimit
      rw [hlive]
      exact size_insert_le_of_lt hroom
  | updated op handle running running' reply effects hheld hchild hfrozen hnone hreaches =>
    rw [hnone, Option.toList_none, append_nil]
    have hsize : (history.registry.live.insert handle (.running running')).size
        ≤ history.registry.live.size := Nat.le_of_eq (size_insert_of_some hheld)
    refine hs.replace hs.below (fun other slot h => ?_) hsize
    refine hs.is_of_held hheld (fun launch his => ?_) h
    exact ⟨hchild.trans his.1, hfrozen.trans his.2⟩
  | waited op handle running answer reply hheld hwaits hanswered =>
    have hnone : op.launched reply = none := by
      rcases hanswered with rfl | rfl
      · cases answer <;> rfl
      · rfl
    rw [hnone, Option.toList_none, append_nil]
    let slot : Handle Child := .done (pid running.child) answer running.frozen
    have hsize : (history.registry.live.insert handle slot).size ≤ history.registry.live.size :=
      Nat.le_of_eq (size_insert_of_some hheld)
    refine hs.replace hs.below (fun other slot h => ?_) hsize
    refine hs.is_of_held hheld (fun launch his => ?_) h
    exact ⟨congrArg pid his.1, his.2⟩
  | released handle held answer frozen hdone =>
    show (⟨⟨history.registry.live.erase handle, history.registry.nextId⟩,
      history.launches ++ []⟩ : History Child).Sound pid
    rw [append_nil]
    refine hs.replace hs.below (fun other slot h => ?_) TreeMap.size_erase_le
    exact hs.listed other slot (erase_eq_some.mp h).2

lemma run_sound (lossy : List UInt8 → String) (hs : history.Sound pid) (ops : List (Op Child)) :
    (run (History.step pid lossy) history ops).Sound pid := by
  have hstep (history : History Child) (op : Op Child) (hs : history.Sound pid) :
      (history.step pid lossy op).Sound pid := step_sound lossy hs op
  exact run_invariant hstep hs ops

lemma after_sound (pid : Child → UInt32) (lossy : List UInt8 → String) (ops : List (Op Child)) :
    (after pid lossy ops).Sound pid :=
  run_sound lossy sound_new ops

/-! ## One child -/

/-- What an operation does to the slot under a handle that was returned before. -/
inductive SlotStep (op : Op Child) (handle : Int) :
    Option (Handle Child) → Option (Handle Child) → Prop
  | same (slot : Option (Handle Child)) : SlotStep op handle slot slot
  | updated (running running' : Running Child) (same_child : running'.child = running.child) :
    SlotStep op handle (some (.running running)) (some (.running running'))
  | waited (running : Running Child) (held : UInt32) (answer : Except String String)
    (frozen : Option FrozenProcessIdentity) (waits : op.waitsFor handle) :
    SlotStep op handle (some (.running running)) (some (.done held answer frozen))
  | released (held : UInt32) (answer : Except String String)
    (frozen : Option FrozenProcessIdentity) (releases : op = .release handle) :
    SlotStep op handle (some (.done held answer frozen)) none

/-- An operation changes the slot of an earlier handle only as `SlotStep` says. -/
lemma slot_step (lossy : List UInt8 → String) (hs : history.Sound pid) (op : Op Child)
    {launch : Launch Child} (hlaunch : launch ∈ history.launches) :
    SlotStep op launch.id history.registry.live[launch.id]?
      (history.step pid lossy op).registry.live[launch.id]? := by
  have hchange := step_change pid lossy history.registry op
  change SlotStep op launch.id _ (history.registry.step pid lossy op).registry.live[launch.id]?
  generalize history.registry.step pid lossy op = result at hchange
  cases hchange with
  | kept op reply effects hnone hreaches => exact .same _
  | reserved op door message id reserved hreserve =>
    obtain ⟨-, -, hlive, -⟩ := reserveId_ok hreserve
    rw [hlive]
    exact .same _
  | launched op door new running reserved hreserve hlaunched hnew =>
    obtain ⟨hid, -, hlive, -⟩ := reserveId_ok hreserve
    have hbelow := hs.below launch hlaunch new.id hid
    have hne : new.id ≠ launch.id := by omega
    show SlotStep op launch.id _ (reserved.live.insert new.id (.running running))[launch.id]?
    rw [getElem?_insert_of_ne hne, hlive]
    exact .same _
  | updated op handle running running' reply effects hheld hchild hfrozen hnone hreaches =>
    show SlotStep op launch.id _
      (history.registry.live.insert handle (.running running'))[launch.id]?
    by_cases hhandle : handle = launch.id
    · rw [← hhandle, TreeMap.getElem?_insert_self, hheld]
      exact .updated running running' hchild
    · rw [getElem?_insert_of_ne hhandle]
      exact .same _
  | waited op handle running answer reply hheld hwaits hanswered =>
    show SlotStep op launch.id _ (history.registry.live.insert handle
      (.done (pid running.child) answer running.frozen))[launch.id]?
    by_cases hhandle : handle = launch.id
    · rw [← hhandle, TreeMap.getElem?_insert_self, hheld]
      exact .waited running _ answer _ hwaits
    · rw [getElem?_insert_of_ne hhandle]
      exact .same _
  | released handle held answer frozen hdone =>
    show SlotStep (.release handle) launch.id _ (history.registry.live.erase handle)[launch.id]?
    by_cases hhandle : handle = launch.id
    · have hgone : (history.registry.live.erase handle)[handle]? = none :=
        TreeMap.getElem?_erase_self
      rw [← hhandle, hgone, hdone]
      exact .released held answer frozen rfl
    · rw [TreeMap.getElem?_erase, if_neg (mt LawfulEqOrd.compare_eq_iff_eq.mp hhandle)]
      exact .same _

/-- Children stay listed as started. -/
lemma mem_launches_run (pid : Child → UInt32) (lossy : List UInt8 → String)
    {launch : Launch Child} (hlaunch : launch ∈ history.launches) (ops : List (Op Child)) :
    launch ∈ (run (History.step pid lossy) history ops).launches := by
  have hstep (history : History Child) (op : Op Child) (hmem : launch ∈ history.launches) :
      launch ∈ (history.step pid lossy op).launches := mem_append_left _ hmem
  exact run_invariant hstep hlaunch ops

/-- Where a child is after some operations: running, waited for, or waited for and then released. -/
inductive Phase (launch : Launch Child) (ops : List (Op Child)) :
    Option (Handle Child) → Prop
  | running (running : Running Child) (same_child : running.child = launch.child) :
    Phase launch ops (some (.running running))
  | done (held : UInt32) (answer : Except String String) (frozen : Option FrozenProcessIdentity)
    (waited : ∃ op ∈ ops, op.waitsFor launch.id) :
    Phase launch ops (some (.done held answer frozen))
  | gone (first second third : List (Op Child)) (op : Op Child) (waits : op.waitsFor launch.id)
    (ops_eq : ops = first ++ op :: second ++ .release launch.id :: third) :
    Phase launch ops none

lemma Phase.snoc {launch : Launch Child} {ops : List (Op Child)} {op : Op Child}
    {slot slot' : Option (Handle Child)} (h : Phase launch ops slot)
    (hstep : SlotStep op launch.id slot slot') : Phase launch (ops ++ [op]) slot' := by
  cases hstep with
  | same =>
    cases h with
    | running running hchild => exact .running running hchild
    | done held answer frozen hwaited =>
      obtain ⟨waiting, hmem, hwaits⟩ := hwaited
      exact .done held answer frozen ⟨waiting, mem_append_left _ hmem, hwaits⟩
    | gone first second third waiting hwaits hops =>
      refine .gone first second (third ++ [op]) waiting hwaits ?_
      rw [hops, append_assoc, cons_append]
  | updated running running' hsame =>
    cases h with
    | running _ hchild => exact .running running' (hsame.trans hchild)
  | waited running held answer frozen hwaits =>
    exact .done held answer frozen
      ⟨op, mem_append_right _ (mem_singleton_self op), hwaits⟩
  | released held answer frozen hreleases =>
    cases h with
    | done _ _ _ hwaited =>
      obtain ⟨waiting, hmem, hwaits⟩ := hwaited
      obtain ⟨first, second, rfl⟩ := append_of_mem hmem
      rw [hreleases]
      exact .gone first second [] waiting hwaits rfl

/-- A child that is running goes through its phases, whatever the operations are. -/
lemma phase_of_launch (lossy : List UInt8 → String) (hs : history.Sound pid)
    {launch : Launch Child} (hlaunch : launch ∈ history.launches)
    (hphase : Phase launch [] history.registry.live[launch.id]?) (ops : List (Op Child)) :
    Phase launch ops
      (run (History.step pid lossy) history ops).registry.live[launch.id]? := by
  induction ops using List.reverseRecOn with
  | nil => exact hphase
  | append_singleton ops op ih =>
    have hsound := run_sound lossy hs ops
    rw [run_append]
    exact ih.snoc (slot_step lossy hsound op (mem_launches_run pid lossy hlaunch ops))

/-- A child that was started is running under its handle. -/
lemma phase_of_launched (lossy : List UInt8 → String) {op : Op Child} {launch : Launch Child}
    (h : op.launched (history.registry.step pid lossy op).reply = some launch) :
    launch ∈ (history.step pid lossy op).launches ∧
      Phase launch [] (history.step pid lossy op).registry.live[launch.id]? := by
  refine ⟨?_, ?_⟩
  · show launch ∈ history.launches
      ++ (op.launched (history.registry.step pid lossy op).reply).toList
    rw [h]
    exact mem_append_right _ (mem_singleton_self launch)
  · have hchange := step_change pid lossy history.registry op
    change Phase launch []
      (history.registry.step pid lossy op).registry.live[launch.id]?
    generalize history.registry.step pid lossy op = result at hchange h
    cases hchange with
    | kept op reply effects hnone hreaches => exact absurd (hnone.symm.trans h) nofun
    | reserved op door message id reserved hreserve =>
      exact absurd ((launched_error op message).symm.trans h) nofun
    | launched op door new running reserved hreserve hlaunched hnew =>
      obtain rfl : new = launch := Option.some.inj (hlaunched.symm.trans h)
      show Phase new [] (reserved.live.insert new.id (.running running))[new.id]?
      rw [TreeMap.getElem?_insert_self]
      exact .running running hnew.1
    | updated op handle running running' reply effects hheld hchild hfrozen hnone hreaches =>
      exact absurd (hnone.symm.trans h) nofun
    | waited op handle running answer reply hheld hwaits hanswered =>
      rcases hanswered with rfl | rfl
      · cases answer <;> exact absurd h nofun
      · cases h
    | released handle held answer frozen hdone => cases h

/-! ## Waits -/

/-- A slot with an answer keeps it until it is released. -/
lemma done_kept (lossy : List UInt8 → String) (hs : history.Sound pid) {launch : Launch Child}
    (hlaunch : launch ∈ history.launches)
    (hdone : history.registry.live[launch.id]? = some (.done held answer frozen))
    (ops : List (Op Child)) :
    let slot := (run (History.step pid lossy) history ops).registry.live[launch.id]?
    slot = some (.done held answer frozen) ∨ slot = none := by
  induction ops using List.reverseRecOn with
  | nil => exact .inl hdone
  | append_singleton ops op ih =>
    have hstep := slot_step lossy (run_sound lossy hs ops) op
      (mem_launches_run pid lossy hlaunch ops)
    rw [run_append]
    change let slot := (History.step pid lossy
      (run (History.step pid lossy) history ops) op).registry.live[launch.id]?
      slot = some (.done held answer frozen) ∨ slot = none
    rcases ih with ih | ih
    · rw [ih] at hstep
      generalize (History.step pid lossy (run (History.step pid lossy) history ops)
        op).registry.live[launch.id]? = slot at hstep
      cases hstep with
      | same => exact .inl rfl
      | released _ _ _ hreleases => exact .inr rfl
    · rw [ih] at hstep
      generalize (History.step pid lossy (run (History.step pid lossy) history ops)
        op).registry.live[launch.id]? = slot at hstep
      cases hstep with
      | same => exact .inr rfl

lemma wait_of_done {handle : Int} (htimeout : 0 ≤ timeoutMs)
    (hdone : registry.live[handle]? = some (.done held answer frozen)) :
    registry.wait pid handle timeoutMs finish = ⟨registry, .ofText answer, []⟩ := by
  unfold wait
  rw [if_neg (by omega), hdone]

/-- A wait that completes leaves its answer in the slot. -/
lemma wait_completes {handle : Int} (htimeout : 0 ≤ timeoutMs) {slot : Handle Child}
    (hheld : registry.live[handle]? = some slot)
    (hcompletes : (registry.wait pid handle timeoutMs finish).reply ≠ .panicked) :
    ∃ held answer frozen,
      (registry.wait pid handle timeoutMs finish).registry.live[handle]?
        = some (.done held answer frozen) ∧
      (registry.wait pid handle timeoutMs finish).reply = .ofText answer := by
  cases slot with
  | done held answer frozen =>
    rw [wait_of_done htimeout hheld]
    exact ⟨held, answer, frozen, hheld, rfl⟩
  | running running =>
    unfold wait at hcompletes ⊢
    rw [if_neg (by omega), hheld] at hcompletes ⊢
    cases finish with
    | none => exact absurd rfl hcompletes
    | some answer => exact ⟨_, answer, _, TreeMap.getElem?_insert_self, rfl⟩

/-! ## Reach -/

lemma handle_of_waitsFor {op : Op Child} {handle : Int} (h : op.waitsFor handle) :
    op.handle = some handle := by
  cases op with
  | wait waited timeoutMs finish => exact congrArg some h.1
  | _ => exact h.elim

/-- What an operation reaches is the child that it starts or the one of its handle. -/
lemma reach (lossy : List UInt8 → String) (hs : history.Sound pid) (op : Op Child)
    {effect : Effect Child} (heffect : effect ∈ (history.registry.step pid lossy op).effects) :
    (∃ launch, op.launched (history.registry.step pid lossy op).reply = some launch ∧
      effect.child = launch.child) ∨
    ∃ launch ∈ history.launches, op.handle = some launch.id ∧ effect.child = launch.child := by
  have hlisted {handle : Int} {running : Running Child} (hhandle : op.handle = some handle)
      (hheld : history.registry.live[handle]? = some (.running running))
      (hchild : effect.child = running.child) :
      ∃ launch ∈ history.launches, op.handle = some launch.id ∧ effect.child = launch.child := by
    obtain ⟨launch, hmem, rfl, his⟩ := hs.listed handle _ hheld
    exact ⟨launch, hmem, hhandle, hchild.trans his.1⟩
  have hchange := step_change pid lossy history.registry op
  generalize history.registry.step pid lossy op = result at hchange heffect
  cases hchange with
  | kept op reply effects hnone hreaches =>
    obtain ⟨handle, running, hhandle, hheld, hchild⟩ := hreaches effect heffect
    exact .inr (hlisted hhandle hheld hchild)
  | reserved op door message id reserved hreserve => exact absurd heffect not_mem_nil
  | launched op door launch running reserved hreserve hlaunched hlaunch =>
    obtain rfl := mem_singleton.mp heffect
    exact .inl ⟨launch, hlaunched, rfl⟩
  | updated op handle running running' reply effects hheld hchild hfrozen hnone hreaches =>
    obtain ⟨handle, running, hhandle, hheld, hchild⟩ := hreaches effect heffect
    exact .inr (hlisted hhandle hheld hchild)
  | waited op handle running answer reply hheld hwaits hanswered =>
    obtain rfl := mem_singleton.mp heffect
    exact .inr (hlisted (handle_of_waitsFor hwaits) hheld rfl)
  | released handle held answer frozen hdone => exact absurd heffect not_mem_nil

lemma mem_droppedChildren {handle : Int} {running : Running Child}
    (h : registry.live[handle]? = some (.running running)) :
    running.child ∈ registry.droppedChildren :=
  mem_filterMap.mpr ⟨(handle, .running running),
    TreeMap.mem_toList_iff_getElem?_eq_some.mpr h, rfl⟩

end

/-- Over every run of operations, with any handles. The handles that are returned increase, so that
none is returned twice. At every moment a slot is of the child that was started under its handle,
and there are no more slots than the limit. What an operation reaches is the child that it starts,
or the one that was started under its handle. A child goes from running through a wait to a release,
and as long as it was not waited for it is among those that the end of the slot terminates. Once a
wait has completed, later waits give the same answer, until the handle is released and unless they
are refused for a negative timeout. -/
theorem child_handles (pid : Child → UInt32) (lossy : List UInt8 → String)
    (ops : List (Op Child)) :
    ((after pid lossy ops).launches.Pairwise fun launch later => launch.id < later.id) ∧
    (∀ before later, ops = before ++ later →
      (after pid lossy before).registry.live.size ≤ processChildHandleLimit ∧
      ∀ handle slot, (after pid lossy before).registry.live[handle]? = some slot →
        ∃ launch ∈ (after pid lossy before).launches, launch.id = handle ∧ slot.Is pid launch) ∧
    (∀ before op later effect, ops = before ++ op :: later →
      effect ∈ (resultAfter pid lossy before op).effects →
      (∃ launch, op.launched (resultAfter pid lossy before op).reply = some launch ∧
        effect.child = launch.child) ∨
      ∃ launch ∈ (after pid lossy before).launches, op.handle = some launch.id ∧
        effect.child = launch.child) ∧
    (∀ before op later launch, ops = before ++ op :: later →
      op.launched (resultAfter pid lossy before op).reply = some launch →
      Phase launch later (after pid lossy ops).registry.live[launch.id]? ∧
      ((∀ other ∈ later, ¬ other.waitsFor launch.id) →
        launch.child ∈ (after pid lossy ops).registry.droppedChildren)) ∧
    (∀ before between later handle timeoutMs timeoutMs' finish finish',
      let first := .wait handle timeoutMs finish
      let next := .wait handle timeoutMs' finish'
      ops = before ++ first :: between ++ next :: later → 0 ≤ timeoutMs → 0 ≤ timeoutMs' →
      (after pid lossy before).registry.live[handle]?.isSome →
      (resultAfter pid lossy before first).reply ≠ .panicked →
      (after pid lossy (before ++ first :: between)).registry.live[handle]?.isSome →
      (resultAfter pid lossy (before ++ first :: between) next).reply
        = (resultAfter pid lossy before first).reply) := by
  refine ⟨(after_sound pid lossy ops).increasing, ?_, ?_, ?_, ?_⟩
  · intro before later _
    exact ⟨(after_sound pid lossy before).size_le, (after_sound pid lossy before).listed⟩
  · intro before op later effect _ heffect
    exact reach lossy (after_sound pid lossy before) op heffect
  · intro before op later launch hops hlaunched
    obtain ⟨hmem, hstart⟩ := phase_of_launched lossy hlaunched
    have hphase := phase_of_launch lossy
      (step_sound lossy (after_sound pid lossy before) op) hmem hstart later
    have hafter : after pid lossy ops
        = run (History.step pid lossy) ((after pid lossy before).step pid lossy op) later := by
      unfold after
      rw [hops, run_append, run_cons]
    rw [hafter]
    refine ⟨hphase, fun hnot => ?_⟩
    generalize hslot : (run (History.step pid lossy)
      ((after pid lossy before).step pid lossy op) later).registry.live[launch.id]? = slot at hphase
    cases hphase with
    | running running hchild =>
      rw [← hchild]
      exact mem_droppedChildren hslot
    | done held answer frozen hwaited =>
      obtain ⟨waiting, hmem, hwaits⟩ := hwaited
      exact absurd hwaits (hnot waiting hmem)
    | gone first second third waiting hwaits hlater =>
      have hmem : waiting ∈ later := by
        rw [hlater, append_assoc]
        exact mem_append_right first mem_cons_self
      exact absurd hwaits (hnot waiting hmem)
  · intro before between later handle timeoutMs timeoutMs' finish finish' first next _ hfirst
      hnext hheld hcompletes hstill
    obtain ⟨slot, hslot⟩ := Option.isSome_iff_exists.mp hheld
    obtain ⟨held, answer, frozen, hdone, hreply⟩ := wait_completes hfirst hslot hcompletes
    have hsound := after_sound pid lossy before
    obtain ⟨launch, hmem, rfl, -⟩ := hsound.listed handle slot hslot
    have hkept := done_kept lossy (step_sound lossy hsound first)
      (mem_launches_run pid lossy hmem [first]) hdone between
    have hafter : after pid lossy (before ++ first :: between)
        = run (History.step pid lossy) ((after pid lossy before).step pid lossy first)
          between := by
      unfold after
      rw [run_append, run_cons]
    rw [hafter] at hstill
    show ((after pid lossy (before ++ first :: between)).registry.wait pid launch.id timeoutMs'
      finish').reply = ((after pid lossy before).registry.wait pid launch.id timeoutMs finish).reply
    rcases hkept with hkept | hgone
    · rw [hafter, wait_of_done hnext hkept, hreply]
    · rw [hgone] at hstill
      cases hstill

/-- A wait that is refused for its timeout does not give the answer of the wait that completed. -/
theorem wait_refused_after_wait :
    let ops : List (Op Unit) := [.spawn (.ok none) (.ok ()), .wait 0 1000 (some (.ok "done"))]
    let reply (before : List (Op Unit)) (op : Op Unit) : Reply :=
      (resultAfter (fun _ => 1) (fun _ => "") before op).reply
    reply (ops.take 1) (.wait 0 1000 (some (.ok "done"))) = .text "done" ∧
      (after (fun _ => 1) (fun _ => "") ops).registry.live[(0 : Int)]?.isSome ∧
      reply ops (.wait 0 (-1) none) = .error "process.wait: timeout_ms is negative" := by
  decide

end

end Agenterm.Qjswasm
