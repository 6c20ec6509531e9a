import Agenterm.Incremental.Wrapper
import Agenterm.Lib.Run
import Mathlib.Data.Finset.Card
import Mathlib.Data.Fintype.Basic

/-!
# A complete manifest is true

As long as nothing fails, each wrapper knows what it has done to the state files so far (`Knows`): what it
knows is kept by the steps of the others, since the barrier is with one wrapper at a time
(`Knows.frame`), and its own step adds what the next phase knows. A failure leaves the poison or an exit
code behind. So a complete manifest after nothing but successes is one of a run without failures.

This needs a state file that is there to be found when it is looked for.
-/

namespace Agenterm.Incremental

open Option Lib List Function

open Cu (OsText)

variable {ι : Type} [DecidableEq ι] {host : Host} {config : Config} {arguments : ι → List OsText}
  {s s' : System ι} {w : ι}

/-! ### Steps without a failure -/

/-- A state file that is there is found when it is looked for. -/
def Finds (s : System ι) (op : ι × Answer) : Prop :=
  match op.2 with
  | .before fault _ _ => fault = true → s.files.before = none
  | .touch fault _ => fault = true → s.files.touch = none
  | _ => True

/-- Nothing has failed so far. -/
structure Clean (s : System ι) : Prop where
  poison : s.files.poison = false
  coordinated : ∀ w, s.coordinationFailed w = false
  alive : ∀ w, s.phase w ≠ .died

/-- The steps after which nothing has failed. -/
inductive Move (host : Host) (config : Config) (arguments : ι → List OsText) (s : System ι)
    (w : ι) : System ι → Prop where
  | pass (hphase : s.phase w = .start) (hname : touchedName host config (arguments w) = .ok none) :
    Move host config arguments s w (s.goTo w (.ready true))
  | enter {name : String} (hphase : s.phase w = .start)
      (hname : touchedName host config (arguments w) = .ok (some name)) :
    Move host config arguments s w (s.goTo w (.lock name))
  | lock {name : String} (hphase : s.phase w = .lock name) (hfree : s.holder = none) :
    Move host config arguments s w { s.goTo w (.checkBefore name) with holder := some w }
  | beforeFound {name : String} (hphase : s.phase w = .checkBefore name)
      (hfound : s.files.before ≠ none) :
    Move host config arguments s w (s.goTo w (.checkTouch name))
  | beforeAbsent {name : String} (snapshot : BeforeSnapshot)
      (hphase : s.phase w = .checkBefore name) (habsent : s.files.before = none) :
    Move host config arguments s w (s.goTo w (.writeBefore name snapshot s.clock))
  | beforeWritten {name : String} {snapshot : BeforeSnapshot} {moment : Nat}
      (hphase : s.phase w = .writeBefore name snapshot moment) :
    Move host config arguments s w ((s.putBefore snapshot moment).goTo w (.checkTouch name))
  | touchSeen {name : String} {current touch : TouchState} (hphase : s.phase w = .checkTouch name)
      (hcurrent : current = s.files.touch.getD (freshTouch config))
      (hnote : noteTouch config current name = .ok touch) :
    Move host config arguments s w (s.goTo w (.writeTouch name touch))
  | touchWritten {name : String} {touch : TouchState} (hphase : s.phase w = .writeTouch name touch) :
    Move host config arguments s w ((s.putTouch touch).goTo w (.unlock name))
  | unlock {name : String} (hphase : s.phase w = .unlock name) :
    Move host config arguments s w { s.goTo w (.ready true) with holder := none }
  | launch {persisted : Bool} (hphase : s.phase w = .ready persisted) :
    Move host config arguments s w
      { s.goTo w (.compiling persisted) with
        startedAt := update s.startedAt w (some s.clock) }
  | launchFailed {persisted : Bool} (hphase : s.phase w = .ready persisted) :
    Move host config arguments s w (s.goTo w (.exited 2))
  | compiled {persisted : Bool} (code : Int) (hphase : s.phase w = .compiling persisted) :
    Move host config arguments s w (s.goTo w (.exited code))

variable {op : ι × Answer} {phase : Phase} {s₁ : System ι}

variable {answer : Answer} {current touch : TouchState} {files : Files} {finding : Finding}
  {words : List OsText}

section
variable {name : String}

lemma not_clean_fail : ¬ Clean (s.fail w).tick := by
  intro h
  have hfailed := h.coordinated w
  simp [System.fail, System.tick] at hfailed

lemma not_clean_killed (holder : Option ι) :
    ¬ Clean ({ s.goTo w .died with holder := holder } : System ι).tick := by
  intro h
  have hdied := h.alive w
  simp [System.goTo, System.tick] at hdied

lemma currentTouch_eq {fault readFault : Bool} (hfault : fault = true → files.touch = none)
    (h : files.currentTouch config fault readFault = .ok current) :
    current = files.touch.getD (freshTouch config) := by
  unfold Files.currentTouch at h
  split at h
  · rename_i touch htouch
    split at h
    · rename_i hf
      rw [hfault hf] at htouch
      cases htouch
    · split at h
      · cases h
      · rw [htouch, getD_some, Except.ok.inj h]
  · rename_i htouch
    rw [htouch, getD_none, Except.ok.inj h]

/-! ### Failures show -/

/-- What is left of a coordination that failed. -/
def Shows (poison : Bool) : Phase → Prop
  | .poison => True
  | .ready persisted => persisted = true → poison = true
  | .compiling persisted => persisted = true → poison = true
  | .exited code => code = 0 → poison = true
  | .died => True
  | _ => False

structure FailInv (s : System ι) : Prop where
  failing : ∀ w, s.phase w = .poison → s.coordinationFailed w = true
  shows : ∀ w, s.coordinationFailed w = true → Shows s.files.poison (s.phase w)

lemma Shows.mono {poison poison' : Bool} (h : Shows poison phase)
    (hle : poison = true → poison' = true) : Shows poison' phase := by
  cases phase with
  | ready persisted => exact fun hpersisted => hle (h hpersisted)
  | compiling persisted => exact fun hpersisted => hle (h hpersisted)
  | exited code => exact fun hcode => hle (h hcode)
  | _ => exact h

namespace FailInv

omit [DecidableEq ι] in
lemma initial : FailInv (System.initial : System ι) where
  failing := fun _ h => nomatch h
  shows := fun _ h => nomatch h

omit [DecidableEq ι] in
lemma tick (h : FailInv s) : FailInv s.tick := ⟨h.failing, h.shows⟩

omit [DecidableEq ι] in
lemma putBefore (h : FailInv s) (snapshot : BeforeSnapshot) (moment : Nat) :
    FailInv (s.putBefore snapshot moment) := ⟨h.failing, h.shows⟩

omit [DecidableEq ι] in
lemma putTouch (h : FailInv s) (touch : TouchState) : FailInv (s.putTouch touch) :=
  ⟨h.failing, h.shows⟩

/-- A wrapper goes to another phase. -/
lemma goTo (h : FailInv s) (hphase : s₁.phase = update s.phase w phase)
    (hfailed : s₁.coordinationFailed = s.coordinationFailed)
    (hpoison : s.files.poison = true → s₁.files.poison = true) (hne : phase ≠ .poison)
    (hshows : s.coordinationFailed w = true → Shows s₁.files.poison phase) : FailInv s₁ where
  failing := by
    intro v hv
    rw [hphase] at hv
    rw [hfailed]
    by_cases hvw : v = w
    · rw [hvw, update_self] at hv
      exact absurd hv hne
    · rw [update_of_ne hvw] at hv
      exact h.failing v hv
  shows := by
    intro v hv
    rw [hfailed] at hv
    rw [hphase]
    by_cases hvw : v = w
    · rw [hvw, update_self]
      rw [hvw] at hv
      exact hshows hv
    · rw [update_of_ne hvw]
      exact (h.shows v hv).mono hpoison

lemma fail (h : FailInv s) (w : ι) : FailInv (s.fail w) where
  failing := by
    intro v hv
    by_cases hvw : v = w
    · simp [System.fail, hvw]
    · simp only [System.fail, System.goTo, update_of_ne hvw] at hv ⊢
      exact h.failing v hv
  shows := by
    intro v hv
    by_cases hvw : v = w
    · simp [System.fail, System.goTo, hvw, Shows]
    · simp only [System.fail, System.goTo, update_of_ne hvw] at hv ⊢
      exact h.shows v hv

/-- A wrapper that has not come to its compiler has not failed. -/
lemma goes (h : FailInv s) (hnot : ∀ poison, ¬ Shows poison (s.phase w))
    (hphase : s₁.phase = update s.phase w phase)
    (hfailed : s₁.coordinationFailed = s.coordinationFailed)
    (hpoison : s.files.poison = true → s₁.files.poison = true) (hne : phase ≠ .poison) :
    FailInv s₁ :=
  h.goTo hphase hfailed hpoison hne fun hw => absurd (h.shows w hw) (hnot _)

end FailInv

/-- Without a note of the error, a wrapper exits with a failure. -/
lemma exitCode_ne_zero (code : Option Int) : exitCode false code ≠ 0 := by
  unfold exitCode
  rw [if_neg Bool.false_ne_true]
  split
  · decide
  · rename_i hcode
    cases code with
    | none => decide
    | some value =>
      intro hzero
      exact hcode (congrArg some hzero)

/-- Every action of a wrapper keeps what its failure is known by. -/
lemma failInv_act (h : FailInv s) (hphase : s.phase w = phase)
    (hact : System.act host config arguments s w phase answer = some s') : FailInv s' := by
  unfold System.act at hact
  split at hact
  · -- the environment
    cases hact
    unfold System.begin
    split
    · exact h.fail w
    · split
      · exact h.fail w
      · exact h.goes (by simp [hphase, Shows]) rfl rfl id (by simp)
      · split
        · exact h.goes (by simp [hphase, Shows]) rfl rfl id (by simp)
        · exact h.fail w
  · -- the barrier
    split at hact
    · cases hact
      exact h.fail w
    · split at hact
      · cases hact
      · cases hact
        exact h.goes (by simp [hphase, Shows]) rfl rfl id (by simp)
  · cases hact
    unfold System.checkBefore
    split
    · exact h.goes (by simp [hphase, Shows]) rfl rfl id (by simp)
    · exact h.goes (by simp [hphase, Shows]) rfl rfl id (by simp)
  · split at hact
    · cases hact
      exact h.goes (by simp [hphase, Shows]) rfl rfl id (by simp)
    · cases hact
      exact (h.putBefore _ _).fail w
    · cases hact
      exact h.fail w
  · cases hact
    unfold System.checkTouch
    split
    · exact h.fail w
    · exact h.goes (by simp [hphase, Shows]) rfl rfl id (by simp)
  · split at hact
    · cases hact
      exact h.goes (by simp [hphase, Shows]) rfl rfl id (by simp)
    · cases hact
      exact (h.putTouch _).fail w
    · cases hact
      exact h.fail w
  · cases hact
    exact h.goes (by simp [hphase, Shows]) rfl rfl id (by simp)
  · -- the error is noted
    cases hact
    refine h.goTo rfl rfl ?_ (by simp) ?_
    · intro hpoison
      simp [hpoison]
    · intro _ hpersisted
      simp [hpersisted]
  · rename_i persisted ok
    split at hact
    · cases hact
      refine h.goTo rfl rfl id (by simp) ?_
      intro hw
      have hshows := h.shows w hw
      rw [hphase] at hshows
      exact hshows
    · cases hact
      refine h.goTo rfl rfl id (by simp) ?_
      intro _ hcode
      exact absurd hcode (by decide)
  · rename_i persisted code
    cases hact
    refine h.goTo rfl rfl id (by simp) ?_
    intro hw hcode
    have hshows := h.shows w hw
    rw [hphase] at hshows
    cases persisted with
    | true => exact hshows rfl
    | false => exact absurd hcode (exitCode_ne_zero code)
  · cases hact

lemma failInv_step (h : FailInv s) (hstep : System.step host config arguments s op = some s') :
    FailInv s' := by
  unfold System.step at hstep
  split at hstep
  · split at hstep
    · cases hstep
    · cases hstep
      apply FailInv.tick
      exact h.goTo rfl rfl id (by simp) fun _ => trivial
  · obtain ⟨s₁, hact, rfl⟩ := map_eq_some_iff.mp hstep
    exact (failInv_act h rfl hact).tick

/-! ### Moves -/

/-- What a wrapper does in a run without a failure is one of the moves. -/
lemma move_of_act (hfail : FailInv s) (hfinds : Finds s (w, answer)) (hphase : s.phase w = phase)
    (hact : System.act host config arguments s w phase answer = some s') (hclean : Clean s'.tick) :
    Move host config arguments s w s' := by
  unfold System.act at hact
  split at hact
  · cases hact
    unfold System.begin at hclean ⊢
    split
    · rename_i hvalid
      rw [if_pos hvalid] at hclean
      exact absurd hclean not_clean_fail
    · rename_i hvalid
      rw [if_neg hvalid] at hclean
      split
      · rename_i hname
        rw [hname] at hclean
        exact absurd hclean not_clean_fail
      · rename_i hname
        exact .pass hphase hname
      · rename_i hname
        rw [hname] at hclean
        dsimp only at hclean
        split
        · exact .enter hphase hname
        · rename_i hdirect
          rw [if_neg hdirect] at hclean
          exact absurd hclean not_clean_fail
  · split at hact
    · cases hact
      exact absurd hclean not_clean_fail
    · split at hact
      · cases hact
      · rename_i hfree
        cases hact
        exact .lock hphase (by simpa using hfree)
  · cases hact
    unfold System.checkBefore
    split
    · rename_i hfound
      rw [Bool.and_eq_true, isSome_iff_ne_none] at hfound
      exact .beforeFound hphase hfound.1
    · rename_i name fault cargoLockHeld snapshot hnot
      refine .beforeAbsent _ hphase ?_
      by_contra hsome
      apply hnot
      rw [Bool.and_eq_true, isSome_iff_ne_none, Bool.not_eq_true']
      refine ⟨hsome, ?_⟩
      rw [Bool.eq_false_iff]
      intro hfault
      exact hsome (hfinds hfault)
  · split at hact
    · cases hact
      exact .beforeWritten hphase
    · cases hact
      exact absurd hclean not_clean_fail
    · cases hact
      exact absurd hclean not_clean_fail
  · cases hact
    rename_i name fault readFault
    unfold System.checkTouch at hclean ⊢
    split
    · rename_i hnote
      rw [hnote] at hclean
      exact absurd hclean not_clean_fail
    · rename_i touch hnote
      cases hcurrent : s.files.currentTouch config fault readFault with
      | error error =>
        rw [hcurrent] at hnote
        cases hnote
      | ok current =>
        rw [hcurrent] at hnote
        exact .touchSeen hphase (currentTouch_eq hfinds hcurrent) hnote
  · split at hact
    · cases hact
      exact .touchWritten hphase
    · cases hact
      exact absurd hclean not_clean_fail
    · cases hact
      exact absurd hclean not_clean_fail
  · cases hact
    exact .unlock hphase
  · -- only a coordination that failed has an error to note
    cases hact
    have hfailed := hfail.failing w hphase
    have hnot := hclean.coordinated w
    exact absurd (hnot.symm.trans hfailed) Bool.false_ne_true
  · split at hact
    · cases hact
      exact .launch hphase
    · cases hact
      exact .launchFailed hphase
  · cases hact
    exact .compiled _ hphase
  · cases hact

lemma move_of_step (hfail : FailInv s) (hfinds : Finds s op)
    (hstep : System.step host config arguments s op = some s') (hclean : Clean s') :
    ∃ s₁, Move host config arguments s op.1 s₁ ∧ s' = s₁.tick := by
  unfold System.step at hstep
  split at hstep
  · split at hstep
    · cases hstep
    · cases hstep
      exact absurd hclean (not_clean_killed _)
  · obtain ⟨s₁, hact, rfl⟩ := map_eq_some_iff.mp hstep
    exact ⟨s₁, move_of_act hfail hfinds rfl hact hclean, rfl⟩

/-- What every move leaves as it is. -/
structure Move.Frame (s : System ι) (w : ι) (s₁ : System ι) : Prop where
  poison : s₁.files.poison = s.files.poison
  failed : s₁.coordinationFailed = s.coordinationFailed
  clock : s₁.clock = s.clock
  alive : s.phase w ≠ .died
  phase : ∀ v, v ≠ w → s₁.phase v = s.phase v
  started : ∀ v, v ≠ w → s₁.startedAt v = s.startedAt v

lemma Move.frame (hmove : Move host config arguments s w s₁) : Move.Frame s w s₁ := by
  cases hmove with
  | launch hphase =>
    refine ⟨rfl, rfl, rfl, by simp [hphase], ?_, ?_⟩
    · intro v hv
      exact update_of_ne hv _ _
    · intro v hv
      exact update_of_ne hv _ _
  | _ =>
    refine ⟨rfl, rfl, rfl, by simp [*], ?_, fun _ _ => rfl⟩
    intro v hv
    exact update_of_ne hv _ _

/-- A failure is not undone. -/
lemma clean_of_move (hmove : Move host config arguments s w s₁) (hclean : Clean s₁.tick) :
    Clean s where
  poison := by
    rw [← hmove.frame.poison]
    exact hclean.poison
  coordinated := by
    intro v
    rw [← hmove.frame.failed]
    exact hclean.coordinated v
  alive := by
    intro v
    by_cases hvw : v = w
    · rw [hvw]
      exact hmove.frame.alive
    · rw [← hmove.frame.phase v hvw]
      exact hclean.alive v

/-! ### What a wrapper knows -/

def Files.invocations (files : Files) : Nat :=
  (files.touch.map TouchState.rustcInvocations).getD 0

def Files.touchedRoots (files : Files) : Finset String :=
  (files.touch.map TouchState.roots).getD ∅

section
variable (host : Host) (config : Config) (arguments : ι → List OsText) (s : System ι) (w : ι)

/-- The wrapper notes this root, and its compiler has not started. -/
def Notes (name : String) : Prop :=
  touchedName host config (arguments w) = .ok (some name) ∧ s.startedAt w = none

/-- The wrapper has noted the root of its compiler, if there is one. -/
structure Noted : Prop where
  named : ∃ root, touchedName host config (arguments w) = .ok root
  root : ∀ name, touchedName host config (arguments w) = .ok (some name) →
    s.files.before ≠ none ∧ name ∈ s.files.touchedRoots

/-- The identities were taken before the compiler started, if it did. -/
def StartedLater : Prop :=
  ∀ name moment, touchedName host config (arguments w) = .ok (some name) →
    s.startedAt w = some moment → s.takenAt < moment

/-- What holds of the state files when a wrapper is in a phase. -/
def Knows : Phase → Prop
  | .start => s.startedAt w = none
  | .lock name => Notes host config arguments s w name
  | .checkBefore name => Notes host config arguments s w name ∧ s.holder = some w
  | .writeBefore name _ moment =>
    Notes host config arguments s w name ∧ s.holder = some w ∧ s.files.before = none ∧
      moment < s.clock
  | .checkTouch name =>
    Notes host config arguments s w name ∧ s.holder = some w ∧ s.files.before ≠ none
  | .writeTouch name touch =>
    Notes host config arguments s w name ∧ s.holder = some w ∧ s.files.before ≠ none ∧
      touch.rustcInvocations = s.files.invocations + 1 ∧
      touch.roots = insert name s.files.touchedRoots
  | .unlock name =>
    Notes host config arguments s w name ∧ s.holder = some w ∧ s.files.before ≠ none ∧
      name ∈ s.files.touchedRoots
  | .ready _ => Noted host config arguments s w ∧ s.startedAt w = none
  | .compiling _ =>
    Noted host config arguments s w ∧ StartedLater host config arguments s w ∧
      s.startedAt w ≠ none
  | .exited code =>
    Noted host config arguments s w ∧ StartedLater host config arguments s w ∧
      (code = 0 → s.startedAt w ≠ none)
  | .poison => False
  | .died => False

end

/-- What a step of another wrapper leaves to a wrapper. -/
structure Keeps (s s' : System ι) (w : ι) : Prop where
  clock : s.clock ≤ s'.clock
  started : s'.startedAt w = s.startedAt w
  roots : s.files.touchedRoots ⊆ s'.files.touchedRoots
  before : s.files.before ≠ none → s'.files.before ≠ none ∧ s'.takenAt = s.takenAt
  held : s.holder = some w → s'.holder = some w ∧ s'.files = s.files

omit [DecidableEq ι] in
/-- A wrapper knows what it knew. -/
lemma Knows.frame (hkeeps : Keeps s s' w) (h : Knows host config arguments s w phase) :
    Knows host config arguments s' w phase := by
  have hnotes : ∀ name, Notes host config arguments s w name →
      Notes host config arguments s' w name := by
    intro name h
    exact ⟨h.1, by rw [hkeeps.started, h.2]⟩
  have hnoted : Noted host config arguments s w → Noted host config arguments s' w := by
    intro h
    refine ⟨h.named, fun name hname => ?_⟩
    obtain ⟨hbefore, hroot⟩ := h.root name hname
    exact ⟨(hkeeps.before hbefore).1, hkeeps.roots hroot⟩
  have hlater : Noted host config arguments s w → StartedLater host config arguments s w →
      StartedLater host config arguments s' w := by
    intro hnoted h name moment hname hmoment
    rw [hkeeps.started] at hmoment
    rw [(hkeeps.before (hnoted.root name hname).1).2]
    exact h name moment hname hmoment
  cases phase with
  | start =>
    show s'.startedAt w = none
    rw [hkeeps.started]
    exact h
  | lock name => exact hnotes name h
  | checkBefore name => exact ⟨hnotes name h.1, (hkeeps.held h.2).1⟩
  | writeBefore name snapshot moment =>
    obtain ⟨h1, hheld, hbefore, hmoment⟩ := h
    obtain ⟨hheld', hfiles⟩ := hkeeps.held hheld
    exact ⟨hnotes name h1, hheld', by rw [hfiles, hbefore], hmoment.trans_le hkeeps.clock⟩
  | checkTouch name =>
    obtain ⟨h1, hheld, hbefore⟩ := h
    exact ⟨hnotes name h1, (hkeeps.held hheld).1, (hkeeps.before hbefore).1⟩
  | writeTouch name touch =>
    obtain ⟨h1, hheld, hbefore, hcount, hroots⟩ := h
    obtain ⟨hheld', hfiles⟩ := hkeeps.held hheld
    exact ⟨hnotes name h1, hheld', (hkeeps.before hbefore).1, by rw [hfiles, hcount],
      by rw [hfiles, hroots]⟩
  | unlock name =>
    obtain ⟨h1, hheld, hbefore, hroot⟩ := h
    exact ⟨hnotes name h1, (hkeeps.held hheld).1, (hkeeps.before hbefore).1, hkeeps.roots hroot⟩
  | ready persisted =>
    refine ⟨hnoted h.1, ?_⟩
    rw [hkeeps.started]
    exact h.2
  | compiling persisted =>
    obtain ⟨h1, h2, hstarted⟩ := h
    refine ⟨hnoted h1, hlater h1 h2, ?_⟩
    rw [hkeeps.started]
    exact hstarted
  | exited code =>
    obtain ⟨h1, h2, hstarted⟩ := h
    refine ⟨hnoted h1, hlater h1 h2, ?_⟩
    rw [hkeeps.started]
    exact hstarted
  | poison => exact h
  | died => exact h

/-! ### The state files -/

/-- The phases of a wrapper after it has noted its root. -/
def Phase.hasNoted : Phase → Bool
  | .unlock _ => true
  | .ready _ => true
  | .compiling _ => true
  | .exited _ => true
  | _ => false

/-- The compiler has a root to note. -/
def hasRoot (host : Host) (config : Config) (arguments : List OsText) : Bool :=
  match touchedName host config arguments with
  | .ok name => name.isSome
  | .error _ => false

lemma hasRoot_of_name (h : touchedName host config words = .ok (some name)) :
    hasRoot host config words = true := by
  rw [hasRoot, h]
  rfl

section
variable [Fintype ι] (host config arguments)

/-- The wrappers that have noted a root. -/
def counted (s : System ι) : Finset ι :=
  Finset.univ.filter fun w => (hasRoot host config (arguments w) && (s.phase w).hasNoted) = true

/-- What holds as long as nothing has failed. -/
structure Inv (s : System ι) : Prop where
  knows : ∀ w, Knows host config arguments s w (s.phase w)
  count : s.files.invocations = (counted host config arguments s).card
  taken : s.files.before ≠ none → s.takenAt < s.clock

omit [DecidableEq ι] in
lemma inv_initial : Inv host config arguments (System.initial : System ι) where
  knows := fun _ => rfl
  count := by
    show 0 = _
    symm
    rw [Finset.card_eq_zero, counted, Finset.filter_eq_empty_iff]
    intro w _
    simp [System.initial, Phase.hasNoted]
  taken := fun h => absurd rfl h

variable {host config arguments} {s₁ : System ι}

lemma noteTouch_eq (h : noteTouch config current name = .ok touch) :
    touch.rustcInvocations = current.rustcInvocations + 1 ∧
      touch.roots = insert name current.roots := by
  unfold noteTouch at h
  split at h
  · cases h
  · split at h
    · cases h
    · rw [← Except.ok.inj h]
      exact ⟨rfl, rfl⟩

/-- The others keep what they know. -/
lemma keeps_of_move (h : Inv host config arguments s) (hmove : Move host config arguments s w s₁)
    {v : ι} (hv : v ≠ w) : Keeps s s₁.tick v := by
  have hw := h.knows w
  have hnotBoth : s.holder = some w → s.holder ≠ some v := by
    intro hheld hheld'
    rw [hheld] at hheld'
    exact hv (some.inj hheld').symm
  refine ⟨?_, hmove.frame.started v hv, ?_, ?_, ?_⟩
  · show s.clock ≤ s₁.clock + 1
    rw [hmove.frame.clock]
    exact Nat.le_succ _
  · cases hmove with
    | @touchWritten name touch hphase =>
      rw [hphase] at hw
      obtain ⟨_, _, _, _, hroots⟩ := hw
      show s.files.touchedRoots ⊆ touch.roots
      rw [hroots]
      exact Finset.subset_insert _ _
    | _ => exact Finset.Subset.refl _
  · cases hmove with
    | beforeWritten hphase =>
      rw [hphase] at hw
      intro hbefore
      exact absurd hw.2.2.1 hbefore
    | _ => exact fun hbefore => ⟨hbefore, rfl⟩
  · cases hmove with
    | lock hphase hfree =>
      intro hheld
      rw [hfree] at hheld
      cases hheld
    | beforeWritten hphase =>
      rw [hphase] at hw
      exact fun hheld => absurd hheld (hnotBoth hw.2.1)
    | touchWritten hphase =>
      rw [hphase] at hw
      exact fun hheld => absurd hheld (hnotBoth hw.2.1)
    | unlock hphase =>
      rw [hphase] at hw
      exact fun hheld => absurd hheld (hnotBoth hw.2.1)
    | _ => exact fun hheld => ⟨hheld, rfl⟩

/-- After its step a wrapper knows what the next phase asks for. -/
lemma knows_of_move (h : Inv host config arguments s) (hmove : Move host config arguments s w s₁) :
    Knows host config arguments s₁.tick w (s₁.phase w) := by
  have hw := h.knows w
  have hself : ∀ phase, update s.phase w phase w = phase := fun phase =>
    update_self w phase s.phase
  cases hmove with
  | pass hphase hname =>
    rw [hphase] at hw
    show Knows _ _ _ _ w (update s.phase w _ w)
    rw [hself]
    refine ⟨⟨⟨none, hname⟩, fun name hsome => ?_⟩, hw⟩
    rw [hname] at hsome
    cases hsome
  | enter hphase hname =>
    rw [hphase] at hw
    show Knows _ _ _ _ w (update s.phase w _ w)
    rw [hself]
    exact ⟨hname, hw⟩
  | lock hphase hfree =>
    rw [hphase] at hw
    show Knows _ _ _ _ w (update s.phase w _ w)
    rw [hself]
    exact ⟨hw, rfl⟩
  | beforeFound hphase hfound =>
    rw [hphase] at hw
    show Knows _ _ _ _ w (update s.phase w _ w)
    rw [hself]
    exact ⟨hw.1, hw.2, hfound⟩
  | beforeAbsent snapshot hphase habsent =>
    rw [hphase] at hw
    show Knows _ _ _ _ w (update s.phase w _ w)
    rw [hself]
    exact ⟨hw.1, hw.2, habsent, Nat.lt_succ_self _⟩
  | beforeWritten hphase =>
    rw [hphase] at hw
    show Knows _ _ _ _ w (update s.phase w _ w)
    rw [hself]
    exact ⟨hw.1, hw.2.1, some_ne_none _⟩
  | @touchSeen name current touch hphase hcurrent hnote =>
    rw [hphase] at hw
    show Knows _ _ _ _ w (update s.phase w _ w)
    rw [hself]
    obtain ⟨hcount, hroots⟩ := noteTouch_eq hnote
    refine ⟨hw.1, hw.2.1, hw.2.2, ?_, ?_⟩
    · rw [hcount, hcurrent]
      show _ = s.files.invocations + 1
      unfold Files.invocations
      cases s.files.touch with
      | none => rfl
      | some held => rfl
    · rw [hroots, hcurrent]
      show _ = insert name s.files.touchedRoots
      unfold Files.touchedRoots
      cases s.files.touch with
      | none => rfl
      | some held => rfl
  | @touchWritten name touch hphase =>
    rw [hphase] at hw
    show Knows _ _ _ _ w (update s.phase w _ w)
    rw [hself]
    obtain ⟨hnotes, hheld, hbefore, _, hroots⟩ := hw
    refine ⟨hnotes, hheld, hbefore, ?_⟩
    show name ∈ touch.roots
    rw [hroots]
    exact Finset.mem_insert_self _ _
  | @unlock name hphase =>
    rw [hphase] at hw
    show Knows _ _ _ _ w (update s.phase w _ w)
    rw [hself]
    obtain ⟨⟨hname, hstarted⟩, _, hbefore, hroot⟩ := hw
    refine ⟨⟨⟨_, hname⟩, fun other hother => ?_⟩, hstarted⟩
    rw [hname] at hother
    obtain rfl := some.inj (Except.ok.inj hother)
    exact ⟨hbefore, hroot⟩
  | launch hphase =>
    rw [hphase] at hw
    show Knows _ _ _ _ w (update s.phase w _ w)
    rw [hself]
    have hstarted : update s.startedAt w (some s.clock) w = some s.clock :=
      update_self _ _ _
    refine ⟨⟨hw.1.named, hw.1.root⟩, ?_, ?_⟩
    · intro name moment hname hmoment
      obtain rfl := some.inj (hstarted.symm.trans hmoment)
      exact h.taken (hw.1.root name hname).1
    · show update s.startedAt w (some s.clock) w ≠ none
      rw [hstarted]
      exact some_ne_none _
  | launchFailed hphase =>
    rw [hphase] at hw
    show Knows _ _ _ _ w (update s.phase w _ w)
    rw [hself]
    refine ⟨⟨hw.1.named, hw.1.root⟩, ?_, fun hcode => absurd hcode (by decide)⟩
    intro name moment _ hmoment
    exact absurd (hw.2.symm.trans hmoment) (some_ne_none _).symm
  | compiled code hphase =>
    rw [hphase] at hw
    show Knows _ _ _ _ w (update s.phase w _ w)
    rw [hself]
    exact ⟨⟨hw.1.named, hw.1.root⟩, hw.2.1, fun _ => hw.2.2⟩

omit [DecidableEq ι] in
lemma counted_congr {s s' : System ι}
    (hphase : ∀ v, hasRoot host config (arguments v) = true →
      (s'.phase v).hasNoted = (s.phase v).hasNoted) :
    counted host config arguments s' = counted host config arguments s := by
  unfold counted
  apply Finset.filter_congr
  intro v _
  by_cases hroot : hasRoot host config (arguments v) = true
  · rw [hphase v hroot]
  · rw [Bool.not_eq_true] at hroot
    rw [hroot, Bool.false_and, Bool.false_and]

/-- A move into a phase on the same side does not change who has noted a root. -/
lemma counted_move (hmove : Move host config arguments s w s₁)
    (hsame : hasRoot host config (arguments w) = true →
      (s₁.phase w).hasNoted = (s.phase w).hasNoted) :
    counted host config arguments s₁ = counted host config arguments s := by
  apply counted_congr
  intro v hroot
  by_cases hv : v = w
  · rw [hv] at hroot ⊢
    exact hsame hroot
  · rw [hmove.frame.phase v hv]

/-- The number in `touch.json` is that of the wrappers that have noted a root. -/
lemma count_of_move (h : Inv host config arguments s) (hmove : Move host config arguments s w s₁) :
    s₁.files.invocations = (counted host config arguments s₁).card := by
  have hsame : s₁.files.invocations = s.files.invocations →
      (hasRoot host config (arguments w) = true → (s₁.phase w).hasNoted = (s.phase w).hasNoted) →
      s₁.files.invocations = (counted host config arguments s₁).card := by
    intro hfiles hnoted
    rw [hfiles, h.count, counted_move hmove hnoted]
  cases hmove with
  | pass hphase hname =>
    apply hsame rfl
    intro hroot
    rw [hasRoot, hname] at hroot
    cases hroot
  | @touchWritten name touch hphase =>
    have hw := h.knows w
    rw [hphase] at hw
    obtain ⟨⟨hname, _⟩, _, _, hcount, _⟩ := hw
    have hinsert : counted host config arguments ((s.putTouch touch).goTo w (.unlock name)) =
        insert w (counted host config arguments s) := by
      ext v
      unfold counted
      rw [Finset.mem_insert, Finset.mem_filter, Finset.mem_filter]
      by_cases hv : v = w
      · subst hv
        simp [System.goTo, hasRoot_of_name hname, Phase.hasNoted]
      · simp [System.goTo, System.putTouch, hv]
    have hnot : w ∉ counted host config arguments s := by
      unfold counted
      rw [Finset.mem_filter, hphase]
      simp [Phase.hasNoted]
    rw [hinsert, Finset.card_insert_of_notMem hnot, ← h.count]
    exact hcount
  | _ =>
    apply hsame rfl
    intro _
    simp [*, System.goTo, System.putBefore, Phase.hasNoted]

lemma inv_of_move (h : Inv host config arguments s) (hmove : Move host config arguments s w s₁) :
    Inv host config arguments s₁.tick where
  knows := by
    intro v
    by_cases hv : v = w
    · rw [hv]
      exact knows_of_move h hmove
    · have hknows := (h.knows v).frame (keeps_of_move h hmove hv)
      show Knows host config arguments s₁.tick v (s₁.phase v)
      rw [hmove.frame.phase v hv]
      exact hknows
  count := by
    show s₁.files.invocations = (counted host config arguments s₁).card
    exact count_of_move h hmove
  taken := by
    intro hbefore
    show s₁.takenAt < s₁.clock + 1
    rw [hmove.frame.clock]
    cases hmove with
    | beforeWritten hphase =>
      have hw := h.knows w
      rw [hphase] at hw
      exact Nat.lt_succ_of_lt hw.2.2.2
    | _ => exact Nat.lt_succ_of_lt (h.taken hbefore)

/-- As long as nothing has failed, the state files are true. -/
lemma inv_of_run {ops : List (ι × Answer)}
    (hrun : exec (System.step host config arguments) System.initial ops = some s)
    (hfinds : Along (System.step host config arguments) Finds System.initial ops) :
    FailInv s ∧ (Clean s → Inv host config arguments s) := by
  refine exec_invariant_along (P := fun s => FailInv s ∧ (Clean s → Inv host config arguments s))
    ?_ ⟨FailInv.initial, fun _ => inv_initial host config arguments⟩ hfinds hrun
  intro s op s' ⟨hfail, hinv⟩ hfinds hstep
  refine ⟨failInv_step hfail hstep, ?_⟩
  intro hclean
  obtain ⟨s₁, hmove, rfl⟩ := move_of_step hfail hfinds hstep hclean
  exact inv_of_move (hinv (clean_of_move hmove hclean)) hmove

end

end

/-! ### The manifest -/

/-- The compiler is given an incremental root and the name of a crate. -/
def isGiven (host : Host) (arguments : List OsText) : Bool :=
  (incrementalArgument host arguments).isSome && hasCrateName arguments

lemma isGiven_iff {root : Option String} (h : touchedName host config words = .ok root) :
    isGiven host words = root.isSome := by
  unfold touchedName at h
  split at h
  · rename_i hnone
    rw [isGiven, hnone, ← Except.ok.inj h]
    rfl
  · rename_i found hfound
    rw [isGiven, hfound]
    split at h
    · rename_i hcrate
      rw [← Except.ok.inj h]
      simpa using hcrate
    · rename_i hcrate
      rw [Bool.not_eq_true', Bool.not_eq_false] at hcrate
      rw [hcrate]
      obtain ⟨touchedPath, hpath, h⟩ := bind_eq_ok.mp h
      split at h
      · cases h
      · split at h
        · cases h
        · rw [← Except.ok.inj h]
          rfl

/-- What a complete manifest says of the wrappers of a build. -/
structure Sound [Fintype ι] (host : Host) (config : Config) (arguments : ι → List OsText)
    (s : System ι) (manifest : Manifest) : Prop where
  /-- The root of every compiler is in the touched set. -/
  touched : ∀ w, isGiven host (arguments w) = true → ∃ name touch,
    touchedName host config (arguments w) = .ok (some name) ∧ s.files.touch = some touch ∧
      name ∈ touch.roots ∧ ∀ root ∈ manifest.roots, root.name = name → root.touched = true
  /-- The identities were taken before any of the compilers was started. -/
  before : ∀ w, isGiven host (arguments w) = true → ∃ moment, s.startedAt w = some moment ∧
    s.takenAt < moment
  count : manifest.rustcInvocations =
    (Finset.univ.filter fun w => isGiven host (arguments w) = true).card

/-- The claim of a manifest in a state of the build. -/
def ManifestHolds [Fintype ι] (host : Host) (config : Config) (arguments : ι → List OsText)
    (s : System ι) (finding : Finding) : Prop :=
  (finalizeIncrementalManifest config finding s.files).snapshotComplete = true →
    (∀ w, s.phase w = .exited 0) →
      Sound host config arguments s (finalizeIncrementalManifest config finding s.files)

/-- A wrapper whose coordination failed leaves the poison behind or does not exit with success. -/
def FailuresShow (s : System ι) : Prop :=
  ∀ w, s.coordinationFailed w = true → s.phase w = .exited 0 → s.files.poison = true

lemma manifestRoots_touched {roots : List RootSnapshot} {found : List ManifestRoot}
    (h : manifestRoots finding touch roots = some found) :
    ∀ root ∈ found, root.touched = decide (root.name ∈ touch.roots) := by
  induction roots generalizing found with
  | nil =>
    cases h
    intro root hroot
    exact absurd hroot not_mem_nil
  | cons first roots ih =>
    unfold manifestRoots at h
    split at h
    · exact ih h
    · split at h
      · obtain ⟨rest, hrest, rfl⟩ := map_eq_some_iff.mp h
        intro root hroot
        rcases mem_cons.mp hroot with rfl | hroot
        · rfl
        · exact ih hrest root hroot
      · cases h

/-- What a complete manifest is made of. -/
lemma completeRoots_eq_some {roots : List ManifestRoot} {count : Nat}
    (h : completeRoots config finding files = some (roots, count)) :
    files.poison = false ∧ ∃ before touch, files.before = some before ∧
      files.touch = some touch ∧ manifestRoots finding touch before.roots = some roots ∧
        count = touch.rustcInvocations := by
  unfold completeRoots at h
  split at h
  · cases h
  · rename_i hpoison
    rw [Bool.or_eq_true, not_or, Bool.not_eq_true] at hpoison
    split at h
    · rename_i before touch hbefore htouch
      split at h
      · cases h
      · split at h
        · obtain ⟨found, hfound, heq⟩ := map_eq_some_iff.mp h
          cases heq
          exact ⟨hpoison.1, before, touch, hbefore, htouch, hfound, rfl⟩
        · cases h
    · cases h

section
variable [Fintype ι]

omit [DecidableEq ι] in
/-- A complete manifest after nothing but successes. -/
lemma manifestHolds (finding : Finding) (hfail : FailInv s)
    (hinv : Clean s → Inv host config arguments s) :
    ManifestHolds host config arguments s finding := by
  intro hcomplete hexited
  obtain ⟨⟨roots, count⟩, hroots⟩ := isSome_iff_exists.mp
    (show (completeRoots config finding s.files).isSome = true from hcomplete)
  obtain ⟨hpoison, before, touch, hbefore, htouch, hmanifest, hcount⟩ :=
    completeRoots_eq_some hroots
  have hclean : Clean s := by
    refine ⟨hpoison, ?_, ?_⟩
    · intro w
      rw [Bool.eq_false_iff]
      intro hfailed
      have hshows := hfail.shows w hfailed
      rw [hexited w] at hshows
      exact absurd (hpoison.symm.trans (hshows rfl)) Bool.false_ne_true
    · intro w hdied
      rw [hexited w] at hdied
      cases hdied
  have hinv := hinv hclean
  have hknows : ∀ w, Knows host config arguments s w (.exited 0) := by
    intro w
    have hw := hinv.knows w
    rw [hexited w] at hw
    exact hw
  -- every compiler with a root has noted it under its name
  have hnamed : ∀ w, isGiven host (arguments w) = true →
      ∃ name, touchedName host config (arguments w) = .ok (some name) := by
    intro w hgiven
    obtain ⟨root, hroot⟩ := (hknows w).1.named
    rw [isGiven_iff hroot] at hgiven
    obtain ⟨name, rfl⟩ := isSome_iff_exists.mp hgiven
    exact ⟨name, hroot⟩
  constructor
  · intro w hgiven
    obtain ⟨name, hname⟩ := hnamed w hgiven
    have hmem : name ∈ touch.roots := by
      have hnoted := ((hknows w).1.root name hname).2
      rw [Files.touchedRoots, htouch] at hnoted
      exact hnoted
    refine ⟨name, touch, hname, htouch, hmem, ?_⟩
    intro root hroot hrootName
    have hfound : root ∈ roots := by
      unfold finalizeIncrementalManifest at hroot
      dsimp only at hroot
      rw [hroots] at hroot
      exact (mergeSort_perm _ _).mem_iff.mp hroot
    rw [manifestRoots_touched hmanifest root hfound, hrootName]
    exact decide_eq_true hmem
  · intro w hgiven
    obtain ⟨name, hname⟩ := hnamed w hgiven
    obtain ⟨moment, hmoment⟩ := ne_none_iff_exists'.mp ((hknows w).2.2 rfl)
    exact ⟨moment, hmoment, (hknows w).2.1 name moment hname hmoment⟩
  · have hmanifestCount : (finalizeIncrementalManifest config finding s.files).rustcInvocations =
        s.files.invocations := by
      unfold finalizeIncrementalManifest
      dsimp only
      rw [hroots, Files.invocations, htouch]
      exact hcount
    rw [hmanifestCount, hinv.count]
    unfold counted
    congr 1
    apply Finset.filter_congr
    intro w _
    obtain ⟨root, hroot⟩ := (hknows w).1.named
    rw [hexited w, isGiven_iff hroot, hasRoot, hroot]
    simp [Phase.hasNoted]

/-- In a run in which every state file that is there is found, a complete manifest after nothing but
successes is true, and every failed coordination shows. -/
theorem manifest_holds_of_found (host : Host) (config : Config) (arguments : ι → List OsText)
    (ops : List (ι × Answer)) (s : System ι)
    (hrun : exec (System.step host config arguments) System.initial ops = some s)
    (hfinds : Along (System.step host config arguments) Finds System.initial ops) :
    FailuresShow s ∧ ∀ finding, ManifestHolds host config arguments s finding := by
  obtain ⟨hfail, hinv⟩ := inv_of_run hrun hfinds
  refine ⟨?_, fun finding => manifestHolds finding hfail hinv⟩
  intro w hfailed hexited
  have hshows := hfail.shows w hfailed
  rw [hexited] at hshows
  exact hshows rfl

end

/-! ### Two compilers -/

/-- The paths of two roots in the incremental directory. -/
def twoRoots : Host where
  lossy := fun _ => ""
  exactAbsolute := fun value =>
    if value = "/t/debug/incremental/a" then .ok ⟨some "/t/debug/incremental", some "a"⟩
    else if value = "/t/debug/incremental/b" then .ok ⟨some "/t/debug/incremental", some "b"⟩
    else .error "not one of the two roots"

def twoConfig : Config := ⟨"build-4711-1700000000000", "/t", "/t/debug/incremental"⟩

def twoArguments (second : Bool) : List OsText :=
  if second then
    [.text "--crate-name", .text "b", .text "-C", .text "incremental=/t/debug/incremental/b"]
  else
    [.text "--crate-name", .text "a", .text "-C", .text "incremental=/t/debug/incremental/a"]

/-- A wrapper that succeeds; `fault` is whether asking for `touch.json` fails. -/
def wholeRun (w fault : Bool) : List (Bool × Answer) :=
  [(w, .environment true true), (w, .locked true), (w, .before false true (some []))] ++
    (if w then [] else [(w, .written .ok)]) ++
    [(w, .touch fault false), (w, .written .ok), (w, .unlocked), (w, .launched true),
      (w, .compiled (some 0))]

def quietFinding : Finding := ⟨fun _ => true, fun _ => .ok "", false, false, false⟩

/-- The second wrapper does not find the `touch.json` of the first. -/
def lostRun : List (Bool × Answer) := wholeRun false false ++ wholeRun true true

lemma lostRun_isSome : (exec (System.step twoRoots twoConfig twoArguments) System.initial
    lostRun).isSome = true := by decide

theorem lost_update :
    ¬ ∀ ops s, exec (System.step twoRoots twoConfig twoArguments) System.initial ops = some s →
      FailuresShow s ∧ ∀ finding, ManifestHolds twoRoots twoConfig twoArguments s finding := by
  intro h
  have hholds := (h _ _ (some_get lostRun_isSome).symm).2 quietFinding
  have hcomplete : (finalizeIncrementalManifest twoConfig quietFinding
      (Option.get _ lostRun_isSome).files).snapshotComplete = true := by decide
  have hexited : ∀ w, (Option.get _ lostRun_isSome).phase w = .exited 0 := by decide
  have hone : (finalizeIncrementalManifest twoConfig quietFinding
      (Option.get _ lostRun_isSome).files).rustcInvocations = 1 := by decide
  have htwo : (Finset.univ.filter fun w => isGiven twoRoots (twoArguments w) = true).card = 2 := by
    decide
  have hcount := (hholds hcomplete hexited).count
  rw [hone, htwo] at hcount
  exact absurd hcount (by decide)

def foundRun : List (Bool × Answer) := wholeRun false false ++ wholeRun true false

lemma foundRun_isSome : (exec (System.step twoRoots twoConfig twoArguments) System.initial
    foundRun).isSome = true := by decide

/-- The platform answers every question about a state file. -/
def Answer.noFault : Answer → Bool
  | .before fault _ _ => !fault
  | .touch fault _ => !fault
  | _ => true

omit [DecidableEq ι] in
lemma finds_of_noFault (h : op.2.noFault = true) : Finds s op := by
  unfold Finds
  split
  · rename_i hanswer
    intro hfault
    rw [hanswer, hfault] at h
    cases h
  · rename_i hanswer
    intro hfault
    rw [hanswer, hfault] at h
    cases h
  · trivial

lemma along_of_noFault {ops : List (ι × Answer)} (h : ∀ op ∈ ops, op.2.noFault = true) :
    Along (System.step host config arguments) Finds s ops := by
  induction ops generalizing s with
  | nil => trivial
  | cons op ops ih =>
    refine ⟨finds_of_noFault (h op mem_cons_self), fun s' _ => ?_⟩
    exact ih fun other hother => h other (mem_cons_of_mem _ hother)

theorem manifest_holds_of_found_two :
    ∃ s, exec (System.step twoRoots twoConfig twoArguments) System.initial foundRun = some s ∧
      FailuresShow s ∧ ∀ finding, ManifestHolds twoRoots twoConfig twoArguments s finding := by
  refine ⟨_, (some_get foundRun_isSome).symm, ?_⟩
  apply manifest_holds_of_found twoRoots twoConfig twoArguments foundRun _
    (some_get foundRun_isSome).symm
  apply along_of_noFault
  decide

end Agenterm.Incremental
