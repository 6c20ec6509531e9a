import Agenterm.Worker.Protocol
import Mathlib.Data.List.Nodup

/-!
# A roster of invocations

What a worker is for, without its frames in: invocations are admitted; one at a time is active, and
the others are refused; each is answered once. `Roster.Step` says what may happen to the roster,
`Orderly` what holds of it through any steps, and `Answered` that nothing is lost or answered twice
as long as everything that is written arrives.
-/

namespace Agenterm.Worker

open List

variable {entry : Entry} {i j : Nat} {stage : Stage}

section
variable {α : Type}

/-- An element of a list with one place changed. -/
lemma getElem?_set_cases {l : List α} {a b : α} (h : (l.set i a)[j]? = some b) :
    (j = i ∧ b = a) ∨ (j ≠ i ∧ l[j]? = some b) := by
  rw [List.getElem?_set] at h
  split at h
  · split at h
    · exact .inl ⟨by omega, (Option.some.inj h).symm⟩
    · injection h
  · exact .inr ⟨by omega, h⟩

/-- An element of a list with one more. -/
lemma getElem?_concat_cases {l : List α} {a b : α} (h : (l ++ [a])[j]? = some b) :
    l[j]? = some b ∨ (j = l.length ∧ b = a) := by
  rw [List.getElem?_append] at h
  split at h
  · exact .inl h
  · rw [List.getElem?_singleton] at h
    split at h
    · exact .inr ⟨by omega, (Option.some.inj h).symm⟩
    · injection h

lemma getElem?_set_of_some {l : List α} {a : α} (h : l[i]? = some a) (b : α) :
    (l.set i b)[i]? = some b := by
  rw [List.getElem?_set_self (List.getElem?_eq_some_iff.mp h).1]

lemma getElem?_concat_of_some {l : List α} {a : α} (h : l[i]? = some a) (b : α) :
    (l ++ [b])[i]? = some a := by
  rw [List.getElem?_append_left (List.getElem?_eq_some_iff.mp h).1, h]

end

/-- The frame is a result under these ids. -/
def Names (frame : ScriptFrame) (frameId invocationId : String) : Prop :=
  frame.frameId = frameId ∧
    ∃ result, frame.payload = .result result ∧ result.invocationId = invocationId

namespace Roster

/-- What has become of an invocation that was started. -/
inductive Stage where
  | running
  | finished (result : ScriptResult)
  | locked (result : ScriptResult)
  | written
  | done

def Stage.result : Stage → Option ScriptResult
  | .finished result | .locked result => some result
  | _ => none

/-- The stages with the lock of the active invocation. -/
def Stage.holds : Stage → Bool
  | .locked _ | .written => true
  | _ => false

def Stage.answered : Stage → Bool
  | .written | .done => true
  | _ => false

structure Entry where
  number : Nat
  frameId : String
  invocationId : String
  stage : Stage

structure Asking where
  number : Nat
  frameId : String
  invocationId : String

structure Answer where
  number : Nat
  refused : Bool
  frame : ScriptFrame

end Roster

/-- `asking` is the admitted invocation that is about to be started or refused. -/
structure Roster where
  admitted : List (String × String)
  asking : Option Roster.Asking
  refusing : Bool
  entries : List Roster.Entry
  active : Option (String × Nat)
  locked : Bool
  answers : List Roster.Answer

namespace Roster

def empty : Roster := ⟨[], none, false, [], none, false, []⟩

def withEntry (roster : Roster) (i : Nat) (entry : Entry) : Roster :=
  { roster with entries := roster.entries.set i entry }

/-- What was to be written as an answer is recorded if it was written. -/
def record (roster : Roster) (written : Bool) (answer : Answer) : Roster :=
  { roster with answers := roster.answers ++ if written then [answer] else [] }

/-- What may happen, when what is to be written is `written` or lost. -/
inductive Step (written : Bool) : Roster → Roster → Prop where
  | admission {roster : Roster} (frameId invocationId : String) (hasking : roster.asking = none) :
    Step written roster
      { roster with
        admitted := roster.admitted ++ [(frameId, invocationId)]
        asking := some ⟨roster.admitted.length, frameId, invocationId⟩ }
  | refuse {roster : Roster} (hlocked : roster.locked = false) (hasking : roster.asking.isSome)
      (hactive : roster.active.isSome) :
    Step written roster { roster with locked := true, refusing := true }
  | refused {roster : Roster} (asking : Asking) (frame : ScriptFrame)
      (hasking : roster.asking = some asking) (hrefusing : roster.refusing = true)
      (hframe : Names frame asking.frameId asking.invocationId) :
    Step written roster
      { roster.record written ⟨asking.number, true, frame⟩ with
        locked := false, refusing := false, asking := none }
  | spawn {roster : Roster} (asking : Asking) (hasking : roster.asking = some asking)
      (hrefusing : roster.refusing = false) (hactive : roster.active = none) :
    Step written roster
      { roster with
        asking := none
        entries := roster.entries ++
          [⟨asking.number, asking.frameId, asking.invocationId, .running⟩]
        active := some (asking.invocationId, roster.entries.length) }
  | finish {roster : Roster} (i : Nat) (entry : Entry) (result : ScriptResult)
      (hentry : roster.entries[i]? = some entry) (hstage : entry.stage = .running)
      (hresult : result.invocationId = entry.invocationId) :
    Step written roster (roster.withEntry i { entry with stage := .finished result })
  | lock {roster : Roster} (i : Nat) (entry : Entry) (result : ScriptResult)
      (hentry : roster.entries[i]? = some entry) (hstage : entry.stage = .finished result)
      (hlocked : roster.locked = false) :
    Step written roster
      { roster.withEntry i { entry with stage := .locked result } with locked := true }
  | answer {roster : Roster} (i : Nat) (entry : Entry) (result : ScriptResult)
      (frame : ScriptFrame) (hentry : roster.entries[i]? = some entry)
      (hstage : entry.stage = .locked result)
      (hframe : Names frame entry.frameId result.invocationId) :
    Step written roster
      ((roster.record written ⟨entry.number, false, frame⟩).withEntry i
        { entry with stage := .written })
  | release {roster : Roster} (i : Nat) (entry : Entry) (hentry : roster.entries[i]? = some entry)
      (hstage : entry.stage = .written) :
    Step written roster
      { roster.withEntry i { entry with stage := .done } with active := none, locked := false }

variable {written : Bool} {roster roster' other : Roster}

lemma Step.congr (h : Step written roster roster') (heq : other = roster') :
    Step written roster other := heq ▸ h

/-! ## Order -/

/-- One invocation is active, the one that is not done; what holds the lock excludes the rest; and
everything goes under the ids that were admitted. -/
structure Orderly (roster : Roster) : Prop where
  alone (i : Nat) (entry : Entry) : roster.entries[i]? = some entry → entry.stage ≠ .done →
    roster.active = some (entry.invocationId, i)
  active (id : String) (i : Nat) : roster.active = some (id, i) →
    ∃ entry, roster.entries[i]? = some entry ∧ entry.stage ≠ .done
  holder (i : Nat) (entry : Entry) : roster.entries[i]? = some entry →
    entry.stage.holds = true → roster.locked = true ∧ roster.refusing = false
  refusing : roster.refusing = true → roster.locked = true ∧ roster.asking.isSome
  entered (i : Nat) (entry : Entry) : roster.entries[i]? = some entry →
    roster.admitted[entry.number]? = some (entry.frameId, entry.invocationId)
  asked (asking : Asking) : roster.asking = some asking →
    roster.admitted[asking.number]? = some (asking.frameId, asking.invocationId)
  results (i : Nat) (entry : Entry) (result : ScriptResult) : roster.entries[i]? = some entry →
    entry.stage.result = some result → result.invocationId = entry.invocationId
  answers (answer : Answer) : answer ∈ roster.answers → ∃ frameId invocationId,
    roster.admitted[answer.number]? = some (frameId, invocationId) ∧
      Names answer.frame frameId invocationId

lemma orderly_empty : empty.Orderly where
  alone _ _ hentry := by injection hentry
  active _ _ hactive := by injection hactive
  holder _ _ hentry := by injection hentry
  refusing hrefusing := by injection hrefusing
  entered _ _ hentry := by injection hentry
  asked _ hasking := by injection hasking
  results _ _ _ hentry := by injection hentry
  answers _ hanswer := absurd hanswer not_mem_nil

/-- Two entries that are not done are one. -/
lemma Orderly.unique (h : roster.Orderly) {other : Entry}
    (hentry : roster.entries[i]? = some entry) (hlive : entry.stage ≠ .done)
    (hother : roster.entries[j]? = some other) (hlive' : other.stage ≠ .done) : i = j := by
  have hi := h.alone i entry hentry hlive
  rw [h.alone j other hother hlive'] at hi
  exact (Prod.mk.inj (Option.some.inj hi)).2.symm

/-- What can be said of a roster after an entry goes to another stage. -/
lemma Orderly.entries_set (h : roster.Orderly) (hentry : roster.entries[i]? = some entry)
    (j : Nat) (other : Entry)
    (hother : (roster.entries.set i { entry with stage := stage })[j]? = some other) :
    roster.admitted[other.number]? = some (other.frameId, other.invocationId) := by
  rcases getElem?_set_cases hother with ⟨rfl, rfl⟩ | ⟨-, hother⟩
  · exact h.entered _ entry hentry
  · exact h.entered j other hother

/-- A stage that is not the last keeps the entry alone. -/
lemma Orderly.alone_set (h : roster.Orderly) (hentry : roster.entries[i]? = some entry)
    (hlive : entry.stage ≠ .done) (j : Nat) (other : Entry)
    (hother : (roster.entries.set i { entry with stage := stage })[j]? = some other)
    (hother' : other.stage ≠ .done) : roster.active = some (other.invocationId, j) := by
  rcases getElem?_set_cases hother with ⟨rfl, rfl⟩ | ⟨-, hother⟩
  · exact h.alone j entry hentry hlive
  · exact h.alone j other hother hother'

lemma Orderly.active_set (h : roster.Orderly) (hentry : roster.entries[i]? = some entry)
    (hstage : stage ≠ .done) (id : String) (j : Nat) (hactive : roster.active = some (id, j)) :
    ∃ other, (roster.entries.set i { entry with stage := stage })[j]? = some other ∧
      other.stage ≠ .done := by
  obtain ⟨other, hother, hlive⟩ := h.active id j hactive
  by_cases hij : j = i
  · subst hij
    exact ⟨_, getElem?_set_of_some hentry _, hstage⟩
  · exact ⟨other, by rw [List.getElem?_set_ne (Ne.symm hij)]; exact hother, hlive⟩

lemma Orderly.results_set (h : roster.Orderly)
    (hstage : ∀ result, stage.result = some result → result.invocationId = entry.invocationId)
    (j : Nat) (other : Entry) (result : ScriptResult)
    (hother : (roster.entries.set i { entry with stage := stage })[j]? = some other)
    (hresult : other.stage.result = some result) : result.invocationId = other.invocationId := by
  rcases getElem?_set_cases hother with ⟨rfl, rfl⟩ | ⟨-, hother⟩
  · exact hstage result hresult
  · exact h.results j other result hother hresult

lemma mem_record {answer new : Answer} (h : answer ∈ (roster.record written new).answers) :
    answer ∈ roster.answers ∨ answer = new := by
  rcases mem_append.mp h with h | h
  · exact .inl h
  · cases written with
    | false => exact absurd h not_mem_nil
    | true => exact .inr (mem_singleton.mp h)

/-- A step keeps the roster in order. One case per kind of step; each changes one entry, or none, and
so touches only a few of the fields. -/
theorem Orderly.step (h : roster.Orderly) (hstep : Step written roster roster') :
    roster'.Orderly := by
  cases hstep with
  | admission frameId invocationId hasking =>
    refine ⟨h.alone, h.active, h.holder, ?_, ?_, ?_, h.results, ?_⟩
    · intro hrefusing
      exact ⟨(h.refusing hrefusing).1, rfl⟩
    · intro i entry hentry
      exact getElem?_concat_of_some (h.entered i entry hentry) _
    · intro asking hnew
      rw [← Option.some.inj hnew]
      exact List.getElem?_concat_length
    · intro answer hanswer
      obtain ⟨frameId, invocationId, hadmitted, hnames⟩ := h.answers answer hanswer
      exact ⟨frameId, invocationId, getElem?_concat_of_some hadmitted _, hnames⟩
  | refuse hlocked hasking hactive =>
    refine ⟨h.alone, h.active, ?_, fun _ => ⟨rfl, hasking⟩, h.entered, h.asked, h.results,
      h.answers⟩
    intro i entry hentry hholds
    have hheld := (h.holder i entry hentry hholds).1
    rw [hlocked] at hheld
    injection hheld
  | refused asking frame hasking hrefusing hframe =>
    refine ⟨h.alone, h.active, ?_, fun hnone => by injection hnone, h.entered,
      fun _ hnone => by injection hnone, h.results, ?_⟩
    · intro i entry hentry hholds
      have hnot := (h.holder i entry hentry hholds).2
      rw [hrefusing] at hnot
      injection hnot
    · intro answer hanswer
      rcases mem_record hanswer with hold | rfl
      · exact h.answers answer hold
      · exact ⟨_, _, h.asked asking hasking, hframe⟩
  | spawn asking hasking hrefusing hactive =>
    have hdone (i : Nat) (entry : Entry) (hentry : roster.entries[i]? = some entry) :
        entry.stage = .done := by
      by_contra hlive
      have hsome := h.alone i entry hentry hlive
      rw [hactive] at hsome
      injection hsome
    refine ⟨?_, ?_, ?_, ?_, ?_, fun _ hnone => by injection hnone, ?_, h.answers⟩
    · intro i entry hentry hlive
      rcases getElem?_concat_cases hentry with hold | ⟨rfl, rfl⟩
      · exact absurd (hdone i entry hold) hlive
      · rfl
    · intro id i hsome
      cases hsome
      exact ⟨_, List.getElem?_concat_length, by intro hnot; injection hnot⟩
    · intro i entry hentry hholds
      rcases getElem?_concat_cases hentry with hold | ⟨rfl, rfl⟩
      · exact h.holder i entry hold hholds
      · injection hholds
    · intro hnot
      have hsome : roster.refusing = true := hnot
      rw [hrefusing] at hsome
      injection hsome
    · intro i entry hentry
      rcases getElem?_concat_cases hentry with hold | ⟨rfl, rfl⟩
      · exact h.entered i entry hold
      · exact h.asked asking hasking
    · intro i entry result hentry hresult
      rcases getElem?_concat_cases hentry with hold | ⟨rfl, rfl⟩
      · exact h.results i entry result hold hresult
      · injection hresult
  | finish i entry result hentry hstage hresult =>
    have hlive : entry.stage ≠ .done := by rw [hstage]; intro hnot; injection hnot
    refine ⟨h.alone_set hentry hlive, h.active_set hentry (by intro hnot; injection hnot), ?_,
      h.refusing, h.entries_set hentry, h.asked, h.results_set ?_, h.answers⟩
    · intro j other hother hholds
      rcases getElem?_set_cases hother with ⟨rfl, rfl⟩ | ⟨-, hother⟩
      · injection hholds
      · exact h.holder j other hother hholds
    · intro other hother
      rw [← Option.some.inj hother]
      exact hresult
  | lock i entry result hentry hstage hlocked =>
    have hlive : entry.stage ≠ .done := by rw [hstage]; intro hnot; injection hnot
    have hrefusing : roster.refusing = false := by
      cases hcases : roster.refusing with
      | false => rfl
      | true =>
        have hheld := (h.refusing hcases).1
        rw [hlocked] at hheld
        injection hheld
    refine ⟨h.alone_set hentry hlive, h.active_set hentry (by intro hnot; injection hnot), ?_,
      ?_, h.entries_set hentry, h.asked, h.results_set ?_, h.answers⟩
    · intro j other hother hholds
      exact ⟨rfl, hrefusing⟩
    · intro hnot
      have hsome : roster.refusing = true := hnot
      rw [hrefusing] at hsome
      injection hsome
    · intro other hother
      have hold : entry.stage.result = some other := by rw [hstage]; exact hother
      exact h.results i entry other hentry hold
  | answer i entry result frame hentry hstage hframe =>
    have hlive : entry.stage ≠ .done := by rw [hstage]; intro hnot; injection hnot
    have hheld := h.holder i entry hentry (by rw [hstage]; rfl)
    have hid := h.results i entry result hentry (by rw [hstage]; rfl)
    refine ⟨h.alone_set hentry hlive, h.active_set hentry (by intro hnot; injection hnot),
      fun _ _ _ _ => hheld, h.refusing, h.entries_set hentry, h.asked, h.results_set ?_, ?_⟩
    · intro other hother
      injection hother
    · intro other hother
      rcases mem_record hother with hold | rfl
      · exact h.answers other hold
      · rw [hid] at hframe
        exact ⟨_, _, h.entered i entry hentry, hframe⟩
  | release i entry hentry hstage =>
    have hlive : entry.stage ≠ .done := by rw [hstage]; intro hnot; injection hnot
    have hheld := h.holder i entry hentry (by rw [hstage]; rfl)
    have hothers (j : Nat) (other : Entry) (hother : roster.entries[j]? = some other)
        (hne : j ≠ i) : other.stage = .done := by
      by_contra hnot
      exact hne (h.unique hother hnot hentry hlive)
    refine ⟨?_, fun _ _ hnone => by injection hnone, ?_, ?_, h.entries_set hentry, h.asked,
      h.results_set ?_, h.answers⟩
    · intro j other hother hnot
      rcases getElem?_set_cases hother with ⟨rfl, rfl⟩ | ⟨hne, hother⟩
      · exact absurd rfl hnot
      · exact absurd (hothers j other hother hne) hnot
    · intro j other hother hholds
      rcases getElem?_set_cases hother with ⟨rfl, rfl⟩ | ⟨hne, hother⟩
      · injection hholds
      · rw [hothers j other hother hne] at hholds
        injection hholds
    · intro hnot
      have hsome : roster.refusing = true := hnot
      rw [hheld.2] at hsome
      injection hsome
    · intro other hother
      injection hother

/-! ## Answers -/

/-- The active invocation, while it has no answer. -/
def unanswered (roster : Roster) : Option Entry :=
  (roster.active.bind fun active => roster.entries[active.2]?).filter fun entry =>
    !entry.stage.answered

/-- The admitted invocations without an answer. -/
def pending (roster : Roster) : List Nat :=
  roster.asking.toList.map Asking.number ++ roster.unanswered.toList.map Entry.number

/-- Each admitted invocation has one answer or is pending. -/
def Answered (roster : Roster) : Prop :=
  (roster.answers.map Answer.number ++ roster.pending).Perm (List.range roster.admitted.length)

lemma answered_empty : empty.Answered := .nil

lemma unanswered_of_active (roster : Roster) {id : String}
    (hactive : roster.active = some (id, i)) (hentry : roster.entries[i]? = some entry) :
    roster.unanswered = if entry.stage.answered then none else some entry := by
  unfold unanswered
  rw [hactive]
  show (roster.entries[i]?).filter _ = _
  rw [hentry]
  cases hanswered : entry.stage.answered with
  | true => exact Option.filter_some_neg (by rw [hanswered]; decide)
  | false => exact Option.filter_some_pos (by rw [hanswered]; rfl)

/-- An entry that goes to a stage without an answer stays pending. -/
lemma Orderly.unanswered_set (h : roster.Orderly) (stage : Stage)
    (hentry : roster.entries[i]? = some entry) (hlive : entry.stage ≠ .done)
    (hbefore : entry.stage.answered = false) (hafter : stage.answered = false) (locked : Bool) :
    ({ roster.withEntry i { entry with stage := stage } with locked := locked }).pending =
      roster.pending := by
  have hactive := h.alone i entry hentry hlive
  have hold := unanswered_of_active roster hactive hentry
  have hnew := unanswered_of_active
    { roster.withEntry i { entry with stage := stage } with locked := locked } hactive
    (getElem?_set_of_some hentry _)
  unfold pending
  rw [hold, hnew, hbefore]
  show _ ++ (if stage.answered = true then none else _).toList.map _ = _
  rw [hafter]
  rfl

/-- One answer to each invocation is kept by every step whose frame is written. -/
theorem Answered.step (h : roster.Answered) (horderly : roster.Orderly)
    (hstep : Step true roster roster') : roster'.Answered := by
  cases hstep with
  | admission frameId invocationId hasking =>
    unfold Answered pending at h ⊢
    rw [hasking] at h
    show (_ ++ ([roster.admitted.length] ++ _)).Perm (List.range (roster.admitted ++ _).length)
    rw [length_append, length_singleton, range_succ]
    refine .trans ?_ (h.append_right [roster.admitted.length])
    rw [append_assoc]
    exact perm_append_comm.append_left _
  | refuse hlocked hasking hactive => exact h
  | refused asking frame hasking hrefusing hframe =>
    unfold Answered pending at h ⊢
    rw [hasking] at h
    show ((roster.answers ++ [_]).map Answer.number ++ _).Perm _
    rw [map_append, append_assoc]
    exact h
  | spawn asking hasking hrefusing hactive =>
    have hnone : roster.unanswered = none := by
      unfold unanswered
      rw [hactive]
      rfl
    unfold Answered pending at h ⊢
    rw [hasking, hnone] at h
    rw [unanswered_of_active _ rfl List.getElem?_concat_length]
    exact h
  | finish i entry result hentry hstage hresult =>
    have hlive : entry.stage ≠ .done := by rw [hstage]; intro hnot; injection hnot
    have hpending := horderly.unanswered_set (.finished result) hentry hlive
      (by rw [hstage]; rfl) rfl roster.locked
    unfold Answered at h ⊢
    rw [← hpending] at h
    exact h
  | lock i entry result hentry hstage hlocked =>
    have hlive : entry.stage ≠ .done := by rw [hstage]; intro hnot; injection hnot
    have hpending := horderly.unanswered_set (.locked result) hentry hlive
      (by rw [hstage]; rfl) rfl true
    unfold Answered at h ⊢
    rw [hpending]
    exact h
  | answer i entry result frame hentry hstage hframe =>
    have hlive : entry.stage ≠ .done := by rw [hstage]; intro hnot; injection hnot
    have hactive := horderly.alone i entry hentry hlive
    unfold Answered pending at h ⊢
    rw [unanswered_of_active _ hactive hentry, hstage] at h
    rw [unanswered_of_active ((roster.record true ⟨entry.number, false, frame⟩).withEntry i
      { entry with stage := .written }) hactive (getElem?_set_of_some hentry _)]
    show ((roster.answers ++ [_]).map Answer.number ++ (_ ++ [])).Perm _
    rw [map_append, append_assoc, append_nil]
    refine .trans (perm_append_comm.append_left _) ?_
    exact h
  | release i entry hentry hstage =>
    have hlive : entry.stage ≠ .done := by rw [hstage]; intro hnot; injection hnot
    have hactive := horderly.alone i entry hentry hlive
    unfold Answered pending at h ⊢
    rw [unanswered_of_active _ hactive hentry, hstage] at h
    exact h

/-- An invocation that is not pending has one answer. -/
lemma Answered.count_eq_one (h : roster.Answered) {number : Nat}
    (hadmitted : number < roster.admitted.length) (hpending : number ∉ roster.pending) :
    (roster.answers.map Answer.number).count number = 1 := by
  have hcount := h.count_eq number
  rw [count_append, count_eq_zero_of_not_mem hpending,
    nodup_iff_count_eq_one.mp nodup_range number (mem_range.mpr hadmitted)] at hcount
  exact hcount

/-- A pending invocation has none. -/
lemma Answered.count_eq_zero (h : roster.Answered) {number : Nat}
    (hpending : number ∈ roster.pending) : (roster.answers.map Answer.number).count number = 0 := by
  have hnodup := (h.nodup_iff.mpr nodup_range)
  have hnot : number ∉ roster.answers.map Answer.number := fun hmem =>
    (nodup_append.mp hnodup).2.2 number hmem number hpending rfl
  exact count_eq_zero_of_not_mem hnot

/-- Nothing was refused, and the next invocation is only asked for when all others are answered. -/
structure Prompt (roster : Roster) : Prop where
  refusing : roster.refusing = false
  answers : ∀ answer ∈ roster.answers, answer.refused = false
  asking : roster.asking.isSome → roster.unanswered = none

lemma prompt_empty : empty.Prompt := ⟨rfl, fun _ hanswer => absurd hanswer not_mem_nil,
  fun hnone => by injection hnone⟩

/-- An entry that is not done and not pending holds the lock. -/
lemma Orderly.holds_of_unanswered (h : roster.Orderly) (hentry : roster.entries[i]? = some entry)
    (hlive : entry.stage ≠ .done) (hunanswered : roster.unanswered = none) :
    entry.stage = .written := by
  rw [unanswered_of_active roster (h.alone i entry hentry hlive) hentry] at hunanswered
  cases hstage : entry.stage with
  | written => rfl
  | done => exact absurd hstage hlive
  | _ =>
    rw [hstage] at hunanswered
    injection hunanswered

/-- While a new invocation is only admitted when the others are answered, none is refused. -/
theorem Prompt.step (h : roster.Prompt) (horderly : roster.Orderly)
    (hstep : Step written roster roster')
    (hadmission : roster'.admitted ≠ roster.admitted → roster.unanswered = none) : roster'.Prompt := by
  cases hstep with
  | admission frameId invocationId hasking =>
    refine ⟨h.refusing, h.answers, fun _ => hadmission fun hsame => ?_⟩
    have hlength := congrArg List.length hsame
    rw [length_append, length_singleton] at hlength
    omega
  | refuse hlocked hasking hactive =>
    -- the active invocation is answered, so it still has the lock
    obtain ⟨⟨id, i⟩, hsome⟩ := Option.isSome_iff_exists.mp hactive
    obtain ⟨entry, hentry, hlive⟩ := horderly.active id i hsome
    have hwritten := horderly.holds_of_unanswered hentry hlive (h.asking hasking)
    have hheld := (horderly.holder i entry hentry (by rw [hwritten]; rfl)).1
    rw [hlocked] at hheld
    injection hheld
  | refused asking frame hasking hrefusing hframe =>
    rw [h.refusing] at hrefusing
    injection hrefusing
  | spawn asking hasking hrefusing hactive =>
    exact ⟨h.refusing, h.answers, fun hnone => by injection hnone⟩
  | finish i entry result hentry hstage hresult =>
    refine ⟨h.refusing, h.answers, fun hasking => ?_⟩
    have hwritten := horderly.holds_of_unanswered hentry
      (by rw [hstage]; intro hnot; injection hnot) (h.asking hasking)
    rw [hstage] at hwritten
    injection hwritten
  | lock i entry result hentry hstage hlocked =>
    refine ⟨h.refusing, h.answers, fun hasking => ?_⟩
    have hwritten := horderly.holds_of_unanswered hentry
      (by rw [hstage]; intro hnot; injection hnot) (h.asking hasking)
    rw [hstage] at hwritten
    injection hwritten
  | answer i entry result frame hentry hstage hframe =>
    refine ⟨h.refusing, ?_, fun hasking => ?_⟩
    · intro answer hanswer
      rcases mem_record hanswer with hold | rfl
      · exact h.answers answer hold
      · rfl
    · have hwritten := horderly.holds_of_unanswered hentry
        (by rw [hstage]; intro hnot; injection hnot) (h.asking hasking)
      rw [hstage] at hwritten
      injection hwritten
  | release i entry hentry hstage => exact ⟨h.refusing, h.answers, fun _ => rfl⟩

end Roster

end Agenterm.Worker
