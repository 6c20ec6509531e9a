import Agenterm.Lib.Occurrences
import Agenterm.Terminal.OutputRingTheorems

/-!
# Waiting for the output of a PTY job

`pty_wait_with_providers` of `pty_jobs.rs` with `--contains`: pages of the output are read and
searched until the needle is found, the job is final, the deadline has passed or the wait is
cancelled. The output and the status are two requests to the server, which goes on between them:
what the job does there is part of a round (`WaitRound`).
-/

namespace Agenterm.Cu

open List

/-! ## The job -/

/-- A job as the server has it, with all the job has written; the server keeps the end of that. -/
structure PtyJob (capacity : Nat) where
  written : List UInt8
  output : TerminalOutput
  finalized : Bool
  retains : Retains capacity written output

inductive PtyJobEvent where
  | output (chunk : List UInt8)
  | finalize
deriving DecidableEq

namespace PtyJob

variable {capacity : Nat}

def start (capacity : Nat) : PtyJob capacity where
  written := []
  output := .new capacity
  finalized := false
  retains := retains_new capacity

/-- A final job has no more output. -/
def step (job : PtyJob capacity) : PtyJobEvent → PtyJob capacity
  | .output chunk =>
    if job.finalized then
      job
    else
      { job with
        written := job.written ++ chunk
        output := job.output.feed chunk
        retains := job.retains.feed chunk }
  | .finalize => { job with finalized := true }

def run (job : PtyJob capacity) (events : List PtyJobEvent) : PtyJob capacity :=
  events.foldl step job

end PtyJob

/-! ## One page -/

def ptyOutputPageBytes : Nat := 1048576

/-- Where the needle starts, and the overlap that is kept for the next page. -/
def scanExactPage (overlap page needle : List UInt8) (pageStartCursor : Nat) :
    Option Nat × List UInt8 :=
  let searched := overlap ++ page
  match Lib.position needle searched with
  | some position =>
    (some (saturatingAdd (pageStartCursor - overlap.length) position), searched)
  | none =>
    let retain := min (needle.length - 1) searched.length
    (none,
      if searched.length > retain then searched.drop (searched.length - retain) else searched)

/-- The pages from a cursor on, one after the other. -/
def scanPages (needle : List UInt8) (overlap : List UInt8) (cursor : Nat) :
    List (List UInt8) → Option Nat
  | [] => none
  | page :: pages =>
    match scanExactPage overlap page needle cursor with
    | (some found, _) => some found
    | (none, overlap) => scanPages needle overlap (cursor + page.length) pages

/-! ## The loop -/

/-- What happens around the requests of one round of the loop. -/
structure WaitRound where
  /-- What the job does before the page is read. -/
  beforePage : List PtyJobEvent
  /-- What the job does between the page and the next request. -/
  afterPage : List PtyJobEvent
  cancelledAfterPage : Bool
  deadlinePassed : Bool
  cancelledAfterStatus : Bool
  cancelledInPause : Bool
  deadlineAfterPause : Bool
deriving DecidableEq

/-- What the loop carries. -/
structure PtyWait where
  cursor : TerminalOutputCursor
  overlap : List UInt8
  scannedBytes : Nat
deriving DecidableEq

inductive PtyWaitResult where
  | matched (matchedAtCursor matchedEndCursor nextCursor scannedBytes : Nat)
  | unmatchedAfterExit (nextCursor scannedBytes : Nat)
  | timeout (nextCursor scannedBytes : Nat)
  | cancelled (nextCursor scannedBytes : Nat)
  | outputInvalid
  | outputRefused (read : TerminalOutputRead)
  | conditionInvalid
deriving DecidableEq

namespace PtyWait

variable {capacity : Nat}

/-- The wait as it is when the loop starts. -/
def start (cursor : TerminalOutputCursor) : PtyWait := { cursor, overlap := [], scannedBytes := 0 }

/-- The end of a round in which the page reached the end of the output: the status, then the pause.
`job` is the job when the status is read. -/
def afterStatus (w : PtyWait) (job : PtyJob capacity) (nextCursor : Nat) (round : WaitRound) :
    PtyWait ⊕ PtyWaitResult :=
  if job.finalized then
    .inr (.unmatchedAfterExit nextCursor w.scannedBytes)
  else if round.cancelledAfterStatus then
    .inr (.cancelled nextCursor w.scannedBytes)
  else if round.cancelledInPause then
    if round.deadlineAfterPause then
      .inr (.timeout nextCursor w.scannedBytes)
    else
      .inr (.cancelled nextCursor w.scannedBytes)
  else
    .inl w

/-- A round from its page on. -/
def afterPage (needle : List UInt8) (w : PtyWait) (page : TerminalOutputData)
    (job : PtyJob capacity) (round : WaitRound) : PtyWait ⊕ PtyWaitResult :=
  -- the document has no number above `u64::MAX`
  if page.start > u64Max || page.next > u64Max || page.current > u64Max then
    .inr .outputInvalid
  else
    let scannedBytes := saturatingAdd w.scannedBytes page.bytes.length
    match scanExactPage w.overlap page.bytes needle page.start with
    | (some found, _) =>
      .inr (.matched found (saturatingAdd found needle.length) page.next scannedBytes)
    | (none, overlap) =>
      let w' : PtyWait := { cursor := .absolute page.next, overlap, scannedBytes }
      if page.next < page.current then
        if round.cancelledAfterPage then .inr (.cancelled page.next scannedBytes) else .inl w'
      else if round.deadlinePassed then
        .inr (.timeout page.next scannedBytes)
      else
        afterStatus w' job page.next round

/-- One round: the page is read from the job as it is then (`job`), the status later (`later`). -/
def step (needle : List UInt8) (w : PtyWait) (job later : PtyJob capacity) (round : WaitRound) :
    PtyWait ⊕ PtyWaitResult :=
  match readTerminalOutput job.output.rawOutput job.output.outputBytes w.cursor
      ptyOutputPageBytes with
  | .data page => afterPage needle w page later round
  | read => .inr (.outputRefused read)

/-- The answer of the wait, and the job when it is given; `none` while the wait goes on. -/
def result (needle : List UInt8) (w : PtyWait) (job : PtyJob capacity) :
    List WaitRound → Option (PtyWaitResult × PtyJob capacity)
  | [] => none
  | round :: rounds =>
    let atPage := job.run round.beforePage
    let later := atPage.run round.afterPage
    match step needle w atPage later round with
    | .inr answer => some (answer, later)
    | .inl w' => result needle w' later rounds

end PtyWait

/-- `pty_wait` with `--contains`. -/
def ptyWait {capacity : Nat} (contains : List UInt8) (cursor : TerminalOutputCursor)
    (job : PtyJob capacity) (rounds : List WaitRound) :
    Option (PtyWaitResult × PtyJob capacity) :=
  if contains.isEmpty || contains.length > 65536 then
    some (.conditionInvalid, job)
  else
    (PtyWait.start cursor).result contains job rounds

/-!
The overlap makes the pages one text (`scanExactPage_found`, `scanExactPage_missed`), so that what
was read has been searched (`ScannedTo`), whatever the pages. A match is therefore the first one.
That there is none is known of what was read: the answer after the exit of the job is right when
what arrived behind the last page has no match (`Settles`).
-/

open Lib

variable {needle : List UInt8}

/-! ## Pages -/

section
variable {seen page : List UInt8} (start : Nat)

/-- A position in the overlap, told from the start of the text. -/
lemma saturatingAdd_overlap (j : Nat) :
    saturatingAdd (start + seen.length - (lastOf (needle.length - 1) seen).length) j =
      saturatingAdd start (seen.length - (needle.length - 1) + j) := by
  rw [length_lastOf]
  unfold saturatingAdd
  congr 1
  omega

/-- The page in which the needle is first: the cursor of the match does not depend on the pages. -/
lemma scanExactPage_found (hneedle : needle ≠ []) (hnone : ∀ j, ¬OccursAt needle j seen) {i : Nat}
    (h : FirstAt needle i (seen ++ page)) :
    (scanExactPage (lastOf (needle.length - 1) seen) page needle (start + seen.length)).1 =
      some (saturatingAdd start i) := by
  obtain ⟨j, hj, hkept⟩ := (occursAt_overlap hneedle hnone i).mp h.1
  have hfirst : FirstAt needle j (lastOf (needle.length - 1) seen ++ page) := by
    refine ⟨hkept, fun k hk hoccurs => ?_⟩
    apply h.2 (seen.length - (needle.length - 1) + k) (by omega)
    exact (occursAt_overlap hneedle hnone _).mpr ⟨k, rfl, hoccurs⟩
  unfold scanExactPage
  dsimp only
  rw [(position_eq_some hneedle).mpr hfirst]
  dsimp only
  rw [saturatingAdd_overlap, hj]

/-- A page without the needle: what is kept is the end of the whole text. -/
lemma scanExactPage_missed (hneedle : needle ≠ [])
    (hnone : ∀ j, ¬OccursAt needle j (seen ++ page)) :
    scanExactPage (lastOf (needle.length - 1) seen) page needle (start + seen.length) =
      (none, lastOf (needle.length - 1) (seen ++ page)) := by
  have hseen : ∀ j, ¬OccursAt needle j seen := fun j hj => hnone j (hj.append page)
  have hkept : ∀ j, ¬OccursAt needle j (lastOf (needle.length - 1) seen ++ page) :=
    fun j hj => hnone _ ((occursAt_overlap hneedle hseen _).mpr ⟨j, rfl, hj⟩)
  unfold scanExactPage
  dsimp only
  rw [(position_eq_none hneedle).mpr hkept]
  dsimp only
  rw [← lastOf_lastOf_append (Nat.le_refl (needle.length - 1)) seen page]
  generalize lastOf (needle.length - 1) seen ++ page = searched
  congr 1
  unfold lastOf
  split
  · congr 1
    omega
  · rw [show searched.length - (needle.length - 1) = 0 by omega, drop_zero]

/-- Where a match is told does not depend on where the pages are cut. -/
lemma scanPages_eq (hneedle : needle ≠ []) (hnone : ∀ j, ¬OccursAt needle j seen)
    (pages : List (List UInt8)) :
    scanPages needle (lastOf (needle.length - 1) seen) (start + seen.length) pages =
      (position needle (seen ++ pages.flatten)).map (saturatingAdd start) := by
  induction pages generalizing seen with
  | nil =>
    rw [flatten_nil, append_nil, (position_eq_none hneedle).mpr hnone]
    rfl
  | cons page pages ih =>
    rw [flatten_cons, ← append_assoc]
    unfold scanPages
    cases hposition : position needle (seen ++ page) with
    | some i =>
      have hfirst := (position_eq_some hneedle).mp hposition
      have hscan := scanExactPage_found start hneedle hnone hfirst
      rw [(position_eq_some hneedle).mpr (hfirst.append hneedle pages.flatten)]
      generalize scanExactPage (lastOf (needle.length - 1) seen) page needle
        (start + seen.length) = scan at hscan
      obtain ⟨found, kept⟩ := scan
      dsimp only at hscan
      subst hscan
      rfl
    | none =>
      have hmissed := (position_eq_none hneedle).mp hposition
      rw [scanExactPage_missed start hneedle hmissed]
      dsimp only
      rw [← ih hmissed, length_append, Nat.add_assoc]

end

/-! ## The job -/

namespace PtyJob

variable {capacity : Nat}

/-- What a job does adds to what it has written. -/
lemma written_step (job : PtyJob capacity) (event : PtyJobEvent) :
    job.written <+: (job.step event).written := by
  cases event with
  | finalize => exact prefix_rfl
  | output chunk =>
    unfold step
    dsimp only
    split
    · exact prefix_rfl
    · exact prefix_append _ _

lemma written_run (job : PtyJob capacity) (events : List PtyJobEvent) :
    job.written <+: (job.run events).written := by
  induction events generalizing job with
  | nil => exact prefix_rfl
  | cons event events ih => exact (job.written_step event).trans (ih (job.step event))

/-- A read of the output sees what was written, from the position of the cursor on. -/
lemma read_eq_data {job : PtyJob capacity} {cursor : TerminalOutputCursor} {maximum : Nat}
    {page : TerminalOutputData}
    (h : readTerminalOutput job.output.rawOutput job.output.outputBytes cursor maximum =
      .data page) :
    page.start = cursor.requested (earliestOf capacity job.written) job.written.length ∧
      page.start ≤ job.written.length ∧ page.current = job.written.length ∧
      page.bytes = (job.written.drop page.start).take maximum ∧
      page.next = page.start + page.bytes.length := by
  rw [job.retains.read_eq] at h
  dsimp only at h
  split at h
  · cases h
  · split at h
    · cases h
    · rename_i hpast
      injection h with hpage
      subst hpage
      exact ⟨rfl, Nat.le_of_not_lt hpast, rfl, rfl, rfl⟩

end PtyJob

/-! ## The loop -/

/-- The text from `start` up to `position` was searched, and the overlap is its end. -/
structure ScannedTo (needle : List UInt8) (start position : Nat) (w : PtyWait)
    (written : List UInt8) : Prop where
  start_le : start ≤ position
  overlap_eq : w.overlap = lastOf (needle.length - 1) (slice written start position)
  missed : ∀ i, ¬OccursAt needle i (slice written start position)

lemma ScannedTo.start (hneedle : needle ≠ []) (cursor : TerminalOutputCursor) (position : Nat)
    (written : List UInt8) :
    ScannedTo needle position position (.start cursor) written where
  start_le := Nat.le_refl position
  overlap_eq := by
    rw [slice_self]
    exact (drop_nil).symm
  missed := by
    intro i hi
    rw [slice_self] at hi
    have hle := hi.length_le
    have hpos := length_pos_iff.mpr hneedle
    rw [length_nil] at hle
    omega

variable {answer : PtyWaitResult} {rounds : List WaitRound} {written : List UInt8}

/-- What was searched stays what it is when more is written. -/
lemma ScannedTo.mono {start position : Nat} {w : PtyWait} {more : List UInt8}
    (h : ScannedTo needle start position w written) (hle : position ≤ written.length)
    (hmore : written <+: more) : ScannedTo needle start position w more := by
  obtain ⟨rest, rfl⟩ := hmore
  refine ⟨h.start_le, ?_, ?_⟩
  · rw [slice_append hle]
    exact h.overlap_eq
  · rw [slice_append hle]
    exact h.missed

/-- What an answer says of what was written when its page was read, and of the job later. -/
def Told {capacity : Nat} (needle : List UInt8) (start : Nat) (written : List UInt8)
    (later : PtyJob capacity) : PtyWaitResult → Prop
  | .matched matchedAtCursor matchedEndCursor _ _ =>
    start ≤ matchedAtCursor ∧ matchedEndCursor = matchedAtCursor + needle.length ∧
      FirstAt needle (matchedAtCursor - start) (written.drop start)
  | .unmatchedAfterExit nextCursor _ =>
    later.finalized = true ∧ nextCursor = written.length ∧
      ∀ i, ¬OccursAt needle i (written.drop start)
  | _ => True

/-- A round goes on behind its page, with the page searched, or it answers what the page says. -/
def RoundSpec {capacity : Nat} (needle : List UInt8) (start : Nat) (written : List UInt8)
    (later : PtyJob capacity) : PtyWait ⊕ PtyWaitResult → Prop
  | .inl w => ∃ position, w.cursor = .absolute position ∧ position ≤ written.length ∧
      ScannedTo needle start position w written
  | .inr answer => Told needle start written later answer

section
variable {capacity start here : Nat} {w : PtyWait} {job later : PtyJob capacity}

/-- Behind a page that reached the end of the output. -/
lemma afterStatus_spec {nextCursor : Nat} (round : WaitRound)
    (hw : RoundSpec needle start written later (.inl w)) (hnext : nextCursor = written.length)
    (hmissed : ∀ i, ¬OccursAt needle i (written.drop start)) :
    RoundSpec needle start written later (w.afterStatus later nextCursor round) := by
  unfold PtyWait.afterStatus
  split
  · rename_i hfinal
    exact ⟨hfinal, hnext, hmissed⟩
  · split
    · trivial
    · split
      · split <;> trivial
      · exact hw

/-- A page that continues what was searched. -/
lemma afterPage_spec (hneedle : needle ≠ []) {page : TerminalOutputData} (round : WaitRound)
    (hscanned : ScannedTo needle start page.start w job.written)
    (hle : page.start ≤ job.written.length) (hcurrent : page.current = job.written.length)
    (hbytes : page.bytes = (job.written.drop page.start).take ptyOutputPageBytes)
    (hnext : page.next = page.start + page.bytes.length) :
    RoundSpec needle start job.written later (w.afterPage needle page later round) := by
  have hstart := hscanned.start_le
  have hnextLe : page.next ≤ job.written.length := by
    rw [hnext, hbytes, length_take, length_drop]
    omega
  have hseen : slice job.written start page.start ++ page.bytes =
      slice job.written start page.next := by
    rw [hnext, hbytes, slice_append_take hstart hle]
  have hcursor : page.start = start + (slice job.written start page.start).length := by
    rw [length_slice hle]
    omega
  have hrest : job.written.drop start =
      slice job.written start page.next ++ (job.written.drop start).drop (page.next - start) :=
    (take_append_drop _ _).symm
  unfold PtyWait.afterPage
  split
  · trivial
  · rename_i hnumbers
    simp only [gt_iff_lt, Bool.or_eq_true, decide_eq_true_eq, not_or, Nat.not_lt] at hnumbers
    dsimp only
    rw [hscanned.overlap_eq]
    cases hfirst : position needle (slice job.written start page.next) with
    | some i =>
      have hfound := (position_eq_some hneedle).mp hfirst
      have hend := hfound.1.length_le
      rw [length_slice hnextLe] at hend
      have hpos := length_pos_iff.mpr hneedle
      rw [← hseen] at hfirst
      have hscan := scanExactPage_found start hneedle hscanned.missed
        ((position_eq_some hneedle).mp hfirst)
      rw [← hcursor] at hscan
      generalize scanExactPage (lastOf (needle.length - 1) (slice job.written start page.start))
        page.bytes needle page.start = scan at hscan
      obtain ⟨found, kept⟩ := scan
      dsimp only at hscan
      subst hscan
      -- no cursor is above the end of the page
      dsimp only
      rw [saturatingAdd_of_le (a := start) (by omega), saturatingAdd_of_le (by omega)]
      refine ⟨Nat.le_add_right start i, rfl, ?_⟩
      rw [Nat.add_sub_cancel_left, hrest]
      exact hfound.append hneedle _
    | none =>
      have hmissed := (position_eq_none hneedle).mp hfirst
      rw [← hseen] at hfirst
      have hscan := scanExactPage_missed start hneedle ((position_eq_none hneedle).mp hfirst)
      rw [← hcursor, hseen] at hscan
      rw [hscan]
      dsimp only
      have hgoesOn : RoundSpec needle start job.written later
          (.inl { cursor := .absolute page.next,
                  overlap := lastOf (needle.length - 1) (slice job.written start page.next),
                  scannedBytes := saturatingAdd w.scannedBytes page.bytes.length }) :=
        ⟨page.next, rfl, hnextLe, by omega, rfl, hmissed⟩
      split
      · split
        · trivial
        · exact hgoesOn
      · split
        · trivial
        · -- the page reached the end: all that was written has been searched
          rename_i hreached _
          have hall : page.next = job.written.length := by omega
          apply afterStatus_spec round hgoesOn hall
          intro i hi
          apply hmissed i
          rw [hall]
          unfold slice
          rwa [take_of_length_le (by rw [length_drop])]

lemma step_spec (hneedle : needle ≠ []) (later : PtyJob capacity) (round : WaitRound)
    (hscanned : ScannedTo needle start here w job.written)
    (hhere : w.cursor.requested (earliestOf capacity job.written) job.written.length = here) :
    RoundSpec needle start job.written later (w.step needle job later round) := by
  unfold PtyWait.step
  cases hread : readTerminalOutput job.output.rawOutput job.output.outputBytes w.cursor
      ptyOutputPageBytes with
  | gap requested earliest current => trivial
  | future requested current => trivial
  | data page =>
    obtain ⟨hstart, hle, hcurrent, hbytes, hnext⟩ := PtyJob.read_eq_data hread
    rw [hhere] at hstart
    subst hstart
    exact afterPage_spec hneedle round hscanned hle hcurrent hbytes hnext

end

/-! ## Runs -/

section
variable {capacity : Nat}

/-- The job when the page of a round is read, and when the round is over. -/
def PtyJob.atPage (job : PtyJob capacity) (round : WaitRound) : PtyJob capacity :=
  job.run round.beforePage

def PtyJob.later (job : PtyJob capacity) (round : WaitRound) : PtyJob capacity :=
  (job.atPage round).run round.afterPage

/-- A round gets to its status: the page is read and has no match, it reaches the end of the output,
and the deadline has not passed. -/
def PtyWait.ReadsStatus (needle : List UInt8) (w : PtyWait) (atPage : PtyJob capacity)
    (round : WaitRound) : Prop :=
  ∃ page, readTerminalOutput atPage.output.rawOutput atPage.output.outputBytes w.cursor
      ptyOutputPageBytes = .data page ∧
    page.start ≤ u64Max ∧ page.next ≤ u64Max ∧ page.current ≤ u64Max ∧
    (scanExactPage w.overlap page.bytes needle page.start).1 = none ∧
    page.current ≤ page.next ∧ round.deadlinePassed = false

/-- What arrives between the page and a status that is final completes no occurrence. -/
def Settles (needle : List UInt8) (start : Nat) (job : PtyJob capacity) (round : WaitRound) :
    Prop :=
  (job.later round).finalized = true → ∀ i, start ≤ i →
    OccursAt needle i (job.later round).written →
      i + needle.length ≤ (job.atPage round).written.length

/-- Every round of the wait that gets to its status settles. -/
def AllSettle (needle : List UInt8) (start : Nat) : PtyWait → PtyJob capacity → List WaitRound →
    Prop
  | _, _, [] => True
  | w, job, round :: rounds =>
    (w.ReadsStatus needle (job.atPage round) round → Settles needle start job round) ∧
      ∀ w', w.step needle (job.atPage round) (job.later round) round = .inl w' →
        AllSettle needle start w' (job.later round) rounds

/-- The verdict is true of the output at the time of the answer; for a final job that is all of
it. -/
def Faithful (needle : List UInt8) (start : Nat) (job : PtyJob capacity) : PtyWaitResult → Prop
  | .matched matchedAtCursor matchedEndCursor _ _ =>
    start ≤ matchedAtCursor ∧ matchedEndCursor = matchedAtCursor + needle.length ∧
      FirstAt needle (matchedAtCursor - start) (job.written.drop start)
  | .unmatchedAfterExit _ _ =>
    job.finalized = true ∧ ∀ i, ¬OccursAt needle i (job.written.drop start)
  | _ => True

variable {start : Nat} {w : PtyWait} {job : PtyJob capacity} {round : WaitRound}

/-- The answer of a final job without a match is that of a round that gets to its status. -/
lemma PtyWait.step_unmatched_iff {atPage later : PtyJob capacity} :
    (∃ next scanned, w.step needle atPage later round = .inr (.unmatchedAfterExit next scanned)) ↔
      w.ReadsStatus needle atPage round ∧ later.finalized = true := by
  unfold PtyWait.step ReadsStatus
  cases hread : readTerminalOutput atPage.output.rawOutput atPage.output.outputBytes w.cursor
      ptyOutputPageBytes with
  | gap requested earliest current => simp
  | future requested current => simp
  | data page =>
    simp only [TerminalOutputRead.data.injEq, exists_eq_left']
    unfold PtyWait.afterPage
    split
    · next hnumbers =>
      simp only [gt_iff_lt, Bool.or_eq_true, decide_eq_true_eq] at hnumbers
      constructor
      · rintro ⟨_, _, h⟩
        cases h
      · rintro ⟨⟨hstart, hnext, hcurrent, -⟩, -⟩
        omega
    · next hnumbers =>
      simp only [gt_iff_lt, Bool.or_eq_true, decide_eq_true_eq, not_or, Nat.not_lt] at hnumbers
      generalize scanExactPage w.overlap page.bytes needle page.start = scan
      obtain ⟨found, kept⟩ := scan
      cases found with
      | some found => simp
      | none =>
        dsimp only
        split
        · next hmore =>
          constructor
          · rintro ⟨_, _, h⟩
            split at h <;> cases h
          · rintro ⟨⟨-, -, -, -, hreached, -⟩, -⟩
            omega
        · next hreached =>
          by_cases hdeadline : round.deadlinePassed = true
          · simp [hdeadline]
          · rw [if_neg hdeadline]
            unfold PtyWait.afterStatus
            split
            · next hfinal =>
              exact ⟨fun _ => ⟨⟨hnumbers.1.1, hnumbers.1.2, hnumbers.2, rfl,
                Nat.le_of_not_lt hreached, Bool.eq_false_iff.mpr hdeadline⟩, hfinal⟩,
                fun _ => ⟨_, _, rfl⟩⟩
            · next hfinal =>
              constructor
              · rintro ⟨_, _, h⟩
                split at h
                · cases h
                · split at h
                  · split at h <;> cases h
                  · cases h
              · exact fun h => absurd h.2 hfinal

/-- What is told of the page is true of the output, when nothing behind the page speaks against
it. -/
lemma Told.faithful_iff (hneedle : needle ≠ [])
    (h : Told needle start (job.atPage round).written (job.later round) answer) :
    Faithful needle start (job.later round) answer ↔
      ∀ next scanned, answer = .unmatchedAfterExit next scanned →
        Settles needle start job round := by
  obtain ⟨more, hmore⟩ : (job.atPage round).written <+: (job.later round).written :=
    PtyJob.written_run _ _
  cases answer with
  | matched matchedAt matchedEnd next scanned =>
    obtain ⟨hstart, hend, hfirst⟩ := h
    refine ⟨fun _ _ _ h => (by cases h), fun _ => ⟨hstart, hend, ?_⟩⟩
    rw [← hmore]
    have hlt : start ≤ (job.atPage round).written.length := by
      have hle := hfirst.1.length_le
      have hpos := length_pos_iff.mpr hneedle
      rw [length_drop] at hle
      omega
    rw [drop_append_of_le_length hlt]
    exact hfirst.append hneedle more
  | unmatchedAfterExit next scanned =>
    obtain ⟨hfinal, -, hmissed⟩ := h
    constructor
    · rintro ⟨-, hnone⟩ _ _ _ _ i hi hoccurs
      refine absurd ?_ (hnone (i - start))
      rw [occursAt_drop, Nat.add_sub_cancel' hi]
      exact hoccurs
    · refine fun hsettles => ⟨hfinal, fun i hi => ?_⟩
      rw [occursAt_drop] at hi
      have hbefore := hsettles next scanned rfl hfinal (start + i) (Nat.le_add_right start i) hi
      rw [← hmore] at hi
      apply hmissed i
      rw [occursAt_drop]
      exact hi.of_append hbefore
  | timeout next scanned => exact ⟨fun _ _ _ h => (by cases h), fun _ => trivial⟩
  | cancelled next scanned => exact ⟨fun _ _ _ h => (by cases h), fun _ => trivial⟩
  | outputInvalid => exact ⟨fun _ _ _ h => (by cases h), fun _ => trivial⟩
  | outputRefused read => exact ⟨fun _ _ _ h => (by cases h), fun _ => trivial⟩
  | conditionInvalid => exact ⟨fun _ _ _ h => (by cases h), fun _ => trivial⟩

/-- When the page of a round is read, all from the start up to the cursor was searched. -/
def Ready (needle : List UInt8) (start : Nat) (w : PtyWait) (job : PtyJob capacity)
    (round : WaitRound) : Prop :=
  ScannedTo needle start (w.cursor.requested (earliestOf capacity (job.atPage round).written)
    (job.atPage round).written.length) w (job.atPage round).written

lemma Ready.next {w' : PtyWait}
    (h : RoundSpec needle start (job.atPage round).written (job.later round) (.inl w'))
    (round' : WaitRound) : Ready needle start w' (job.later round) round' := by
  obtain ⟨position, hcursor, hle, hscanned⟩ := h
  have hmore : (job.atPage round).written <+: ((job.later round).atPage round').written :=
    (PtyJob.written_run _ _).trans (PtyJob.written_run _ _)
  unfold Ready
  rw [hcursor]
  exact hscanned.mono hle hmore

/-- A wait has the answer of its round, or goes on. -/
lemma PtyWait.result_cons {last : PtyJob capacity} :
    w.result needle job (round :: rounds) = some (answer, last) ↔
      w.step needle (job.atPage round) (job.later round) round = .inr answer ∧
        job.later round = last ∨
      ∃ w', w.step needle (job.atPage round) (job.later round) round = .inl w' ∧
        w'.result needle (job.later round) rounds = some (answer, last) := by
  show (match w.step needle (job.atPage round) (job.later round) round with
    | .inr answer => some (answer, job.later round)
    | .inl w' => w'.result needle (job.later round) rounds) = some (answer, last) ↔ _
  cases w.step needle (job.atPage round) (job.later round) round <;> simp

/-- The answer of a wait is told of one of its rounds. -/
lemma PtyWait.result_told (hneedle : needle ≠ []) (rounds : List WaitRound)
    (hready : Ready needle start w job round) {last : PtyJob capacity}
    (h : w.result needle job (round :: rounds) = some (answer, last)) :
    ∃ (job' : PtyJob capacity) (round' : WaitRound), last = job'.later round' ∧
      Told needle start (job'.atPage round').written (job'.later round') answer := by
  induction rounds generalizing w job round with
  | nil =>
    have hspec := step_spec hneedle (job.later round) round hready rfl
    rcases result_cons.mp h with ⟨hstep, rfl⟩ | ⟨w', -, hresult⟩
    · rw [hstep] at hspec
      exact ⟨job, round, rfl, hspec⟩
    · cases hresult
  | cons next rounds ih =>
    have hspec := step_spec hneedle (job.later round) round hready rfl
    rcases result_cons.mp h with ⟨hstep, rfl⟩ | ⟨w', hstep, hresult⟩
    · rw [hstep] at hspec
      exact ⟨job, round, rfl, hspec⟩
    · rw [hstep] at hspec
      exact ih (.next hspec next) hresult

/-- One round: the answer it gives is true exactly when the round settles, should it get to its
status. -/
lemma PtyWait.step_faithful_iff (hneedle : needle ≠ []) (hready : Ready needle start w job round)
    (hstep : w.step needle (job.atPage round) (job.later round) round = .inr answer) :
    Faithful needle start (job.later round) answer ↔
      (w.ReadsStatus needle (job.atPage round) round → Settles needle start job round) := by
  have hspec := step_spec hneedle (job.later round) round hready rfl
  rw [hstep] at hspec
  rw [Told.faithful_iff hneedle hspec]
  constructor
  · intro hsettles hreads hfinal
    obtain ⟨next, scanned, htold⟩ := step_unmatched_iff.mpr ⟨hreads, hfinal⟩
    exact hsettles next scanned (Sum.inr.inj (hstep.symm.trans htold)) hfinal
  · rintro hsettles next scanned rfl
    exact hsettles (step_unmatched_iff.mp ⟨next, scanned, hstep⟩).1

/-- A round in front of a wait whose answer is true exactly when its rounds settle. -/
lemma PtyWait.faithful_cons_iff (hneedle : needle ≠ []) (hready : Ready needle start w job round)
    (hrest : ∀ w', w.step needle (job.atPage round) (job.later round) round = .inl w' →
      ((∀ answer last, w'.result needle (job.later round) rounds = some (answer, last) →
        Faithful needle start last answer) ↔
          AllSettle needle start w' (job.later round) rounds)) :
    (∀ answer last, w.result needle job (round :: rounds) = some (answer, last) →
      Faithful needle start last answer) ↔ AllSettle needle start w job (round :: rounds) := by
  cases hstep : w.step needle (job.atPage round) (job.later round) round with
  | inr told =>
    have hround := step_faithful_iff hneedle hready hstep
    constructor
    · refine fun hall => ⟨hround.mp (hall told _ (result_cons.mpr (.inl ⟨hstep, rfl⟩))), ?_⟩
      intro w' hnext
      rw [hstep] at hnext
      cases hnext
    · rintro ⟨hsettles, -⟩ answer last h
      rcases result_cons.mp h with ⟨htold, rfl⟩ | ⟨w', hnext, -⟩
      · exact (step_faithful_iff hneedle hready htold).mpr hsettles
      · rw [hstep] at hnext
        cases hnext
  | inl w' =>
    constructor
    · refine fun hall => ⟨fun hreads hfinal => ?_, fun w'' hnext => ?_⟩
      · -- a status that is final gives an answer
        obtain ⟨_, _, htold⟩ := step_unmatched_iff.mpr ⟨hreads, hfinal⟩
        rw [hstep] at htold
        cases htold
      · refine (hrest w'' hnext).mp fun answer last h => ?_
        exact hall answer last (result_cons.mpr (.inr ⟨w'', hnext, h⟩))
    · rintro ⟨-, hall⟩ answer last h
      rcases result_cons.mp h with ⟨htold, -⟩ | ⟨w'', hnext, hresult⟩
      · rw [hstep] at htold
        cases htold
      · exact (hrest w'' hnext).mpr (hall w'' hnext) answer last hresult

/-- The answer of a wait is true exactly when every round of it settles that gets to its status. -/
lemma PtyWait.result_faithful_iff (hneedle : needle ≠ []) (rounds : List WaitRound)
    (hready : Ready needle start w job round) :
    (∀ answer last, w.result needle job (round :: rounds) = some (answer, last) →
      Faithful needle start last answer) ↔ AllSettle needle start w job (round :: rounds) := by
  induction rounds generalizing w job round with
  | nil =>
    exact faithful_cons_iff hneedle hready fun w' _ =>
      ⟨fun _ => trivial, fun _ _ _ h => by cases h⟩
  | cons next rounds ih =>
    refine faithful_cons_iff hneedle hready fun w' hstep => ih (.next ?_ next)
    rw [← hstep]
    exact step_spec hneedle (job.later round) round hready rfl

/-- Where the wait starts: the position its cursor names when the first page is read. -/
def PtyJob.position (job : PtyJob capacity) (cursor : TerminalOutputCursor) : Nat :=
  cursor.requested (earliestOf capacity job.written) job.written.length

end

/-- The answer of a wait is true exactly when in every round that gets to its status, and finds it
final, nothing has arrived behind the page that completes an occurrence. A match is always the first
at or after the start, at its exact position. The pages of a search may be cut anywhere. -/
theorem ptyWait_faithful {capacity : Nat} (needle : List UInt8) (cursor : TerminalOutputCursor)
    (job : PtyJob capacity) (round : WaitRound) (rounds : List WaitRound) :
    let start := (job.atPage round).position cursor
    ((∀ answer last, ptyWait needle cursor job (round :: rounds) = some (answer, last) →
      Faithful needle start last answer) ↔
        (needle ≠ [] → needle.length ≤ 65536 →
          AllSettle needle start (.start cursor) job (round :: rounds))) ∧
    (∀ found foundEnd next scanned last,
      ptyWait needle cursor job (round :: rounds) =
          some (.matched found foundEnd next scanned, last) →
        Faithful needle start last (.matched found foundEnd next scanned)) ∧
    ∀ first pages, needle ≠ [] →
      scanPages needle [] first pages =
        (position needle pages.flatten).map (saturatingAdd first) := by
  intro start
  have hready (hneedle : needle ≠ []) : Ready needle start (.start cursor) job round :=
    ScannedTo.start hneedle cursor start (job.atPage round).written
  refine ⟨?_, fun found foundEnd next scanned last h => ?_, fun first pages hneedle => ?_⟩
  · unfold ptyWait
    split
    · next hinvalid =>
      simp only [Bool.or_eq_true, List.isEmpty_iff, decide_eq_true_eq] at hinvalid
      refine iff_of_true (fun answer last h => ?_) fun hneedle hlength => ?_
      · cases h
        trivial
      · rcases hinvalid with hempty | hlong
        · exact absurd hempty hneedle
        · omega
    · next hvalid =>
      simp only [Bool.or_eq_true, List.isEmpty_iff, decide_eq_true_eq, not_or, Nat.not_lt]
        at hvalid
      have hiff := PtyWait.result_faithful_iff hvalid.1 rounds (hready hvalid.1)
      exact ⟨fun hall _ _ => hiff.mp hall, fun hsettle => hiff.mpr (hsettle hvalid.1 hvalid.2)⟩
  · unfold ptyWait at h
    split at h
    · cases h
    · next hvalid =>
      simp only [Bool.or_eq_true, List.isEmpty_iff, decide_eq_true_eq, not_or] at hvalid
      obtain ⟨job', round', rfl, htold⟩ :=
        PtyWait.result_told hvalid.1 rounds (hready hvalid.1) h
      exact (Told.faithful_iff hvalid.1 htold).mpr fun _ _ h => (by cases h)
  · have hnone : ∀ j, ¬OccursAt needle j ([] : List UInt8) := by
      intro j hj
      have hle := hj.length_le
      have hpos := length_pos_iff.mpr hneedle
      rw [length_nil] at hle
      omega
    have hpages := scanPages_eq first hneedle hnone pages
    have hempty : lastOf (needle.length - 1) ([] : List UInt8) = [] := drop_nil
    rw [hempty, length_nil, Nat.add_zero, nil_append] at hpages
    exact hpages

/-- A round in which a job writes these bytes and exits, before the page or behind it. -/
def exitBefore (bytes : List UInt8) : WaitRound where
  beforePage := [.output bytes, .finalize]
  afterPage := []
  cancelledAfterPage := false
  deadlinePassed := false
  cancelledAfterStatus := false
  cancelledInPause := false
  deadlineAfterPause := false

def exitBehind (bytes : List UInt8) : WaitRound :=
  { exitBefore bytes with beforePage := [], afterPage := [.output bytes, .finalize] }

/-- What is there before the page is found. -/
theorem ptyWait_finds :
    ∃ answer last, ptyWait [111, 107] .earliest (.start 16) [exitBefore [46, 111, 107]] =
        some (answer, last) ∧ Faithful [111, 107] 0 last answer := by
  refine ⟨_, _, rfl, (ptyWait_faithful [111, 107] .earliest (.start 16)
    (exitBefore [46, 111, 107]) []).1.mpr (fun _ _ => ⟨fun _ _ i _ hi => ?_, fun _ _ => trivial⟩)
      _ _ rfl⟩
  have hle := hi.length_le
  change 2 ≤ 3 - i at hle
  show i + 2 ≤ 3
  omega

/-- What arrives behind the page is not looked at when the job is final by then. -/
theorem ptyWait_misses :
    ∃ answer last, ptyWait [111, 107] .earliest (.start 16) [exitBehind [111, 107]] =
        some (answer, last) ∧ ¬ Faithful [111, 107] 0 last answer := by
  refine ⟨_, _, rfl, ?_⟩
  intro h
  exact h.2 0 (by decide)

end Agenterm.Cu
