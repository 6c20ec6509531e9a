import Agenterm.Cu.AuditTheorems
import Agenterm.Lib.Greedy

/-!
# Retention of the audit log

`compact_at` and `retention_plan` of `audit.rs`: the lines of the end of the log are scanned from
the newest. Lines that are no objects, records that are too old and records that do not fit into
what may be kept are dropped, and what is left replaces the log when the call is to apply it.
-/

namespace Agenterm.Cu.Audit

open List

def defaultRetentionMaxAgeDays : Nat := 30
def maxRetentionMaxAgeDays : Nat := 3650
def defaultRetentionMaxEvents : Nat := 100000
def minRetentionMaxEvents : Nat := 100
def maxRetentionMaxEvents : Nat := 1000000
def defaultRetentionMaxBytes : Nat := 8 * 1024 * 1024
def minRetentionMaxBytes : Nat := 64 * 1024
def maxRetentionMaxBytes : Nat := 64 * 1024 * 1024
def retentionSourceMaxBytes : Nat := 64 * 1024 * 1024

structure AuditRetention where
  apply : Bool
  maxAgeDays : Option Nat
  maxEvents : Option Nat
  maxBytes : Option Nat

/-- The numbers of a compaction that has passed its checks. -/
structure RetentionLimits where
  maxAgeDays : Nat
  maxEvents : Nat
  maxBytes : Nat
  maxAgeDays_range : 1 ≤ maxAgeDays ∧ maxAgeDays ≤ maxRetentionMaxAgeDays
  maxEvents_range : minRetentionMaxEvents ≤ maxEvents ∧ maxEvents ≤ maxRetentionMaxEvents
  maxBytes_range : minRetentionMaxBytes ≤ maxBytes ∧ maxBytes ≤ maxRetentionMaxBytes

lemma within_of_bounded {name : String} {value least greatest n : Nat}
    (h : bounded name value least greatest = .ok n) : least ≤ n ∧ n ≤ greatest := by
  unfold bounded at h
  split at h
  · cases h
  · cases h
    omega

/-- A number within bounds, with the bounds. -/
def boundedWithin (name : String) (value least greatest : Nat) :
    Except CuError { n : Nat // least ≤ n ∧ n ≤ greatest } :=
  match h : bounded name value least greatest with
  | .error error => .error error
  | .ok n => .ok ⟨n, within_of_bounded h⟩

def AuditRetention.limits (retention : AuditRetention) : Except CuError RetentionLimits :=
  let maxAgeDays := retention.maxAgeDays.getD defaultRetentionMaxAgeDays
  if hage : 1 ≤ maxAgeDays ∧ maxAgeDays ≤ maxRetentionMaxAgeDays then do
    let maxEvents ← boundedWithin "--max-events"
      (retention.maxEvents.getD defaultRetentionMaxEvents)
      minRetentionMaxEvents maxRetentionMaxEvents
    let maxBytes ← boundedWithin "--max-bytes"
      (retention.maxBytes.getD defaultRetentionMaxBytes)
      minRetentionMaxBytes maxRetentionMaxBytes
    .ok
      { maxAgeDays
        maxEvents := maxEvents.val
        maxBytes := maxBytes.val
        maxAgeDays_range := hage
        maxEvents_range := maxEvents.property
        maxBytes_range := maxBytes.property }
  else
    .error (invalidInput ("--max-age-days must be in 1..=" ++ toString maxRetentionMaxAgeDays))

/-- `now_ms.saturating_sub(max_age_ms)`. -/
def RetentionLimits.cutoff (limits : RetentionLimits) (nowMs : Nat) : Nat :=
  nowMs - limits.maxAgeDays * 86400000

/-! ## The scan -/

/-- The variables of the loop. -/
structure Retention where
  retainedNewest : List (List UInt8)
  retainedBytes : Nat
  scanned : Nat
  malformedDropped : Nat
  expiredDropped : Nat
  boundedDropped : Nat

def Retention.empty : Retention where
  retainedNewest := []
  retainedBytes := 0
  scanned := 0
  malformedDropped := 0
  expiredDropped := 0
  boundedDropped := 0

section
variable {Record : Type} (json : AuditJson Record)

/-- The body of the loop, for a line that is not empty. -/
def Retention.scanLine (limits : RetentionLimits) (cutoff : Nat) (found : Retention)
    (line : List UInt8) : Retention :=
  let found := { found with scanned := found.scanned + 1 }
  match json.parse line with
  | none => { found with malformedDropped := found.malformedDropped + 1 }
  | some value =>
    if (json.tsMs value).all fun timestamp => timestamp.toNat < cutoff then
      { found with expiredDropped := found.expiredDropped + 1 }
    else
      let encoded := line ++ [newline]
      if found.retainedNewest.length ≥ limits.maxEvents
          ∨ found.retainedBytes + encoded.length > limits.maxBytes then
        -- an older line is still looked at, and may be shorter
        { found with boundedDropped := found.boundedDropped + 1 }
      else
        { found with
          retainedNewest := found.retainedNewest ++ [encoded]
          retainedBytes := found.retainedBytes + encoded.length }

/-- The lines that a compaction scans, newest first. -/
def scannedLines (bytes : List UInt8) : List (List UInt8) :=
  ((linesOf 0 [] (windowOf bytes bytes.length retentionSourceMaxBytes).content).map
    Prod.snd).reverse

structure RetentionReply where
  schemaVersion : Nat
  beforeBytes : Nat
  sourceTruncated : Bool
  scanned : Nat
  retained : Nat
  malformedDropped : Nat
  expiredDropped : Nat
  boundedDropped : Nat
  afterBytes : Nat
deriving DecidableEq

def retentionReply (beforeBytes : Nat) (sourceTruncated : Bool) (found : Retention)
    (afterBytes : Nat) : RetentionReply where
  schemaVersion := 1
  beforeBytes
  sourceTruncated
  scanned := found.scanned
  retained := found.retainedNewest.length
  malformedDropped := found.malformedDropped
  expiredDropped := found.expiredDropped
  boundedDropped := found.boundedDropped
  afterBytes

/-- The plan for a log with the given bytes. -/
def planFor (limits : RetentionLimits) (nowMs : Nat) (bytes : List UInt8) :
    RetentionReply × List UInt8 :=
  let found :=
    (scannedLines bytes).foldl (Retention.scanLine json limits (limits.cutoff nowMs)) .empty
  let retained := found.retainedNewest.reverse.flatten
  (retentionReply bytes.length (decide (bytes.length > retentionSourceMaxBytes)) found
    retained.length, retained)

/-- `retention_plan`. -/
def retentionPlan (io : AuditIo) (limits : RetentionLimits) (nowMs : Nat)
    (file : Option AuditFile) : Except CuError (RetentionReply × List UInt8) := do
  unavailable "open audit log" io.openFault
  match file with
  | none => .ok (retentionReply 0 false .empty 0, [])
  | some file => do
    unavailable "stat audit log" io.statFault
    unavailable "read audit log" (io.seekFault <|> io.readFault)
    .ok (planFor json limits nowMs file.bytes)

/-! ## Applying a plan -/

structure CompactReply extends RetentionReply where
  status : String
  applyRequired : Bool
  destinationDurable : Option Bool
deriving DecidableEq

/-- How replacing the log ended. -/
inductive Publication where
  | durable
  /-- It failed, and the log has the new bytes nevertheless. -/
  | visible
  | unknown

def auditCompactPublishFailed : CuError where
  code := "audit_compact_publish_failed"
  message := "audit retention bytes could not be atomically published"

/-- `acquire_audit_lock`: the code of the error that it fails with. -/
def acquireAuditLock (lockFault : Option String) : Except CuError Unit :=
  match lockFault with
  | none => .ok ()
  | some code => .error { code, message := "could not acquire the audit append lock" }

/-- `compact_at`: the reply, and what the log is replaced by. -/
def compactAt (io : AuditIo) (lockFault : Option String) (publication : Publication)
    (retention : AuditRetention) (nowMs : Nat) (file : Option AuditFile) :
    Except CuError (CompactReply × Option (List UInt8)) := do
  let limits ← retention.limits
  if retention.apply then do
    acquireAuditLock lockFault
    let (result, retained) ← retentionPlan json io limits nowMs file
    match publication with
    | .unknown => .error auditCompactPublishFailed
    | .durable =>
      .ok ({ result with
        status := "applied", applyRequired := false, destinationDurable := some true }, retained)
    | .visible =>
      .ok ({ result with
        status := "applied", applyRequired := false, destinationDurable := some false }, retained)
  else do
    let (result, _) ← retentionPlan json io limits nowMs file
    .ok ({ result with
      status := "planned", applyRequired := true, destinationDurable := none }, none)

end

/-!
The scan takes every record that still fits (`scan_greedy`), so it keeps the newest records that fit
exactly when nothing older than the first record that does not fit would fit in its place
(`compact_keepsNewest_iff`). What it keeps is within the bounds and is kept again as it is.
-/

open Agenterm.Lib

/-! ## Lines of a window -/

/-- The lines of a window are not empty and have no newline in them. -/
lemma linesOf_whole (start : Nat) {line : List UInt8} (hline : newline ∉ line)
    (bytes : List UInt8) :
    ∀ found ∈ linesOf start line bytes, found.2 ≠ [] ∧ newline ∉ found.2 := by
  have hflush : ∀ {line : List UInt8} (start : Nat), newline ∉ line →
      ∀ found ∈ (if line.isEmpty then [] else [(start, line)] : List (Nat × List UInt8)),
        found.2 ≠ [] ∧ newline ∉ found.2 := by
    intro line start hline found hfound
    split at hfound
    · exact absurd hfound not_mem_nil
    · rename_i hempty
      obtain rfl := mem_singleton.mp hfound
      exact ⟨fun h => hempty (isEmpty_iff.mpr h), hline⟩
  induction bytes generalizing start line with
  | nil => exact hflush start hline
  | cons byte bytes ih =>
    by_cases hbyte : byte = newline
    · subst hbyte
      rw [linesOf_newline]
      intro found hfound
      rcases mem_append.mp hfound with hmem | hmem
      · exact hflush start hline found hmem
      · exact ih _ not_mem_nil found hmem
    · rw [linesOf_byte hbyte]
      refine ih start ?_
      rw [mem_append, mem_singleton]
      rintro (hmem | hmem)
      · exact hline hmem
      · exact hbyte hmem.symm

variable {limits : RetentionLimits} {lines records : List (List UInt8)}

lemma linesOf_unlines_whole (h : ∀ line ∈ lines, line ≠ [] ∧ newline ∉ line) (start : Nat) :
    (linesOf start [] (unlines newline lines)).map Prod.snd = lines := by
  induction lines generalizing start with
  | nil => rfl
  | cons line lines ih =>
    obtain ⟨⟨hne, hline⟩, hlines⟩ := forall_mem_cons.mp h
    rw [unlines_cons, linesOf_line hline start [] _ hne, map_cons, ih hlines]
    rfl

lemma windowOf_whole {bytes : List UInt8} {byteMax : Nat} (h : bytes.length ≤ byteMax) :
    (windowOf bytes bytes.length byteMax).content = bytes := by
  unfold windowOf
  rw [Nat.min_eq_left h]
  dsimp only
  rw [Nat.sub_self, if_neg (Nat.lt_irrefl 0), drop_zero, take_length]

lemma scannedLines_whole (bytes : List UInt8) :
    ∀ line ∈ scannedLines bytes, line ≠ [] ∧ newline ∉ line := by
  intro line hline
  obtain ⟨found, hfound, rfl⟩ := mem_map.mp (mem_reverse.mp hline)
  exact linesOf_whole _ not_mem_nil _ found hfound

/-- Lines that are written one after the other are scanned again as they are. -/
lemma scannedLines_unlines (h : ∀ line ∈ lines, line ≠ [] ∧ newline ∉ line)
    (hlength : (unlines newline lines).length ≤ retentionSourceMaxBytes) :
    scannedLines (unlines newline lines) = lines.reverse := by
  unfold scannedLines
  rw [windowOf_whole hlength, linesOf_unlines_whole h]

section
variable {Record : Type} (json : AuditJson Record)

/-! ## The scan -/

/-- Records, the newest first, that are within both bounds. -/
def Fits (limits : RetentionLimits) (records : List (List UInt8)) : Prop :=
  records.length ≤ limits.maxEvents ∧ (unlines newline records).length ≤ limits.maxBytes

instance (limits : RetentionLimits) : DecidablePred (Fits limits) :=
  fun _ => inferInstanceAs (Decidable (_ ∧ _))

/-- A record that is well formed and has not expired. -/
def eligible (cutoff : Nat) (line : List UInt8) : Bool :=
  ((json.parse line).bind json.tsMs).any fun timestamp => cutoff ≤ timestamp.toNat

/-- The records that may be kept, the newest first. -/
def eligibleRecords (cutoff : Nat) (bytes : List UInt8) : List (List UInt8) :=
  (scannedLines bytes).filter (eligible json cutoff)

/-- The variables of the loop after it has kept some records. -/
structure Retention.Keeps (found : Retention) (records : List (List UInt8)) : Prop where
  retainedNewest : found.retainedNewest = records.map (· ++ [newline])
  retainedBytes : found.retainedBytes = (unlines newline records).length
  counted : found.scanned = records.length + found.malformedDropped + found.expiredDropped
    + found.boundedDropped

variable {json}

lemma Fits.closed (limits : RetentionLimits) (records older : List (List UInt8))
    (h : Fits limits (records ++ older)) : Fits limits records := by
  obtain ⟨hevents, hbytes⟩ := h
  rw [length_append] at hevents
  rw [length_unlines_append] at hbytes
  exact ⟨by omega, by omega⟩

lemma Fits.none (limits : RetentionLimits) : Fits limits [] := ⟨Nat.zero_le _, Nat.zero_le _⟩

lemma length_unlines_singleton (line : List UInt8) :
    (unlines newline [line]).length = (line ++ [newline]).length := by
  rw [length_unlines_cons, unlines_nil, length_append, length_singleton]
  rfl

lemma fits_append_singleton (limits : RetentionLimits) (records : List (List UInt8))
    (line : List UInt8) :
    Fits limits (records ++ [line]) ↔
      ¬ (records.length ≥ limits.maxEvents ∨
        (unlines newline records).length + (line ++ [newline]).length > limits.maxBytes) := by
  unfold Fits
  rw [length_unlines_append, length_unlines_singleton, length_append, length_singleton]
  omega

variable (json)

/-- One turn of the loop keeps the line if it is eligible and fits. -/
lemma Retention.Keeps.scanLine {found : Retention} (h : found.Keeps records)
    (limits : RetentionLimits) (cutoff : Nat) (line : List UInt8) :
    (found.scanLine json limits cutoff line).Keeps
      (if eligible json cutoff line then takeFitting (Fits limits) records line else records) := by
  obtain ⟨hnewest, hbytes, hcounted⟩ := h
  unfold Retention.scanLine eligible
  cases hparse : json.parse line with
  | none =>
    rw [Option.bind_none, Option.any_none, if_neg Bool.false_ne_true]
    exact ⟨hnewest, hbytes, by dsimp only; omega⟩
  | some value =>
    rw [Option.bind_some]
    dsimp only
    by_cases hold : (json.tsMs value).all (fun timestamp => timestamp.toNat < cutoff) = true
    · have hnot : (json.tsMs value).any (fun timestamp => cutoff ≤ timestamp.toNat) = false := by
        cases hts : json.tsMs value with
        | none => rfl
        | some timestamp =>
          rw [hts, Option.all_some, decide_eq_true_eq] at hold
          exact decide_eq_false (Nat.not_le_of_lt hold)
      rw [if_pos hold, hnot, if_neg Bool.false_ne_true]
      exact ⟨hnewest, hbytes, by dsimp only; omega⟩
    · have hyes : (json.tsMs value).any (fun timestamp => cutoff ≤ timestamp.toNat) = true := by
        cases hts : json.tsMs value with
        | none => exact absurd (by rw [hts]; rfl) hold
        | some timestamp =>
          rw [hts, Option.all_some, decide_eq_true_eq] at hold
          exact decide_eq_true (Nat.le_of_not_lt hold)
      rw [if_neg hold, hyes, if_pos rfl, hnewest, length_map, hbytes]
      unfold takeFitting
      by_cases hfits : Fits limits (records ++ [line])
      · rw [if_neg ((fits_append_singleton limits records line).mp hfits), if_pos hfits]
        refine ⟨?_, ?_, ?_⟩
        · rw [map_append, map_singleton]
        · rw [length_unlines_append, length_unlines_singleton]
        · simp only [length_append, length_singleton]
          omega
      · have hover := not_not.mp (mt (fits_append_singleton limits records line).mpr hfits)
        rw [if_pos hover, if_neg hfits]
        exact ⟨rfl, rfl, by dsimp only; omega⟩

/-- The loop takes every eligible record that still fits. -/
lemma Retention.Keeps.scan {found : Retention} (h : found.Keeps records)
    (limits : RetentionLimits) (cutoff : Nat) (lines : List (List UInt8)) :
    (lines.foldl (Retention.scanLine json limits cutoff) found).Keeps
      (greedy (Fits limits) records (lines.filter (eligible json cutoff))) := by
  induction lines generalizing found records with
  | nil => exact h
  | cons line lines ih =>
    rw [foldl_cons, filter_cons]
    have hstep := h.scanLine json limits cutoff line
    split
    · rename_i heligible
      rw [if_pos heligible] at hstep
      rw [greedy_cons]
      exact ih hstep
    · rename_i heligible
      rw [if_neg heligible] at hstep
      exact ih hstep

lemma Retention.Keeps.empty : Retention.empty.Keeps [] := ⟨rfl, rfl, rfl⟩

lemma scanned_scanLine (limits : RetentionLimits) (cutoff : Nat) (found : Retention)
    (line : List UInt8) :
    (found.scanLine json limits cutoff line).scanned = found.scanned + 1 := by
  unfold Retention.scanLine
  dsimp only
  split
  · rfl
  · split
    · rfl
    · split <;> rfl

lemma scanned_scan (limits : RetentionLimits) (cutoff : Nat) (found : Retention)
    (lines : List (List UInt8)) :
    (lines.foldl (Retention.scanLine json limits cutoff) found).scanned
      = found.scanned + lines.length := by
  induction lines generalizing found with
  | nil => rfl
  | cons line lines ih =>
    rw [foldl_cons, ih, scanned_scanLine, length_cons]
    omega

/-! ## Plans -/

/-- The bytes of a log; there are none if the log is absent. -/
def logBytes (file : Option AuditFile) : List UInt8 := (file.map AuditFile.bytes).getD []

lemma flatten_map_newline (records : List (List UInt8)) :
    (records.map (· ++ [newline])).flatten = unlines newline records :=
  flatMap_def.symm

lemma length_unlines_reverse (records : List (List UInt8)) :
    (unlines newline records.reverse).length = (unlines newline records).length := by
  induction records with
  | nil => rfl
  | cons record records ih =>
    rw [reverse_cons, length_unlines_append, length_unlines_singleton, ih,
      length_unlines_cons, length_append, length_singleton]
    omega

/-- What a plan keeps: the records that were taken, in the order of the log. -/
lemma planFor_retained (limits : RetentionLimits) (nowMs : Nat) (bytes : List UInt8) :
    (planFor json limits nowMs bytes).2
      = unlines newline
        (greedy (Fits limits) [] (eligibleRecords json (limits.cutoff nowMs) bytes)).reverse := by
  have hkeeps := Retention.Keeps.empty.scan json limits (limits.cutoff nowMs) (scannedLines bytes)
  unfold planFor
  dsimp only
  rw [hkeeps.retainedNewest, ← map_reverse, flatten_map_newline]
  rfl

lemma planFor_counted (limits : RetentionLimits) (nowMs : Nat) (bytes : List UInt8) :
    let reply := (planFor json limits nowMs bytes).1
    reply.scanned = (scannedLines bytes).length ∧
      reply.scanned = reply.retained + reply.malformedDropped + reply.expiredDropped
        + reply.boundedDropped := by
  have hkeeps := Retention.Keeps.empty.scan json limits (limits.cutoff nowMs) (scannedLines bytes)
  constructor
  · exact (scanned_scan json limits _ .empty (scannedLines bytes)).trans (Nat.zero_add _)
  · refine hkeeps.counted.trans ?_
    unfold planFor retentionReply
    dsimp only
    rw [hkeeps.retainedNewest, length_map]

lemma planFor_within (limits : RetentionLimits) (nowMs : Nat) (bytes : List UInt8) :
    (planFor json limits nowMs bytes).2.length ≤ limits.maxBytes := by
  rw [planFor_retained, length_unlines_reverse]
  exact (fits_greedy (Fits.none limits) _).2

lemma eligibleRecords_whole (cutoff : Nat) (bytes : List UInt8) :
    ∀ line ∈ eligibleRecords json cutoff bytes,
      line ≠ [] ∧ newline ∉ line ∧ eligible json cutoff line = true := by
  intro line hline
  obtain ⟨hscanned, heligible⟩ := mem_filter.mp hline
  obtain ⟨hne, hnewline⟩ := scannedLines_whole bytes line hscanned
  exact ⟨hne, hnewline, heligible⟩

lemma mem_of_mem_greedy {taken : List (List UInt8)} {record : List UInt8}
    (h : record ∈ greedy (Fits limits) taken records) : record ∈ taken ∨ record ∈ records := by
  induction records generalizing taken with
  | nil => exact .inl h
  | cons newer records ih =>
    rcases ih h with hmem | hmem
    · unfold takeFitting at hmem
      split at hmem
      · rcases mem_append.mp hmem with htaken | hnewer
        · exact .inl htaken
        · exact .inr (mem_cons.mpr (.inl (mem_singleton.mp hnewer)))
      · exact .inl hmem
    · exact .inr (mem_cons_of_mem newer hmem)

/-- A plan for what a plan keeps keeps all of it. -/
lemma planFor_again (limits : RetentionLimits) (nowMs : Nat) (bytes : List UInt8) :
    (planFor json limits nowMs (planFor json limits nowMs bytes).2).2
      = (planFor json limits nowMs bytes).2 := by
  have hwithin := planFor_within json limits nowMs bytes
  rw [planFor_retained json limits nowMs (planFor json limits nowMs bytes).2]
  rw [planFor_retained] at hwithin ⊢
  have hfits := fits_greedy (Fits.none limits) (eligibleRecords json (limits.cutoff nowMs) bytes)
  have hmem : ∀ record ∈ greedy (Fits limits) [] (eligibleRecords json (limits.cutoff nowMs) bytes),
      record ∈ [] ∨ record ∈ eligibleRecords json (limits.cutoff nowMs) bytes :=
    fun record => mem_of_mem_greedy
  generalize greedy (Fits limits) [] (eligibleRecords json (limits.cutoff nowMs) bytes)
    = kept at hwithin hfits hmem ⊢
  have hwhole : ∀ record ∈ kept,
      record ≠ [] ∧ newline ∉ record ∧ eligible json (limits.cutoff nowMs) record = true := by
    intro record hrecord
    rcases hmem record hrecord with hnone | hrecord
    · exact absurd hnone not_mem_nil
    · exact eligibleRecords_whole json _ bytes record hrecord
  have hscanned : scannedLines (unlines newline kept.reverse) = kept := by
    rw [scannedLines_unlines, reverse_reverse]
    · intro record hrecord
      obtain ⟨hne, hnewline, -⟩ := hwhole record (mem_reverse.mp hrecord)
      exact ⟨hne, hnewline⟩
    · exact Nat.le_trans hwithin limits.maxBytes_range.2
  have hrecords :
      eligibleRecords json (limits.cutoff nowMs) (unlines newline kept.reverse) = kept := by
    unfold eligibleRecords
    rw [hscanned]
    exact filter_eq_self.mpr fun record hrecord => (hwhole record hrecord).2.2
  have hall : greedy (Fits limits) [] kept = [] ++ kept := greedy_of_fits (Fits.closed limits) hfits
  rw [hrecords, hall, nil_append]

lemma retentionPlan_works (limits : RetentionLimits) (nowMs : Nat) (file : Option AuditFile) :
    retentionPlan json .works limits nowMs file
      = .ok (planFor json limits nowMs (logBytes file)) := by
  cases file <;> rfl

/-- A compaction that applies a plan replaces the log by what the plan keeps. -/
lemma compactAt_applied {retention : AuditRetention} (happly : retention.apply = true)
    (hlimits : retention.limits = .ok limits) (nowMs : Nat) (file : Option AuditFile) :
    ∃ reply, compactAt json .works none .durable retention nowMs file
      = .ok (reply, some (planFor json limits nowMs (logBytes file)).2) := by
  unfold compactAt
  rw [hlimits]
  dsimp only [bind, Except.bind]
  rw [if_pos happly, retentionPlan_works]
  exact ⟨_, rfl⟩

/-! ## The newest records -/

/-- The records that are kept are the newest ones that fit, they are within the bound, every line
that was scanned is counted once, and compacting again changes nothing. -/
structure KeepsNewest (limits : RetentionLimits) (nowMs : Nat) (file : Option AuditFile)
    (reply : RetentionReply) (retained : List UInt8) : Prop where
  newest : ∃ count,
    Longest (Fits limits) (eligibleRecords json (limits.cutoff nowMs) (logBytes file)) count ∧
    retained = unlines newline
      ((eligibleRecords json (limits.cutoff nowMs) (logBytes file)).take count).reverse
  within : retained.length ≤ limits.maxBytes
  scanned : reply.scanned = (scannedLines (logBytes file)).length
  counted : reply.scanned = reply.retained + reply.malformedDropped + reply.expiredDropped
    + reply.boundedDropped
  again : ∀ (retention : AuditRetention) (compacted : AuditFile),
    retention.apply = true → retention.limits = .ok limits → compacted.bytes = retained →
      ∃ reply', compactAt json .works none .durable retention nowMs (some compacted)
        = .ok (reply', some retained)

/-- No record older than the first one that does not fit would fit in its place. -/
def NothingFitsBehind (limits : RetentionLimits) (records : List (List UInt8)) : Prop :=
  ∀ count, Longest (Fits limits) records count →
    ∀ older ∈ records.drop (count + 1), ¬ Fits limits (records.take count ++ [older])

lemma unlines_injective {lines' : List (List UInt8)}
    (h : ∀ line ∈ lines, line ≠ [] ∧ newline ∉ line)
    (h' : ∀ line ∈ lines', line ≠ [] ∧ newline ∉ line)
    (heq : unlines newline lines = unlines newline lines') : lines = lines' := by
  rw [← linesOf_unlines_whole h 0, heq, linesOf_unlines_whole h' 0]

lemma planFor_newest_iff (limits : RetentionLimits) (nowMs : Nat) (bytes : List UInt8) :
    (∃ count, Longest (Fits limits) (eligibleRecords json (limits.cutoff nowMs) bytes) count ∧
      (planFor json limits nowMs bytes).2 = unlines newline
        ((eligibleRecords json (limits.cutoff nowMs) bytes).take count).reverse) ↔
      NothingFitsBehind limits (eligibleRecords json (limits.cutoff nowMs) bytes) := by
  have hwhole := eligibleRecords_whole json (limits.cutoff nowMs) bytes
  unfold NothingFitsBehind
  rw [← greedy_longest_iff (Fits.closed limits) (Fits.none limits), planFor_retained]
  refine exists_congr fun count => and_congr_right fun _ => ?_
  constructor
  · intro heq
    refine reverse_injective (unlines_injective ?_ ?_ heq)
    · intro line hline
      rcases mem_of_mem_greedy (mem_reverse.mp hline) with hnone | hmem
      · exact absurd hnone not_mem_nil
      · exact ⟨(hwhole line hmem).1, (hwhole line hmem).2.1⟩
    · intro line hline
      have hmem := mem_of_mem_take (mem_reverse.mp hline)
      exact ⟨(hwhole line hmem).1, (hwhole line hmem).2.1⟩
  · intro heq
    rw [heq]

lemma KeepsNewest.nothingFitsBehind {nowMs : Nat} {file : Option AuditFile}
    {reply : RetentionReply} {retained : List UInt8}
    (hplan : retentionPlan json .works limits nowMs file = .ok (reply, retained))
    (hkeeps : KeepsNewest json limits nowMs file reply retained) :
    NothingFitsBehind limits (eligibleRecords json (limits.cutoff nowMs) (logBytes file)) := by
  rw [retentionPlan_works] at hplan
  cases hplan
  exact (planFor_newest_iff json limits nowMs _).mp hkeeps.newest

/-- A compaction keeps the newest records that fit exactly when no record that is older than the
first one that does not fit would fit in its place. -/
theorem compact_keepsNewest_iff {Record : Type} (json : AuditJson Record)
    (limits : RetentionLimits) (nowMs : Nat) (file : Option AuditFile) :
    (∃ reply retained, retentionPlan json .works limits nowMs file = .ok (reply, retained) ∧
      KeepsNewest json limits nowMs file reply retained) ↔
      NothingFitsBehind limits
        (eligibleRecords json (limits.cutoff nowMs) (logBytes file)) := by
  constructor
  · rintro ⟨reply, retained, hplan, hkeeps⟩
    exact KeepsNewest.nothingFitsBehind json hplan hkeeps
  · intro hnothing
    rw [retentionPlan_works]
    have hnewest := (planFor_newest_iff json limits nowMs _).mpr hnothing
    have hcounted := planFor_counted json limits nowMs (logBytes file)
    refine ⟨(planFor json limits nowMs (logBytes file)).1,
      (planFor json limits nowMs (logBytes file)).2, rfl, hnewest, planFor_within json limits nowMs _, hcounted.1, hcounted.2, ?_⟩
    intro retention compacted happly hlimits hbytes
    obtain ⟨reply', hreply⟩ :=
      compactAt_applied json happly hlimits nowMs (some compacted)
    refine ⟨reply', hreply.trans ?_⟩
    have hlog : logBytes (some compacted) = compacted.bytes := rfl
    rw [hlog, hbytes, planFor_again]

end

/-! ### A long record between two short ones -/

/-- `{"ts_ms":0}`. -/
def shortRecord : List UInt8 := [0x7b, 0x22, 0x74, 0x73, 0x5f, 0x6d, 0x73, 0x22, 0x3a, 0x30, 0x7d]

/-- The same record with white space behind it. -/
def longRecord : List UInt8 := shortRecord ++ List.replicate 65520 0x20

/-- Objects are what `shortRecord` is, with white space behind it. -/
def shortRecordJson : AuditJson UInt64 where
  parse line :=
    if line.take 11 = shortRecord ∧ (line.drop 11).all isAsciiWhitespace = true then some 0
    else none
  requestId _ := none
  verb _ := none
  outcome _ := none
  tsMs ts := some ts

def leastLimits : RetentionLimits where
  maxAgeDays := 1
  maxEvents := minRetentionMaxEvents
  maxBytes := minRetentionMaxBytes
  maxAgeDays_range := by decide
  maxEvents_range := by decide
  maxBytes_range := by decide

lemma length_longRecord : longRecord.length = 65531 := by
  unfold longRecord
  rw [length_append, length_replicate]
  rfl

lemma longRecord_whole : longRecord ≠ [] ∧ newline ∉ longRecord := by
  refine ⟨append_ne_nil_of_left_ne_nil (by decide) _, fun hmem => ?_⟩
  rcases mem_append.mp hmem with hshort | hspace
  · exact absurd hshort (by decide)
  · exact absurd (eq_of_mem_replicate hspace) (by decide)

lemma parse_padded (count : Nat) :
    shortRecordJson.parse (shortRecord ++ List.replicate count 0x20) = some 0 := by
  have hlength : shortRecord.length = 11 := rfl
  refine if_pos ⟨take_left' hlength, ?_⟩
  rw [drop_left' hlength, all_replicate]
  exact ite_self true

lemma eligible_longRecord : eligible shortRecordJson 0 longRecord = true := by
  unfold eligible longRecord
  rw [parse_padded]
  rfl

/-- A log with a long record between two short ones. -/
def longBetweenShort : AuditFile where
  filesystemId := 0
  objectId := 0
  bytes := unlines newline [shortRecord, longRecord, shortRecord]
  length_lt := by
    rw [length_unlines_cons, length_unlines_cons, length_unlines_singleton, length_longRecord]
    decide

lemma eligibleRecords_longBetweenShort :
    eligibleRecords shortRecordJson (leastLimits.cutoff 0) (logBytes (some longBetweenShort))
      = [shortRecord, longRecord, shortRecord] := by
  have hscanned : scannedLines (logBytes (some longBetweenShort))
      = [shortRecord, longRecord, shortRecord] := by
    have hwhole : ∀ line ∈ [shortRecord, longRecord, shortRecord],
        line ≠ [] ∧ newline ∉ line := by
      refine forall_mem_cons.mpr ⟨⟨by decide, by decide⟩, ?_⟩
      refine forall_mem_cons.mpr ⟨longRecord_whole, ?_⟩
      exact forall_mem_singleton.mpr ⟨by decide, by decide⟩
    refine scannedLines_unlines hwhole ?_
    rw [length_unlines_cons, length_unlines_cons, length_unlines_singleton, length_longRecord]
    decide
  have hshort : eligible shortRecordJson (leastLimits.cutoff 0) shortRecord = true := by decide
  have hlong : eligible shortRecordJson (leastLimits.cutoff 0) longRecord = true :=
    eligible_longRecord
  unfold eligibleRecords
  rw [hscanned, filter_cons_of_pos hshort, filter_cons_of_pos hlong,
    filter_cons_of_pos hshort, filter_nil]

lemma longest_longBetweenShort :
    Longest (Fits leastLimits) [shortRecord, longRecord, shortRecord] 1 where
  le_length := by decide
  fits_take := by decide
  maximal := by
    rintro - ⟨-, hbytes⟩
    have hlength : (unlines newline [shortRecord, longRecord]).length = 65544 := by
      rw [length_unlines_cons, length_unlines_singleton, length_append, length_longRecord]
      rfl
    exact absurd (hlength ▸ hbytes) (by decide)

/-- The long record is dropped, and the short one that is older than it is kept. -/
theorem compact_keeps_older : ¬ ∃ reply retained,
    retentionPlan shortRecordJson .works leastLimits 0 (some longBetweenShort)
      = .ok (reply, retained) ∧
    KeepsNewest shortRecordJson leastLimits 0 (some longBetweenShort) reply retained := by
  rintro ⟨reply, retained, hplan, hkeeps⟩
  have hnothing := KeepsNewest.nothingFitsBehind shortRecordJson hplan hkeeps
  rw [eligibleRecords_longBetweenShort] at hnothing
  have holder : shortRecord ∈ [shortRecord, longRecord, shortRecord].drop (1 + 1) := by
    rw [drop_succ_cons, drop_succ_cons, drop_zero]
    exact mem_cons_self
  have hfits : Fits leastLimits [shortRecord, shortRecord] := by decide
  exact hnothing 1 longest_longBetweenShort shortRecord holder hfits

end Agenterm.Cu.Audit
