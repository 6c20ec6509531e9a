import Agenterm.Cu.ManagedJobRuns
import Agenterm.Lib.Ranks

/-!
# What retention removes

The selection of `prune` sorts the jobs that have ended by their ends, passes over the newest and
takes those that are old enough. A job is selected when enough others ended after it
(`mem_candidates`), which stays false of the jobs that are left, so that a second prune finds
nothing (`pruned_again`). Planning and applying select from the same document.
-/

namespace Agenterm.Cu.ManagedJobs

open Std Lib List DocumentStore

/-! ## The order of the ends -/

lemma newestFirst_iff {left right : I64 × String} :
    newestFirst left right = true ↔
      right.1.val < left.1.val ∨ left.1 = right.1 ∧ (compare right.2 left.2).isLE = true := by
  unfold newestFirst
  rw [Bool.or_eq_true, Bool.and_eq_true, decide_eq_true_eq, beq_iff_eq, Subtype.val_inj]
  refine or_congr_right (and_congr_right fun _ => ?_)
  cases compare right.2 left.2 <;> decide

instance : Std.Antisymm fun left right : I64 × String => newestFirst left right = true where
  antisymm := by
    intro a b hab hba
    rw [newestFirst_iff] at hab hba
    have htime : a.1 = b.1 := by
      rcases hab with hlt | ⟨heq, -⟩
      · rcases hba with hlt' | ⟨heq, -⟩
        · omega
        · exact heq.symm
      · exact heq
    have hle : (compare b.2 a.2).isLE = true ∧ (compare a.2 b.2).isLE = true := by
      have hval := congrArg Subtype.val htime
      constructor
      · rcases hab with hlt | ⟨-, hle⟩
        · omega
        · exact hle
      · rcases hba with hlt | ⟨-, hle⟩
        · omega
        · exact hle
    exact Prod.ext htime (LawfulEqCmp.eq_of_compare (OrientedCmp.isLE_antisymm hle.2 hle.1))

instance : Std.Total fun left right : I64 × String => newestFirst left right = true where
  total := by
    intro a b
    rw [newestFirst_iff, newestFirst_iff]
    rcases Int.lt_trichotomy b.1.val a.1.val with hlt | heq | hlt
    · exact .inl (.inl hlt)
    · have htime := Subtype.ext heq
      cases hle : compare a.2 b.2 with
      | lt | eq => exact .inr (.inr ⟨htime, rfl⟩)
      | gt =>
        refine .inl (.inr ⟨htime.symm, ?_⟩)
        rw [OrientedOrd.eq_swap, hle]
        rfl
    · exact .inr (.inl hlt)

instance : IsTrans (I64 × String) fun left right => newestFirst left right = true where
  trans := by
    intro a b c hab hbc
    rw [newestFirst_iff] at *
    rcases hab with hlt | ⟨heq, hle⟩
    · rcases hbc with hlt' | ⟨heq', -⟩
      · exact .inl (by omega)
      · exact .inl (heq' ▸ hlt)
    · rcases hbc with hlt' | ⟨heq', hle'⟩
      · exact .inl (heq ▸ hlt')
      · exact .inr ⟨heq.trans heq', TransCmp.isLE_trans hle' hle⟩

/-! ## The selection -/

/-- The ends of the jobs that retention may remove. -/
def Document.ends (document : Document) : List (I64 × String) :=
  document.jobs.toList.filterMap fun (_, record) =>
    if record.state.isPrunable then record.terminalAtUtcMs.map fun time => (time, record.jobId)
    else none

/-- The jobs that ended after one, or at the same time and have a greater id. -/
def Document.newer (document : Document) (time : I64) (id : String) : Nat :=
  ahead (fun left right => newestFirst left right = true) document.ends (time, id)

/-- What retention may remove, at some cutoff. -/
def Document.Removable (document : Document) (keepNewest : Nat) (cutoff : Int) (id : String) :
    Prop :=
  ∃ record time, document.jobs[id]? = some record ∧ record.state.isPrunable = true ∧
    record.terminalAtUtcMs = some time ∧ time.val ≤ cutoff ∧
    keepNewest ≤ document.newer time id

variable {id : String} {ids : List String} {plan : ManagedJobPruneReport}

variable {record : ManagedJobRecord} {report selection : ManagedJobPruneReport}

section
variable {document document' : Document} {now : I64}

lemma mem_ends (hvalid : document.Valid) {time : I64} :
    (time, id) ∈ document.ends ↔
      ∃ record, document.jobs[id]? = some record ∧ record.state.isPrunable = true ∧
        record.terminalAtUtcMs = some time := by
  unfold Document.ends
  rw [mem_filterMap]
  constructor
  · rintro ⟨⟨key, record⟩, hentry, hend⟩
    rw [Option.ite_none_right_eq_some, Option.map_eq_some_iff] at hend
    obtain ⟨hprunable, found, hfound, heq⟩ := hend
    cases heq
    have hheld := TreeMap.mem_toList_iff_getElem?_eq_some.mp hentry
    have hkey := (hvalid.records_valid key record hheld).1.key_eq
    exact ⟨record, hkey ▸ hheld, hprunable, hfound⟩
  · rintro ⟨record, hheld, hprunable, htime⟩
    have hkey := (hvalid.records_valid id record hheld).1.key_eq
    refine ⟨(id, record), TreeMap.mem_toList_iff_getElem?_eq_some.mpr hheld, ?_⟩
    show (if record.state.isPrunable = true then _ else none) = _
    rw [if_pos hprunable, htime, Option.map_some, ← hkey]

/-- Keys are ids, so that no end is there twice. -/
lemma nodup_ends (hvalid : document.Valid) : document.ends.Nodup := by
  have hkeys : (document.jobs.toList.map Prod.fst).Nodup := by
    rw [TreeMap.map_fst_toList_eq_keys]
    exact TreeMap.nodup_keys
  unfold Document.ends
  refine pairwise_filterMap.mpr ((pairwise_map.mp hkeys).imp_of_mem ?_)
  rintro ⟨key, record⟩ ⟨key', record'⟩ hentry hentry' hne found hfound found' hfound' rfl
  rw [Option.ite_none_right_eq_some, Option.map_eq_some_iff] at hfound hfound'
  obtain ⟨-, time, -, rfl⟩ := hfound
  obtain ⟨-, time', -, heq⟩ := hfound'
  have hkey := (hvalid.records_valid key record
    (TreeMap.mem_toList_iff_getElem?_eq_some.mp hentry)).1.key_eq
  have hkey' := (hvalid.records_valid key' record'
    (TreeMap.mem_toList_iff_getElem?_eq_some.mp hentry')).1.key_eq
  exact hne (hkey.trans ((Prod.mk.inj heq).2.symm.trans hkey'.symm))

/-- The loop over the records collects their ends. -/
lemma terminalEnds_eq_ends {ends : List (I64 × String)} (h : terminalEnds document = .ok ends) :
    ends = document.ends := by
  unfold terminalEnds at h
  rw [mapM_eq_ok] at h
  unfold Document.ends
  generalize document.jobs.toList = entries at h
  induction entries generalizing ends with
  | nil =>
    cases h
    rfl
  | cons entry entries ih =>
    obtain ⟨key, record⟩ := entry
    rw [filterMap_cons]
    by_cases hprunable : record.state.isPrunable = true
    · rw [filter_cons_of_pos (by exact hprunable)] at h
      cases h with
      | cons hhead htail =>
        rw [ih htail]
        dsimp only at hhead
        split at hhead
        · cases hhead
        · rename_i time htime
          simp only [if_pos hprunable, htime, Option.map_some, Except.ok.inj hhead]
    · rw [filter_cons_of_neg (by exact hprunable)] at h
      simp only [if_neg hprunable, ih h]

variable {keepNewest : Nat}

lemma mem_candidates (hvalid : document.Valid) {maxAgeMs : I64}
    (h : pruneSelection document maxAgeMs keepNewest now = .ok selection) :
    id ∈ selection.candidateIds ↔
      document.Removable keepNewest (now.val - maxAgeMs.val) id := by
  unfold pruneSelection at h
  split at h
  · cases h
  · rename_i cutoff hcutoff
    obtain ⟨ends, hends, h⟩ := bind_eq_ok.mp h
    cases h
    obtain rfl := terminalEnds_eq_ends hends
    have hcut : cutoff.val = now.val - maxAgeMs.val := by
      unfold I64.checkedSub at hcutoff
      split at hcutoff
      · rw [← Option.some.inj hcutoff]
      · cases hcutoff
    -- passing over no more than there are is passing over as many as asked for
    have hdrop : ∀ (time : I64) (found : String),
        (time, found) ∈ (document.ends.insertionSort fun left right =>
            newestFirst left right = true).drop (min keepNewest document.ends.length) ↔
          (time, found) ∈ document.ends ∧ keepNewest ≤ document.newer time found := by
      intro time found
      rw [← length_insertionSort (fun left right => newestFirst left right = true),
        drop_min_length, mem_drop_insertionSort (nodup_ends hvalid)]
      exact Iff.rfl
    dsimp only
    rw [mem_insertionSort, mem_map]
    constructor
    · rintro ⟨⟨time, found⟩, hfound, rfl⟩
      obtain ⟨hmem, hold⟩ := mem_filter.mp hfound
      obtain ⟨hend, hnewer⟩ := (hdrop time found).mp hmem
      obtain ⟨record, hheld, hprunable, htime⟩ := (mem_ends hvalid).mp hend
      exact ⟨record, time, hheld, hprunable, htime, hcut ▸ of_decide_eq_true hold, hnewer⟩
    · rintro ⟨record, time, hheld, hprunable, htime, hold, hnewer⟩
      have hend := (mem_ends hvalid).mpr ⟨record, hheld, hprunable, htime⟩
      exact ⟨(time, id), mem_filter.mpr
        ⟨(hdrop time id).mpr ⟨hend, hnewer⟩, decide_eq_true (hcut ▸ hold)⟩, rfl⟩

/-! ## What is left -/

/-- The document without some jobs. -/
def Document.without (document : Document) (ids : List String) (now : I64) : Document :=
  { document with jobs := ids.foldl (fun jobs id => jobs.erase id) document.jobs
                  lastNowUtcMs := now }

lemma without_eq_some :
    (document.without ids now).jobs[id]? = some record ↔
      id ∉ ids ∧ document.jobs[id]? = some record :=
  foldl_erase_eq_some

lemma without_jobs (ids : List String) (id : String) :
    (document.without ids now).jobs[id]? = if id ∈ ids then none else document.jobs[id]? := by
  refine Option.ext fun record => ?_
  rw [without_eq_some]
  by_cases hmem : id ∈ ids
  · simp [hmem]
  · simp [hmem]

lemma toList_without (ids : List String) :
    (document.without ids now).jobs.toList =
      document.jobs.toList.filter fun entry => decide (entry.1 ∉ ids) := by
  have hequiv : ((document.without ids now).jobs).Equiv
      (document.jobs.filter fun id _ => decide (id ∉ ids)) := by
    refine TreeMap.Equiv.of_forall_constGet?_eq fun id => ?_
    show (document.without ids now).jobs[id]? = (document.jobs.filter _)[id]?
    refine Option.ext fun record => ?_
    rw [without_eq_some, filter_eq_some, decide_eq_true_eq, and_comm]
  rw [hequiv.toList_eq, TreeMap.toList_filter]

lemma valid_without (hvalid : document.Valid) (ids : List String)
    (hclock : document.lastNowUtcMs.val ≤ now.val) : (document.without ids now).Valid := by
  have hclock_nonneg := hvalid.clock_nonneg
  refine ⟨hvalid.schema_eq, hclock_nonneg.trans hclock, ?_, ?_⟩
  · rw [← TreeMap.length_toList, toList_without]
    exact (length_filter_le _ _).trans (TreeMap.length_toList.trans_le hvalid.size_le)
  · intro key record hrecord
    obtain ⟨hrecordValid, hupdated⟩ :=
      hvalid.records_valid key record (without_eq_some.mp hrecord).2
    exact ⟨hrecordValid, hupdated.trans hclock⟩

/-- Fewer jobs have fewer ends. -/
lemma newer_without (ids : List String) (time : I64) (id : String) :
    (document.without ids now).newer time id ≤ document.newer time id := by
  unfold Document.newer Document.ends
  refine ahead_le_of_sublist ?_ _
  rw [toList_without]
  exact filter_sublist.filterMap _

/-- Nothing that is left is removable. -/
lemma not_removable_without {cutoff : Int}
    (hids : ∀ id, document.Removable keepNewest cutoff id → id ∈ ids) (id : String) :
    ¬ (document.without ids now).Removable keepNewest cutoff id := by
  rintro ⟨record, time, hheld, hprunable, htime, hold, hnewer⟩
  obtain ⟨hleft, hheld⟩ := without_eq_some.mp hheld
  exact hleft (hids id ⟨record, time, hheld, hprunable, htime, hold,
    hnewer.trans (newer_without ids time id)⟩)

/-! ## Its length -/

lemma fieldsLength_filter_add_le {α : Type} {f : α → String × Value} {p : α → Bool} {l : List α}
    {x : α} (hx : x ∈ l) (hp : p x = false) :
    Value.fieldsLength ((l.filter p).map f) + Value.fieldLength (f x) ≤
      Value.fieldsLength (l.map f) := by
  have hle : ∀ l : List α,
      Value.fieldsLength ((l.filter p).map f) ≤ Value.fieldsLength (l.map f) := by
    intro l
    induction l with
    | nil => exact Nat.le_refl _
    | cons a l ih =>
      rw [filter_cons]
      split
      · rw [map_cons, map_cons, Value.fieldsLength, Value.fieldsLength]
        omega
      · rw [map_cons, Value.fieldsLength]
        omega
  induction l with
  | nil => exact absurd hx not_mem_nil
  | cons a l ih =>
    rcases mem_cons.mp hx with rfl | hmem
    · rw [filter_cons_of_neg (by rw [hp]; exact Bool.false_ne_true), map_cons,
        Value.fieldsLength]
      have hrest := hle l
      omega
    · have hrest := ih hmem
      rw [filter_cons]
      split
      · rw [map_cons, map_cons, Value.fieldsLength, Value.fieldsLength]
        omega
      · rw [map_cons, Value.fieldsLength]
        omega

/-- A record takes more room than any time. -/
lemma record_length (record : ManagedJobRecord) : 19 ≤ record.json.encodedLength := by
  have hjob : stringLength "job_id" = 8 := by decide
  have hgeneration : stringLength "generation" = 12 := by decide
  simp only [ManagedJobRecord.json, cons_append, Value.encodedLength, Value.fieldsLength,
    Value.fieldLength, hjob, hgeneration]
  omega

lemma size_without (hid : id ∈ ids) (hheld : document.jobs[id]? = some record)
    (hnow : 0 ≤ now.val) :
    (document.without ids now).json.encodedLength ≤ document.json.encodedLength := by
  have hentry := TreeMap.mem_toList_iff_getElem?_eq_some.mpr hheld
  have hfields := fieldsLength_filter_add_le
    (f := fun entry : String × ManagedJobRecord => (entry.1, entry.2.json))
    (p := fun entry => decide (entry.1 ∉ ids)) hentry (decide_eq_false (not_not.mpr hid))
  have hrecord := record_length record
  have hcount := length_filter_le (fun entry : String × ManagedJobRecord =>
    decide (entry.1 ∉ ids)) document.jobs.toList
  have htime : (Value.number now.val).encodedLength ≤ 19 :=
    encodedLength_number_le (by decide) hnow (by have hmax := now.property.2; omega)
  simp only [Value.fieldLength] at hfields
  have hclock : (document.without ids now).lastNowUtcMs = now := rfl
  have hschema : (document.without ids now).schemaVersion = document.schemaVersion := rfl
  simp only [Document.json, toList_without, hclock, hschema, I64.json, Value.encodedLength,
    Value.fieldsLength, Value.fieldLength, length_map, length_cons,
    length_nil] at htime ⊢
  omega

end

/-! ## Planning and applying -/

section
variable {io io' : StoreIo} {file : Option Document} {maxAgeMs now : I64} {keepNewest : Nat}

/-- What a selection needs before it is made. -/
structure Selects (file : Option Document) (maxAgeMs : I64) (keepNewest : Nat) (now : I64)
    (selection : ManagedJobPruneReport) : Prop where
  read_valid : ∀ held, file = some held →
    store.size held ≤ store.maxBytes ∧ store.validate held = .ok ()
  checks : pruneChecks maxAgeMs keepNewest = .ok ()
  clock_le : (store.current file).lastNowUtcMs.val ≤ now.val
  selected : pruneSelection (store.current file) maxAgeMs keepNewest now = .ok selection

lemma Selects.valid (h : Selects file maxAgeMs keepNewest now selection) :
    (store.current file).Valid := by
  cases file with
  | none => exact default_valid
  | some held => exact validateDocument_eq_ok.mp (h.read_valid held rfl).2

lemma planned (h : (access io file (.prune maxAgeMs keepNewest false now)).1 = .ok (.report plan)) :
    Selects file maxAgeMs keepNewest now plan := by
  obtain ⟨hchecks, h⟩ := bind_unit_eq_ok.mp h
  obtain ⟨report, hinspect, h⟩ := bind_eq_ok.mp h
  obtain ⟨rfl⟩ := Except.ok.inj h
  obtain ⟨-, hinspect⟩ := bind_unit_eq_ok.mp hinspect
  obtain ⟨document, hread, hplan⟩ := bind_eq_ok.mp hinspect
  obtain ⟨-, rfl, hvalid⟩ := read_eq_ok hread
  obtain ⟨hclock, hselection⟩ := ite_error_eq_ok.mp hplan
  exact ⟨hvalid, hchecks, by omega, hselection⟩

lemma plan_of_selects (hio : io.Works) (h : Selects file maxAgeMs keepNewest now plan) :
    (access io file (.prune maxAgeMs keepNewest false now)).1 = .ok (.report plan) := by
  have hclock := h.clock_le
  refine bind_unit_eq_ok.mpr ⟨h.checks, bind_eq_ok.mpr ⟨plan, ?_, rfl⟩⟩
  refine bind_unit_eq_ok.mpr ⟨acquire_eq_ok.mpr hio.lock_acquired, ?_⟩
  refine bind_eq_ok.mpr ⟨_, read_of_valid hio.is_readable h.read_valid, ?_⟩
  exact ite_error_eq_ok.mpr ⟨by omega, h.selected⟩

/-- The edit of an applied prune. -/
def pruneEdit (maxAgeMs : I64) (keepNewest : Nat) (now : I64) (document : Document) :
    Except CuError (Reply × Document) :=
  mutateAt now (fun document => answered Reply.report (prune maxAgeMs keepNewest now document))
    document

lemma pruneEdit_eq_ok {document document' : Document} {reply : Reply} :
    pruneEdit maxAgeMs keepNewest now document = .ok (reply, document') ↔
      document.lastNowUtcMs.val ≤ now.val ∧ ∃ selection,
        pruneSelection document maxAgeMs keepNewest now = .ok selection ∧
        reply = .report { selection with
          apply := true
          removed := selection.candidateIds.length
          remaining := (document.without selection.candidateIds now).jobs.size } ∧
        document' = document.without selection.candidateIds now := by
  unfold pruneEdit mutateAt
  rw [ite_error_eq_ok, Int.not_lt]
  refine and_congr_right fun _ => ?_
  constructor
  · intro h
    obtain ⟨⟨found, pruned⟩, hpruned, h⟩ := bind_eq_ok.mp h
    cases h
    obtain ⟨report, rfl, hreport⟩ := answered_eq_ok hpruned
    obtain ⟨selection, hselection, hedited⟩ := bind_eq_ok.mp hreport
    cases hedited
    exact ⟨selection, hselection, rfl, rfl⟩
  · rintro ⟨selection, hselection, rfl, rfl⟩
    simp only [prune, answered, hselection]
    rfl

/-- An applied prune leaves the file, or what the selection leaves of its document. -/
lemma applied_file (io : StoreIo) (file : Option Document) (maxAgeMs : I64) (keepNewest : Nat)
    (now : I64) :
    (access io file (.prune maxAgeMs keepNewest true now)).2 = file ∨
      ∃ selection, Selects file maxAgeMs keepNewest now selection ∧
        (access io file (.prune maxAgeMs keepNewest true now)).2 =
          some ((store.current file).without selection.candidateIds now) := by
  rcases guarded_file file (do pruneChecks maxAgeMs keepNewest; validateTime now)
    (store.transact io file (pruneEdit maxAgeMs keepNewest now)) with hsame | ⟨hchecks, hcall⟩
  · exact .inl hsame
  · rcases transact_file store io file (pruneEdit maxAgeMs keepNewest now) with
      hsame | ⟨reply, document', hmakes, hwritten⟩
    · exact .inl ((congrArg Prod.snd hcall).trans hsame)
    · obtain ⟨hclock, selection, hselection, -, rfl⟩ := pruneEdit_eq_ok.mp hmakes.edited
      exact .inr ⟨selection, ⟨hmakes.read_valid, (bind_unit_eq_ok.mp hchecks).1, hclock,
        hselection⟩, (congrArg Prod.snd hcall).trans hwritten⟩

/-- A report of an applied prune is that of its selection. -/
lemma applied_report
    (h : (access io file (.prune maxAgeMs keepNewest true now)).1 = .ok (.report report)) :
    ∃ selection, Selects file maxAgeMs keepNewest now selection ∧
      report.candidateIds = selection.candidateIds ∧
      report.removed = selection.candidateIds.length ∧
      (access io file (.prune maxAgeMs keepNewest true now)).2 =
        some ((store.current file).without selection.candidateIds now) := by
  obtain ⟨hchecks, hcall⟩ := guarded_ok h
  have hanswer : (store.transact io file (pruneEdit maxAgeMs keepNewest now)).1 =
      .ok (.report report) := (congrArg Prod.fst hcall).symm.trans h
  obtain ⟨document', hmakes, hwritten⟩ := transact_ok hanswer
  obtain ⟨hclock, selection, hselection, hreport, rfl⟩ := pruneEdit_eq_ok.mp hmakes.edited
  injection hreport with hreport
  rw [hreport]
  exact ⟨selection, ⟨hmakes.read_valid, (bind_unit_eq_ok.mp hchecks).1, hclock, hselection⟩, rfl,
    rfl, (congrArg Prod.snd hcall).trans hwritten⟩

/-- When nothing gets in the way, what was planned is removed: a document that loses a job is not
longer than it was. -/
lemma applied_of_planned (hio : io.Works) (h : Selects file maxAgeMs keepNewest now plan)
    (hany : plan.candidateIds ≠ []) :
    (access io file (.prune maxAgeMs keepNewest true now)).2 =
      some ((store.current file).without plan.candidateIds now) := by
  have hvalid := h.valid
  have hnow : 0 ≤ now.val := hvalid.clock_nonneg.trans h.clock_le
  have hchecks : (do pruneChecks maxAgeMs keepNewest; validateTime now) = .ok () :=
    bind_unit_eq_ok.mpr ⟨h.checks, by
      unfold validateTime
      rw [if_neg (Int.not_lt.mpr hnow)]⟩
  have hsize : store.size ((store.current file).without plan.candidateIds now) ≤
      store.maxBytes := by
    obtain ⟨id, ids, hids⟩ := exists_cons_of_ne_nil hany
    have hid : id ∈ plan.candidateIds := hids ▸ mem_cons_self
    obtain ⟨record, -, hheld, -⟩ := (mem_candidates hvalid h.selected).mp hid
    refine (size_without hid hheld hnow).trans ?_
    cases file with
    | none => decide
    | some held => exact (h.read_valid held rfl).1
  have htransact := transact_eq_ok hio h.read_valid
    (pruneEdit_eq_ok.mpr ⟨h.clock_le, plan, h.selected, rfl, rfl⟩)
    (validateDocument_eq_ok.mpr (valid_without hvalid plan.candidateIds h.clock_le)) hsize
  show (guarded file _ (store.transact io file
    (pruneEdit maxAgeMs keepNewest now))).2 = _
  rw [hchecks]
  exact congrArg Prod.snd htransact

/-- The jobs after an applied prune: all of them when it wrote nothing, else those that were not
planned. -/
lemma applied_jobs (io : StoreIo) (h : Selects file maxAgeMs keepNewest now plan) :
    (access io file (.prune maxAgeMs keepNewest true now)).2 = file ∨
      ∀ id : String, (store.current (access io file (.prune maxAgeMs keepNewest true now)).2).jobs[id]? =
        if id ∈ plan.candidateIds then none else (store.current file).jobs[id]? := by
  rcases applied_file io file maxAgeMs keepNewest now with hsame | ⟨selection, hselects, hwritten⟩
  · exact .inl hsame
  · right
    intro id
    obtain rfl := Except.ok.inj (h.selected.symm.trans hselects.selected)
    rw [hwritten]
    exact without_jobs _ id

/-- A prune of what a prune has left. -/
lemma pruned_again (io : StoreIo) {file' : Option Document}
    (hids : ∀ id, id ∈ ids ↔
      (store.current file).Removable keepNewest (now.val - maxAgeMs.val) id)
    (hfile : file' = some ((store.current file).without ids now)) :
    (∀ id : String, (store.current (access io file' (.prune maxAgeMs keepNewest true now)).2).jobs[id]? =
        (store.current file').jobs[id]?) ∧
      ∀ apply report, (access io file' (.prune maxAgeMs keepNewest apply now)).1 =
        .ok (.report report) → report.candidateIds = [] := by
  have hnone : ∀ selection, Selects file' maxAgeMs keepNewest now selection →
      selection.candidateIds = [] := by
    intro selection hselects
    rw [eq_nil_iff_forall_not_mem]
    intro id hid
    have hremovable := (mem_candidates hselects.valid hselects.selected).mp hid
    rw [hfile] at hremovable
    exact not_removable_without (fun id => (hids id).mpr) id hremovable
  constructor
  · intro id
    rcases applied_file io file' maxAgeMs keepNewest now with hsame | ⟨selection, hselects, hwritten⟩
    · rw [hsame]
    · rw [hwritten, hnone selection hselects]
      rfl
  · intro apply report hreport
    cases apply with
    | false => exact hnone report (planned hreport)
    | true =>
      obtain ⟨selection, hselects, hcandidates, -⟩ := applied_report hreport
      rw [hcandidates]
      exact hnone selection hselects

theorem prune_planned (file : Option Document) (maxAgeMs : I64) (keepNewest : Nat) (now : I64)
    (io io' : StoreIo) :
    (∀ plan,
      (access io file (.prune maxAgeMs keepNewest false now)).1 = .ok (.report plan) →
      (∀ id, id ∈ plan.candidateIds ↔
        (store.current file).Removable keepNewest (now.val - maxAgeMs.val) id) ∧
      ((access io' file (.prune maxAgeMs keepNewest true now)).2 = file ∨
        ∀ id : String, (store.current (access io' file (.prune maxAgeMs keepNewest true now)).2).jobs[id]? =
          if id ∈ plan.candidateIds then none else (store.current file).jobs[id]?) ∧
      (io'.Works →
        ∀ id : String, (store.current (access io' file (.prune maxAgeMs keepNewest true now)).2).jobs[id]? =
          if id ∈ plan.candidateIds then none else (store.current file).jobs[id]?) ∧
      ∀ report,
        (access io' file (.prune maxAgeMs keepNewest true now)).1 = .ok (.report report) →
        report.candidateIds = plan.candidateIds ∧ report.removed = plan.candidateIds.length ∧
        ∀ io'',
          (∀ id : String, (store.current (access io'' (access io' file
              (.prune maxAgeMs keepNewest true now)).2
              (.prune maxAgeMs keepNewest true now)).2).jobs[id]? =
            (store.current (access io' file (.prune maxAgeMs keepNewest true now)).2).jobs[id]?) ∧
          ∀ apply report', (access io'' (access io' file
              (.prune maxAgeMs keepNewest true now)).2
              (.prune maxAgeMs keepNewest apply now)).1 = .ok (.report report') →
            report'.candidateIds = []) ∧
    (io.Works → ∀ error,
      (access io file (.prune maxAgeMs keepNewest false now)).1 = .error error →
      (access io' file (.prune maxAgeMs keepNewest true now)).2 = file) := by
  constructor
  · intro plan hplan
    have hselects := planned hplan
    have hids : ∀ id, id ∈ plan.candidateIds ↔
        (store.current file).Removable keepNewest (now.val - maxAgeMs.val) id :=
      fun _ => mem_candidates hselects.valid hselects.selected
    refine ⟨hids, applied_jobs io' hselects, fun hio id => ?_, fun report hreport => ?_⟩
    · by_cases hany : plan.candidateIds = []
      · rcases applied_jobs io' hselects with hsame | hjobs
        · rw [hsame, hany]
          rfl
        · exact hjobs id
      · rw [applied_of_planned hio hselects hany]
        exact without_jobs _ id
    · obtain ⟨selection, hselects', hcandidates, hremoved, hfile⟩ := applied_report hreport
      obtain rfl := Except.ok.inj (hselects.selected.symm.trans hselects'.selected)
      exact ⟨hcandidates, hremoved, fun io'' => pruned_again io'' hids hfile⟩
  · intro hio error herror
    rcases applied_file io' file maxAgeMs keepNewest now with hsame | ⟨selection, hselects, -⟩
    · exact hsame
    · exact absurd ((plan_of_selects hio hselects).symm.trans herror) nofun

def exitedJob (id : String) (time : I64) : ManagedJobRecord where
  jobId := id
  generation := 1
  nonce := hexDigest (List.replicate 16 1)
  sessionId := none
  origin := .spawned
  owner := some ⟨7, "owner"⟩
  process := some ⟨8, "process"⟩
  state := .exited 0
  createdAtUtcMs := zeroTime
  updatedAtUtcMs := time
  terminalAtUtcMs := some time
  onExpiry := none
  terminalTrigger := none
  detachLiveness := none

def exitedJobs : Document where
  schemaVersion := schemaVersion
  lastNowUtcMs := ⟨3, by decide⟩
  jobs := ((∅ : TreeMap String ManagedJobRecord).insert (uuidV4 fun _ => 0)
    (exitedJob (uuidV4 fun _ => 0) ⟨1, by decide⟩)).insert (uuidV4 fun _ => 2)
    (exitedJob (uuidV4 fun _ => 2) ⟨3, by decide⟩)

/-- The report that a reply hands out. -/
def reportOf : Except CuError Reply → Option ManagedJobPruneReport
  | .ok (.report report) => some report
  | _ => none

lemma reportOf_eq_some {reply : Except CuError Reply} (h : reportOf reply = some report) :
    reply = .ok (.report report) := by
  unfold reportOf at h
  split at h
  · rw [Option.some.inj h]
  · exact absurd h.symm (Option.some_ne_none _)

/-- Of two jobs the newest is kept, and the other goes. -/
theorem prune_planned_exited :
    ∃ plan, (access ⟨.acquired, true, .published⟩ (some exitedJobs)
        (.prune ⟨1, by decide⟩ 1 false ⟨9, by decide⟩)).1 = .ok (.report plan) ∧
      plan.candidateIds = [uuidV4 fun _ => 0] ∧
      ∀ id : String, (store.current (access ⟨.acquired, true, .published⟩ (some exitedJobs)
          (.prune ⟨1, by decide⟩ 1 true ⟨9, by decide⟩)).2).jobs[id]? =
        if id ∈ plan.candidateIds then none else exitedJobs.jobs[id]? := by
  have hplan : (reportOf (access ⟨.acquired, true, .published⟩ (some exitedJobs)
      (.prune ⟨1, by decide⟩ 1 false ⟨9, by decide⟩)).1).any
        (fun plan => decide (plan.candidateIds = [uuidV4 fun _ => 0])) = true := by decide
  obtain ⟨plan, hplanned, hcandidates⟩ := (Option.any_eq_true _ _).mp hplan
  have hreport := reportOf_eq_some hplanned
  have hexact := (prune_planned (some exitedJobs) ⟨1, by decide⟩ 1 ⟨9, by decide⟩
    ⟨.acquired, true, .published⟩ ⟨.acquired, true, .published⟩).1 plan hreport
  exact ⟨plan, hreport, of_decide_eq_true hcandidates, hexact.2.2.1 ⟨rfl, rfl, rfl⟩⟩

end

end Agenterm.Cu.ManagedJobs
