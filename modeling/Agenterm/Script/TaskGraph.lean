import Agenterm.Lib.DepthFirst

/-!
# The dependencies of the tasks of a project

`validate_task_graph` of `script_project.rs` degrades the tasks whose dependencies cannot be met, and
`resolve_task` hands out a task that is still ready. The fields of a task that neither reads are left
out, and `resolve_task` is followed up to the paths that it looks up in the project.
-/

namespace Agenterm.Script

open Lib List

inductive ScriptTaskStatus where
  | ready
  | degraded
deriving DecidableEq

structure ScriptTaskEntry where
  id : String
  status : ScriptTaskStatus
  degradedReason : Option String
  dependencies : List String
deriving DecidableEq

/-- Sets `status` and `degraded_reason`. -/
def ScriptTaskEntry.degrade (task : ScriptTaskEntry) (reason : String) : ScriptTaskEntry :=
  { task with status := .degraded, degradedReason := some reason }

/-- `ready_ids`. -/
def readyIds (tasks : List ScriptTaskEntry) : List String :=
  (tasks.filter fun task => task.status = .ready).map ScriptTaskEntry.id

/-- The body of the first loop, for a task of any status. -/
def checkDependencies (readyIds : List String) (task : ScriptTaskEntry) : ScriptTaskEntry :=
  if task.status ≠ .ready then
    task
  else if task.dependencies.any fun dependency => dependency = task.id then
    task.degrade s!"task_dependency_self: {task.id}"
  else
    match task.dependencies.find? fun dependency => !readyIds.contains dependency with
    | some dependency => task.degrade s!"task_dependency_unknown: {dependency}"
    | none => task

/-- The map of the ready tasks; a later task with the same id replaces an earlier one. -/
def taskGraph (tasks : List ScriptTaskEntry) : List (String × List String) :=
  (tasks.filter fun task => task.status = .ready).map fun task => (task.id, task.dependencies)

/-- A search with empty sets. -/
def taskDependencyCycle (id : String) (graph : List (String × List String)) : Bool :=
  (DepthFirst.visit graph id [] []).1

/-- `cyclic`. -/
def cyclicIds (graph : List (String × List String)) : List String :=
  (graph.map Prod.fst).filter fun id => taskDependencyCycle id graph

/-- The body of the last loop. -/
def markCycle (cyclic : List String) (task : ScriptTaskEntry) : ScriptTaskEntry :=
  if cyclic.contains task.id then
    task.degrade s!"task_dependency_cycle: {task.id}"
  else
    task

def validateTaskGraph (tasks : List ScriptTaskEntry) : List ScriptTaskEntry :=
  let checked := tasks.map (checkDependencies (readyIds tasks))
  checked.map (markCycle (cyclicIds (taskGraph checked)))

structure ScriptTaskCatalog where
  compatible : Bool
  compatibilityReason : Option String
  tasks : List ScriptTaskEntry
deriving DecidableEq

/-- The task that is handed out, before its paths are looked up. -/
def resolveTask (catalog : ScriptTaskCatalog) (id : String) : Except String ScriptTaskEntry :=
  match catalog.tasks.filter fun task => task.id = id with
  | [] => .error s!"task_not_found: {id}"
  | [task] =>
    if task.status = .degraded then
      let reason := task.degradedReason.getD "invalid task"
      .error s!"task_degraded: {id}: {reason}"
    else if !catalog.compatible then
      let reason := catalog.compatibilityReason.getD "project requirements are not satisfied"
      .error s!"task_project_incompatible: {reason}"
    else
      .ok task
  | _ => .error s!"task_duplicate: {id}"

/-!
The search for cycles goes through the dependencies to any depth, but a dependency on a degraded task
is seen only where the task was degraded before: the tasks that depend on it in turn stay ready.
`readyClosure_iff` says when this, and the choice between tasks of one id, makes no difference.
-/

open Relation

variable {id : String} {other task : ScriptTaskEntry}

section
variable (tasks : List ScriptTaskEntry)

/-- One of the tasks that a task depends on. -/
def Needs (task other : ScriptTaskEntry) : Prop := other ∈ tasks ∧ other.id ∈ task.dependencies

def OnCycle (task : ScriptTaskEntry) : Prop := TransGen (Needs tasks) task task

/-- A task that was ready, and all that it leads to are known, were ready, and are on no cycle. -/
def CanRun (task : ScriptTaskEntry) : Prop :=
  ∀ other, ReflTransGen (Needs tasks) task other → other.status = .ready ∧
    (∀ dependency ∈ other.dependencies, ∃ t ∈ tasks, t.id = dependency) ∧ ¬ OnCycle tasks other

/-- Every dependency names a task, and ready ones only. -/
def DependenciesReady (task : ScriptTaskEntry) : Prop :=
  ∀ dependency ∈ task.dependencies, (∃ t ∈ tasks, t.id = dependency) ∧
    ∀ t ∈ tasks, t.id = dependency → t.status = .ready

/-- What the validation is for. -/
structure ReadyClosure : Prop where
  ready_iff : ∀ (i : Nat) (before after : ScriptTaskEntry), tasks[i]? = some before →
    (validateTaskGraph tasks)[i]? = some after → (after.status = .ready ↔ CanRun tasks before)
  dependencies_ready : ∀ task ∈ validateTaskGraph tasks, task.status = .ready →
    DependenciesReady (validateTaskGraph tasks) task
  handed_out : ∀ (compatible : Bool) (reason : Option String) (id : String)
    (task : ScriptTaskEntry), resolveTask ⟨compatible, reason, validateTaskGraph tasks⟩ id =
      .ok task → DependenciesReady (validateTaskGraph tasks) task

/-- A task that was ready, does not depend on itself, and has ready dependencies only. -/
structure Direct (task : ScriptTaskEntry) : Prop where
  ready : task.status = .ready
  notSelf : task.id ∉ task.dependencies
  known : ∀ dependency ∈ task.dependencies, ∃ t ∈ tasks, t.id = dependency ∧ t.status = .ready

instance (task : ScriptTaskEntry) : Decidable (Direct tasks task) :=
  decidable_of_iff (task.status = .ready ∧ task.id ∉ task.dependencies ∧
      ∀ dependency ∈ task.dependencies, ∃ t ∈ tasks, t.id = dependency ∧ t.status = .ready)
    ⟨fun h => ⟨h.1, h.2.1, h.2.2⟩, fun h => ⟨h.ready, h.notSelf, h.known⟩⟩

/-- The dependencies of the direct tasks, by their ids. -/
def directGraph : List (String × List String) :=
  (tasks.filter fun task => Direct tasks task).map fun task => (task.id, task.dependencies)

/-- A direct task whose id leads to no cycle of direct tasks. -/
def Kept (task : ScriptTaskEntry) : Prop :=
  Direct tasks task ∧ ¬ DepthFirst.LeadsToCycle (directGraph tasks) task.id

/-- Where the validation is right: the tasks that a kept one needs are kept, none of them is on a
cycle, and a direct task that is not kept leads to a task that cannot run. The last two can fail only
where two direct tasks have one id. -/
structure Settled : Prop where
  kept : ∀ task ∈ tasks, Kept tasks task → ∀ other, Needs tasks task other → Kept tasks other
  acyclic : ∀ task ∈ tasks, Kept tasks task → ¬ OnCycle tasks task
  leads : ∀ task ∈ tasks, Direct tasks task →
    DepthFirst.LeadsToCycle (directGraph tasks) task.id →
      ∃ other, ReflTransGen (Needs tasks) task other ∧
        (¬ Direct tasks other ∨ OnCycle tasks other)

variable {tasks}

/-! ## The first loop -/

lemma mem_readyIds : id ∈ readyIds tasks ↔ ∃ t ∈ tasks, t.id = id ∧ t.status = .ready := by
  unfold readyIds
  constructor
  · intro h
    obtain ⟨t, ht, hid⟩ := mem_map.mp h
    obtain ⟨hmem, hready⟩ := mem_filter.mp ht
    exact ⟨t, hmem, hid, by simpa using hready⟩
  · intro ⟨t, hmem, hid, hready⟩
    exact mem_map.mpr ⟨t, mem_filter.mpr ⟨hmem, by simpa using hready⟩, hid⟩

/-- The first loop keeps the direct tasks as they are. -/
lemma checkDependencies_direct (h : Direct tasks task) :
    checkDependencies (readyIds tasks) task = task := by
  have hself : ¬ (task.dependencies.any fun dependency => dependency = task.id) = true := by
    intro hany
    obtain ⟨dependency, hmem, heq⟩ := any_eq_true.mp hany
    have hid : dependency = task.id := by simpa using heq
    exact h.notSelf (hid ▸ hmem)
  have hfind : (task.dependencies.find? fun dependency =>
      !(readyIds tasks).contains dependency) = none := by
    apply List.find?_eq_none.mpr
    intro dependency hmem
    have hknown := mem_readyIds.mpr (h.known dependency hmem)
    simpa using hknown
  unfold checkDependencies
  rw [if_neg (by simp [h.ready]), if_neg hself, hfind]

/-- It leaves no other task ready. -/
lemma checkDependencies_ready (h : (checkDependencies (readyIds tasks) task).status = .ready) :
    Direct tasks task := by
  unfold checkDependencies at h
  split at h
  · next hnot => exact absurd h hnot
  · next hready =>
    split at h
    · nomatch h
    · next hself =>
      split at h
      · nomatch h
      · next hfind =>
        refine ⟨not_not.mp hready, ?_, ?_⟩
        · intro hmem
          exact hself (any_eq_true.mpr ⟨task.id, hmem, by simp⟩)
        · intro dependency hmem
          have hknown := List.find?_eq_none.mp hfind dependency hmem
          exact mem_readyIds.mp (by simpa using hknown)

lemma checkDependencies_fields (readyIds : List String) (task : ScriptTaskEntry) :
    (checkDependencies readyIds task).id = task.id ∧
      (checkDependencies readyIds task).dependencies = task.dependencies := by
  unfold checkDependencies
  split
  · exact ⟨rfl, rfl⟩
  · split
    · exact ⟨rfl, rfl⟩
    · split
      · exact ⟨rfl, rfl⟩
      · exact ⟨rfl, rfl⟩

lemma checkDependencies_status :
    (checkDependencies (readyIds tasks) task).status = .ready ↔ Direct tasks task := by
  constructor
  · exact checkDependencies_ready
  · intro h
    rw [checkDependencies_direct h]
    exact h.ready

/-! ## The last loop -/

lemma taskGraph_checked :
    taskGraph (tasks.map (checkDependencies (readyIds tasks))) = directGraph tasks := by
  unfold taskGraph directGraph
  rw [List.filter_map, List.map_map]
  have hfilter : tasks.filter ((fun task => decide (task.status = .ready)) ∘
      checkDependencies (readyIds tasks)) = tasks.filter fun task => Direct tasks task := by
    apply filter_congr
    intro task _
    simp only [Function.comp_apply, checkDependencies_status]
  rw [hfilter]
  apply map_congr_left
  intro task _
  have hfields := checkDependencies_fields (readyIds tasks) task
  simp only [Function.comp_apply, hfields]

lemma mem_cyclicIds : id ∈ cyclicIds (directGraph tasks) ↔
    (∃ task ∈ tasks, Direct tasks task ∧ task.id = id) ∧
      DepthFirst.LeadsToCycle (directGraph tasks) id := by
  unfold cyclicIds taskDependencyCycle
  rw [mem_filter, DepthFirst.visit_iff]
  have hkeys : id ∈ (directGraph tasks).map Prod.fst ↔
      ∃ task ∈ tasks, Direct tasks task ∧ task.id = id := by
    unfold directGraph
    rw [List.map_map]
    constructor
    · intro h
      obtain ⟨task, htask, hid⟩ := mem_map.mp h
      obtain ⟨hmem, hdirect⟩ := mem_filter.mp htask
      exact ⟨task, hmem, by simpa using hdirect, hid⟩
    · intro ⟨task, hmem, hdirect, hid⟩
      exact mem_map.mpr ⟨task, mem_filter.mpr ⟨hmem, by simpa using hdirect⟩, hid⟩
  rw [hkeys]

/-- A task after the validation. -/
def validated (tasks : List ScriptTaskEntry) (task : ScriptTaskEntry) : ScriptTaskEntry :=
  markCycle (cyclicIds (directGraph tasks)) (checkDependencies (readyIds tasks) task)

lemma validateTaskGraph_eq : validateTaskGraph tasks = tasks.map (validated tasks) := by
  unfold validateTaskGraph
  rw [List.map_map, taskGraph_checked]
  rfl

lemma validated_fields (task : ScriptTaskEntry) :
    (validated tasks task).id = task.id ∧
      (validated tasks task).dependencies = task.dependencies := by
  have hfields := checkDependencies_fields (readyIds tasks) task
  unfold validated markCycle
  split
  · exact hfields
  · exact hfields

/-- The tasks that are ready in the end are those that are kept. -/
lemma validated_ready (hmem : task ∈ tasks) :
    (validated tasks task).status = .ready ↔ Kept tasks task := by
  unfold validated markCycle Kept
  rw [(checkDependencies_fields (readyIds tasks) task).1]
  split
  · next hcyclic =>
    have hleads := (mem_cyclicIds.mp (contains_iff_mem.mp hcyclic)).2
    constructor
    · intro h
      cases h
    · intro h
      exact absurd hleads h.2
  · next hcyclic =>
    rw [checkDependencies_status]
    constructor
    · intro hdirect
      refine ⟨hdirect, ?_⟩
      intro hleads
      apply hcyclic
      exact contains_iff_mem.mpr (mem_cyclicIds.mpr ⟨⟨task, hmem, hdirect, rfl⟩, hleads⟩)
    · exact And.left

/-! ## What a task leads to -/

lemma mem_of_reaches (hmem : task ∈ tasks) (h : ReflTransGen (Needs tasks) task other) :
    other ∈ tasks := by
  rcases ReflTransGen.cases_tail h with heq | ⟨_, _, hneeds⟩
  · rwa [heq]
  · exact hneeds.1

/-- A task can run if it leads to direct tasks only, and to no cycle. -/
lemma canRun_iff (hmem : task ∈ tasks) :
    CanRun tasks task ↔ ∀ other, ReflTransGen (Needs tasks) task other →
      Direct tasks other ∧ ¬ OnCycle tasks other := by
  constructor
  · intro h other hreach
    obtain ⟨hready, hknown, hcycle⟩ := h other hreach
    refine ⟨⟨hready, ?_, ?_⟩, hcycle⟩
    · intro hself
      exact hcycle (.single ⟨mem_of_reaches hmem hreach, hself⟩)
    · intro dependency hdependency
      obtain ⟨t, ht, hid⟩ := hknown dependency hdependency
      have hneeds : Needs tasks other t := ⟨ht, hid ▸ hdependency⟩
      exact ⟨t, ht, hid, (h t (hreach.tail hneeds)).1⟩
  · intro h other hreach
    obtain ⟨hdirect, hcycle⟩ := h other hreach
    refine ⟨hdirect.ready, ?_, hcycle⟩
    intro dependency hdependency
    obtain ⟨t, ht, hid, _⟩ := hdirect.known dependency hdependency
    exact ⟨t, ht, hid⟩

lemma CanRun.needs (h : CanRun tasks task) (hneeds : Needs tasks task other) : CanRun tasks other :=
  fun third hreach => h third (hreach.head hneeds)

lemma Settled.kept_of_reaches (h : Settled tasks) (hmem : task ∈ tasks) (hkept : Kept tasks task)
    (hreach : ReflTransGen (Needs tasks) task other) : Kept tasks other := by
  induction hreach with
  | refl => exact hkept
  | tail hfront hneeds ih => exact h.kept _ (mem_of_reaches hmem hfront) ih _ hneeds

lemma Settled.kept_iff (h : Settled tasks) (hmem : task ∈ tasks) :
    Kept tasks task ↔ CanRun tasks task := by
  rw [canRun_iff hmem]
  constructor
  · intro hkept other hreach
    have hother := h.kept_of_reaches hmem hkept hreach
    exact ⟨hother.1, h.acyclic other (mem_of_reaches hmem hreach) hother⟩
  · intro hall
    have hdirect := (hall task .refl).1
    refine ⟨hdirect, ?_⟩
    intro hleads
    obtain ⟨other, hreach, hbad⟩ := h.leads task hmem hdirect hleads
    obtain ⟨hother, hcycle⟩ := hall other hreach
    rcases hbad with hbad | hbad
    · exact hbad hother
    · exact hcycle hbad

lemma Settled.dependenciesReady (h : Settled tasks) (htask : task ∈ validateTaskGraph tasks)
    (hready : task.status = .ready) : DependenciesReady (validateTaskGraph tasks) task := by
  rw [validateTaskGraph_eq] at htask ⊢
  obtain ⟨before, hbefore, rfl⟩ := mem_map.mp htask
  rw [validated_ready hbefore] at hready
  intro dependency hdependency
  rw [(validated_fields _).2] at hdependency
  constructor
  · obtain ⟨t, ht, hid, _⟩ := hready.1.known dependency hdependency
    exact ⟨validated tasks t, mem_map_of_mem ht, (validated_fields t).1.trans hid⟩
  · intro other hother hid
    obtain ⟨needed, hneeded, rfl⟩ := mem_map.mp hother
    rw [(validated_fields _).1] at hid
    rw [validated_ready hneeded]
    exact h.kept before hbefore hready needed ⟨hneeded, hid ▸ hdependency⟩

lemma resolveTask_ready {catalog : ScriptTaskCatalog} (h : resolveTask catalog id = .ok task) :
    task ∈ catalog.tasks ∧ task.status = .ready := by
  unfold resolveTask at h
  split at h
  · nomatch h
  · next found hfound =>
    split at h
    · nomatch h
    · next hstatus =>
      split at h
      · nomatch h
      · injection h with h
        subst h
        have hmem : found ∈ catalog.tasks.filter fun task => task.id = id := by
          rw [hfound]
          exact mem_singleton_self found
        refine ⟨(mem_filter.mp hmem).1, ?_⟩
        cases hcase : found.status with
        | ready => rfl
        | degraded => exact absurd hcase hstatus
  · nomatch h

lemma settled_of_kept_iff (h : ∀ task ∈ tasks, (Kept tasks task ↔ CanRun tasks task)) :
    Settled tasks where
  kept := by
    intro task hmem hkept other hneeds
    exact (h other hneeds.1).mpr (((h task hmem).mp hkept).needs hneeds)
  acyclic := by
    intro task hmem hkept
    exact ((h task hmem).mp hkept task .refl).2.2
  leads := by
    intro task hmem hdirect hleads
    have hnot : ¬ CanRun tasks task := fun hrun => ((h task hmem).mpr hrun).2 hleads
    rw [canRun_iff hmem] at hnot
    push Not at hnot
    obtain ⟨other, hreach, hbad⟩ := hnot
    refine ⟨other, hreach, ?_⟩
    by_cases hother : Direct tasks other
    · exact .inr (hbad hother)
    · exact .inl hother

/-- The validation keeps ready exactly the tasks that can run if and only if it is settled what the
direct tasks lead to. -/
theorem readyClosure_iff (tasks : List ScriptTaskEntry) :
    ReadyClosure tasks ↔ Settled tasks := by
  constructor
  · intro h
    apply settled_of_kept_iff
    intro task hmem
    obtain ⟨i, hi⟩ := mem_iff_getElem?.mp hmem
    rw [← validated_ready hmem]
    apply h.ready_iff i task (validated tasks task) hi
    rw [validateTaskGraph_eq, List.getElem?_map, hi]
    rfl
  · intro h
    constructor
    · intro i before after hbefore hafter
      have hmem := mem_of_getElem? hbefore
      rw [validateTaskGraph_eq, List.getElem?_map, hbefore] at hafter
      injection hafter with hafter
      rw [← hafter, validated_ready hmem, h.kept_iff hmem]
    · intro task htask hready
      exact h.dependenciesReady htask hready
    · intro compatible reason id task hresolve
      obtain ⟨htask, hready⟩ := resolveTask_ready hresolve
      exact h.dependenciesReady htask hready

/-! ## Direct tasks with distinct ids -/

/-- Of the ids that lead on, each is that of a direct task. -/
lemma direct_of_edge {next : String} (h : DepthFirst.Edge (directGraph tasks) id next) :
    ∃ task ∈ tasks, Direct tasks task ∧ task.id = id ∧ next ∈ task.dependencies := by
  obtain ⟨_, hnext, hmem⟩ := h
  obtain ⟨task, htask, heq⟩ := mem_map.mp (DepthFirst.mem_of_successors hnext)
  obtain ⟨hin, hdirect⟩ := mem_filter.mp htask
  injection heq with hid hdependencies
  exact ⟨task, hin, by simpa using hdirect, hid, hdependencies ▸ hmem⟩

section
variable (hdistinct : ∀ a ∈ tasks, ∀ b ∈ tasks, Direct tasks a → Direct tasks b → a.id = b.id →
  a = b)

include hdistinct

lemma edge_of_needs (hmem : task ∈ tasks) (h : Direct tasks task) (hneeds : Needs tasks task other) :
    DepthFirst.Edge (directGraph tasks) task.id other.id := by
  have hentry : (task.id, task.dependencies) ∈ directGraph tasks :=
    mem_map.mpr ⟨task, mem_filter.mpr ⟨hmem, by simpa using h⟩, rfl⟩
  cases hnext : DepthFirst.successors (directGraph tasks) task.id with
  | none =>
    have hnone := find?_eq_none.mp (Option.map_eq_none_iff.mp hnext) _ (mem_reverse.mpr hentry)
    simp at hnone
  | some next =>
    obtain ⟨first, hfirst, heq⟩ := mem_map.mp (DepthFirst.mem_of_successors hnext)
    obtain ⟨hin, hdirect⟩ := mem_filter.mp hfirst
    injection heq with hid hdependencies
    obtain rfl := hdistinct first hin task hmem (by simpa using hdirect) h hid
    exact ⟨next, hnext, hdependencies ▸ hneeds.2⟩

/-- A path of ids from a direct task is one of tasks, as far as it leads on. -/
lemma reaches_of_path (hmem : task ∈ tasks) (hdirect : Direct tasks task) (hother : other ∈ tasks)
    (hid : other.id = id) (h : TransGen (DepthFirst.Edge (directGraph tasks)) task.id id) :
    TransGen (Needs tasks) task other := by
  induction h generalizing other with
  | single hedge =>
    obtain ⟨first, hfirst, hdirect', hid', hnext⟩ := direct_of_edge hedge
    obtain rfl := hdistinct first hfirst task hmem hdirect' hdirect hid'
    exact .single ⟨hother, hid ▸ hnext⟩
  | tail _ hedge ih =>
    obtain ⟨middle, hmiddle, -, hid', hnext⟩ := direct_of_edge hedge
    exact (ih hmiddle hid').tail ⟨hother, hid ▸ hnext⟩

/-- Without two direct tasks of one id, the validation is right exactly where the tasks that a kept
one needs are direct. -/
theorem settled_iff_of_distinct : Settled tasks ↔
    ∀ task ∈ tasks, Kept tasks task → ∀ other, Needs tasks task other → Direct tasks other := by
  refine ⟨fun h task hmem hkept other hneeds => (h.kept task hmem hkept other hneeds).1, fun h => ?_⟩
  have hstep : ∀ task ∈ tasks, Kept tasks task → ∀ other, Needs tasks task other →
      Kept tasks other := fun task hmem hkept other hneeds => ⟨h task hmem hkept other hneeds,
    fun hleads => hkept.2 (.of_edge (edge_of_needs hdistinct hmem hkept.1 hneeds) hleads)⟩
  refine ⟨hstep, fun task hmem hkept hcycle => ?_, fun task hmem hdirect hleads => ?_⟩
  · have hpath : ∀ other, TransGen (Needs tasks) task other → Kept tasks other ∧
        TransGen (DepthFirst.Edge (directGraph tasks)) task.id other.id := by
      intro other hreach
      induction hreach with
      | single hneeds =>
        exact ⟨hstep task hmem hkept _ hneeds, .single (edge_of_needs hdistinct hmem hkept.1 hneeds)⟩
      | tail hfront hneeds ih =>
        have hmiddle := mem_of_reaches hmem hfront.to_reflTransGen
        exact ⟨hstep _ hmiddle ih.1 _ hneeds,
          ih.2.tail (edge_of_needs hdistinct hmiddle ih.1.1 hneeds)⟩
    exact hkept.2 ⟨task.id, .refl, (hpath task hcycle).2⟩
  · obtain ⟨id, hreach, hcycle⟩ := hleads
    obtain ⟨_, hedge, _⟩ := TransGen.head'_iff.mp hcycle
    obtain ⟨other, hother, hdirect', rfl, _⟩ := direct_of_edge hedge
    refine ⟨other, ?_, .inr (reaches_of_path hdistinct hother hdirect' hother rfl hcycle)⟩
    rcases reflTransGen_iff_eq_or_transGen.mp hreach with heq | htrans
    · rw [hdistinct other hother task hmem hdirect' hdirect heq]
    · exact (reaches_of_path hdistinct hmem hdirect hother rfl htrans).to_reflTransGen

end

/-- A chain to an unknown task: the first of the two stays ready, and is handed out. -/
def chainTasks : List ScriptTaskEntry :=
  [ { id := "a", status := .ready, degradedReason := none, dependencies := ["b"] },
    { id := "b", status := .ready, degradedReason := none, dependencies := ["missing"] } ]

theorem chain_stays_ready : ¬ ReadyClosure chainTasks := by
  rw [readyClosure_iff]
  intro h
  have hgraph : directGraph chainTasks = [("a", ["b"])] := by decide
  have hend : DepthFirst.successors [("a", ["b"])] "b" = none := by decide
  have hkept : Kept chainTasks chainTasks[0] := by
    refine ⟨by decide, ?_⟩
    rw [hgraph]
    intro hleads
    obtain ⟨id, ⟨next, hnext, hid⟩, hleads⟩ := hleads.exists_edge
    obtain rfl : next = ["b"] := (Option.some.inj hnext).symm
    obtain rfl : id = "b" := by simpa using hid
    obtain ⟨_, ⟨_, hsome, _⟩, _⟩ := hleads.exists_edge
    exact nomatch hend.symm.trans hsome
  have hneeds : Needs chainTasks chainTasks[0] chainTasks[1] := by
    unfold Needs
    decide
  have hdegraded : ¬ Direct chainTasks chainTasks[1] := by decide
  exact hdegraded (h.kept _ (by decide) hkept _ hneeds).1

end

end Agenterm.Script
