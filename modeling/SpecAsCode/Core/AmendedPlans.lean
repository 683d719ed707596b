import SpecAsCode.Core.Amendment

/-!
# Amended plans

An amendment that is applied keeps the tasks that have executed, the identifiers of the tasks
apart and the dependencies without a cycle.
-/

namespace SpecAsCode.Core

open SpecAsCode.Js
open SpecAsCode.Lib
open SpecAsCode.Schema
open SpecAsCode.History

variable {executed : List JsString} {tasks : List Task} {operation : AmendmentOperation}

/-! ## Tasks by their identifiers -/

theorem mem_ids {id : JsString} : id ∈ ids tasks ↔ ∃ task ∈ tasks, task.id = id :=
  List.mem_map

theorem taskById_eq_none {id : JsString} : taskById tasks id = none ↔ id ∉ ids tasks := by
  rw [taskById, List.find?_eq_none, mem_ids]
  simp

theorem ids_map (tasks : List Task) {change : Task → Task}
    (same : ∀ task, (change task).id = task.id) : ids (tasks.map change) = ids tasks := by
  rw [ids, List.map_map]
  exact List.map_congr_left fun task _ => same task

theorem mem_ids_of_edge {id dep : JsString} (edge : dep ∈ dependencyEdges tasks id) :
    id ∈ ids tasks := by
  by_contra absent
  rw [dependencyEdges, taskById_eq_none.mpr absent] at edge
  cases edge

/-! ## Operations that are refused -/

/-- The operation touches a task that has executed, names a task that is missing, uses an
identifier again, or adds a dependency that closes a cycle. -/
def Illegal (executed : List JsString) (tasks : List Task) : AmendmentOperation → Prop
  | .addTask task => task.id ∈ ids tasks
  | .removeTask taskId => taskId ∉ ids tasks ∨ taskId ∈ executed
  | .replaceTask taskId replacement => taskId ∉ ids tasks ∨ taskId ∈ executed ∨
      (replacement.id ≠ taskId ∧ replacement.id ∈ ids tasks)
  | .addDependency taskId dependsOnTaskId => taskId ∉ ids tasks ∨ dependsOnTaskId ∉ ids tasks ∨
      ∃ id, OnCycle (edgesWith tasks taskId dependsOnTaskId) id
  | .changeTarget taskId _ => taskId ∉ ids tasks ∨ taskId ∈ executed

theorem mem_of_onCycle {Node : Type} {edges : Node → List Node} {nodes : List Node}
    (inside : ∀ node next, next ∈ edges node → node ∈ nodes) {node : Node}
    (cycle : OnCycle edges node) : node ∈ nodes := by
  obtain ⟨next, edge, -⟩ := Relation.TransGen.head'_iff.mp cycle
  exact inside node next edge

theorem ids_length_lt (tasks : List Task) : (ids tasks).length < graphFuel tasks := by
  rw [ids, List.length_map, graphFuel]
  omega

/-- A search that ends without a cycle has seen all nodes with edges. -/
theorem acyclic_of_findCycle {edges : JsString → List JsString}
    (inside : ∀ node next, next ∈ edges node → node ∈ ids tasks)
    (silent : (findCycle (graphFuel tasks) (ids tasks) edges).join = none) (id : JsString) :
    ¬ OnCycle edges id := by
  intro cycle
  have supported : ∀ node, edges node ≠ [] → node ∈ ids tasks := by
    intro node busy
    obtain ⟨next, edge⟩ := List.exists_mem_of_ne_nil _ busy
    exact inside node next edge
  obtain ⟨result, ended⟩ := findCycle_ends supported (ids_length_lt tasks) (ids tasks)
  rw [ended, Option.join_some] at silent
  subst silent
  exact findCycle_none ended id (mem_of_onCycle inside cycle) id Relation.ReflTransGen.refl cycle

theorem mem_ids_of_edgeWith {taskId dependsOnTaskId : JsString} (present : taskId ∈ ids tasks)
    {node next : JsString} (edge : next ∈ edgesWith tasks taskId dependsOnTaskId node) :
    node ∈ ids tasks := by
  rw [edgesWith] at edge
  split_ifs at edge with same
  · exact same ▸ present
  · exact mem_ids_of_edge edge

theorem not_illegal_of_refusal (allowed : refusal executed tasks operation = none) :
    ¬ Illegal executed tasks operation := by
  cases operation with
  | addTask task =>
      rw [refusal, ite_eq_right_iff] at allowed
      rw [Illegal, ← not_not (a := task.id ∈ ids tasks), not_not, ← taskById_eq_none]
      cases found : taskById tasks task.id with
      | none => rfl
      | some other => exact absurd (allowed (by rw [found]; rfl)) (by simp)
  | removeTask taskId =>
      rw [refusal] at allowed
      split_ifs at allowed with missing touched
      rw [Option.isNone_iff_eq_none, taskById_eq_none] at missing
      exact not_or.mpr ⟨missing, touched⟩
  | replaceTask taskId replacement =>
      rw [refusal] at allowed
      split_ifs at allowed with missing touched taken
      rw [Option.isNone_iff_eq_none, taskById_eq_none] at missing
      refine not_or.mpr ⟨missing, not_or.mpr ⟨touched, fun used => taken ⟨used.1, ?_⟩⟩⟩
      rw [Option.isSome_iff_ne_none, ne_eq, taskById_eq_none]
      exact fun absent => absent used.2
  | addDependency taskId dependsOnTaskId =>
      rw [refusal] at allowed
      split_ifs at allowed with missing closes
      simp only [Option.isNone_iff_eq_none, taskById_eq_none, not_or, not_not] at missing
      rw [Bool.not_eq_true, Option.isSome_eq_false_iff, Option.isNone_iff_eq_none] at closes
      rintro (absent | absent | ⟨id, cycle⟩)
      · exact absent missing.1
      · exact absent missing.2
      · exact acyclic_of_findCycle (fun _ _ => mem_ids_of_edgeWith missing.1) closes id cycle
  | changeTarget taskId targets =>
      rw [refusal] at allowed
      split_ifs at allowed with missing touched
      rw [Option.isNone_iff_eq_none, taskById_eq_none] at missing
      exact not_or.mpr ⟨missing, touched⟩

/-! ## Dependencies after an operation -/

theorem id_withoutDependency (id : JsString) (task : Task) : (withoutDependency id task).id = task.id := by
  rw [withoutDependency]
  split_ifs <;> rfl

theorem id_renameDependency (id other : JsString) (task : Task) :
    (renameDependency id other task).id = task.id := by
  rw [renameDependency]
  split_ifs <;> rfl

theorem mem_withoutDependency {id dep : JsString} {task : Task} :
    dep ∈ (withoutDependency id task).dependencies ↔ dep ∈ task.dependencies ∧ dep ≠ id := by
  rw [withoutDependency]
  split_ifs with depends
  · simp [Task.dependencies]
  · exact ⟨fun member => ⟨member, fun same => depends (same ▸ member)⟩, And.left⟩

theorem of_mem_renameDependency {id other dep : JsString} {task : Task}
    (member : dep ∈ (renameDependency id other task).dependencies) :
    dep = other ∨ (dep ∈ task.dependencies ∧ dep ≠ id) := by
  rw [renameDependency] at member
  split_ifs at member with depends
  · have collected : dep ∈ once [] (task.dependencies.filter (fun dep => dep ≠ id) ++ [other]) := member
    simp only [mem_once, List.not_mem_nil, false_or, List.mem_append, List.mem_filter,
      decide_eq_true_eq, List.mem_singleton] at collected
    exact collected.symm
  · exact Or.inr ⟨member, fun same => depends (same ▸ member)⟩

/-- A task is put in the place of another one. -/
def replaceIn (tasks : List Task) (taskId : JsString) (replacement : Task) : List Task :=
  tasks.map fun task => if task.id = taskId then replacement else task

theorem ids_replaceIn (taskId : JsString) (replacement : Task) :
    ids (replaceIn tasks taskId replacement) =
      (ids tasks).map fun id => if id = taskId then replacement.id else id := by
  rw [ids, ids, replaceIn, List.map_map, List.map_map]
  refine List.map_congr_left fun task _ => ?_
  simp only [Function.comp_apply]
  split_ifs <;> rfl

theorem mem_ids_replaceIn {taskId id : JsString} {replacement : Task} :
    id ∈ ids (replaceIn tasks taskId replacement) ↔
      (id = replacement.id ∧ taskId ∈ ids tasks) ∨ (id ∈ ids tasks ∧ id ≠ taskId) := by
  rw [ids_replaceIn, List.mem_map]
  constructor
  · rintro ⟨other, member, rfl⟩
    split_ifs with same
    · exact Or.inl ⟨rfl, same ▸ member⟩
    · exact Or.inr ⟨member, same⟩
  · rintro (⟨rfl, member⟩ | ⟨member, different⟩)
    · exact ⟨taskId, member, if_pos rfl⟩
    · exact ⟨id, member, if_neg different⟩

theorem nodup_ids_replaceIn {taskId : JsString} {replacement : Task} (unique : (ids tasks).Nodup)
    (fresh : ¬ (replacement.id ≠ taskId ∧ replacement.id ∈ ids tasks)) :
    (ids (replaceIn tasks taskId replacement)).Nodup := by
  rw [ids_replaceIn]
  refine List.Nodup.map_on (fun first here second there same => ?_) unique
  split_ifs at same with firstIs secondIs secondIs
  · rw [firstIs, secondIs]
  · subst same
    exact absurd ⟨fun equal => secondIs equal, there⟩ fresh
  · subst same
    exact absurd ⟨fun equal => firstIs equal, here⟩ fresh
  · exact same

/-! ## What every operation keeps -/

/-- The tasks agree in every field other than `dependsOn`. -/
def SameButDependencies (first second : Task) : Prop :=
  { first with dependsOn := second.dependsOn } = second

theorem SameButDependencies.refl (task : Task) : SameButDependencies task task := rfl

theorem SameButDependencies.id {first second : Task} (same : SameButDependencies first second) :
    first.id = second.id := by
  rw [← same]

theorem SameButDependencies.of_change {first second third : Task}
    (same : SameButDependencies second third)
    (change : { first with dependsOn := second.dependsOn } = second) :
    SameButDependencies first third := by
  rw [SameButDependencies, ← same, ← change]

/-- What the operations of an amendment keep of the tasks of a plan. -/
structure Amended (plan : Plan) (executed : List JsString) (operations : List AmendmentOperation)
    (tasks : List Task) : Prop where
  kept : ∀ task ∈ plan.tasks, task.id ∈ executed → ∃ kept ∈ tasks, SameButDependencies kept task
  unique : (ids tasks).Nodup
  closed : ∀ task ∈ tasks, ∀ dep ∈ task.dependencies, dep ∈ ids tasks ∨
    ∃ introduced ∈ introducedTasks operations, dep ∈ introduced.dependencies

section Step

variable {plan : Plan} {operations : List AmendmentOperation}

/-- A change of tasks other than the executed ones, in the dependencies apart. -/
theorem kept_map (amended : Amended plan executed operations tasks) {change : Task → Task}
    (keeps : ∀ task ∈ tasks, task.id ∈ executed → SameButDependencies (change task) task) :
    ∀ task ∈ plan.tasks, task.id ∈ executed →
      ∃ kept ∈ tasks.map change, SameButDependencies kept task := by
  intro task member done
  obtain ⟨kept, inside, same⟩ := amended.kept task member done
  exact ⟨change kept, List.mem_map_of_mem inside,
    same.of_change (keeps kept inside (same.id ▸ done))⟩

theorem Amended.addTask (amended : Amended plan executed operations tasks) {task : Task}
    (listed : task ∈ introducedTasks operations) (fresh : task.id ∉ ids tasks) :
    Amended plan executed operations (tasks ++ [task]) where
  kept other member done := by
    obtain ⟨kept, inside, same⟩ := amended.kept other member done
    exact ⟨kept, List.mem_append_left _ inside, same⟩
  unique := by
    rw [ids, List.map_append, List.nodup_append]
    refine ⟨amended.unique, List.nodup_singleton _, fun id member other same => ?_⟩
    rw [List.map_singleton, List.mem_singleton] at same
    rintro rfl
    exact fresh (same ▸ member)
  closed other member dep depends := by
    rw [ids, List.map_append, List.mem_append]
    rcases List.mem_append.mp member with old | new
    · rcases amended.closed other old dep depends with inside | named
      · exact Or.inl (Or.inl inside)
      · exact Or.inr named
    · rw [List.mem_singleton.mp new] at depends
      exact Or.inr ⟨task, listed, depends⟩

theorem Amended.removeTask (amended : Amended plan executed operations tasks) {taskId : JsString}
    (untouched : taskId ∉ executed) :
    Amended plan executed operations
      ((tasks.filter fun task => task.id ≠ taskId).map (withoutDependency taskId)) := by
  have names := ids_map (tasks.filter fun task => task.id ≠ taskId) (id_withoutDependency taskId)
  refine ⟨?_, ?_, ?_⟩
  · intro task member done
    obtain ⟨kept, inside, same⟩ := amended.kept task member done
    refine ⟨withoutDependency taskId kept, List.mem_map_of_mem (List.mem_filter.mpr ⟨inside, ?_⟩),
      same.of_change ?_⟩
    · rw [decide_eq_true_eq, same.id]
      exact fun gone => untouched (gone ▸ done)
    · rw [withoutDependency]
      split_ifs <;> rfl
  · rw [names]
    exact amended.unique.sublist (List.filter_sublist.map _)
  · intro task member dep depends
    obtain ⟨old, inside, rfl⟩ := List.mem_map.mp member
    obtain ⟨depends, different⟩ := mem_withoutDependency.mp depends
    rw [names, mem_ids]
    rcases amended.closed old (List.mem_filter.mp inside).1 dep depends with known | named
    · obtain ⟨other, there, rfl⟩ := mem_ids.mp known
      exact Or.inl ⟨other, List.mem_filter.mpr ⟨there, by simpa using different⟩, rfl⟩
    · exact Or.inr named

theorem Amended.replaceTask (amended : Amended plan executed operations tasks)
    {taskId : JsString} {replacement : Task} (listed : replacement ∈ introducedTasks operations)
    (legal : ¬ Illegal executed tasks (.replaceTask taskId replacement)) :
    Amended plan executed operations (amendedTasks tasks (.replaceTask taskId replacement)) := by
  obtain ⟨present, untouched, fresh⟩ :
      taskId ∈ ids tasks ∧ taskId ∉ executed ∧
        ¬ (replacement.id ≠ taskId ∧ replacement.id ∈ ids tasks) := by
    simpa only [Illegal, not_or, not_not] using legal
  have stays : ∀ task ∈ tasks, task.id ∈ executed → ¬ task.id = taskId :=
    fun task _ done same => untouched (same ▸ done)
  show Amended plan executed operations
    (if replacement.id ≠ taskId then
      (replaceIn tasks taskId replacement).map (renameDependency taskId replacement.id)
    else replaceIn tasks taskId replacement)
  -- the dependencies of the tasks, before the replaced task is renamed in them
  have closed : ∀ task ∈ replaceIn tasks taskId replacement, ∀ dep ∈ task.dependencies,
      (dep ∈ ids (replaceIn tasks taskId replacement) ∨ dep = taskId) ∨
        ∃ introduced ∈ introducedTasks operations, dep ∈ introduced.dependencies := by
    intro task member dep depends
    obtain ⟨old, inside, rfl⟩ := List.mem_map.mp member
    split_ifs at depends with same
    · exact Or.inr ⟨replacement, listed, depends⟩
    · rcases amended.closed old inside dep depends with known | named
      · by_cases gone : dep = taskId
        · exact Or.inl (Or.inr gone)
        · exact Or.inl (Or.inl (mem_ids_replaceIn.mpr (Or.inr ⟨known, gone⟩)))
      · exact Or.inr named
  have unique := nodup_ids_replaceIn amended.unique fresh
  split_ifs with other
  · have names := ids_map (replaceIn tasks taskId replacement)
      (id_renameDependency taskId replacement.id)
    refine ⟨?_, names.symm ▸ unique, ?_⟩
    · rw [replaceIn, List.map_map]
      refine kept_map amended fun task member done => ?_
      rw [Function.comp_apply, if_neg (stays task member done), SameButDependencies,
        renameDependency]
      split_ifs <;> rfl
    · intro task member dep depends
      obtain ⟨old, inside, rfl⟩ := List.mem_map.mp member
      rw [names]
      rcases of_mem_renameDependency depends with rfl | ⟨depends, different⟩
      · exact Or.inl (mem_ids_replaceIn.mpr (Or.inl ⟨rfl, present⟩))
      · rcases closed old inside dep depends with (known | gone) | named
        · exact Or.inl known
        · exact absurd gone different
        · exact Or.inr named
  · refine ⟨?_, unique, ?_⟩
    · refine kept_map amended fun task member done => ?_
      rw [if_neg (stays task member done)]
      exact .refl task
    · intro task member dep depends
      rcases closed task member dep depends with (known | gone) | named
      · exact Or.inl known
      · exact Or.inl (mem_ids_replaceIn.mpr (Or.inl ⟨gone.trans (not_not.mp other).symm, present⟩))
      · exact Or.inr named

theorem Amended.addDependency (amended : Amended plan executed operations tasks)
    {taskId dependsOnTaskId : JsString} (present : dependsOnTaskId ∈ ids tasks) :
    Amended plan executed operations (amendedTasks tasks (.addDependency taskId dependsOnTaskId)) := by
  have names : ids (amendedTasks tasks (.addDependency taskId dependsOnTaskId)) = ids tasks :=
    ids_map _ fun task => by split_ifs <;> rfl
  refine ⟨kept_map amended fun task _ _ => ?_, names.symm ▸ amended.unique, ?_⟩
  · split_ifs <;> rfl
  · intro task member dep depends
    obtain ⟨old, inside, rfl⟩ := List.mem_map.mp member
    rw [names]
    split_ifs at depends with same
    · have collected : dep ∈ once [] (old.dependencies ++ [dependsOnTaskId]) := depends
      simp only [mem_once, List.not_mem_nil, false_or, List.mem_append, List.mem_singleton] at collected
      rcases collected with old | rfl
      · exact amended.closed _ inside dep old
      · exact Or.inl present
    · exact amended.closed old inside dep depends

theorem Amended.changeTarget (amended : Amended plan executed operations tasks)
    {taskId : JsString} {targets : TaskTargets} (untouched : taskId ∉ executed) :
    Amended plan executed operations (amendedTasks tasks (.changeTarget taskId targets)) := by
  have names : ids (amendedTasks tasks (.changeTarget taskId targets)) = ids tasks :=
    ids_map _ fun task => by split_ifs <;> rfl
  refine ⟨kept_map amended fun task _ done => ?_, names.symm ▸ amended.unique, ?_⟩
  · rw [if_neg fun same : task.id = taskId => untouched (same ▸ done)]
    exact .refl task
  · intro task member dep depends
    obtain ⟨old, inside, rfl⟩ := List.mem_map.mp member
    rw [names]
    split_ifs at depends <;> exact amended.closed old inside dep depends

/-- What an operation that is allowed keeps. -/
theorem Amended.step (amended : Amended plan executed operations tasks)
    (listed : operation ∈ operations) (legal : ¬ Illegal executed tasks operation) :
    Amended plan executed operations (amendedTasks tasks operation) := by
  cases operation with
  | addTask task => exact amended.addTask (List.mem_filterMap.mpr ⟨_, listed, rfl⟩) legal
  | removeTask taskId => exact amended.removeTask (not_or.mp legal).2
  | replaceTask taskId replacement =>
      exact amended.replaceTask (List.mem_filterMap.mpr ⟨_, listed, rfl⟩) legal
  | addDependency taskId dependsOnTaskId =>
      exact amended.addDependency (not_not.mp (not_or.mp (not_or.mp legal).2).1)
  | changeTarget taskId targets => exact amended.changeTarget (not_or.mp legal).2

end Step

/-! ## The whole amendment -/

theorem diagnostics_amendStep (executed : List JsString) (state : Amending)
    (operation : AmendmentOperation) :
    (amendStep executed operation state).diagnostics =
      state.diagnostics ++ (refusal executed state.tasks operation).toList := by
  rw [amendStep]
  cases refusal executed state.tasks operation with
  | none => exact (List.append_nil _).symm
  | some diagnostic => rfl

/-- Nothing is reported if and only if no operation is refused. -/
theorem silent_iff (executed : List JsString) (operations : List AmendmentOperation)
    (state : Amending) :
    (run (amendStep executed) operations state).diagnostics = [] ↔ state.diagnostics = [] ∧
      EveryStep (amendStep executed)
        (fun state operation => refusal executed state.tasks operation = none) operations state := by
  have logged := @forall_log_iff _ _ (amendStep executed) _ Amending.diagnostics
    (fun state operation => (refusal executed state.tasks operation).toList)
    (diagnostics_amendStep executed) (fun _ => False) operations state
  simp only [← List.eq_nil_iff_forall_not_mem, imp_false, Option.toList_eq_nil_iff] at logged
  exact logged

theorem amendStep_of_allowed {state : Amending}
    (allowed : refusal executed state.tasks operation = none) :
    (amendStep executed operation state).tasks = amendedTasks state.tasks operation := by
  rw [amendStep, allowed]

/-- The state before an operation of an amendment. -/
def amendingBefore (plan : Plan) (executed : List JsString) (before : List AmendmentOperation) :
    Amending :=
  run (amendStep executed) before ⟨plan.tasks, []⟩

/-- A plan is returned when no operation is refused and the dependencies have no cycle. -/
theorem applyPlanAmendment_some {plan amended : Plan} {operations : List AmendmentOperation}
    (applied : (applyPlanAmendment plan operations executed).plan = some amended) :
    amended = { plan with tasks := (amendingBefore plan executed operations).tasks } ∧
      EveryStep (amendStep executed)
        (fun state operation => refusal executed state.tasks operation = none) operations
        ⟨plan.tasks, []⟩ ∧
      ∀ id, ¬ OnCycle (dependencyEdges amended.tasks) id := by
  rw [applyPlanAmendment] at applied
  split_ifs at applied with silent
  cases cycle : (findCycle (graphFuel (amendingBefore plan executed operations).tasks)
      (ids (amendingBefore plan executed operations).tasks)
      (dependencyEdges (amendingBefore plan executed operations).tasks)).join with
  | some path =>
      rw [amendingBefore] at cycle
      simp only [cycle] at applied
      cases applied
  | none =>
      rw [amendingBefore] at cycle
      simp only [cycle] at applied
      cases applied
      exact ⟨rfl, ((silent_iff executed operations _).mp (not_not.mp silent)).2,
        acyclic_of_findCycle (fun _ _ => mem_ids_of_edge) cycle⟩

/-- The plans that an amendment starts from. -/
structure WellStructured (plan : Plan) : Prop where
  unique : (ids plan.tasks).Nodup
  resolved : ∀ task ∈ plan.tasks, ∀ dep ∈ task.dependencies, dep ∈ ids plan.tasks
  acyclic : ∀ id, ¬ OnCycle (dependencyEdges plan.tasks) id

/-- What an amendment preserves: the executed tasks but for their dependencies, and the
structure of the plan, up to dependencies that its own tasks list. -/
structure Preserves (plan : Plan) (executed : List JsString)
    (operations : List AmendmentOperation) (amended : Plan) : Prop where
  tasks : Amended plan executed operations amended.tasks
  acyclic : ∀ id, ¬ OnCycle (dependencyEdges amended.tasks) id

/-- A plan that is returned is preserved, and none is returned when an operation is illegal for
the tasks it acts on. -/
def HistoryPreserved (illegal : List Task → AmendmentOperation → Prop) (plan : Plan)
    (operations : List AmendmentOperation) (executed : List JsString) : Prop :=
  (∀ amended, (applyPlanAmendment plan operations executed).plan = some amended →
      Preserves plan executed operations amended) ∧
    ∀ before operation after, operations = before ++ operation :: after →
      illegal (amendingBefore plan executed before).tasks operation →
      (applyPlanAmendment plan operations executed).plan = none

theorem amended_start {plan : Plan} (structured : WellStructured plan)
    (operations : List AmendmentOperation) : Amended plan executed operations plan.tasks where
  kept task member _ := ⟨task, member, .refl task⟩
  unique := structured.unique
  closed task member dep depends := Or.inl (structured.resolved task member dep depends)

/-- Amendments keep the history and the structure of a plan. -/
theorem amendment_preserves {plan : Plan} (structured : WellStructured plan)
    (operations : List AmendmentOperation) (executed : List JsString) :
    HistoryPreserved (Illegal executed) plan operations executed := by
  constructor
  · intro amended applied
    obtain ⟨rfl, allowed, acyclic⟩ := applyPlanAmendment_some applied
    have listed : EveryStep (amendStep executed) (fun _ operation => operation ∈ operations)
        operations ⟨plan.tasks, []⟩ :=
      everyStep_of_forall (fun _ member => member) _
    have kept : Amended plan executed operations
        (run (amendStep executed) operations ⟨plan.tasks, []⟩).tasks := by
      refine @EveryStep.invariant _ _ _ _
        (fun state => Amended plan executed operations state.tasks) _ _
        (allowed.and listed) (amended_start structured operations) ?_
      intro state operation step amended
      rw [amendStep_of_allowed step.1]
      exact amended.step step.2 (not_illegal_of_refusal step.1)
    exact ⟨kept, acyclic⟩
  · rintro before operation after rfl illegal
    cases applied : (applyPlanAmendment plan (before ++ operation :: after) executed).plan with
    | none => rfl
    | some amended =>
        obtain ⟨-, allowed, -⟩ := applyPlanAmendment_some applied
        have here := ((everyStep_append before (operation :: after) _).mp allowed).2.1
        exact absurd illegal (not_illegal_of_refusal here)

/-! ## An amendment that closes a cycle and opens it again -/

def plainTask (id : JsString) (dependsOn : Option (List JsString)) : Task where
  id := id
  title := js "Do it."
  kind := .modify
  intent := js "Do it."
  dependsOn := dependsOn
  satisfies := none
  verifies := none
  targets := none
  risk := none

def plainPlan : Plan where
  id := js "plan"
  spec := ⟨js "spec", js "sha256:0"⟩
  tasks := [plainTask (js "TASK-1") none]

theorem plainPlan_structured : WellStructured plainPlan where
  unique := List.nodup_singleton _
  resolved task member dep depends := by
    rw [List.mem_singleton.mp member] at depends
    cases depends
  acyclic := acyclic_of_findCycle (fun _ _ => mem_ids_of_edge) (by decide +kernel)

/-- The executed task of a plan survives, whatever is added to the plan. -/
theorem amendment_preserves_plainPlan :
    HistoryPreserved (Illegal [js "TASK-1"]) plainPlan
      [.addTask (plainTask (js "TASK-2") (some [js "TASK-1"]))] [js "TASK-1"] :=
  amendment_preserves plainPlan_structured _ _

/-- The dependencies have a cycle after the operation. -/
def ClosesCycle (tasks : List Task) (operation : AmendmentOperation) : Prop :=
  ∃ id, OnCycle (dependencyEdges (amendedTasks tasks operation)) id

/-- Two tasks that depend on each other are added, and one of them is removed again. -/
def detour : List AmendmentOperation :=
  [.addTask (plainTask (js "TASK-2") (some [js "TASK-3"])),
    .addTask (plainTask (js "TASK-3") (some [js "TASK-2"])), .removeTask (js "TASK-3")]

/-- A plan is returned although an added task closed a cycle. -/
theorem closed_cycle_is_applied :
    ¬ ∀ plan operations executed, WellStructured plan →
      HistoryPreserved (fun tasks operation =>
        Illegal executed tasks operation ∨ ClosesCycle tasks operation) plan operations executed := by
  intro refused
  have none := (refused plainPlan detour [] plainPlan_structured).2
    [.addTask (plainTask (js "TASK-2") (some [js "TASK-3"]))]
    (.addTask (plainTask (js "TASK-3") (some [js "TASK-2"]))) [.removeTask (js "TASK-3")] rfl
    (Or.inr ⟨js "TASK-2", .tail (.single (b := js "TASK-3") ?_) ?_⟩)
  · have applied : (applyPlanAmendment plainPlan detour []).plan.isSome = true := by
      decide +kernel
    rw [none] at applied
    cases applied
  · rw [Follows]
    decide +kernel
  · rw [Follows]
    decide +kernel

end SpecAsCode.Core
