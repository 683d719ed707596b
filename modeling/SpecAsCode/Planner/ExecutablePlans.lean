import SpecAsCode.Core.AmendedPlans
import SpecAsCode.Core.ClosedPaths
import SpecAsCode.Core.NormalizePlan
import SpecAsCode.Runtime.ParallelFlights
import SpecAsCode.Runtime.WriteConflicts

/-!
# Executable plans

What a plan must be like for `validatePlan` to find nothing, and how little of the plan's text
this depends on.
-/

namespace SpecAsCode.Planner

open SpecAsCode.Js
open SpecAsCode.Core
open SpecAsCode.Lib
open SpecAsCode.Schema
open SpecAsCode.Compiler (PlanDocument SameSet SameTargets SameTask normalizePlan normalizeTask)
open SpecAsCode.Runtime (DependsOn Unordered mem_pairs ordered_iff writesOverlap_iff
  writesOverlap_comm)
open SpecAsCode.Runtime.Parallel (duplicateIds_eq_nil)

variable {plan : Plan} {ir : SpecIR} {isDirectory : Option (JsString → Bool)} {tasks : List Task}

/-! ## The specification of the checks -/

/-- A pattern below the root of the repository, or the pattern of all its paths. -/
def SafePattern (pattern : JsString) : Prop :=
  isSafeRelativePath (normalizeRelPath pattern) = true ∨ normalizeRelPath pattern = js "**"

/-- The property is met, or checked, by the work of some task. -/
def Addressed (tasks : List Task) (id : JsString) : Prop :=
  ∃ task ∈ tasks, id ∈ task.satisfies.getD [] ∨ id ∈ task.verifies.getD []

/-- A task verifies the property, or one of its criteria does so by itself. -/
def Verifiable (tasks : List Task) (property : DesiredProperty) : Prop :=
  (∃ task ∈ tasks, property.id ∈ task.verifies.getD []) ∨
    ∃ criterion ∈ property.acceptance, isDeterministicCriterion criterion = true

/-- The tasks of the plan can be executed for the specification in the repository. -/
structure Executable (plan : Plan) (ir : SpecIR) (isDirectory : Option (JsString → Bool)) :
    Prop where
  unique : (ids plan.tasks).Nodup
  resolved : ∀ task ∈ plan.tasks, ∀ dep ∈ task.dependencies, dep ∈ ids plan.tasks
  acyclic : ∀ task ∈ plan.tasks, ¬ DependsOn plan.tasks task task
  known : ∀ task ∈ plan.tasks, ∀ ref ∈ task.satisfies.getD [] ++ task.verifies.getD [],
    ref ∈ ir.properties.map DesiredProperty.id
  covered : ∀ property ∈ ir.properties, property.priority = .must →
    Addressed plan.tasks property.id ∧ Verifiable plan.tasks property
  separated : ∀ first second, Unordered plan first second →
    writesOverlap first.writes second.writes = false
  specified : plan.spec.id = ir.specId ∧ plan.spec.digest = ir.digest
  readOnly : ∀ task ∈ plan.tasks, task.kind = .inspect → task.writes = []
  safe : ∀ task ∈ plan.tasks, ∀ pattern ∈ task.reads ++ task.writes, SafePattern pattern
  files : ∀ directory, isDirectory = some directory → ∀ task ∈ plan.tasks,
    ∀ raw ∈ task.writes, hasGlobCharacter raw = false → directory raw = false

/-! ## One check at a time -/

theorem duplicateIds_eq_nil_iff {known : List JsString} :
    duplicateIds known tasks = [] ↔ (ids tasks).Nodup ∧ ∀ task ∈ tasks, task.id ∉ known := by
  constructor
  · exact duplicateIds_eq_nil
  · intro distinct
    induction tasks generalizing known with
    | nil => rfl
    | cons task rest inductionHypothesis =>
        obtain ⟨unique, fresh⟩ := distinct
        have apart := List.nodup_cons.mp unique
        rw [duplicateIds, if_neg (fresh task List.mem_cons_self), List.nil_append]
        apply inductionHypothesis
        refine ⟨apart.2, fun other member repeated => ?_⟩
        rcases List.mem_append.mp repeated with old | new
        · exact fresh other (List.mem_cons_of_mem _ member) old
        · have same : other.id = task.id := List.mem_singleton.mp new
          apply apart.1
          rw [← same]
          exact List.mem_map_of_mem member

theorem unknownDependencies_eq_nil_iff :
    unknownDependencies tasks = [] ↔
      ∀ task ∈ tasks, ∀ dep ∈ task.dependencies, dep ∈ ids tasks := by
  rw [unknownDependencies, List.flatMap_eq_nil_iff]
  refine forall₂_congr fun task _ => ?_
  rw [List.map_eq_nil_iff, List.filter_eq_nil_iff]
  refine forall₂_congr fun dep _ => ?_
  rw [Option.isNone_iff_eq_none, taskById_eq_none, not_not]

/-- The search for a cycle finds one unless the dependencies of all tasks are acyclic. -/
theorem dependencyCycle_eq_nil_iff :
    dependencyCycle tasks = [] ↔ ∀ task ∈ tasks, ¬ DependsOn tasks task task := by
  have supported : ∀ node, dependencyEdges tasks node ≠ [] → node ∈ ids tasks := by
    intro node busy
    obtain ⟨next, edge⟩ := List.exists_mem_of_ne_nil _ busy
    exact mem_ids_of_edge edge
  obtain ⟨result, ended⟩ := findCycle_ends supported (ids_length_lt tasks) (ids tasks)
  have exact_search := findCycle_eq_none_iff ended
  have silent : dependencyCycle tasks = [] ↔ result = none := by
    rw [dependencyCycle, ← ids, ended, Option.join_some]
    cases result with
    | none => exact iff_of_true rfl rfl
    | some cycle => exact iff_of_false (List.cons_ne_nil _ _) (Option.some_ne_none _)
  rw [silent, exact_search]
  constructor
  · intro acyclic task member
    exact acyclic task.id ⟨task.id, List.mem_map_of_mem member, Relation.ReflTransGen.refl⟩
  · intro acyclic node _ cycle
    have inside : node ∈ ids tasks := mem_of_onCycle (fun _ _ => mem_ids_of_edge) cycle
    obtain ⟨task, member, rfl⟩ := mem_ids.mp inside
    exact acyclic task member cycle

theorem unknownProperties_eq_nil_iff {properties : List DesiredProperty} :
    unknownProperties tasks properties = [] ↔
      ∀ task ∈ tasks, ∀ ref ∈ task.satisfies.getD [] ++ task.verifies.getD [],
        ref ∈ properties.map DesiredProperty.id := by
  rw [unknownProperties, List.flatMap_eq_nil_iff]
  refine forall₂_congr fun task _ => ?_
  rw [List.map_eq_nil_iff, List.filter_eq_nil_iff]
  refine forall₂_congr fun ref _ => ?_
  rw [decide_eq_true_iff, not_not]

theorem filter_isEmpty_eq_false_iff {α : Type} {list : List α} {keep : α → Bool} :
    (list.filter keep).isEmpty = false ↔ ∃ item ∈ list, keep item = true := by
  rw [← Bool.not_eq_true, List.isEmpty_iff, List.filter_eq_nil_iff]
  simp

theorem uncoveredProperties_eq_nil_iff {properties : List DesiredProperty} :
    uncoveredProperties tasks properties = [] ↔
      ∀ property ∈ properties, property.priority = .must →
        Addressed tasks property.id ∧ Verifiable tasks property := by
  rw [uncoveredProperties, List.flatMap_eq_nil_iff]
  simp only [List.mem_filter, beq_iff_eq, and_imp]
  refine forall₃_congr fun property _ _ => ?_
  rw [List.append_eq_nil_iff]
  refine and_congr ?_ ?_
  · rw [ite_eq_right_iff, Addressed]
    simp only [List.cons_ne_nil, imp_false, Bool.and_eq_true, not_and_or, Bool.not_eq_true,
      filter_isEmpty_eq_false_iff, List.contains_iff_mem]
    exact ⟨fun some => some.elim (fun ⟨task, member, named⟩ => ⟨task, member, .inl named⟩)
        fun ⟨task, member, named⟩ => ⟨task, member, .inr named⟩,
      fun ⟨task, member, named⟩ => named.imp (fun named => ⟨task, member, named⟩)
        fun named => ⟨task, member, named⟩⟩
  · rw [ite_eq_right_iff, Verifiable]
    simp only [List.cons_ne_nil, imp_false, Bool.and_eq_true, not_and_or, Bool.not_eq_true,
      filter_isEmpty_eq_false_iff, List.contains_iff_mem, Bool.not_eq_eq_eq_not, Bool.not_true,
      Bool.not_eq_false, List.any_eq_true]

/-! ## Overlapping write targets -/

theorem mem_of_mem_pairs {α : Type} {list : List α} {pair : α × α} (member : pair ∈ pairs list) :
    pair.1 ∈ list ∧ pair.2 ∈ list := by
  induction list with
  | nil => cases member
  | cons head rest inductionHypothesis =>
      rw [pairs, List.mem_append] at member
      rcases member with here | later
      · obtain ⟨second, inRest, rfl⟩ := List.mem_map.mp here
        exact ⟨List.mem_cons_self, List.mem_cons_of_mem _ inRest⟩
      · have both := inductionHypothesis later
        exact ⟨List.mem_cons_of_mem _ both.1, List.mem_cons_of_mem _ both.2⟩

theorem ne_of_mem_pairs {α : Type} {list : List α} (distinct : list.Nodup) {pair : α × α}
    (member : pair ∈ pairs list) : pair.1 ≠ pair.2 := by
  induction list with
  | nil => cases member
  | cons head rest inductionHypothesis =>
      have apart := List.nodup_cons.mp distinct
      rw [pairs, List.mem_append] at member
      rcases member with here | later
      · obtain ⟨second, inRest, rfl⟩ := List.mem_map.mp here
        intro same
        have equal : head = second := same
        exact apart.1 (equal ▸ inRest)
      · exact inductionHypothesis apart.2 later

theorem writeConflicts_eq_nil_iff (unique : (ids plan.tasks).Nodup) :
    writeConflicts plan.tasks = [] ↔ ∀ first second, Unordered plan first second →
      writesOverlap first.writes second.writes = false := by
  rw [writeConflicts, List.map_eq_nil_iff, List.filter_eq_nil_iff]
  constructor
  · intro clean first second unordered
    obtain ⟨member, other, different, forwards, backwards⟩ := unordered
    by_contra overlap
    rw [Bool.not_eq_false] at overlap
    obtain ⟨pattern, writes, target, targets, -⟩ := writesOverlap_iff.mp overlap
    have apart : ordered plan.tasks first second = false := by
      rw [← Bool.not_eq_true, ordered_iff]
      exact not_or.mpr ⟨backwards, forwards⟩
    have apartBack : ordered plan.tasks second first = false := by
      rwa [ordered, Bool.or_comm]
    have writer : first ∈ plan.tasks.filter fun task => task.writes ≠ [] :=
      List.mem_filter.mpr ⟨member, decide_eq_true (List.ne_nil_of_mem writes)⟩
    have otherWriter : second ∈ plan.tasks.filter fun task => task.writes ≠ [] :=
      List.mem_filter.mpr ⟨other, decide_eq_true (List.ne_nil_of_mem targets)⟩
    rcases mem_pairs writer otherWriter different with found | found
    · exact clean _ found (by rw [conflicting, overlap, apart]; rfl)
    · exact clean _ found (by rw [conflicting, writesOverlap_comm, overlap, apartBack]; rfl)
  · intro separated pair found conflict
    have distinct : (plan.tasks.filter fun task => task.writes ≠ []).Nodup :=
      (unique.of_map).filter _
    have both := mem_of_mem_pairs found
    rw [conflicting, Bool.and_eq_true, Bool.not_eq_true', ← Bool.not_eq_true, ordered_iff,
      not_or] at conflict
    have unordered : Unordered plan pair.1 pair.2 :=
      ⟨List.mem_of_mem_filter both.1, List.mem_of_mem_filter both.2,
        ne_of_mem_pairs distinct found, conflict.2.2, conflict.2.1⟩
    have silent := separated pair.1 pair.2 unordered
    rw [conflict.1] at silent
    cases silent

/-! ## All checks -/

theorem specMismatches_eq_nil_iff :
    specMismatches plan ir = [] ↔ plan.spec.id = ir.specId ∧ plan.spec.digest = ir.digest := by
  rw [specMismatches, List.append_eq_nil_iff]
  refine and_congr ?_ ?_
  · rw [ite_eq_right_iff]
    simp only [List.cons_ne_nil, imp_false, ne_eq, not_not]
  · rw [ite_eq_right_iff]
    simp only [List.cons_ne_nil, imp_false, ne_eq, not_not]

theorem writingInspections_eq_nil_iff :
    writingInspections tasks = [] ↔ ∀ task ∈ tasks, task.kind = .inspect → task.writes = [] := by
  rw [writingInspections, List.map_eq_nil_iff, List.filter_eq_nil_iff]
  refine forall₂_congr fun task _ => ?_
  rw [Bool.and_eq_true, beq_iff_eq, decide_eq_true_iff, not_and, not_not]

theorem unsafeTargets_eq_nil_iff :
    unsafeTargets tasks = [] ↔
      ∀ task ∈ tasks, ∀ pattern ∈ task.reads ++ task.writes, SafePattern pattern := by
  rw [unsafeTargets, List.flatMap_eq_nil_iff]
  refine forall₂_congr fun task _ => ?_
  rw [List.map_eq_nil_iff, List.filter_eq_nil_iff]
  refine forall₂_congr fun pattern _ => ?_
  rw [SafePattern, Bool.and_eq_true, Bool.not_eq_true', bne_iff_ne, not_and_or, not_not,
    Bool.not_eq_false]

theorem bareDirectoryTargets_eq_nil_iff :
    bareDirectoryTargets tasks isDirectory = [] ↔
      ∀ directory, isDirectory = some directory → ∀ task ∈ tasks, ∀ raw ∈ task.writes,
        hasGlobCharacter raw = false → directory raw = false := by
  cases isDirectory with
  | none => exact iff_of_true rfl fun directory absent => by cases absent
  | some directory =>
      rw [bareDirectoryTargets, List.flatMap_eq_nil_iff]
      simp only [Option.some.injEq, forall_eq']
      refine forall₂_congr fun task _ => ?_
      rw [List.map_eq_nil_iff, List.filter_eq_nil_iff]
      refine forall₂_congr fun raw _ => ?_
      rw [Bool.and_eq_true, Bool.not_eq_true', not_and, Bool.not_eq_true]

theorem validatePlan_eq_nil_iff :
    validatePlan plan ir isDirectory = [] ↔ Executable plan ir isDirectory := by
  simp only [validatePlan, List.append_eq_nil_iff, and_assoc]
  rw [bareDirectoryTargets_eq_nil_iff, duplicateIds_eq_nil_iff, unknownDependencies_eq_nil_iff,
    dependencyCycle_eq_nil_iff, unknownProperties_eq_nil_iff, uncoveredProperties_eq_nil_iff,
    specMismatches_eq_nil_iff, writingInspections_eq_nil_iff, unsafeTargets_eq_nil_iff]
  constructor
  · rintro ⟨files, ⟨unique, -⟩, resolved, acyclic, known, covered, conflicts, specified, readOnly,
      safe⟩
    have separated := (writeConflicts_eq_nil_iff unique).mp conflicts
    exact ⟨unique, resolved, acyclic, known, covered, separated, specified, readOnly, safe, files⟩
  · intro executable
    exact ⟨executable.files, ⟨executable.unique, fun _ _ => List.not_mem_nil⟩, executable.resolved,
      executable.acyclic, executable.known, executable.covered,
      (writeConflicts_eq_nil_iff executable.unique).mpr executable.separated, executable.specified,
      executable.readOnly, executable.safe⟩

/-! ## The severity of findings -/

def AllErrors (diagnostics : List Diagnostic) : Prop :=
  ∀ diagnostic ∈ diagnostics, diagnostic.severity = .error

theorem AllErrors.append {first second : List Diagnostic} (one : AllErrors first)
    (other : AllErrors second) : AllErrors (first ++ second) :=
  List.forall_mem_append.mpr ⟨one, other⟩

theorem allErrors_flatMap {α : Type} {list : List α} {report : α → List Diagnostic}
    (each : ∀ item, AllErrors (report item)) : AllErrors (list.flatMap report) := by
  intro diagnostic found
  obtain ⟨item, -, inside⟩ := List.mem_flatMap.mp found
  exact each item diagnostic inside

theorem allErrors_map {α : Type} {list : List α} {report : α → Diagnostic}
    (each : ∀ item, (report item).severity = .error) : AllErrors (list.map report) := by
  intro diagnostic found
  obtain ⟨item, -, rfl⟩ := List.mem_map.mp found
  exact each item

theorem allErrors_ite {condition : Prop} [Decidable condition] {diagnostic : Diagnostic}
    (severe : diagnostic.severity = .error) :
    AllErrors (if condition then [diagnostic] else []) := by
  intro other found
  split_ifs at found with reported
  · rw [List.mem_singleton.mp found]
    exact severe
  · cases found

theorem allErrors_duplicateIds (known : List JsString) (tasks : List Task) :
    AllErrors (duplicateIds known tasks) := by
  induction tasks generalizing known with
  | nil => exact List.forall_mem_nil _
  | cons task rest inductionHypothesis =>
      exact (allErrors_ite rfl).append (inductionHypothesis (known ++ [task.id]))

theorem allErrors_dependencyCycle (tasks : List Task) : AllErrors (dependencyCycle tasks) := by
  intro diagnostic found
  rw [dependencyCycle] at found
  split at found
  · cases found
  · rw [List.mem_singleton.mp found]
    rfl

theorem allErrors_bareDirectoryTargets (tasks : List Task)
    (isDirectory : Option (JsString → Bool)) :
    AllErrors (bareDirectoryTargets tasks isDirectory) := by
  cases isDirectory with
  | none => exact List.forall_mem_nil _
  | some directory => exact allErrors_flatMap fun _ => allErrors_map fun _ => rfl

theorem allErrors_validatePlan (plan : Plan) (ir : SpecIR)
    (isDirectory : Option (JsString → Bool)) : AllErrors (validatePlan plan ir isDirectory) := by
  have dependencies : AllErrors (unknownDependencies plan.tasks) :=
    allErrors_flatMap fun _ => allErrors_map fun _ => rfl
  have references : AllErrors (unknownProperties plan.tasks ir.properties) :=
    allErrors_flatMap fun _ => allErrors_map fun _ => rfl
  have coverage : AllErrors (uncoveredProperties plan.tasks ir.properties) :=
    allErrors_flatMap fun _ => (allErrors_ite rfl).append (allErrors_ite rfl)
  have conflicts : AllErrors (writeConflicts plan.tasks) := allErrors_map fun _ => rfl
  have mismatches : AllErrors (specMismatches plan ir) :=
    (allErrors_ite rfl).append (allErrors_ite rfl)
  have inspections : AllErrors (writingInspections plan.tasks) := allErrors_map fun _ => rfl
  have targets : AllErrors (unsafeTargets plan.tasks) :=
    allErrors_flatMap fun _ => allErrors_map fun _ => rfl
  exact ((((((((((allErrors_bareDirectoryTargets _ _).append (allErrors_duplicateIds _ _)).append
    dependencies).append (allErrors_dependencyCycle _)).append references).append coverage).append
    conflicts).append mismatches).append inspections).append targets)

theorem hasErrors_of_allErrors {diagnostics : List Diagnostic} (severe : AllErrors diagnostics) :
    hasErrors diagnostics = false ↔ diagnostics = [] := by
  constructor
  · intro silent
    rw [hasErrors, List.any_eq_false] at silent
    by_contra reported
    obtain ⟨diagnostic, found⟩ := List.exists_mem_of_ne_nil _ reported
    exact silent diagnostic found (by rw [severe diagnostic found]; rfl)
  · rintro rfl
    rfl

theorem planAccepted_iff :
    planAccepted plan ir isDirectory = true ↔ Executable plan ir isDirectory := by
  rw [planAccepted, Bool.not_eq_true', hasErrors_of_allErrors (allErrors_validatePlan plan ir _),
    validatePlan_eq_nil_iff]

/-! ## Plans that say the same -/

theorem sameSet_getD {first second : Option (List JsString)}
    (same : Option.Rel SameSet first second) : SameSet (first.getD []) (second.getD []) := by
  cases same with
  | some same => exact same
  | none => exact .refl []

section SameTask

variable {first second : Task}

theorem sameSet_dependencies (same : SameTask first second) :
    SameSet first.dependencies second.dependencies :=
  sameSet_getD same.dependsOn

/-- A list of the targets, when there are any. -/
theorem sameSet_targets {list : TaskTargets → Option (List JsString)}
    (listed : ∀ one other, SameTargets one other → Option.Rel SameSet (list one) (list other))
    {one other : Option TaskTargets} (same : Option.Rel SameTargets one other) :
    SameSet ((one.bind list).getD []) ((other.bind list).getD []) := by
  cases same with
  | some same => exact sameSet_getD (listed _ _ same)
  | none => exact .refl []

theorem sameSet_writes (same : SameTask first second) : SameSet first.writes second.writes :=
  sameSet_targets (fun _ _ => SameTargets.write) same.targets

theorem sameSet_reads (same : SameTask first second) : SameSet first.reads second.reads :=
  sameSet_targets (fun _ _ => SameTargets.read) same.targets

theorem sameSet_symm {texts others : List JsString} (same : SameSet texts others) :
    SameSet others texts :=
  fun text => (same text).symm

theorem rel_symm {α : Type} {Same : α → α → Prop}
    (symm : ∀ one other, Same one other → Same other one)
    {one other : Option α} (same : Option.Rel Same one other) : Option.Rel Same other one := by
  cases same with
  | some same => exact .some (symm _ _ same)
  | none => exact .none

theorem sameTask_symm (same : SameTask first second) : SameTask second first where
  id := same.id.symm
  title := same.title.symm
  kind := same.kind.symm
  intent := same.intent.symm
  dependsOn := rel_symm (fun _ _ => sameSet_symm) same.dependsOn
  satisfies := rel_symm (fun _ _ => sameSet_symm) same.satisfies
  verifies := rel_symm (fun _ _ => sameSet_symm) same.verifies
  targets := rel_symm (fun _ _ same => ⟨rel_symm (fun _ _ => sameSet_symm) same.read,
    rel_symm (fun _ _ => sameSet_symm) same.write⟩) same.targets
  risk := same.risk.symm

theorem writesOverlap_congr {a b c d : List JsString} (left : SameSet a b) (right : SameSet c d)
    (apart : writesOverlap a c = false) : writesOverlap b d = false := by
  rw [← Bool.not_eq_true, writesOverlap_iff] at apart ⊢
  rintro ⟨one, member, other, among, overlap⟩
  exact apart ⟨one, (left one).mpr member, other, (right other).mpr among, overlap⟩

end SameTask

/-- The tasks of the two lists correspond to each other, whatever their order. -/
structure Agree (first second : List Task) : Prop where
  names : (ids first).Perm (ids second)
  forwards : ∀ task ∈ first, ∃ other ∈ second, SameTask task other
  backwards : ∀ other ∈ second, ∃ task ∈ first, SameTask task other

theorem Agree.symm {first second : List Task} (agree : Agree first second) :
    Agree second first where
  names := agree.names.symm
  forwards task member := by
    obtain ⟨other, among, same⟩ := agree.backwards task member
    exact ⟨other, among, sameTask_symm same⟩
  backwards other member := by
    obtain ⟨task, among, same⟩ := agree.forwards other member
    exact ⟨task, among, sameTask_symm same⟩

theorem agree_of_forall₂ {first second : List Task} (each : List.Forall₂ SameTask first second) :
    Agree first second := by
  induction each with
  | nil => exact ⟨.refl [], List.forall_mem_nil _, List.forall_mem_nil _⟩
  | @cons task other rest others here _ inductionHypothesis =>
      obtain ⟨names, forwards, backwards⟩ := inductionHypothesis
      refine ⟨?_, List.forall_mem_cons.mpr ⟨⟨other, List.mem_cons_self, here⟩, ?_⟩,
        List.forall_mem_cons.mpr ⟨⟨task, List.mem_cons_self, here⟩, ?_⟩⟩
      · rw [ids, ids, List.map_cons, List.map_cons, here.id]
        exact names.cons other.id
      · intro later member
        obtain ⟨found, among, same⟩ := forwards later member
        exact ⟨found, List.mem_cons_of_mem _ among, same⟩
      · intro later member
        obtain ⟨found, among, same⟩ := backwards later member
        exact ⟨found, List.mem_cons_of_mem _ among, same⟩

/-- The plans differ in the order of the tasks, and in the order and the repetitions of what
their lists name. -/
structure SamePlan (first second : Plan) : Prop where
  spec : first.spec = second.spec
  tasks : ∃ arranged, first.tasks.Perm arranged ∧ List.Forall₂ SameTask arranged second.tasks

theorem SamePlan.agree {first second : Plan} (same : SamePlan first second) :
    Agree first.tasks second.tasks := by
  obtain ⟨arranged, perm, each⟩ := same.tasks
  have agree := agree_of_forall₂ each
  refine ⟨(perm.map Task.id).trans agree.names, fun task member => ?_, fun other member => ?_⟩
  · exact agree.forwards task (perm.mem_iff.mp member)
  · obtain ⟨task, among, same⟩ := agree.backwards other member
    exact ⟨task, perm.mem_iff.mpr among, same⟩

/-! ## Executability depends on what the plan says -/

theorem of_taskById {id : JsString} {task : Task} (found : taskById tasks id = some task) :
    task ∈ tasks ∧ task.id = id := by
  rw [taskById] at found
  have same := List.find?_some found
  exact ⟨List.mem_of_find?_eq_some found, of_decide_eq_true same⟩

/-- With distinct identifiers, the edges are the dependencies of the tasks. -/
theorem mem_dependencyEdges (unique : (ids tasks).Nodup) {id dep : JsString} :
    dep ∈ dependencyEdges tasks id ↔ ∃ task ∈ tasks, task.id = id ∧ dep ∈ task.dependencies := by
  constructor
  · intro edge
    cases found : taskById tasks id with
    | none =>
        rw [dependencyEdges, found] at edge
        cases edge
    | some task =>
        rw [dependencyEdges, found] at edge
        have known := of_taskById found
        exact ⟨task, known.1, known.2, edge⟩
  · rintro ⟨task, member, rfl, depends⟩
    cases found : taskById tasks task.id with
    | none => exact absurd (mem_ids.mpr ⟨task, member, rfl⟩) (taskById_eq_none.mp found)
    | some other =>
        have known := of_taskById found
        have equal : other = task := List.inj_on_of_nodup_map unique known.1 member known.2
        rw [dependencyEdges, found, equal]
        exact depends

section Agree

variable {first second : List Task}

theorem Agree.edges (agree : Agree first second) (unique : (ids first).Nodup) {id dep : JsString}
    (edge : dep ∈ dependencyEdges first id) : dep ∈ dependencyEdges second id := by
  obtain ⟨task, member, rfl, depends⟩ := (mem_dependencyEdges unique).mp edge
  obtain ⟨other, among, same⟩ := agree.forwards task member
  apply (mem_dependencyEdges (agree.names.nodup_iff.mp unique)).mpr
  exact ⟨other, among, same.id.symm, (sameSet_dependencies same dep).mp depends⟩

theorem Agree.dependsOn (agree : Agree first second) (unique : (ids first).Nodup)
    {task target other otherTarget : Task} (same : SameTask task other)
    (sameTarget : SameTask target otherTarget) (depends : DependsOn first task target) :
    DependsOn second other otherTarget := by
  rw [Runtime.DependsOn, ← same.id, ← sameTarget.id]
  have closes : Relation.TransGen (Edge (dependencyEdges first)) task.id target.id := depends
  exact closes.lift id fun _ _ edge => agree.edges unique edge

theorem Agree.names_of (agree : Agree first second)
    {list : Task → List JsString}
    (listed : ∀ task other, SameTask task other → SameSet (list task) (list other))
    {id : JsString} (some : ∃ task ∈ first, id ∈ list task) : ∃ task ∈ second, id ∈ list task := by
  obtain ⟨task, member, named⟩ := some
  obtain ⟨other, among, same⟩ := agree.forwards task member
  exact ⟨other, among, (listed task other same id).mp named⟩

end Agree

theorem Executable.agree {first second : Plan} (agree : Agree first.tasks second.tasks)
    (spec : first.spec = second.spec) (executable : Executable first ir isDirectory) :
    Executable second ir isDirectory := by
  have unique := executable.unique
  have unique' : (ids second.tasks).Nodup := agree.names.nodup_iff.mp unique
  have verifies : ∀ task other, SameTask task other →
      SameSet (task.verifies.getD []) (other.verifies.getD []) :=
    fun _ _ same => sameSet_getD same.verifies
  have satisfies : ∀ task other, SameTask task other →
      SameSet (task.satisfies.getD []) (other.satisfies.getD []) :=
    fun _ _ same => sameSet_getD same.satisfies
  constructor
  case unique => exact unique'
  case resolved =>
    intro other among dep depends
    obtain ⟨task, member, same⟩ := agree.backwards other among
    apply agree.names.mem_iff.mp
    exact executable.resolved task member dep ((sameSet_dependencies same dep).mpr depends)
  case acyclic =>
    intro other among cycle
    obtain ⟨task, member, same⟩ := agree.backwards other among
    have back := sameTask_symm same
    exact executable.acyclic task member (agree.symm.dependsOn unique' back back cycle)
  case known =>
    intro other among ref named
    obtain ⟨task, member, same⟩ := agree.backwards other among
    apply executable.known task member
    rw [List.mem_append] at named ⊢
    exact named.imp (satisfies task other same ref).mpr (verifies task other same ref).mpr
  case covered =>
    intro property listed must
    obtain ⟨⟨task, member, named⟩, verifiable⟩ := executable.covered property listed must
    constructor
    · obtain ⟨other, among, same⟩ := agree.forwards task member
      have kept := named.imp (satisfies task other same _).mp (verifies task other same _).mp
      exact ⟨other, among, kept⟩
    · exact verifiable.imp_left (agree.names_of verifies)
  case separated =>
    rintro one other ⟨among, otherAmong, different, forwards, backwards⟩
    obtain ⟨task, member, same⟩ := agree.backwards one among
    obtain ⟨target, targetMember, sameTarget⟩ := agree.backwards other otherAmong
    apply writesOverlap_congr (sameSet_writes same) (sameSet_writes sameTarget)
    apply executable.separated
    refine ⟨member, targetMember, fun equal => different ?_,
      fun depends => forwards (agree.dependsOn unique same sameTarget depends),
      fun depends => backwards (agree.dependsOn unique sameTarget same depends)⟩
    apply List.inj_on_of_nodup_map unique' among otherAmong
    rw [← same.id, ← sameTarget.id, equal]
  case specified =>
    rw [← spec]
    exact executable.specified
  case readOnly =>
    intro other among inspects
    obtain ⟨task, member, same⟩ := agree.backwards other among
    have nothing := executable.readOnly task member (same.kind.trans inspects)
    apply List.eq_nil_iff_forall_not_mem.mpr
    intro pattern writes
    have kept := (sameSet_writes same pattern).mpr writes
    rw [nothing] at kept
    cases kept
  case safe =>
    intro other among pattern listed
    obtain ⟨task, member, same⟩ := agree.backwards other among
    apply executable.safe task member
    rw [List.mem_append] at listed ⊢
    exact listed.imp (sameSet_reads same pattern).mpr (sameSet_writes same pattern).mpr
  case files =>
    intro directory given other among raw writes
    obtain ⟨task, member, same⟩ := agree.backwards other among
    exact executable.files directory given task member raw ((sameSet_writes same raw).mpr writes)

theorem planAccepted_of_samePlan {first second : Plan} (same : SamePlan first second) :
    planAccepted first ir isDirectory = planAccepted second ir isDirectory := by
  rw [Bool.eq_iff_iff, planAccepted_iff, planAccepted_iff]
  constructor
  · exact Executable.agree same.agree same.spec
  · exact Executable.agree same.agree.symm same.spec.symm

theorem samePlan_normalizePlan (document : PlanDocument) :
    SamePlan document.plan (normalizePlan document).plan := by
  refine ⟨rfl, document.tasks, .refl _, ?_⟩
  have each : List.Forall₂ SameTask document.tasks (document.tasks.map normalizeTask) := by
    rw [List.forall₂_map_right_iff, List.forall₂_same]
    intro task _
    apply (Compiler.normalizeTask_eq_iff task (normalizeTask task)).mp
    exact (Compiler.normalizeTask_normalizeTask task).symm
  exact each

/-! ## Results -/

/-- A plan is used exactly when it is executable, and exactly then nothing is reported. -/
theorem validation_exact (plan : Plan) (ir : SpecIR) (isDirectory : Option (JsString → Bool)) :
    (planAccepted plan ir isDirectory = true ↔ Executable plan ir isDirectory) ∧
      (validatePlan plan ir isDirectory = [] ↔ Executable plan ir isDirectory) :=
  ⟨planAccepted_iff, validatePlan_eq_nil_iff⟩

/-- Neither the order of the tasks nor the order and the repetitions in their lists decide
whether a plan is used, and normalizing a plan does not change it either. -/
theorem acceptance_of_same_plan {first second : PlanDocument}
    (same : SamePlan first.plan second.plan) (ir : SpecIR)
    (isDirectory : Option (JsString → Bool)) :
    planAccepted first.plan ir isDirectory = planAccepted second.plan ir isDirectory ∧
      planAccepted (normalizePlan first).plan ir isDirectory =
        planAccepted second.plan ir isDirectory := by
  have equal : planAccepted first.plan ir isDirectory = planAccepted second.plan ir isDirectory :=
    planAccepted_of_samePlan same
  refine ⟨equal, ?_⟩
  rw [← planAccepted_of_samePlan (samePlan_normalizePlan first)]
  exact equal

/-- A task that depends on others. -/
def follower (id : JsString) (dependsOn : List JsString) : Task :=
  { id, title := id, kind := .modify, intent := id, dependsOn := some dependsOn, satisfies := none,
    verifies := none, targets := none, risk := none }

def documentOf (tasks : List Task) : PlanDocument where
  metadata := { id := js "plan", title := none, createdAt := js "now", generatedBy := none }
  spec := { id := js "spec", digest := js "digest" }
  repository := { revision := js "r", snapshotDigest := js "s" }
  tasks := tasks
  assumptions := none
  followups := none

/-- A dependency that is listed twice, of a task that stands first. -/
theorem acceptance_of_same_plan_swapped :
    planAccepted (documentOf [follower (js "b") [js "a", js "a"], follower (js "a") []]).plan
        Runtime.emptySpec none =
      planAccepted (documentOf [follower (js "a") [], follower (js "b") [js "a"]]).plan
        Runtime.emptySpec none := by
  have repeated : SameSet [js "a", js "a"] [js "a"] := by
    intro text
    rw [List.mem_cons, or_iff_right_of_imp List.mem_singleton.mpr]
  have nothing : SameTask (follower (js "a") []) (follower (js "a") []) :=
    ⟨rfl, rfl, rfl, rfl, .some (.refl []), .none, .none, .none, rfl⟩
  have twice : SameTask (follower (js "b") [js "a", js "a"]) (follower (js "b") [js "a"]) :=
    ⟨rfl, rfl, rfl, rfl, .some repeated, .none, .none, .none, rfl⟩
  have same : SamePlan
      (documentOf [follower (js "b") [js "a", js "a"], follower (js "a") []]).plan
      (documentOf [follower (js "a") [], follower (js "b") [js "a"]]).plan :=
    ⟨rfl, _, .swap _ _ [], .cons nothing (.cons twice .nil)⟩
  exact (acceptance_of_same_plan same Runtime.emptySpec none).1

end SpecAsCode.Planner
