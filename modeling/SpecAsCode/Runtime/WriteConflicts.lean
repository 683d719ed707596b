import SpecAsCode.Core.GlobOverlap
import SpecAsCode.Core.ValidatePlan
import SpecAsCode.Schema.State
import Mathlib.Algebra.Order.BigOperators.Group.List

/-!
# Write conflicts

Overlapping write targets in validated plans and between the tasks the parallel driver has
in flight.
-/

namespace SpecAsCode.Runtime

open SpecAsCode.Js
open SpecAsCode.Core
open SpecAsCode.Schema

/-! ## Validated plans -/

theorem patternsOverlap_comm (a b : JsString) : patternsOverlap a b = patternsOverlap b a := by
  unfold patternsOverlap
  by_cases same : normalizeRelPath a = normalizeRelPath b
  · rw [if_pos same, if_pos same.symm]
  · rw [if_neg same, if_neg (Ne.symm same)]
    by_cases empty : literalPrefix a = [] ∨ literalPrefix b = []
    · rw [if_pos empty, if_pos empty.symm]
    · rw [if_neg empty, if_neg fun other => empty other.symm, Bool.or_comm]

theorem writesOverlap_iff {a b : List JsString} :
    writesOverlap a b = true ↔ ∃ first ∈ a, ∃ second ∈ b, patternsOverlap first second = true := by
  simp [writesOverlap]

theorem writesOverlap_comm (a b : List JsString) : writesOverlap a b = writesOverlap b a := by
  rw [Bool.eq_iff_iff, writesOverlap_iff, writesOverlap_iff]
  constructor
  · rintro ⟨first, member, second, other, overlap⟩
    exact ⟨second, other, first, member, by rwa [patternsOverlap_comm]⟩
  · rintro ⟨first, member, second, other, overlap⟩
    exact ⟨second, other, first, member, by rwa [patternsOverlap_comm]⟩

theorem mem_pairs {α : Type} {list : List α} {first second : α} (member : first ∈ list)
    (other : second ∈ list) (different : first ≠ second) :
    (first, second) ∈ pairs list ∨ (second, first) ∈ pairs list := by
  induction list with
  | nil => cases member
  | cons head rest inductionHypothesis =>
      rw [pairs, List.mem_append, List.mem_append, List.mem_map, List.mem_map]
      rcases List.mem_cons.mp member with rfl | later
      · have found := (List.mem_cons.mp other).resolve_left (Ne.symm different)
        exact Or.inl (Or.inl ⟨second, found, rfl⟩)
      · rcases List.mem_cons.mp other with rfl | otherLater
        · exact Or.inr (Or.inl ⟨first, later, rfl⟩)
        · exact (inductionHypothesis later otherLater).imp Or.inr Or.inr

/-- One task depends on the other through one or more dependencies. -/
def DependsOn (tasks : List Task) (task other : Task) : Prop :=
  Relation.TransGen (Edge (dependencyEdges tasks)) task.id other.id

theorem mem_dependenciesOf (tasks : List Task) (start id : JsString) :
    id ∈ dependenciesOf tasks start ↔
      Relation.TransGen (Edge (dependencyEdges tasks)) start id := by
  have supported : ∀ node, dependencyEdges tasks node ≠ [] → node ∈ tasks.map Task.id := by
    intro node edges
    cases found : taskById tasks node with
    | none =>
        rw [dependencyEdges, found] at edges
        exact absurd rfl edges
    | some task =>
        have same := List.find?_some found
        exact List.mem_map.mpr ⟨task, List.mem_of_find?_eq_some found, by simpa using same⟩
  have enough : (dependencyEdges tasks start).reverse.length +
      edgesLeft (dependencyEdges tasks) [] (tasks.map Task.id) ≤ graphFuel tasks := by
    have fits : (dependencyEdges tasks start).length ≤
        (tasks.map fun task => task.dependencies.length).sum := by
      cases found : taskById tasks start with
      | none => simp [dependencyEdges, found]
      | some task =>
          rw [dependencyEdges, found]
          exact List.le_sum_of_mem
            (List.mem_map.mpr ⟨task, List.mem_of_find?_eq_some found, rfl⟩)
    rw [List.length_reverse, graphFuel]
    omega
  obtain ⟨result, ran⟩ := exists_reachableLoop supported enough
  rw [dependenciesOf, reachableFrom, ran, Option.getD_some,
    mem_reachableLoop ran (by simp), Relation.TransGen.head'_iff]
  simp [Edge]

theorem ordered_iff (tasks : List Task) (a b : Task) :
    ordered tasks a b = true ↔ DependsOn tasks b a ∨ DependsOn tasks a b := by
  simp [ordered, mem_dependenciesOf, DependsOn]

/-- The write targets of the task match the path. -/
def Writable (task : Task) (path : JsString) : Prop :=
  ∃ pattern ∈ task.writes, globMatch pattern path = true

/-- The conflicts of an accepted plan: unordered tasks do not overlap. -/
theorem writesOverlap_of_accepted {plan : Plan} {ir : SpecIR}
    {isDirectory : Option (JsString → Bool)} (accepted : planAccepted plan ir isDirectory = true)
    {a b : Task} (member : a ∈ plan.tasks) (other : b ∈ plan.tasks) (different : a ≠ b)
    (unordered : ordered plan.tasks a b = false) : writesOverlap a.writes b.writes = false := by
  have clean : writeConflicts plan.tasks = [] := by
    cases conflicts : writeConflicts plan.tasks with
    | nil => rfl
    | cons diagnostic rest =>
        have severe : diagnostic.severity = .error := by
          have found : diagnostic ∈ writeConflicts plan.tasks := by rw [conflicts]; simp
          obtain ⟨pair, -, rfl⟩ := List.mem_map.mp found
          rfl
        have reported : hasErrors (validatePlan plan ir isDirectory) = true := by
          rw [hasErrors, List.any_eq_true]
          refine ⟨diagnostic, ?_, by rw [severe]; rfl⟩
          simp [validatePlan, conflicts]
        rw [planAccepted, reported] at accepted
        cases accepted
  by_contra overlap
  rw [Bool.not_eq_false] at overlap
  have writers : ∀ task ∈ plan.tasks, (∃ pattern, pattern ∈ task.writes) →
      task ∈ plan.tasks.filter fun task => task.writes ≠ [] := by
    rintro task found ⟨pattern, writes⟩
    rw [List.mem_filter]
    exact ⟨found, by simpa using List.ne_nil_of_mem writes⟩
  obtain ⟨first, firstMember, second, secondMember, -⟩ := writesOverlap_iff.mp overlap
  have unorderedOther : ordered plan.tasks b a = false := by
    rwa [ordered, Bool.or_comm]
  have none : ∀ pair ∈ pairs (plan.tasks.filter fun task => task.writes ≠ []),
      conflicting plan.tasks pair ≠ true := by
    rw [writeConflicts, List.map_eq_nil_iff, List.filter_eq_nil_iff] at clean
    exact clean
  rcases mem_pairs (writers a member ⟨first, firstMember⟩) (writers b other ⟨second, secondMember⟩)
    different with found | found
  · exact none _ found (by simp [conflicting, overlap, unordered])
  · exact none _ found (by simp [conflicting, writesOverlap_comm b.writes, overlap, unorderedOther])

/-! ## Tasks in flight -/

/-- The write targets of the tasks in flight, by the identifiers of the tasks. -/
abbrev InFlight := OrderedMap JsString (List JsString)

/-- A task in flight has write targets that overlap those of the task. -/
def overlapsInFlight (task : Task) (inFlight : InFlight) : Bool :=
  inFlight.entries.any fun entry =>
    task.writes ≠ [] && entry.2 ≠ [] && writesOverlap task.writes entry.2

/-- The loop over the ready tasks. -/
def launchReady (maxParallel : Nat) : List Task → InFlight → InFlight
  | [], inFlight => inFlight
  | task :: rest, inFlight =>
      if maxParallel ≤ inFlight.entries.length then
        inFlight
      else if overlapsInFlight task inFlight then
        launchReady maxParallel rest inFlight
      else
        launchReady maxParallel rest (inFlight.set task.id task.writes)

/-- The pending tasks that are not in flight and whose dependencies have finished. -/
def readyTasks (tasks : List Task) (status : JsString → TaskStatus) (inFlight : InFlight) :
    List Task :=
  tasks.filter fun task =>
    status task.id == .pending && (inFlight.get? task.id).isNone &&
      task.dependencies.all fun dep => status dep == .completed || status dep == .skipped

/-- What happens to the tasks in flight: a pass of the driver's loop over the plan of the
moment, or the end of a task. -/
inductive FlightStep (maxParallel : Nat) (allowed : JsString → Prop) : InFlight → InFlight → Prop
  | pass (tasks : List Task) (status : JsString → TaskStatus) (cancelled : Bool)
      (targets : ∀ task ∈ tasks, ∀ pattern ∈ task.writes, allowed pattern) (inFlight : InFlight) :
      FlightStep maxParallel allowed inFlight
        (if cancelled then inFlight
        else launchReady maxParallel (readyTasks tasks status inFlight) inFlight)
  | finish (id : JsString) (inFlight : InFlight) :
      FlightStep maxParallel allowed inFlight (inFlight.delete id)

/-- The states of a run of the parallel driver whose plans write to the allowed patterns. -/
def Reached (maxParallel : Nat) (allowed : JsString → Prop) (inFlight : InFlight) : Prop :=
  Relation.ReflTransGen (FlightStep maxParallel allowed) OrderedMap.empty inFlight

/-- The tasks in flight write to allowed patterns, and no two of them overlap. -/
structure Separated (allowed : JsString → Prop) (inFlight : InFlight) : Prop where
  targets : ∀ entry ∈ inFlight.entries, ∀ pattern ∈ entry.2, allowed pattern
  apart : ∀ entry ∈ inFlight.entries, ∀ other ∈ inFlight.entries, entry.1 ≠ other.1 →
    writesOverlap entry.2 other.2 = false

theorem separated_empty (allowed : JsString → Prop) : Separated allowed OrderedMap.empty :=
  ⟨by simp [OrderedMap.empty], by simp [OrderedMap.empty]⟩

theorem Separated.delete {allowed : JsString → Prop} {inFlight : InFlight}
    (separated : Separated allowed inFlight) (id : JsString) :
    Separated allowed (inFlight.delete id) := by
  have kept : ∀ entry ∈ (inFlight.delete id).entries, entry ∈ inFlight.entries :=
    fun entry member => List.mem_of_mem_filter member
  constructor
  · intro entry member
    exact separated.targets entry (kept entry member)
  · intro entry member other otherMember
    exact separated.apart entry (kept entry member) other (kept other otherMember)

/-- The entries after a task has been launched. -/
theorem mem_launched {inFlight : InFlight} {id : JsString} {writes : List JsString}
    {entry : JsString × List JsString} (member : entry ∈ (inFlight.set id writes).entries) :
    entry = (id, writes) ∨ entry.1 ≠ id ∧ entry ∈ inFlight.entries := by
  have found : (inFlight.set id writes).get? entry.1 = some entry.2 :=
    OrderedMap.get?_eq_some.mpr member
  by_cases same : entry.1 = id
  · rw [same, OrderedMap.get?_set_self, Option.some.injEq] at found
    exact Or.inl (Prod.ext same found.symm)
  · rw [OrderedMap.get?_set_ne inFlight same, OrderedMap.get?_eq_some] at found
    exact Or.inr ⟨same, found⟩

theorem Separated.launch {allowed : JsString → Prop} {inFlight : InFlight}
    (separated : Separated allowed inFlight) {task : Task}
    (targets : ∀ pattern ∈ task.writes, allowed pattern)
    (clear : overlapsInFlight task inFlight = false) :
    Separated allowed (inFlight.set task.id task.writes) := by
  have apart : ∀ entry ∈ inFlight.entries, writesOverlap task.writes entry.2 = false := by
    intro entry member
    rw [overlapsInFlight, List.any_eq_false] at clear
    have silent := clear entry member
    by_contra overlap
    rw [Bool.not_eq_false] at overlap
    obtain ⟨first, firstMember, second, secondMember, -⟩ := writesOverlap_iff.mp overlap
    exact silent (by
      simp [overlap, List.ne_nil_of_mem firstMember, List.ne_nil_of_mem secondMember])
  constructor
  · intro entry member
    rcases mem_launched member with rfl | ⟨-, known⟩
    · exact targets
    · exact separated.targets entry known
  · intro entry member other otherMember different
    rcases mem_launched member with rfl | ⟨-, known⟩
    · rcases mem_launched otherMember with rfl | ⟨-, otherKnown⟩
      · exact absurd rfl different
      · exact apart other otherKnown
    · rcases mem_launched otherMember with rfl | ⟨-, otherKnown⟩
      · rw [writesOverlap_comm]
        exact apart entry known
      · exact separated.apart entry known other otherKnown different

theorem Separated.launchReady {allowed : JsString → Prop} {maxParallel : Nat} {tasks : List Task}
    (targets : ∀ task ∈ tasks, ∀ pattern ∈ task.writes, allowed pattern) {inFlight : InFlight}
    (separated : Separated allowed inFlight) :
    Separated allowed (launchReady maxParallel tasks inFlight) := by
  induction tasks generalizing inFlight with
  | nil => exact separated
  | cons task rest inductionHypothesis =>
      rw [List.forall_mem_cons] at targets
      rw [Runtime.launchReady]
      split_ifs with full overlap
      · exact separated
      · exact inductionHypothesis targets.2 separated
      · rw [Bool.not_eq_true] at overlap
        exact inductionHypothesis targets.2 (separated.launch targets.1 overlap)

theorem Separated.step {allowed : JsString → Prop} {maxParallel : Nat} {inFlight next : InFlight}
    (separated : Separated allowed inFlight) (step : FlightStep maxParallel allowed inFlight next) :
    Separated allowed next := by
  cases step with
  | pass tasks status cancelled targets =>
      cases cancelled with
      | true => exact separated
      | false =>
          refine separated.launchReady fun task member => ?_
          exact targets task (List.mem_of_mem_filter member)
  | finish id => exact separated.delete id

theorem separated_of_reached {allowed : JsString → Prop} {maxParallel : Nat} {inFlight : InFlight}
    (reached : Reached maxParallel allowed inFlight) : Separated allowed inFlight := by
  induction reached with
  | refl => exact separated_empty allowed
  | tail _ step inductionHypothesis => exact inductionHypothesis.step step

/-! ## The paths that are shared -/

/-- Both lists of patterns match a common path. -/
def WriteShare (a b : List JsString) : Prop :=
  ∃ path, isSafeRelativePath path = true ∧ globMatchAny a path = true ∧ globMatchAny b path = true

theorem writeShare_iff {a b : List JsString} :
    WriteShare a b ↔ ∃ first ∈ a, ∃ second ∈ b, SharesPath first second := by
  simp only [WriteShare, globMatchAny, List.any_eq_true, SharesPath]
  constructor
  · rintro ⟨path, safe, ⟨first, member, matched⟩, second, otherMember, otherMatched⟩
    exact ⟨first, member, second, otherMember, path, safe, matched, otherMatched⟩
  · rintro ⟨first, member, second, otherMember, path, safe, matched, otherMatched⟩
    exact ⟨path, safe, ⟨first, member, matched⟩, second, otherMember, otherMatched⟩

/-- Every two of the patterns that match a common path are noticed. -/
def AllDetected (a b : List JsString) : Prop :=
  ∀ first ∈ a, ∀ second ∈ b, SharesPath first second → Detected first second

/-- Patterns that were not reported as overlapping share no path exactly when those that
share one would have been noticed. -/
theorem not_writeShare_iff {a b : List JsString} (apart : writesOverlap a b = false) :
    ¬ WriteShare a b ↔ AllDetected a b := by
  rw [writeShare_iff]
  constructor
  · intro unshared first member second otherMember shares
    exact absurd ⟨first, member, second, otherMember, shares⟩ unshared
  · rintro detected ⟨first, member, second, otherMember, shares⟩
    have overlap : writesOverlap a b = true :=
      writesOverlap_iff.mpr ⟨first, member, second, otherMember,
        (patternsOverlap_iff shares).mpr (detected first member second otherMember shares)⟩
    rw [apart] at overlap
    cases overlap

/-- The tasks of a plan that neither depend on each other nor are the same. -/
def Unordered (plan : Plan) (a b : Task) : Prop :=
  a ∈ plan.tasks ∧ b ∈ plan.tasks ∧ a ≠ b ∧ ¬ DependsOn plan.tasks a b ∧ ¬ DependsOn plan.tasks b a

theorem writesOverlap_of_unordered {plan : Plan} {ir : SpecIR}
    {isDirectory : Option (JsString → Bool)} (accepted : planAccepted plan ir isDirectory = true)
    {a b : Task} (unordered : Unordered plan a b) : writesOverlap a.writes b.writes = false := by
  obtain ⟨member, other, different, forwards, backwards⟩ := unordered
  apply writesOverlap_of_accepted accepted member other different
  rw [← Bool.not_eq_true, ordered_iff, not_or]
  exact ⟨backwards, forwards⟩

/-- When overlapping write targets are noticed: for two patterns, in an accepted plan, and in
the runs of the parallel driver that write to the allowed patterns. -/
theorem overlap_detection_iff (a b : JsString) {plan : Plan} {ir : SpecIR}
    {isDirectory : Option (JsString → Bool)} (accepted : planAccepted plan ir isDirectory = true)
    (maxParallel : Nat) (allowed : JsString → Prop) :
    ((∀ path, isSafeRelativePath path = true → globMatch a path = true →
        globMatch b path = true → patternsOverlap a b = true) ↔
      (SharesPath a b → Detected a b)) ∧
    ((∀ first second, Unordered plan first second → ¬ WriteShare first.writes second.writes) ↔
      ∀ first second, Unordered plan first second → AllDetected first.writes second.writes) ∧
    ((∀ first second, allowed first → allowed second → SharesPath first second →
        Detected first second) →
      ∀ inFlight, Reached maxParallel allowed inFlight →
      ∀ entry ∈ inFlight.entries, ∀ other ∈ inFlight.entries, entry.1 ≠ other.1 →
        ¬ WriteShare entry.2 other.2) := by
  refine ⟨⟨fun sound shares => ?_, fun detected path safe matched other => ?_⟩, ?_, ?_⟩
  · obtain ⟨path, safe, matched, other⟩ := shares
    exact (patternsOverlap_iff ⟨path, safe, matched, other⟩).mp (sound path safe matched other)
  · have shares : SharesPath a b := ⟨path, safe, matched, other⟩
    exact (patternsOverlap_iff shares).mpr (detected shares)
  · refine forall₂_congr fun first second => imp_congr_right fun unordered => ?_
    exact not_writeShare_iff (writesOverlap_of_unordered accepted unordered)
  · intro noticed inFlight reached entry member other otherMember different
    have separated := separated_of_reached reached
    rw [not_writeShare_iff (separated.apart entry member other otherMember different)]
    intro first firstMember second secondMember
    exact noticed first second (separated.targets entry member first firstMember)
      (separated.targets other otherMember second secondMember)

/-- A task that writes to one pattern. -/
def writer (id pattern : JsString) : Task :=
  { id, title := js "write", kind := .modify, intent := js "write", dependsOn := none,
    satisfies := none, verifies := none,
    targets := some { read := none, write := some [pattern] }, risk := none }

/-- A plan of two tasks without dependencies that write to one pattern each. -/
def writersPlan (pattern other : JsString) : Plan :=
  { id := js "plan", spec := { id := js "spec", digest := js "digest" },
    tasks := [writer (js "first") pattern, writer (js "second") other] }

/-- A specification without properties. -/
def emptySpec : SpecIR :=
  { specId := js "spec", digest := js "digest", properties := [] }

/-- Two files. -/
theorem overlap_detection_iff_files :
    patternsOverlap (js "src/a.ts") (js "src/*.ts") = true ∧
      (∀ a b, Unordered (writersPlan (js "src/a.ts") (js "src/b.ts")) a b →
        ¬ WriteShare a.writes b.writes) ∧
      (∀ inFlight, Reached 2 (fun pattern => pattern ∈ [js "src/a.ts", js "src/b.ts"]) inFlight →
        ∀ entry ∈ inFlight.entries, ∀ other ∈ inFlight.entries, entry.1 ≠ other.1 →
          ¬ WriteShare entry.2 other.2) := by
  have literal : ∀ pattern ∈ [js "src/a.ts", js "src/b.ts"], wildSegments pattern = [] := by
    decide +kernel
  have accepted :
      planAccepted (writersPlan (js "src/a.ts") (js "src/b.ts")) emptySpec none = true := by
    decide +kernel
  obtain ⟨patterns, plans, runs⟩ := overlap_detection_iff (js "src/a.ts") (js "src/*.ts") accepted 2
    fun pattern => pattern ∈ [js "src/a.ts", js "src/b.ts"]
  refine ⟨?_, ?_, ?_⟩
  · apply patterns.mpr (fun _ => Or.inr (Or.inl (literal _ (by simp)))) (js "src/a.ts")
    · decide +kernel
    · decide +kernel
    · decide +kernel
  · apply plans.mpr
    intro a b unordered first member second otherMember shares
    have writes : ∀ task ∈ (writersPlan (js "src/a.ts") (js "src/b.ts")).tasks,
        ∀ pattern ∈ task.writes, pattern ∈ [js "src/a.ts", js "src/b.ts"] := by
      decide +kernel
    exact Or.inr (Or.inl (literal first (writes a unordered.1 first member)))
  · exact runs fun a b member _ _ => Or.inr (Or.inl (literal a member))

/-- Two patterns for the same file are not reported, so that the plan is accepted and both
tasks are in flight together. -/
theorem not_overlap_detection :
    (¬ ∀ a b path, isSafeRelativePath path = true → globMatch a path = true →
      globMatch b path = true → patternsOverlap a b = true) ∧
    (∃ plan ir, planAccepted plan ir none = true ∧
      ∃ a b, Unordered plan a b ∧ WriteShare a.writes b.writes) ∧
    (∃ inFlight, Reached 2 (fun _ => True) inFlight ∧
      ∃ entry ∈ inFlight.entries, ∃ other ∈ inFlight.entries, entry.1 ≠ other.1 ∧
        WriteShare entry.2 other.2) := by
  have share : WriteShare [js "src/**"] [js "src/*.ts"] :=
    ⟨js "src/x.ts", by decide +kernel, by decide +kernel, by decide +kernel⟩
  refine ⟨fun sound => ?_, ?_, ?_⟩
  · have overlap := sound (js "src/**") (js "src/*.ts") (js "src/x.ts") (by decide +kernel)
      (by decide +kernel) (by decide +kernel)
    exact absurd overlap (by decide +kernel)
  · refine ⟨writersPlan (js "src/**") (js "src/*.ts"), emptySpec, by decide +kernel,
      writer (js "first") (js "src/**"), writer (js "second") (js "src/*.ts"), ?_, share⟩
    have unordered : ordered (writersPlan (js "src/**") (js "src/*.ts")).tasks
        (writer (js "first") (js "src/**")) (writer (js "second") (js "src/*.ts")) = false := by
      decide +kernel
    rw [← Bool.not_eq_true, ordered_iff, not_or] at unordered
    exact ⟨by simp [writersPlan], by simp [writersPlan], by decide +kernel, unordered.2,
      unordered.1⟩
  · refine ⟨_, Relation.ReflTransGen.single (.pass
        (writersPlan (js "src/**") (js "src/*.ts")).tasks (fun _ => .pending) false (by simp) _),
      (js "first", [js "src/**"]), ?_, (js "second", [js "src/*.ts"]), ?_, by decide +kernel, share⟩
    · decide +kernel
    · decide +kernel

end SpecAsCode.Runtime
