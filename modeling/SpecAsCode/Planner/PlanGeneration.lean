import SpecAsCode.Lib.Rounds
import SpecAsCode.Planner.ExecutablePlans

/-!
# Asking for plans and amendments

A model is asked for a plan, or for an amendment, until validation finds nothing.  A request that
follows a refusal carries the findings.
-/

namespace SpecAsCode.Planner

open SpecAsCode.Js
open SpecAsCode.Core
open SpecAsCode.Rounds
open SpecAsCode.Schema
open SpecAsCode.Compiler (PlanDocument PlanRepository normalizePlan)

/-! ## The text of findings -/

def severityText : Severity → JsString
  | .error => js "error"
  | .warning => js "warning"

/-- `formatDiagnostic`, without a location. -/
def formatDiagnostic (diagnostic : Diagnostic) : JsString :=
  let head := severityText diagnostic.severity ++ js " " ++ diagnostic.code
  let related := diagnostic.related.getD []
  joinTexts (js "\n") ([head, [], diagnostic.message] ++
    if related = [] then [] else [[], js "Related:"] ++ related.map fun text => js "  " ++ text)

def formatDiagnostics (diagnostics : List Diagnostic) : JsString :=
  joinTexts (js "\n\n") (diagnostics.map formatDiagnostic)

/-! ## Requests -/

/-- What a request to the model has of its own in each attempt. -/
structure StructuredRequest where
  key : JsString
  prompt : JsString
  previousRejection : Option JsString
  deriving DecidableEq

/-- A text that counts as true. -/
def givenText (text : Option JsString) : Option JsString :=
  text.filter fun text => text ≠ []

/-- `buildPlannerPrompt`.  The payload is printed from the specification and the repository. -/
def buildPlannerPrompt (payload : JsString) (repair : Option JsString) : JsString :=
  joinTexts (js "\n")
    ([js "Plan the transition for the following specification. Respond with JSON only."] ++
      (match givenText repair with
        | some repair =>
            [[], js "Your previous plan failed deterministic validation. Diagnostics:", [], repair,
              [], js "Produce a corrected plan."]
        | none => []) ++
      [[], payload])

/-- `buildReplannerPrompt`. -/
def buildReplannerPrompt (payload : JsString) (amendmentDiagnostics : Option JsString) : JsString :=
  joinTexts (js "\n")
    ([js "Propose a plan amendment. Respond with JSON only."] ++
      (match givenText amendmentDiagnostics with
        | some diagnostics =>
            [[], js "Your previous amendment failed validation. Diagnostics:", [], diagnostics]
        | none => []) ++
      [[], payload])

/-! ## Plans -/

/-- `MAX_PLAN_REPAIR_ATTEMPTS`. -/
def maxPlanRepairAttempts : Nat := 2

/-- The part of the model's answer that a plan is made of. -/
structure PlannerOutput where
  tasks : List Task
  assumptions : List JsString
  followups : List FollowUpDraft

/-- What a plan is asked for with.  `payload` is the text of the prompt's payload. -/
structure GeneratePlanInput where
  ir : SpecIR
  repository : PlanRepository
  isDirectory : Option (JsString → Bool)
  payload : JsString
  planId : JsString
  /-- `now()` in an attempt. -/
  now : Nat → JsString
  generatedBy : Compiler.GeneratedBy

/-- The provider.  What it answers may depend on everything that happened before. -/
abbrev Provider (Failure Output : Type) := Nat → StructuredRequest → Except Failure Output

namespace GeneratePlanInput

def request (input : GeneratePlanInput) (attempt : Nat) (repair : Option JsString) :
    StructuredRequest where
  key := js "planner@" ++ natText attempt
  prompt := buildPlannerPrompt input.payload repair
  previousRejection := givenText repair

def candidate (input : GeneratePlanInput) (attempt : Nat) (output : PlannerOutput) :
    PlanDocument where
  metadata :=
    { id := input.planId, title := none, createdAt := input.now attempt,
      generatedBy := some input.generatedBy }
  spec := { id := input.ir.specId, digest := input.ir.digest }
  repository := input.repository
  tasks := output.tasks
  assumptions := some output.assumptions
  followups := some output.followups

/-- The plan of an answer, with its findings, or the findings that refuse it. -/
def judge (input : GeneratePlanInput) (answer : Nat × PlannerOutput) :
    Except (List Diagnostic) (PlanDocument × List Diagnostic) :=
  let normalized := normalizePlan (input.candidate answer.1 answer.2)
  let diagnostics := validatePlan normalized.plan input.ir input.isDirectory
  if hasErrors diagnostics then .error diagnostics else .ok (normalized, diagnostics)

end GeneratePlanInput

/-- How a call ends that asks the model: it throws what the provider throws, or the error behind
the loop, or it returns. -/
inductive Generated (Failure Result : Type) where
  | threw (failure : Failure)
  | escaped
  | returned (result : Result)
  deriving DecidableEq

structure GeneratePlanResult where
  plan : Option PlanDocument
  diagnostics : List Diagnostic
  attempts : Nat
  deriving DecidableEq

def planEnding {Failure : Type} :
    Ending Failure (PlanDocument × List Diagnostic) (List Diagnostic) →
      Generated Failure GeneratePlanResult
  | .threw failure _ => .threw failure
  | .accepted (plan, diagnostics) attempt => .returned ⟨some plan, diagnostics, attempt⟩
  | .refused diagnostics attempt => .returned ⟨none, diagnostics, attempt⟩
  | .exhausted => .escaped

/-- An answer is judged with the number of its attempt. -/
def askFor {Failure : Type} (input : GeneratePlanInput) (provider : Provider Failure PlannerOutput)
    (attempt : Nat) (repair : Option JsString) : Except Failure (Nat × PlannerOutput) :=
  (provider attempt (input.request attempt repair)).map fun output => (attempt, output)

def generatePlan {Failure : Type} (input : GeneratePlanInput)
    (provider : Provider Failure PlannerOutput) : Generated Failure GeneratePlanResult :=
  planEnding (pursue (askFor input provider) input.judge formatDiagnostics
    (1 + maxPlanRepairAttempts) (1 + maxPlanRepairAttempts) 1 none)

/-! ## Amendments -/

/-- `MAX_AMENDMENT_REPAIR_ATTEMPTS`. -/
def maxAmendmentRepairAttempts : Nat := 2

structure GenerateAmendmentInput where
  ir : SpecIR
  isDirectory : Option (JsString → Bool)
  payload : JsString
  plan : Plan
  executed : List JsString
  /-- The task of the first observation that triggered the amendment, or the observation. -/
  trigger : JsString

namespace GenerateAmendmentInput

def request (input : GenerateAmendmentInput) (attempt : Nat) (repair : Option JsString) :
    StructuredRequest where
  key := input.trigger ++ js "@" ++ natText attempt
  prompt := buildReplannerPrompt input.payload repair
  previousRejection := none

/-- The amended plan, or the findings that refuse the amendment. -/
def judge (input : GenerateAmendmentInput) (operations : List AmendmentOperation) :
    Except (List Diagnostic) (Plan × List AmendmentOperation × List Diagnostic) :=
  let applied := applyPlanAmendment input.plan operations input.executed
  match applied.plan with
  | none => .error applied.diagnostics
  | some plan =>
      let diagnostics := validatePlan plan input.ir input.isDirectory
      if hasErrors diagnostics then .error diagnostics else .ok (plan, operations, diagnostics)

end GenerateAmendmentInput

structure GenerateAmendmentResult where
  operations : Option (List AmendmentOperation)
  amendedPlan : Option Plan
  diagnostics : List Diagnostic
  attempts : Nat
  deriving DecidableEq

def amendmentEnding {Failure : Type} :
    Ending Failure (Plan × List AmendmentOperation × List Diagnostic) (List Diagnostic) →
      Generated Failure GenerateAmendmentResult
  | .threw failure _ => .threw failure
  | .accepted (plan, operations, diagnostics) attempt =>
      .returned ⟨some operations, some plan, diagnostics, attempt⟩
  | .refused diagnostics attempt => .returned ⟨none, none, diagnostics, attempt⟩
  | .exhausted => .escaped

def generateAmendment {Failure : Type} (input : GenerateAmendmentInput)
    (provider : Provider Failure (List AmendmentOperation)) :
    Generated Failure GenerateAmendmentResult :=
  amendmentEnding (pursue (fun attempt repair => provider attempt (input.request attempt repair))
    input.judge formatDiagnostics (1 + maxAmendmentRepairAttempts) (1 + maxAmendmentRepairAttempts)
    1 none)

/-! ## Findings in prompts -/

theorem infix_joinTexts {separator text : JsString} {texts : List JsString}
    (member : text ∈ texts) : text <:+: joinTexts separator texts := by
  induction texts with
  | nil => cases member
  | cons first rest inductionHypothesis =>
      cases rest with
      | nil =>
          rw [List.mem_singleton.mp member, joinTexts, List.intercalate_singleton]
      | cons second rest =>
          rw [joinTexts, List.intercalate_cons_cons]
          rcases List.mem_cons.mp member with rfl | later
          · exact ⟨[], _, by rw [List.nil_append, List.append_assoc]⟩
          · exact (inductionHypothesis later).trans (List.suffix_append _ _).isInfix

theorem message_contains (diagnostic : Diagnostic) :
    diagnostic.message <:+: formatDiagnostic diagnostic := by
  apply infix_joinTexts
  exact List.mem_append_left _ (List.mem_cons_of_mem _ (List.mem_cons_of_mem _ List.mem_cons_self))

theorem formatDiagnostic_ne_nil (diagnostic : Diagnostic) : formatDiagnostic diagnostic ≠ [] := by
  have head : severityText diagnostic.severity ++ js " " ++ diagnostic.code <:+:
      formatDiagnostic diagnostic :=
    infix_joinTexts (List.mem_append_left _ List.mem_cons_self)
  intro nothing
  rw [nothing, List.infix_nil, List.append_eq_nil_iff, List.append_eq_nil_iff] at head
  exact absurd head.1.2 (by decide)

theorem format_contains {diagnostics : List Diagnostic} {diagnostic : Diagnostic}
    (member : diagnostic ∈ diagnostics) :
    formatDiagnostic diagnostic <:+: formatDiagnostics diagnostics :=
  infix_joinTexts (List.mem_map_of_mem member)

theorem formatDiagnostics_ne_nil {diagnostics : List Diagnostic} (some : diagnostics ≠ []) :
    formatDiagnostics diagnostics ≠ [] := by
  obtain ⟨diagnostic, member⟩ := List.exists_mem_of_ne_nil _ some
  intro nothing
  have inside := format_contains member
  rw [nothing, List.infix_nil] at inside
  exact formatDiagnostic_ne_nil diagnostic inside

theorem givenText_some {text : JsString} (nonempty : text ≠ []) :
    givenText (some text) = some text := by
  rw [givenText, Option.filter_some, if_pos (decide_eq_true nonempty)]

theorem repair_infix_plannerPrompt (payload : JsString) {repair : JsString}
    (nonempty : repair ≠ []) : repair <:+: buildPlannerPrompt payload (some repair) := by
  rw [buildPlannerPrompt, givenText_some nonempty]
  apply infix_joinTexts
  simp

theorem repair_infix_replannerPrompt (payload : JsString) {repair : JsString}
    (nonempty : repair ≠ []) : repair <:+: buildReplannerPrompt payload (some repair) := by
  rw [buildReplannerPrompt, givenText_some nonempty]
  apply infix_joinTexts
  simp

/-- What the request behind a refusal says about it. -/
theorem findings_infix {diagnostics : List Diagnostic} {prompt : JsString}
    (told : formatDiagnostics diagnostics <:+: prompt) :
    ∀ diagnostic ∈ diagnostics, diagnostic.message <:+: prompt :=
  fun diagnostic member => ((message_contains diagnostic).trans (format_contains member)).trans told

/-! ## Generated plans -/

section Plans

variable {Failure : Type} {input : GeneratePlanInput} {provider : Provider Failure PlannerOutput}

theorem judge_error {answer : Nat × PlannerOutput} {diagnostics : List Diagnostic}
    (judged : input.judge answer = .error diagnostics) :
    diagnostics = validatePlan (normalizePlan (input.candidate answer.1 answer.2)).plan input.ir
        input.isDirectory ∧ hasErrors diagnostics = true := by
  rw [GeneratePlanInput.judge] at judged
  split_ifs at judged with errors
  cases judged
  exact ⟨rfl, errors⟩

theorem judge_ok {answer : Nat × PlannerOutput} {plan : PlanDocument}
    {diagnostics : List Diagnostic} (judged : input.judge answer = .ok (plan, diagnostics)) :
    plan = normalizePlan (input.candidate answer.1 answer.2) ∧
      Executable plan.plan input.ir input.isDirectory ∧ diagnostics = [] := by
  rw [GeneratePlanInput.judge] at judged
  split_ifs at judged with errors
  cases judged
  rw [Bool.not_eq_true] at errors
  have silent := (hasErrors_of_allErrors (allErrors_validatePlan _ _ _)).mp errors
  exact ⟨rfl, validatePlan_eq_nil_iff.mp silent, silent⟩

/-- The plans of the first answers, none of which is executable, with what was found. -/
def RefusedPlans (input : GeneratePlanInput) (provider : Provider Failure PlannerOutput)
    (findings : List (List Diagnostic)) : Prop :=
  Refusals (askFor input provider) input.judge formatDiagnostics findings

/-- The request that follows the refusals. -/
def nextRequest (input : GeneratePlanInput) (findings : List (List Diagnostic)) :
    StructuredRequest :=
  input.request (findings.length + 1) (lastNote formatDiagnostics findings)

theorem of_askFor {attempt number : Nat} {repair : Option JsString} {output : PlannerOutput}
    (asked : askFor input provider attempt repair = .ok (number, output)) :
    number = attempt ∧ provider attempt (input.request attempt repair) = .ok output := by
  rw [askFor] at asked
  cases answered : provider attempt (input.request attempt repair) with
  | error failure =>
      rw [answered] at asked
      cases asked
  | ok answer =>
      rw [answered] at asked
      cases asked
      exact ⟨rfl, rfl⟩

theorem throws_of_askFor {attempt : Nat} {repair : Option JsString} {failure : Failure}
    (asked : askFor input provider attempt repair = .error failure) :
    provider attempt (input.request attempt repair) = .error failure := by
  rw [askFor] at asked
  cases answered : provider attempt (input.request attempt repair) with
  | error other =>
      rw [answered] at asked
      cases asked
      rfl
  | ok answer =>
      rw [answered] at asked
      cases asked

/-- A request that follows a refusal names every finding. -/
theorem nextRequest_tells {findings : List (List Diagnostic)} {diagnostics : List Diagnostic}
    (refused : RefusedPlans input provider (findings ++ [diagnostics])) :
    (nextRequest input (findings ++ [diagnostics])).previousRejection =
        some (formatDiagnostics diagnostics) ∧
      ∀ diagnostic ∈ diagnostics,
        diagnostic.message <:+: (nextRequest input (findings ++ [diagnostics])).prompt := by
  obtain ⟨answer, judged⟩ := refused.last List.getLast?_concat
  have some : diagnostics ≠ [] := by
    rintro rfl
    cases (judge_error judged).2
  have note : lastNote formatDiagnostics (findings ++ [diagnostics]) =
      .some (formatDiagnostics diagnostics) := by
    rw [lastNote, List.getLast?_concat, Option.map_some]
  rw [nextRequest, note]
  refine ⟨givenText_some (formatDiagnostics_ne_nil some), findings_infix ?_⟩
  exact repair_infix_plannerPrompt input.payload (formatDiagnostics_ne_nil some)

/-- What a call of `generatePlan` may return. -/
inductive PlanReturned (input : GeneratePlanInput) (provider : Provider Failure PlannerOutput) :
    GeneratePlanResult → Prop
  | accepted {findings : List (List Diagnostic)} {output : PlannerOutput}
      (refused : RefusedPlans input provider findings)
      (room : findings.length < 1 + maxPlanRepairAttempts)
      (answered : provider (findings.length + 1) (nextRequest input findings) = .ok output)
      (executable : Executable (normalizePlan (input.candidate (findings.length + 1) output)).plan
        input.ir input.isDirectory) :
      PlanReturned input provider
        ⟨some (normalizePlan (input.candidate (findings.length + 1) output)), [],
          findings.length + 1⟩
  | refused {findings : List (List Diagnostic)} {diagnostics : List Diagnostic}
      (all : RefusedPlans input provider (findings ++ [diagnostics]))
      (last : findings.length = maxPlanRepairAttempts) (errors : hasErrors diagnostics = true) :
      PlanReturned input provider ⟨none, diagnostics, 1 + maxPlanRepairAttempts⟩

theorem generatePlan_concludes (input : GeneratePlanInput)
    (provider : Provider Failure PlannerOutput) :
    ∃ ending, Concludes (askFor input provider) input.judge formatDiagnostics
      (1 + maxPlanRepairAttempts) ending ∧ generatePlan input provider = planEnding ending :=
  ⟨_, pursue_concludes (by decide), rfl⟩

/-- A call returns the plan of the first answer that is executable, or after the last attempt the
findings about that one, or it throws what the provider throws.  Every request that follows a
refusal names the findings. -/
theorem generatePlan_spec (input : GeneratePlanInput) (provider : Provider Failure PlannerOutput) :
    generatePlan input provider ≠ .escaped ∧
    (∀ result, generatePlan input provider = .returned result →
      PlanReturned input provider result) ∧
    (∀ failure, generatePlan input provider = .threw failure →
      ∃ findings, RefusedPlans input provider findings ∧
        findings.length < 1 + maxPlanRepairAttempts ∧
        provider (findings.length + 1) (nextRequest input findings) = .error failure) ∧
    ∀ findings diagnostics, RefusedPlans input provider (findings ++ [diagnostics]) →
      (nextRequest input (findings ++ [diagnostics])).previousRejection =
          some (formatDiagnostics diagnostics) ∧
        ∀ diagnostic ∈ diagnostics,
          diagnostic.message <:+: (nextRequest input (findings ++ [diagnostics])).prompt := by
  obtain ⟨ending, concludes, same⟩ := generatePlan_concludes input provider
  rw [same]
  refine ⟨?_, ?_, ?_, fun findings diagnostics => nextRequest_tells⟩
  · intro escaped
    cases concludes with
    | threw earlier room asked => cases escaped
    | @accepted findings answer result earlier room asked judged => cases escaped
    | refused all last => cases escaped
  · intro result returned
    cases concludes with
    | threw earlier room asked => cases returned
    | @accepted findings answer plan earlier room asked judged =>
        obtain ⟨plan, diagnostics⟩ := plan
        obtain ⟨number, output⟩ := answer
        obtain ⟨rfl, answered⟩ := of_askFor asked
        obtain ⟨rfl, executable, rfl⟩ := judge_ok judged
        cases returned
        exact .accepted earlier room answered executable
    | @refused findings diagnostics all last =>
        cases returned
        obtain ⟨answer, judged⟩ := all.last List.getLast?_concat
        have count : findings.length = maxPlanRepairAttempts := by omega
        exact .refused all count (judge_error judged).2
  · intro failure threw
    cases concludes with
    | @threw findings other earlier room asked =>
        cases threw
        exact ⟨findings, earlier, room, throws_of_askFor asked⟩
    | @accepted findings answer result earlier room asked judged => cases threw
    | refused all last => cases threw

end Plans

/-- A request for a plan without properties. -/
def samplePlanInput : GeneratePlanInput where
  ir := Runtime.emptySpec
  repository := { revision := js "r", snapshotDigest := js "s" }
  isDirectory := none
  payload := js "payload"
  planId := js "plan"
  now _ := js "now"
  generatedBy := { provider := js "provider", model := none }

/-- The first answer has a task that depends on itself. -/
def learningProvider : Provider Unit PlannerOutput :=
  fun attempt _ =>
    .ok ⟨[follower (js "a") (if attempt = 1 then [js "a"] else [])], [], []⟩

theorem generatePlan_spec_second :
    PlanReturned samplePlanInput learningProvider
      ⟨some (normalizePlan (samplePlanInput.candidate 2 ⟨[follower (js "a") []], [], []⟩)), [],
        2⟩ :=
  (generatePlan_spec samplePlanInput learningProvider).2.1 _ (by decide +kernel)

/-! ## Generated amendments -/

theorem wellStructured_of_executable {plan : Plan} {ir : SpecIR}
    {isDirectory : Option (JsString → Bool)} (executable : Executable plan ir isDirectory) :
    WellStructured plan := by
  refine ⟨executable.unique, executable.resolved, fun id cycle => ?_⟩
  have inside : id ∈ ids plan.tasks := mem_of_onCycle (fun _ _ => mem_ids_of_edge) cycle
  obtain ⟨task, member, rfl⟩ := mem_ids.mp inside
  exact executable.acyclic task member cycle

/-- The tasks of an applied amendment, step by step. -/
theorem amended_of_applied {plan amended : Plan} {operations : List AmendmentOperation}
    {executed : List JsString} (structured : WellStructured plan)
    (applied : (applyPlanAmendment plan operations executed).plan = some amended) :
    Amended plan executed operations amended.tasks := by
  obtain ⟨rfl, allowed, -⟩ := applyPlanAmendment_some applied
  have listed : History.EveryStep (amendStep executed) (fun _ operation => operation ∈ operations)
      operations ⟨plan.tasks, []⟩ :=
    History.everyStep_of_forall (fun _ member => member) _
  have steps := allowed.and listed
  refine @History.EveryStep.invariant _ _ _ _
    (fun state => Amended plan executed operations state.tasks) _ _ steps
    (amended_start structured operations) ?_
  intro state operation step held
  rw [amendStep_of_allowed step.1]
  exact held.step step.2 (not_illegal_of_refusal step.1)

/-- Executed tasks are as they were, in their dependencies apart. -/
def KeepsExecuted (executed : List JsString) (before after : Plan) : Prop :=
  ∀ task ∈ before.tasks, task.id ∈ executed → ∃ kept ∈ after.tasks, SameButDependencies kept task

/-- An amendment that is refused is refused for a reason. -/
theorem refusedAmendment_ne_nil {plan : Plan} {operations : List AmendmentOperation}
    {executed : List JsString}
    (refused : (applyPlanAmendment plan operations executed).plan = none) :
    (applyPlanAmendment plan operations executed).diagnostics ≠ [] := by
  rw [applyPlanAmendment] at refused ⊢
  by_cases reported :
      (History.run (amendStep executed) operations ⟨plan.tasks, []⟩).diagnostics ≠ []
  · rw [if_pos reported]
    exact reported
  · rw [if_neg reported] at refused ⊢
    split at refused
    · exact List.cons_ne_nil _ _
    · cases refused

section Amendments

variable {Failure : Type} {input : GenerateAmendmentInput}
  {provider : Provider Failure (List AmendmentOperation)}

theorem judgeAmendment_error {operations : List AmendmentOperation} {diagnostics : List Diagnostic}
    (judged : input.judge operations = .error diagnostics) : diagnostics ≠ [] := by
  rw [GenerateAmendmentInput.judge] at judged
  cases applied : (applyPlanAmendment input.plan operations input.executed).plan with
  | none =>
      simp only [applied] at judged
      cases judged
      exact refusedAmendment_ne_nil applied
  | some plan =>
      simp only [applied] at judged
      split_ifs at judged with errors
      cases judged
      rintro nothing
      rw [nothing] at errors
      cases errors

theorem judgeAmendment_ok {operations listed : List AmendmentOperation} {plan : Plan}
    {diagnostics : List Diagnostic}
    (judged : input.judge operations = .ok (plan, listed, diagnostics)) :
    listed = operations ∧ diagnostics = [] ∧
      (applyPlanAmendment input.plan operations input.executed).plan = some plan ∧
      Executable plan input.ir input.isDirectory := by
  rw [GenerateAmendmentInput.judge] at judged
  cases applied : (applyPlanAmendment input.plan operations input.executed).plan with
  | none =>
      simp only [applied] at judged
      cases judged
  | some amended =>
      simp only [applied] at judged
      split_ifs at judged with errors
      cases judged
      rw [Bool.not_eq_true] at errors
      have silent := (hasErrors_of_allErrors (allErrors_validatePlan _ _ _)).mp errors
      exact ⟨rfl, silent, rfl, validatePlan_eq_nil_iff.mp silent⟩

/-- The findings about the first amendments, all of which were refused. -/
def RefusedAmendments (input : GenerateAmendmentInput)
    (provider : Provider Failure (List AmendmentOperation)) (findings : List (List Diagnostic)) :
    Prop :=
  Refusals (fun attempt repair => provider attempt (input.request attempt repair)) input.judge
    formatDiagnostics findings

def nextAmendmentRequest (input : GenerateAmendmentInput) (findings : List (List Diagnostic)) :
    StructuredRequest :=
  input.request (findings.length + 1) (lastNote formatDiagnostics findings)

theorem nextAmendmentRequest_tells {findings : List (List Diagnostic)}
    {diagnostics : List Diagnostic}
    (refused : RefusedAmendments input provider (findings ++ [diagnostics])) :
    ∀ diagnostic ∈ diagnostics,
      diagnostic.message <:+: (nextAmendmentRequest input (findings ++ [diagnostics])).prompt := by
  obtain ⟨operations, judged⟩ := refused.last List.getLast?_concat
  have some := judgeAmendment_error judged
  rw [nextAmendmentRequest, lastNote, List.getLast?_concat, Option.map_some]
  apply findings_infix
  exact repair_infix_replannerPrompt input.payload (formatDiagnostics_ne_nil some)

/-- What a call of `generateAmendment` may return. -/
inductive AmendmentReturned (input : GenerateAmendmentInput)
    (provider : Provider Failure (List AmendmentOperation)) : GenerateAmendmentResult → Prop
  | accepted {findings : List (List Diagnostic)} {operations : List AmendmentOperation}
      {plan : Plan} (refused : RefusedAmendments input provider findings)
      (room : findings.length < 1 + maxAmendmentRepairAttempts)
      (answered : provider (findings.length + 1) (nextAmendmentRequest input findings) =
        .ok operations)
      (applied : (applyPlanAmendment input.plan operations input.executed).plan = some plan)
      (executable : Executable plan input.ir input.isDirectory)
      (kept : WellStructured input.plan → KeepsExecuted input.executed input.plan plan) :
      AmendmentReturned input provider
        ⟨some operations, some plan, [], findings.length + 1⟩
  | refused {findings : List (List Diagnostic)} {diagnostics : List Diagnostic}
      (all : RefusedAmendments input provider (findings ++ [diagnostics]))
      (last : findings.length = maxAmendmentRepairAttempts) (errors : diagnostics ≠ []) :
      AmendmentReturned input provider ⟨none, none, diagnostics, 1 + maxAmendmentRepairAttempts⟩

theorem generateAmendment_concludes (input : GenerateAmendmentInput)
    (provider : Provider Failure (List AmendmentOperation)) :
    ∃ ending, Concludes (fun attempt repair => provider attempt (input.request attempt repair))
        input.judge formatDiagnostics (1 + maxAmendmentRepairAttempts) ending ∧
      generateAmendment input provider = amendmentEnding ending :=
  ⟨_, pursue_concludes (by decide), rfl⟩

theorem generateAmendment_returned {result : GenerateAmendmentResult}
    (returned : generateAmendment input provider = .returned result) :
    AmendmentReturned input provider result := by
  obtain ⟨ending, concludes, same⟩ := generateAmendment_concludes input provider
  rw [same] at returned
  cases concludes with
  | threw earlier room asked => cases returned
  | @accepted findings operations result earlier room asked judged =>
      obtain ⟨plan, listed, diagnostics⟩ := result
      obtain ⟨rfl, rfl, applied, executable⟩ := judgeAmendment_ok judged
      cases returned
      refine .accepted earlier room asked applied executable fun structured => ?_
      exact (amended_of_applied structured applied).kept
  | @refused findings diagnostics all last =>
      cases returned
      obtain ⟨operations, judged⟩ := all.last List.getLast?_concat
      have count : findings.length = maxAmendmentRepairAttempts := by omega
      exact .refused all count (judgeAmendment_error judged)

/-- A call returns the first amendment that can be applied and leads to an executable plan, or
the findings about the last one, or it throws what the provider throws.  The prompt that follows
a refusal names the findings. -/
theorem generateAmendment_spec (input : GenerateAmendmentInput)
    (provider : Provider Failure (List AmendmentOperation)) :
    (∀ result, generateAmendment input provider = .returned result →
      AmendmentReturned input provider result) ∧
    (∀ failure, generateAmendment input provider = .threw failure →
      ∃ findings, RefusedAmendments input provider findings ∧
        findings.length < 1 + maxAmendmentRepairAttempts ∧
        provider (findings.length + 1) (nextAmendmentRequest input findings) = .error failure) ∧
    generateAmendment input provider ≠ .escaped ∧
    ∀ findings diagnostics, RefusedAmendments input provider (findings ++ [diagnostics]) →
      ∀ diagnostic ∈ diagnostics,
        diagnostic.message <:+:
          (nextAmendmentRequest input (findings ++ [diagnostics])).prompt := by
  refine ⟨fun _ => generateAmendment_returned, ?_⟩
  obtain ⟨ending, concludes, same⟩ := generateAmendment_concludes input provider
  rw [same]
  refine ⟨?_, ?_, fun _ _ => nextAmendmentRequest_tells⟩
  · intro failure threw
    cases concludes with
    | @threw findings other earlier room asked =>
        cases threw
        exact ⟨findings, earlier, room, asked⟩
    | @accepted findings operations result earlier room asked judged => cases threw
    | refused all last => cases threw
  · intro escaped
    cases concludes with
    | threw earlier room asked => cases escaped
    | @accepted findings operations result earlier room asked judged => cases escaped
    | refused all last => cases escaped

end Amendments

/-- A plan whose task `a` has been executed. -/
def sampleAmendmentInput : GenerateAmendmentInput where
  ir := Runtime.emptySpec
  isDirectory := none
  payload := js "payload"
  plan := (documentOf [follower (js "a") [], follower (js "b") [js "a"]]).plan
  executed := [js "a"]
  trigger := js "b"

/-- The first answer removes a task that was executed. -/
def repentantProvider : Provider Unit (List AmendmentOperation) :=
  fun attempt _ =>
    .ok (if attempt = 1 then [.removeTask (js "a")] else [.removeTask (js "b")])

theorem generateAmendment_spec_second :
    AmendmentReturned sampleAmendmentInput repentantProvider
      ⟨some [.removeTask (js "b")], some (documentOf [follower (js "a") []]).plan, [], 2⟩ :=
  (generateAmendment_spec sampleAmendmentInput repentantProvider).1 _ (by decide +kernel)

end SpecAsCode.Planner
