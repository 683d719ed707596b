import SpecAsCode.Runtime.RunHistory
import SpecAsCode.Runtime.SatisfactionEvidence

/-!
# Satisfaction without the weak-evidence flag

A property that is satisfied without the flag should rest on a deterministic check.  The
evaluator looks at the types of the criteria, while the evidence of a criterion may come
from a person.
-/

namespace SpecAsCode.Verifier

open SpecAsCode.Js
open SpecAsCode.Schema

/-! ## Verdicts and the flag -/

theorem greenVerdict_deterministic (criterion : AcceptanceCriterion) (latest : Option Evidence) :
    (greenVerdict criterion latest).deterministic = isDeterministicCriterion criterion := by
  cases latest with
  | none => rfl
  | some e => cases outcome : e.outcome <;> simp [greenVerdict, outcome]

theorem redVerdict_deterministic (flips : JsString → Option JsString) (verdict : CriterionVerdict)
    (red : Option Evidence) :
    (redVerdict flips verdict red).deterministic = verdict.deterministic := by
  unfold redVerdict
  split
  · rfl
  · split
    · split <;> rfl
    · split <;> rfl
    · rfl

theorem verdictOn_deterministic (property : DesiredProperty) (evidence : List Evidence)
    (options : EvaluationOptions) (criterion : AcceptanceCriterion) :
    (verdictOn property evidence options criterion).deterministic =
      isDeterministicCriterion criterion := by
  rw [verdictOn]
  rcases criterionVerdict_cases options (latestGreen property evidence)
    (latestBase property evidence options) criterion with ⟨-, shape⟩ | ⟨-, shape⟩
  · rw [shape, redVerdict_deterministic, greenVerdict_deterministic]
  · rw [shape, greenVerdict_deterministic]

/-- Verdicts lead to satisfaction without the flag when all pass and one of them is
deterministic. -/
theorem concludeProperty_firm_iff (property : DesiredProperty) (options : EvaluationOptions)
    (used : List JsString) (verdicts : List CriterionVerdict) :
    ((concludeProperty property options used verdicts).status = .satisfied ∧
        (concludeProperty property options used verdicts).weakEvidence = false) ↔
      (∀ verdict ∈ verdicts, verdict.status = .pass) ∧
        ∃ verdict ∈ verdicts, verdict.deterministic = true := by
  have allPass : (∀ verdict ∈ verdicts, verdict.status = .pass) ↔
      verdicts.find? (fun v => v.status == .fail) = none ∧
      verdicts.find? (fun v => v.status == .indeterminate) = none ∧
      verdicts.find? (fun v => v.status == .unevaluated) = none := by
    simp only [List.find?_eq_none, ← forall_and]
    refine forall_congr' fun verdict => ?_
    cases verdict.status <;> simp
  rw [allPass]
  unfold concludeProperty
  cases failed : verdicts.find? fun v => v.status == .fail with
  | some _ => simp
  | none =>
      cases undecided : verdicts.find? fun v => v.status == .indeterminate with
      | some _ => simp
      | none =>
          cases missing : verdicts.find? fun v => v.status == .unevaluated with
          | some _ =>
              simp only [reduceCtorEq, and_false, false_and, iff_false, not_and]
              intro status
              split at status <;> cases status
          | none =>
              have passes : ∀ verdict ∈ verdicts, verdict.status = .pass :=
                allPass.mpr ⟨failed, undecided, missing⟩
              have proved : verdicts.any (fun v => v.status == .pass && v.deterministic) = true ↔
                  ∃ verdict ∈ verdicts, verdict.deterministic = true := by
                rw [List.any_eq_true]
                refine exists_congr fun verdict => and_congr_right fun member => ?_
                simp [passes verdict member]
              simp only [true_and]
              rw [← proved]
              cases verdicts.any fun v => v.status == .pass && v.deterministic with
              | true => simp
              | false =>
                  split <;> simp

end SpecAsCode.Verifier

namespace SpecAsCode.Runtime

open SpecAsCode.Js
open SpecAsCode.Schema
open SpecAsCode.Verifier

/-! ## One evaluation -/

section Evaluation

variable (property : DesiredProperty) (evidence : List Evidence) (options : EvaluationOptions)

/-- The property is satisfied and not flagged as weak. -/
def Firm : Prop :=
  (evaluateProperty property evidence options).status = .satisfied ∧
    (evaluateProperty property evidence options).weakEvidence = false

/-- A record that a command, a test or a look at a file made at run time. -/
def isCheckRecord (e : Evidence) : Bool :=
  isCheckKind e.kind && e.producer.type == .runtime

/-- A criterion is decided by the record of a check that supports it. -/
def ProvedByCheck : Prop :=
  ∃ criterion ∈ property.acceptance, ∃ e, NewestGreen property evidence criterion.id e ∧
    e.outcome = .supports ∧ isCheckRecord e = true

variable {property evidence options}

theorem firm_iff :
    Firm property evidence options ↔
      ¬ Waived property evidence ∧
      (∀ criterion ∈ property.acceptance, Passes property evidence options criterion) ∧
      ∃ criterion ∈ property.acceptance, isDeterministicCriterion criterion = true := by
  by_cases waived : Waived property evidence
  · rw [Firm, evaluateProperty_of_waiver options waived]
    simp [waived]
  · have verdicts : ∀ criterion, criterionVerdict options (latestGreen property evidence)
        (latestBase property evidence options) criterion = verdictOn property evidence options criterion :=
      fun _ => rfl
    rw [Firm, evaluateProperty_of_no_waiver options waived, concludeProperty_firm_iff,
      and_iff_right waived]
    refine and_congr ?_ ?_
    · simp only [List.forall_mem_map, verdicts, (verdictOn_iff _).2.1]
    · simp only [List.mem_map, exists_exists_and_eq_and, verdicts, verdictOn_deterministic]

/-- The newest records of a property without the flag include that of a check, unless every
criterion was decided by a person or a model. -/
theorem firm_provedByCheck_iff :
    (Firm property evidence options → ProvedByCheck property evidence) ↔
      Waived property evidence ∨
      (∃ criterion ∈ property.acceptance, ¬ Passes property evidence options criterion) ∨
      (∀ criterion ∈ property.acceptance, isDeterministicCriterion criterion = false) ∨
      ∃ criterion ∈ property.acceptance, ∃ e, NewestGreen property evidence criterion.id e ∧
        isCheckRecord e = true := by
  rw [firm_iff]
  constructor
  · intro proved
    by_contra condition
    simp only [not_or, not_exists, not_and, not_not, not_forall] at condition
    obtain ⟨unwaived, passes, ⟨criterion, listed, deterministic⟩, unchecked⟩ := condition
    obtain ⟨decided, member, e, newest, -, check⟩ := proved
      ⟨unwaived, passes, criterion, listed, by simpa using deterministic⟩
    exact unchecked decided member e newest check
  · rintro (waived | ⟨criterion, listed, fails⟩ | judged | ⟨criterion, listed, e, newest, check⟩)
      ⟨unwaived, passes, decided, member, deterministic⟩
    · exact absurd waived unwaived
    · exact absurd (passes criterion listed) fails
    · rw [judged decided member] at deterministic
      cases deterministic
    · obtain ⟨⟨other, otherNewest, supports⟩, -⟩ := passes criterion listed
      have same : other = e := Newest.unique otherNewest newest
      exact ⟨criterion, listed, e, newest, same ▸ supports, check⟩

end Evaluation

/-! ## Runs -/

/-- No answer confirms a criterion of a deterministic type. -/
def ConfirmsJudgement (records : RunRecords) : RunOp → Prop
  | .resolve _ options => ∀ followup criterionId property,
      records.followups.withId options.followupId = some followup → followup.status = .opened →
      followupTarget options followup = some (criterionId, property) →
      options.optionId = some (js "confirm") →
      ∀ criterion ∈ property.acceptance, criterion.id = criterionId →
        isDeterministicCriterion criterion = false
  | _ => True

/-- Criteria of deterministic types are supported by checks, or by a waiver. -/
def ChecksProve (spec : List DesiredProperty) (records : RunRecords) : Prop :=
  ∀ property ∈ spec, ∀ criterion ∈ property.acceptance, isDeterministicCriterion criterion = true →
    ∀ e ∈ records.all, property.id ∈ e.propertyRefs → e.criterionId = some criterion.id →
      e.outcome = .supports → isCheckRecord e = true ∨ isWaiver e = true

/-- An option that supports is a waiver or a confirmation. -/
theorem humanOutcome_supports {optionId : Option JsString}
    (supports : humanOutcome optionId = .supports) :
    optionId = some (js "waive") ∨ optionId = some (js "confirm") := by
  rw [humanOutcome] at supports
  split at supports
  · exact Or.inl ‹_›
  split at supports
  · cases supports
  split at supports
  · exact Or.inr ‹_›
  · cases supports

section Runs

variable {sha256Hex : JsString → JsString}

/-- One step keeps the criteria of deterministic types to checks and waivers. -/
theorem checksProve_act {spec : List DesiredProperty} (wellIdentified : WellIdentified spec)
    {records : RunRecords} {op : RunOp} (follows : op.Follows spec)
    (confirms : ConfirmsJudgement records op) (proved : ChecksProve spec records) :
    ChecksProve spec (op.act sha256Hex records) := by
  intro property listed criterion member deterministic e found refers named supports
  obtain ⟨added, all, origins⟩ := @act_origin sha256Hex spec op follows records
  rw [all] at found
  rcases List.mem_append.mp found with old | new
  · exact proved property listed criterion member deterministic e old refers named supports
  · cases origins e new with
    | check input part normal checked swept fromSpec normalized inNormal made =>
        obtain ⟨source, inPart, same⟩ := exists_source normalized.acceptance inNormal
        rw [made.propertyRefs, List.mem_singleton, normalized.id] at refers
        rw [made.criterionId, Option.some.injEq, same.id_eq] at named
        have one := wellIdentified.criterion_eq listed member fromSpec inPart refers.symm named
        have check := made.deterministic (by rw [same.isDeterministic_eq, one, deterministic])
        left
        rw [isCheckRecord, check.1, check.2]
        rfl
    | answer surroundings options followup criterionId other resolved known stored isOpen target made =>
        subst resolved
        rw [made.outcome] at supports
        rcases humanOutcome_supports supports with waived | confirmed
        · exact Or.inr (made.waiver.mpr waived)
        · rw [made.propertyRefs, List.mem_singleton] at refers
          rw [made.criterionId, Option.some.injEq] at named
          have same : other = property := eq_of_map_nodup wellIdentified.properties
            (known (mem_of_followupTarget target)) listed refers.symm
          subst same
          have judged := confirms followup criterionId other stored isOpen target confirmed criterion
            member named.symm
          rw [deterministic] at judged
          cases judged
    | task unnamed =>
        rw [unnamed] at named
        cases named

end Runs

/-- When a property without the weak-evidence flag rests on a check: for every list of
evidence, and along every run in which no answer confirms a criterion of a deterministic
type. -/
theorem firm_satisfaction (sha256Hex : JsString → JsString) :
    (∀ property evidence options,
      (Firm property evidence options → ProvedByCheck property evidence) ↔
        Waived property evidence ∨
        (∃ criterion ∈ property.acceptance, ¬ Passes property evidence options criterion) ∨
        (∀ criterion ∈ property.acceptance, isDeterministicCriterion criterion = false) ∨
        ∃ criterion ∈ property.acceptance, ∃ e, NewestGreen property evidence criterion.id e ∧
          isCheckRecord e = true) ∧
    (∀ spec ops, WellIdentified spec →
      History.EveryStep (RunOp.act sha256Hex)
        (fun records op => op.Follows spec ∧ ConfirmsJudgement records op) ops RunRecords.fresh →
      ∀ property ∈ spec, ∀ options, Firm property (recordsAfter sha256Hex ops).all options →
        ProvedByCheck property (recordsAfter sha256Hex ops).all) := by
  refine ⟨fun _ _ _ => firm_provedByCheck_iff, ?_⟩
  intro spec ops wellIdentified steps property listed options firm
  have proved : ChecksProve spec (recordsAfter sha256Hex ops) :=
    steps.invariant (by simp [ChecksProve]) fun records op holds inv =>
      checksProve_act wellIdentified holds.1 holds.2 inv
  obtain ⟨unwaived, passes, criterion, member, deterministic⟩ := firm_iff.mp firm
  obtain ⟨⟨e, newest, supports⟩, -⟩ := passes criterion member
  have kept := List.mem_filter.mp newest.mem
  have relevant := List.mem_filter.mp kept.1
  rcases proved property listed criterion member deterministic e relevant.1
    (by simpa using relevant.2) newest.named supports with check | waiver
  · exact ⟨criterion, member, e, newest, supports, check⟩
  · exact absurd ⟨e, kept.1, waiver⟩ unwaived

/-- A property with one command criterion. -/
def commandProperty : DesiredProperty :=
  { id := js "P-1", statement := js "holds", priority := .must, dependsOn := []
    acceptance := [.command (js "A-1") (js "check") none none none] }

/-- A command that the policy refuses. -/
def refusedRun : CommandRunResult :=
  { exitedRun 1 with exitCode := none, allowed := false, deniedReason := some (js "denied") }

/-- Surroundings in which every command is refused. -/
def refusingSurroundings : Surroundings :=
  { stillSurroundings 1 with
    observe := fun _ =>
      { command := ⟨refusedRun, ⟨js "execution", false, js "run-1"⟩, refusedRun, js "execution"⟩
        file := ⟨false, none, JsNumber.ofNat 0⟩
        agent := ⟨none, false⟩ } }

/-- The answer `option` to the first follow-up of a run over some properties. -/
def answerFirstFollowup (properties : List DesiredProperty) (option : JsString) :
    ResolveFollowupOptions :=
  { runId := js "run-1", followupId := js "F-001", optionId := some option, note := none
    resolvedBy := none, properties, allowAgentOnlyMustRequirements := false }

/-- The command is refused, and a person confirms the investigation of that. -/
def confirmedInvestigation : List RunOp :=
  [.sweep refusingSurroundings (standaloneSweep [commandProperty]),
    .resolve (stillSurroundings 1) (answerFirstFollowup [commandProperty] (js "confirm"))]

/-- The options of a plain evaluation. -/
def plainEvaluation : EvaluationOptions :=
  { allowAgentOnly := false, inProgressPropertyIds := [], now := js "t", requireRedPhase := false
    inheritedFlips := fun _ => none }

/-- The confirmed investigation satisfies the property without the flag, and no check ever
supported it. -/
theorem not_firm_provedByCheck :
    Firm commandProperty (recordsAfter lengthHash confirmedInvestigation).all plainEvaluation ∧
      ¬ ProvedByCheck commandProperty (recordsAfter lengthHash confirmedInvestigation).all := by
  constructor
  · constructor
    · decide +kernel
    · decide +kernel
  · rintro ⟨criterion, listed, e, newest, -, check⟩
    rw [List.mem_singleton.mp listed, NewestGreen, ← latestByCriterion_eq_some] at newest
    have judged : (latestByCriterion ((relevantEvidence commandProperty
        (recordsAfter lengthHash confirmedInvestigation).all).filter fun e => !e.red)
        (js "A-1")).map isCheckRecord = some false := by
      decide +kernel
    rw [show AcceptanceCriterion.id _ = js "A-1" from rfl] at newest
    rw [newest, Option.map_some, check] at judged
    cases judged

end SpecAsCode.Runtime
